import OpenMul.Core.MatchFlows
import OpenMul.Core.OwnerInvariant
import OpenMul.Core.VirtualTables

namespace OpenMul

open Lib

/-- The entries `__c_flow_lookup_rule` passes over. -/
def lookupSkips (matchResidual : Bool) (ent : FlEntry) : Bool :=
  (!matchResidual && hasFlag ent.flags flEntResidual) ||
    (matchResidual && hasFlag ent.flags flEntLocal)

/-- `__c_flow_lookup_rule`. -/
def flowLookupRule (fl : Flow) (matchResidual : Bool) : List FlEntry → Option FlEntry
  | [] => none
  | ent :: rest =>
    if lookupSkips matchResidual ent then flowLookupRule fl matchResidual rest
    else if ofMatchFlows fl ent.flMask ent.fl then some ent
    else flowLookupRule fl matchResidual rest

/-- The `rule_fl_tbl` of a table behind the last one: `rule_flow_tbls` is followed by
`xphys_map_tbl`, and the list head is at byte 32 of a table. -/
def headPastTables (xphysMapTbl : Byte → Byte) : List Byte :=
  [32, 33, 34, 35, 36, 37, 38, 39].map xphysMapTbl

/-- `c_do_flow_lookup_slow`. The table number is not checked: number 255 takes the bytes
behind the tables for a list, which is empty if they are zero; else the call follows
table numbers as an address and has no result. -/
def doFlowLookupSlow (sw : Switch) (xphysMapTbl : Byte → Byte) (fl : Flow) (matchResidual : Bool) :
    Option (Option FlEntry) :=
  let table := fl.tableId.toNat
  if table < maxRuleFlowTbls then some (flowLookupRule fl matchResidual (sw.rules table))
  else if (headPastTables xphysMapTbl).all (· == 0) then some none
  else none

/-- An entry the lookup may return for a packet. -/
def Candidate (fl : Flow) (matchResidual : Bool) (ent : FlEntry) : Prop :=
  (if matchResidual then hasFlag ent.flags flEntLocal = false
    else hasFlag ent.flags flEntResidual = false) ∧
  ofMatchFlows fl ent.flMask ent.fl = true

/-- `NULL` exactly without a candidate, else a candidate of the best priority. -/
structure BestRule (rules : List FlEntry) (fl : Flow) (matchResidual : Bool)
    (found : Option FlEntry) : Prop where
  null_iff : found = none ↔ ∀ ent ∈ rules, ¬ Candidate fl matchResidual ent
  best : ∀ ent, found = some ent → ent ∈ rules ∧ Candidate fl matchResidual ent ∧
    ∀ other ∈ rules, Candidate fl matchResidual other → other.prio ≤ ent.prio

def isCandidate (fl : Flow) (matchResidual : Bool) (ent : FlEntry) : Bool :=
  !lookupSkips matchResidual ent && ofMatchFlows fl ent.flMask ent.fl

variable (fl : Flow) (matchResidual : Bool)

theorem isCandidate_iff (ent : FlEntry) :
    isCandidate fl matchResidual ent = true ↔ Candidate fl matchResidual ent := by
  cases matchResidual <;> simp [isCandidate, Candidate, lookupSkips]

theorem flowLookupRule_eq_find? (rules : List FlEntry) :
    flowLookupRule fl matchResidual rules = rules.find? (isCandidate fl matchResidual) := by
  induction rules with
  | nil => rfl
  | cons ent rest ih =>
    cases skipped : lookupSkips matchResidual ent <;>
      cases matched : ofMatchFlows fl ent.flMask ent.fl <;>
      simp [flowLookupRule, isCandidate, skipped, matched, ih]

theorem flowLookupRule_best
    (sorted : rules.Pairwise fun earlier later => later.prio.toNat ≤ earlier.prio.toNat) :
    BestRule rules fl matchResidual (flowLookupRule fl matchResidual rules) := by
  rw [flowLookupRule_eq_find?]
  constructor
  · rw [List.find?_eq_none]
    exact forall₂_congr fun ent _ => not_congr (isCandidate_iff fl matchResidual ent)
  · intro ent found
    refine ⟨List.mem_of_find?_eq_some found, (isCandidate_iff ..).mp (List.find?_some found), ?_⟩
    intro other member candidate
    apply le_of_find?_sorted (fun ent : FlEntry => ent.prio.toNat) _ rules sorted found member
    exact (isCandidate_iff ..).mpr candidate

/-- There are no rules behind the last table. -/
theorem rules_past_tables {sw : Switch} (reached : switchRuns.Reaches sw)
    (past : ¬table < maxRuleFlowTbls) : sw.rules table = [] := by
  apply List.eq_nil_iff_forall_not_mem.mpr
  intro ent member
  exact past (reaches_table_lt reached member)

/-- The lookup answers with a best rule exactly when the table number is below 255, or
the map has no table in its slots 32 to 39 (or table 0 only). -/
theorem doFlowLookupSlow_best_iff {sw : Switch} (reached : switchRuns.Reaches sw)
    (xphysMapTbl : Byte → Byte) (fl : Flow) (matchResidual : Bool) :
    (∃ found, doFlowLookupSlow sw xphysMapTbl fl matchResidual = some found ∧
        BestRule (sw.rules fl.tableId.toNat) fl matchResidual found) ↔
      fl.tableId.toNat < maxRuleFlowTbls ∨ ∀ byte ∈ headPastTables xphysMapTbl, byte = 0 := by
  unfold doFlowLookupSlow
  by_cases inside : fl.tableId.toNat < maxRuleFlowTbls
  · refine iff_of_true ⟨_, if_pos inside, ?_⟩ (.inl inside)
    have ordered := reaches_ordered reached fl.tableId.toNat
    exact flowLookupRule_best fl matchResidual (List.pairwise_map.mp ordered.sorted)
  · simp only [if_neg inside, rules_past_tables reached inside, List.all_eq_true, beq_iff_eq]
    by_cases zero : ∀ byte ∈ headPastTables xphysMapTbl, byte = 0
    · refine iff_of_true ⟨none, if_pos zero, ?_⟩ (.inr zero)
      exact flowLookupRule_best fl matchResidual .nil
    · refine iff_of_false ?_ (not_or.mpr ⟨inside, zero⟩)
      rintro ⟨found, answer, -⟩
      rw [if_neg zero] at answer
      cases answer

/-- Two rules for port 4 under different priorities: the lookup answers with a
best one. -/
theorem doFlowLookupSlow_best_two_rules :
    let rule (prio : BitVec 16) : FlowModParams :=
      { appOwner := 7, prio, flow := { inPort := 4 }, mask := { inPort := 0xffffffff } }
    let sw := switchRuns.execAll (bootSwitch .of131) [.flowAdd (rule 1) 0, .flowAdd (rule 2) 0]
    ∃ found, doFlowLookupSlow sw (fun _ => 0) { inPort := 4 } false = some found ∧
      BestRule (sw.rules 0) { inPort := 4 } false found ∧ found.map FlEntry.prio = some 2 := by
  intro rule sw
  have reached : switchRuns.Reaches sw := reaches_boot .of131 _ ⟨trivial, trivial, trivial⟩
  obtain ⟨found, answer, best⟩ :=
    (doFlowLookupSlow_best_iff reached (fun _ => 0) { inPort := 4 } false).mpr (.inl (by decide))
  refine ⟨found, answer, best, ?_⟩
  have first :
      (doFlowLookupSlow sw (fun _ => 0) { inPort := 4 } false).map (Option.map FlEntry.prio) =
      some (some 2) := by decide
  rw [answer] at first
  exact Option.some.inj first

/-- The tables 0 to 32 are active when the switch is published, so table 32 is in slot 32
of the map, and a lookup in table 255 has no result. -/
theorem doFlowLookupSlow_past_tables :
    let tables := tableRuns.execAll { ofpCtors := .of131 } [.features 33,
      .tableFeatures ((List.range 33).map (BitVec.ofNat 8)) true fun _ => 0, .portDesc 1 true]
    let map : Byte → Byte := fun slot => BitVec.ofNat 8 (tables.xphysMapTbl slot.toNat)
    tableRuns.Reaches tables ∧ switchRuns.Reaches (bootSwitch .of131) ∧ map 32 = 32 ∧
      ¬ ∃ found, doFlowLookupSlow (bootSwitch .of131) map { tableId := 255 } false = some found ∧
        BestRule ((bootSwitch .of131).rules 255) { tableId := 255 } false found := by
  intro tables map
  have slot : map 32 = 32 := by decide +kernel
  refine ⟨?_, reaches_boot .of131 [] trivial, slot, ?_⟩
  · apply Machine.Reaches.execAll
    · exact .start ⟨rfl, rfl, rfl, rfl, rfl⟩
    · exact ⟨trivial, trivial, trivial, trivial⟩
  · rintro ⟨found, answer, -⟩
    have zero : (∀ byte ∈ headPastTables map, byte = 0) ∧ none = found := by
      simpa [doFlowLookupSlow, maxRuleFlowTbls] using answer
    exact absurd (slot.symm.trans (zero.1 _ List.mem_cons_self)) (by decide)

end OpenMul
