import OpenMul.Core.Sweep

namespace OpenMul

open Lib RefTable List

/-- What an add compares: flow, mask without `pad`, priority. -/
def FlEntry.ruleKey (ent : FlEntry) : Flow × Flow × BitVec 16 :=
  (ent.fl, ent.flMask.sansPad, ent.prio)

def FlowModParams.ruleKey (p : FlowModParams) : Flow × Flow × BitVec 16 :=
  (p.flow, p.mask.sansPad, p.prio)

theorem sameRule_iff (fl mask : Flow) (prio : BitVec 16) (ent : FlEntry) :
    sameRule fl mask prio ent = true ↔ ent.ruleKey = (fl, mask.sansPad, prio) := by
  simp [sameRule, FlEntry.ruleKey, and_assoc]

def Switch.ruleKeys (sw : Switch) (table : Nat) : List (Flow × Flow × BitVec 16) :=
  (sw.rules table).map FlEntry.ruleKey

/-- An entry keeps its rule through every change in place. -/
@[simp] theorem ruleKey_ownedEntry (ent : FlEntry) (p : FlowModParams) :
    (ownedEntry ent p).ruleKey = ent.ruleKey := by
  unfold ownedEntry
  split <;> rfl

@[simp] theorem ruleKey_modEntry (ent : FlEntry) (p : FlowModParams) (grps mets : List Nat)
    (now : Nat) : (modEntry ent p grps mets now).ruleKey = ent.ruleKey :=
  ruleKey_ownedEntry ent p

@[simp] theorem ruleKey_flowAddAppOwner (appRef : App → Int) (ent : FlEntry) (app : App) :
    (flowAddAppOwner appRef ent app).2.ruleKey = ent.ruleKey := by
  unfold flowAddAppOwner flowAddAppOwnerLocked
  split <;> rfl

@[simp] theorem ruleKey_appPerFlowStale (appCookie : BitVec 32) (now : Nat) (ent : FlEntry) :
    (appPerFlowStale appCookie now ent).ruleKey = ent.ruleKey := by
  unfold appPerFlowStale
  split
  · rfl
  · split <;> rfl

@[simp] theorem ruleKey_addedEntry (sw : Switch) (p : FlowModParams) (grps mets : List Nat)
    (now : Nat) :
    (addedEntry sw p grps mets now).ruleKey = p.ruleKey := rfl

theorem keys_replaced {sw : Switch} {test : FlEntry → Bool} {table : Nat}
    {before after : List FlEntry} {ent changed : FlEntry}
    (found : FirstAt test (sw.rules table) before ent after) (same : changed.ruleKey = ent.ruleKey)
    (query : Nat) :
    ((sw.setRules table (before ++ changed :: after)).rules query).map FlEntry.ruleKey =
      sw.ruleKeys query := by
  rw [Switch.rules_setRules]
  by_cases here : query = table
  · subst query
    simp [Switch.ruleKeys, found.split, same]
  · simp [here, Switch.ruleKeys]

private theorem keys_filterMap
    (keys : ∀ ent kept, keep ent = some kept → kept.ruleKey = ent.ruleKey) (list : List FlEntry) :
    ((list.filterMap keep).map FlEntry.ruleKey).Sublist (list.map FlEntry.ruleKey) := by
  induction list with
  | nil => simp
  | cons ent rest ih =>
    cases kept : keep ent with
    | none => simpa [kept] using ih.cons _
    | some changed => simpa [kept, keys ent changed kept] using ih

/-- One fresh entry was linked into its table by the add. -/
structure Linked (sw next : Switch) (p : FlowModParams) : Prop where
  fresh : ∀ ent ∈ sw.rules (tableOf p), sameRule p.flow p.mask p.prio ent = false
  linked : ∃ ent, ent.ruleKey = p.ruleKey ∧ next.rules (tableOf p) =
    insertBefore (sw.rules (tableOf p))
      (firstAtMost (fun ent => ent.prio.toNat) p.prio.toNat (sw.rules (tableOf p))) ent
  others : ∀ table, table ≠ tableOf p → next.rules table = sw.rules table

theorem flowRuleAdd_keys (sw : Switch) (p : FlowModParams) (now : Nat) :
    (∀ table, (flowRuleAdd sw p now).1.ruleKeys table = sw.ruleKeys table) ∨
      Linked sw (flowRuleAdd sw p now).1 p := by
  have outcome := @flowRuleAdd_outcome sw p now
  generalize flowRuleAdd sw p now = result at outcome ⊢
  cases outcome with
  | invalid | refused | unresolved => exact .inl fun _ => rfl
  | shared _ found => exact .inl (keys_replaced found (ruleKey_flowAddAppOwner ..))
  | existing _ found | dropped _ found => exact .inl (keys_replaced found rfl)
  | missing _ found => exact .inl (keys_replaced found (ruleKey_ownedEntry ..))
  | modified _ found => exact .inl (keys_replaced found (ruleKey_modEntry ..))
  | @inserted grps mets _ fresh =>
    refine .inr ⟨fresh, ⟨addedEntry sw p grps mets now, rfl, ?_⟩, ?_⟩
    · simp [Switch.rules]
    · intro table other
      simp [Switch.rules, other]

private theorem flowRuleDel_keys (sw : Switch) (p : FlowModParams) (table : Nat) :
    ((flowRuleDel sw p).1.ruleKeys table).Sublist (sw.ruleKeys table) := by
  have outcome := @flowRuleDel_outcome sw p
  generalize flowRuleDel sw p = result at outcome ⊢
  cases outcome with
  | invalid | missing => exact .refl _
  | @kept before ent after _ found =>
    have same :=
      @keys_replaced sw _ _ before after ent (withoutOwner p.appOwner ent) found rfl table
    exact (show Switch.ruleKeys _ table = _ from same) ▸ .refl _
  | @removed before ent after _ found =>
    by_cases here : table = tableOf p
    · subst table
      have split := found.split
      simp only [Switch.rules] at split
      simp [Switch.ruleKeys, Switch.rules, split]
    · simp [Switch.ruleKeys, Switch.rules, here]

theorem keepOwned_key (app : App) (ent kept : FlEntry) (keeps : keepOwned app ent = some kept) :
    kept.ruleKey = ent.ruleKey := by
  obtain rfl | ⟨-, -, rfl⟩ := keepOwned_cases keeps
  · rfl
  · rfl

private theorem swept_keys
    (keys : ∀ ent kept, keep ent = some kept → kept.ruleKey = ent.ruleKey) (sw : Switch)
    (tables : List Nat) (appRef : App → Int) (table : Nat) :
    ((swept keep msgs sw tables appRef).ruleKeys table).Sublist (sw.ruleKeys table) := by
  unfold Switch.ruleKeys
  rw [rules_swept]
  split
  · exact keys_filterMap keys _
  · exact .refl _

/-- Requests that reach no rule table. -/
def Op.offTables : Op → Bool
  | .groupAdd .. | .groupDel _ | .meterAdd .. | .meterDel _ | .appRegister _ => true
  | _ => false

/-- They change the groups, the meters or the applications, and send no flow-mod. -/
theorem exec_offTables_eq (sw : Switch) {op : Op} (off : op.offTables = true) :
    ∃ groups meters lock appRef appList msgs,
      exec sw op = { sw with groups, meters, lock, appRef, appList, txQ := sw.txQ ++ msgs } ∧
        msgs.filterMap OfpMsg.flowMod? = [] ∧
          (appList = sw.appList ∨ ∃ app, op = .appRegister app) := by
  cases op with
  | groupAdd p ptr now =>
    obtain ⟨groups, -, lock, appRef, msgs, next, quiet⟩ := groupAdd_outcome sw p ptr now
    exact ⟨groups, _, lock, appRef, _, msgs, next, quiet, .inl rfl⟩
  | groupDel p =>
    obtain ⟨groups, -, lock, appRef, msgs, next, quiet⟩ := groupDel_outcome sw p
    exact ⟨groups, _, lock, appRef, _, msgs, next, quiet, .inl rfl⟩
  | meterAdd p ptr now =>
    obtain ⟨meters, -, lock, appRef, msgs, next, quiet⟩ := meterAdd_outcome sw p ptr now
    exact ⟨_, meters, lock, appRef, _, msgs, next, quiet, .inl rfl⟩
  | meterDel p =>
    obtain ⟨meters, -, lock, appRef, msgs, next, quiet⟩ := meterDel_outcome sw p
    exact ⟨_, meters, lock, appRef, _, msgs, next, quiet, .inl rfl⟩
  | appRegister app =>
    rw [exec, perSwitchAppRegister]
    split
    · exact ⟨_, _, false, _, _, [], by rw [append_nil], rfl, .inr ⟨app, rfl⟩⟩
    · exact ⟨_, _, false, _, _, [], by rw [append_nil], rfl, .inr ⟨app, rfl⟩⟩
  | flowAdd | flowDel | appUnregister | flowStale | tblReset | tblDelete => cases off

theorem exec_offTables (sw : Switch) {op : Op} (off : op.offTables = true) :
    (exec sw op).ruleFlowTbls = sw.ruleFlowTbls := by
  obtain ⟨_, _, _, _, _, _, next, -⟩ := exec_offTables_eq sw off
  rw [next]

/-- A request drops rules and keeps the order of the rest, or links one fresh entry. -/
theorem exec_ruleKeys (sw : Switch) (op : Op) :
    (∀ table, ((exec sw op).ruleKeys table).Sublist (sw.ruleKeys table)) ∨ ∃ p, Linked sw
    (exec sw op) p := by
  cases op with
  | flowAdd p now =>
    rcases flowRuleAdd_keys sw p now with same | linked
    · exact .inl fun table => same table ▸ .refl _
    · exact .inr ⟨p, linked⟩
  | flowDel p => exact .inl (flowRuleDel_keys sw p)
  | groupAdd | groupDel | meterAdd | meterDel | appRegister =>
    refine .inl fun table => ?_
    rw [Switch.ruleKeys, Switch.rules, exec_offTables sw rfl]
    exact .refl _
  | appUnregister app =>
    obtain ⟨appRef, eq⟩ := delAppFlowOwner_eq sw app
    refine .inl fun table => ?_
    have keys := @swept_keys _ (sweepMsgs sw.ofpCtors sw.master) (keepOwned_key app) sw
      (range maxRuleFlowTbls) appRef table
    simp only [exec, perSwitchAppUnregister, delMeterWithOwner, delGroupWithOwner, eq]
    split <;> exact keys
  | flowStale appCookie now =>
    refine .inl fun table => ?_
    by_cases swept : table < maxRuleFlowTbls <;>
      simp [exec, appFlowStale, Switch.ruleKeys, Switch.rules, swept, Function.comp_def]
  | tblReset | tblDelete =>
    obtain ⟨appRef, eq⟩ := flowTblClear_eq sw
    refine .inl fun table => ?_
    simp only [exec, switchFlowTblReset, switchFlowTblDelete, eq]
    exact @swept_keys _ (fun _ => []) (by simp) sw (range maxRuleFlowTbls) appRef table

/-- A table's keys in non-increasing priority, each at most once. -/
structure Ordered (keys : List (Flow × Flow × BitVec 16)) : Prop where
  sorted : keys.Pairwise fun earlier later => later.2.2.toNat ≤ earlier.2.2.toNat
  nodup : keys.Nodup

theorem Ordered.sublist {keys : List (Flow × Flow × BitVec 16)} (ordered : Ordered keys)
    (sub : shorter.Sublist keys) : Ordered shorter :=
  ⟨ordered.sorted.sublist sub, ordered.nodup.sublist sub⟩

theorem Linked.ordered {sw next : Switch} (link : Linked sw next p)
    (ordered : ∀ table, Ordered (sw.ruleKeys table)) (table : Nat) :
    Ordered (next.ruleKeys table) := by
  by_cases here : table = tableOf p
  · subst table
    obtain ⟨ent, key, rules⟩ := link.linked
    have prio : ent.prio = p.prio := congrArg (fun key => key.2.2) key
    have absent : ent.ruleKey ∉ sw.ruleKeys (tableOf p) := by
      intro member
      obtain ⟨other, present, same⟩ := mem_map.mp member
      have equal := (sameRule_iff p.flow p.mask p.prio other).mpr (same.trans key)
      rw [link.fresh other present] at equal
      cases equal
    constructor
    · have sorted : (sw.rules (tableOf p)).Pairwise
          fun earlier later => later.prio.toNat ≤ earlier.prio.toNat :=
        pairwise_map.mp (ordered (tableOf p)).sorted
      have inserted := sorted_insertBefore_firstAtMost (fun ent => ent.prio.toNat) ent _ sorted
      simp only [prio] at inserted
      rw [Switch.ruleKeys, rules]
      exact pairwise_map.mpr inserted
    · rw [Switch.ruleKeys, rules, map_insertBefore]
      rw [(insertBefore_perm _ _ _).nodup_iff]
      exact nodup_cons.mpr ⟨absent, (ordered (tableOf p)).nodup⟩
  · rw [Switch.ruleKeys, link.others table here]
    exact ordered table

section

variable {sw : Switch} (reached : switchRuns.Reaches sw)
include reached

theorem reaches_ordered (table : Nat) : Ordered (sw.ruleKeys table) := by
  refine Machine.Reaches.invariant (fun sw => ∀ table, Ordered (sw.ruleKeys table)) ?_ ?_
    reached table
  · rintro sw ⟨tables, -⟩ table
    rw [Switch.ruleKeys, Switch.rules, tables]
    exact ⟨.nil, .nil⟩
  · intro sw op _ ordered _ table
    rcases exec_ruleKeys sw op with shorter | ⟨p, link⟩
    · exact (ordered table).sublist (shorter table)
    · exact link.ordered ordered table

theorem reaches_tableId (member : ent ∈ sw.rules table) : ent.fl.tableId.toNat = table := by
  refine Machine.Reaches.invariant
    (fun sw => ∀ table, ∀ key ∈ sw.ruleKeys table, key.1.tableId.toNat = table) ?_ ?_ reached table
    ent.ruleKey (mem_map_of_mem member)
  · rintro sw ⟨tables, -⟩ table key member
    simp [Switch.ruleKeys, Switch.rules, tables] at member
  · intro sw op _ named _ table key member
    rcases exec_ruleKeys sw op with shorter | ⟨p, link⟩
    · exact named table key ((shorter table).subset member)
    · by_cases here : table = tableOf p
      · subst table
        obtain ⟨ent, same, rules⟩ := link.linked
        change key ∈ ((exec sw op).rules (tableOf p)).map FlEntry.ruleKey at member
        rw [rules, map_insertBefore, mem_insertBefore] at member
        rcases member with rfl | earlier
        · rw [same]
          rfl
        · exact named _ key earlier
      · change key ∈ ((exec sw op).rules table).map FlEntry.ruleKey at member
        rw [link.others table here] at member
        exact named table key member

theorem reaches_allKeys_nodup : (sw.allRules.map FlEntry.ruleKey).Nodup := by
  rw [Switch.allRules, map_flatMap, nodup_flatMap]
  refine ⟨fun table _ => (reaches_ordered reached table).nodup, ?_⟩
  apply nodup_range.imp
  intro first second different key one two
  obtain ⟨ent, present, rfl⟩ := mem_map.mp one
  obtain ⟨other, elsewhere, same⟩ := mem_map.mp two
  have flows : other.fl = ent.fl := congrArg Prod.fst same
  apply different
  rw [← reaches_tableId reached present, ← reaches_tableId reached elsewhere, flows]

end

/-- In every reachable state each rule table is sorted by priority and has no rule twice. -/
theorem ruleTable_sorted_distinct {sw : Switch} (reached : switchRuns.Reaches sw) (table : Nat) :
    (sw.rules table).Pairwise fun earlier later =>
      later.prio ≤ earlier.prio ∧ sameRule later.fl later.flMask later.prio earlier = false := by
  obtain ⟨sorted, nodup⟩ := reaches_ordered reached table
  apply (pairwise_map.mp sorted).and (pairwise_map.mp nodup) |>.imp
  rintro earlier later ⟨low, different⟩
  refine ⟨BitVec.le_def.mpr low, ?_⟩
  rw [Bool.eq_false_iff]
  exact fun same => different ((sameRule_iff ..).mp same)

/-- Two adds in rising priority: the later one is linked in front. -/
theorem ruleTable_sorted_distinct_two_adds :
    let sw := switchRuns.execAll (bootSwitch .of131)
      [.flowAdd { appOwner := 7, prio := 1 } 0, .flowAdd { appOwner := 7, prio := 2 } 0]
    (sw.rules 0).map FlEntry.prio = [2, 1] ∧
      (sw.rules 0).Pairwise fun earlier later =>
        later.prio ≤ earlier.prio ∧ sameRule later.fl later.flMask later.prio earlier = false := by
  intro sw
  have reached : switchRuns.Reaches sw := reaches_boot .of131 _ ⟨trivial, trivial, trivial⟩
  exact ⟨by decide, ruleTable_sorted_distinct reached 0⟩

end OpenMul
