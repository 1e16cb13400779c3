import OpenMul.Core.RefInvariant

namespace OpenMul

open Lib RefTable

def Switch.activeEntries (sw : Switch) (table : Nat) : BitVec 32 :=
  (sw.ruleFlowTbls table).swActiveEntries

/-- Requests the counter follows. -/
def CountSafe (sw : Switch) : Op → Prop
  | .appUnregister app => ∀ ent ∈ sw.allRules, ent.appOwnerList ≠ [app]
  | .tblReset | .tblDelete => sw.allRules = []
  | .flowAdd p _ => (sw.rules (tableOf p)).length + 1 < 2 ^ 32
  | _ => True

/-- The counter of each table is its length. -/
def CountersExact (sw : Switch) : Prop :=
  ∀ table, (sw.activeEntries table).toNat = (sw.rules table).length

variable {sw : Switch}

private theorem one_toNat : (1 : BitVec 32).toNat = 1 := rfl

private theorem counted_replaced (counted : CountersExact sw)
    (found : FirstAt test (sw.rules table) before ent after) :
    CountersExact (sw.setRules table (before ++ changed :: after)) := by
  intro query
  have count := counted query
  by_cases here : query = table
  · subst query
    rw [found.split] at count
    simpa [Switch.activeEntries, Switch.rules, Switch.setRules] using count
  · simpa [Switch.activeEntries, Switch.rules, Switch.setRules, here] using count

private theorem counted_add (counted : CountersExact sw) (p : FlowModParams) (now : Nat)
    (small : (sw.rules (tableOf p)).length + 1 < 2 ^ 32) :
    CountersExact (flowRuleAdd sw p now).1 := by
  have outcome := @flowRuleAdd_outcome sw p now
  generalize flowRuleAdd sw p now = result at outcome ⊢
  cases outcome with
  | invalid | refused | unresolved => exact counted
  | shared _ found | existing _ found | dropped _ found | missing _ found | modified _ found =>
    exact counted_replaced counted found
  | inserted =>
    intro table
    have count := counted table
    by_cases here : table = tableOf p
    · subst table
      simp only [Switch.activeEntries, Switch.rules, Function.update_self,
        (insertBefore_perm _ _ _).length_eq, List.length_cons] at count small ⊢
      rw [BitVec.toNat_add, one_toNat]
      omega
    · simpa [Switch.activeEntries, Switch.rules, here] using count

private theorem counted_del (counted : CountersExact sw) (p : FlowModParams) :
    CountersExact (flowRuleDel sw p).1 := by
  have outcome := @flowRuleDel_outcome sw p
  generalize flowRuleDel sw p = result at outcome ⊢
  cases outcome with
  | invalid | missing => exact counted
  | kept _ found => exact counted_replaced counted found
  | @removed before ent after _ found =>
    intro table
    have count := counted table
    by_cases here : table = tableOf p
    · subst table
      rw [found.split] at count
      have bound := (sw.activeEntries (tableOf p)).isLt
      simp only [Switch.activeEntries, Switch.rules, Function.update_self, List.length_append,
        List.length_cons] at count bound ⊢
      rw [BitVec.toNat_sub, one_toNat]
      omega
    · simpa [Switch.activeEntries, Switch.rules, here] using count

private theorem length_filterMap_kept {list : List FlEntry} (kept : ∀ ent ∈ list, keep ent ≠ none) :
    (list.filterMap keep).length = list.length := by
  induction list with
  | nil => rfl
  | cons ent rest ih =>
    obtain ⟨next, eq⟩ := Option.ne_none_iff_exists'.mp (kept ent (by simp))
    simp [eq, ih fun other member => kept other (by simp [member])]

private theorem counted_swept
    (counted : CountersExact sw) (kept : ∀ ent ∈ sw.allRules, keep ent ≠ none)
    (appRef : App → Int) :
    CountersExact (swept keep msgs sw (List.range maxRuleFlowTbls) appRef) := by
  intro table
  have count := counted table
  have counter : (swept keep msgs sw (List.range maxRuleFlowTbls) appRef).activeEntries table =
      sw.activeEntries table := by
    unfold Switch.activeEntries swept sweptTbls
    dsimp only
    split <;> rfl
  rw [counter, rules_swept, count]
  split
  · rename_i inside
    refine (length_filterMap_kept fun ent member => kept ent ?_).symm
    exact mem_allRules.mpr ⟨table, List.mem_range.mp inside, member⟩
  · rfl

private theorem counted_exec (counted : CountersExact sw) (reached : switchRuns.Reaches sw)
    (safe : CountSafe sw op) : CountersExact (exec sw op) := by
  cases op with
  | flowAdd p now => exact counted_add counted p now safe
  | flowDel p => exact counted_del counted p
  | groupAdd | groupDel | meterAdd | meterDel | appRegister =>
    intro table
    rw [Switch.activeEntries, Switch.rules, exec_offTables sw rfl]
    exact counted table
  | appUnregister app =>
    obtain ⟨appRef, eq⟩ := delAppFlowOwner_eq sw app
    have kept : ∀ ent ∈ sw.allRules, keepOwned app ent ≠ none := by
      intro ent member gone
      obtain ⟨table, -, present⟩ := mem_allRules.mp member
      exact safe ent member ((keepOwned_none_iff (reaches_ownerOk reached present) app).mp gone)
    have swept := @counted_swept sw _ (sweepMsgs sw.ofpCtors sw.master) counted kept appRef
    simp only [exec, perSwitchAppUnregister, delMeterWithOwner, delGroupWithOwner, eq]
    split <;> exact swept
  | flowStale appCookie now =>
    intro table
    have count := counted table
    by_cases inside : table < maxRuleFlowTbls <;>
      simpa [exec, appFlowStale, Switch.activeEntries, Switch.rules, inside] using count
  | tblReset | tblDelete =>
    obtain ⟨appRef, eq⟩ := flowTblClear_eq sw
    have empty : sw.allRules = [] := safe
    have swept := @counted_swept sw (fun _ => none) (fun _ => []) counted (by simp [empty]) appRef
    simp only [exec, switchFlowTblReset, switchFlowTblDelete, eq]
    exact swept

/-- In every run of such requests `sw_active_entries` is the number of entries
of its table. -/
theorem activeEntries_eq_length {sw : Switch} (reached : (switchRuns.restrict CountSafe).Reaches sw)
    (table : Nat) : (sw.activeEntries table).toNat = (sw.rules table).length := by
  refine Machine.Reaches.invariant CountersExact ?_ ?_ reached table
  · rintro sw ⟨tables, -⟩ table
    simp [Switch.activeEntries, Switch.rules, tables]
  · intro sw op earlier counted admitted
    exact counted_exec counted earlier.of_restrict admitted.2

theorem activeEntries_eq_length_add_del :
    let sw := switchRuns.execAll (bootSwitch .of131)
      [.flowAdd { appOwner := 7, prio := 1 } 0, .flowAdd { appOwner := 7, prio := 2 } 0,
        .flowDel { appOwner := 7, prio := 1 }]
    (sw.rules 0).length = 1 ∧ (sw.activeEntries 0).toNat = (sw.rules 0).length := by
  intro sw
  have reached : (switchRuns.restrict CountSafe).Reaches sw :=
    @Machine.Reaches.execAll _ _ (switchRuns.restrict CountSafe) (bootSwitch .of131) _
      (.start ⟨rfl, rfl, rfl, rfl, rfl⟩)
      ⟨⟨trivial, by unfold CountSafe; decide⟩, ⟨trivial, by unfold CountSafe; decide⟩,
        ⟨trivial, trivial⟩, trivial⟩
  exact ⟨by decide, activeEntries_eq_length reached 0⟩

/-- The table is empty and its counter still says one. -/
theorem activeEntries_not_decremented :
    let sw := switchRuns.execAll (bootSwitch .of131) [.flowAdd { appOwner := 7 } 0]
    let left := exec sw (.appUnregister 7)
    let reset := exec sw .tblReset
    switchRuns.Reaches left ∧ left.rules 0 = [] ∧ left.activeEntries 0 = 1 ∧
      switchRuns.Reaches reset ∧ reset.rules 0 = [] ∧ reset.activeEntries 0 = 1 := by
  intro sw left reset
  have reached : switchRuns.Reaches sw := reaches_boot .of131 _ ⟨trivial, trivial⟩
  have stale : (left.rules 0 = [] ∧ left.activeEntries 0 = 1) ∧ reset.rules 0 = [] ∧
      reset.activeEntries 0 = 1 := by
    decide +kernel
  exact ⟨@Machine.Reaches.step _ _ switchRuns _ (.appUnregister 7) reached trivial, stale.1.1,
    stale.1.2, @Machine.Reaches.step _ _ switchRuns _ .tblReset reached trivial, stale.2⟩

end OpenMul
