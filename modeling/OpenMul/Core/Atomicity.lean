import OpenMul.Core.Outcome

namespace OpenMul

open Lib RefTable

/-- What a failed add must not change in an entry: all but the stale mark. -/
def FlEntry.snapshot (ent : FlEntry) :
    (Flow × Flow × BitVec 16) × (List App × Int) × List Byte × (List Nat × List Nat) × BitVec 64 :=
  ((ent.fl, ent.flMask, ent.prio), (ent.appOwnerList, ent.appRef), ent.actions,
    (ent.groups, ent.meters), clearFlag ent.flags flEntStale)

/-- The tables, the counts and the lock after a failed add. -/
structure Unchanged (sw next : Switch) : Prop where
  entries : ∀ table, (next.rules table).map FlEntry.snapshot = (sw.rules table).map FlEntry.snapshot
  groupRefs : next.groups.map (fun group => (group.ptr, group.ref)) =
    sw.groups.map fun group => (group.ptr, group.ref)
  meterRefs : next.meters.map (fun meter => (meter.ptr, meter.ref)) =
    sw.meters.map fun meter => (meter.ptr, meter.ref)
  lock : next.lock = true → sw.lock = true

/-- An accepted request hits a residual entry and fails after it changed it. -/
def SpoilsEntry (sw : Switch) (p : FlowModParams) : Prop :=
  flowModValidateParms sw p = true ∧ hasFlag p.flags flEntLocal = false ∧
    ∃ before ent after, AddFound sw p before ent after ∧ hasFlag ent.flags flEntResidual = true ∧
      ((hasFlag p.flags flEntResidual = true ∧ (ent.groups ≠ [] ∨ ent.meters ≠ [])) ∨
        (hasFlag p.flags flEntResidual = false ∧
          (resolve sw.groups p.grpDep = none ∨ resolve sw.meters p.meterDep = none) ∧
          ent.appOwnerList ≠ [p.appOwner]))

theorem FirstAt.unique (one : FirstAt test list before ent after)
    (two : FirstAt test list before' ent' after') : ent = ent' :=
  Option.some.inj (one.find?_eq.symm.trans two.find?_eq)

variable {sw : Switch} {p : FlowModParams}

private theorem unchanged_self : Unchanged sw { sw with lock := false } :=
  ⟨fun _ => rfl, rfl, rfl, by simp⟩

/-- One entry was written back: the tables look the same if the entry does. -/
private theorem unchanged_found_iff (found : AddFound sw p before ent after) :
    Unchanged sw
      { sw.setRules (tableOf p) (before ++ changed :: after) with lock := false, appRef } ↔
      changed.snapshot = ent.snapshot := by
  constructor
  · intro same
    have here := same.entries (tableOf p)
    rw [found.split] at here
    simpa [Switch.rules, Switch.setRules] using here
  · intro same
    refine ⟨fun table => ?_, rfl, rfl, by simp⟩
    by_cases here : table = tableOf p
    · subst table
      rw [found.split]
      simp [Switch.rules, Switch.setRules, same]
    · simp [Switch.rules, Switch.setRules, here]

private theorem spoils_found_iff (valid : flowModValidateParms sw p = true)
    (found : AddFound sw p before ent after) :
    SpoilsEntry sw p ↔ hasFlag p.flags flEntLocal = false ∧ hasFlag ent.flags flEntResidual = true ∧
      ((hasFlag p.flags flEntResidual = true ∧ (ent.groups ≠ [] ∨ ent.meters ≠ [])) ∨
        (hasFlag p.flags flEntResidual = false ∧
          (resolve sw.groups p.grpDep = none ∨ resolve sw.meters p.meterDep = none) ∧
          ent.appOwnerList ≠ [p.appOwner])) := by
  constructor
  · rintro ⟨-, remote, before', ent', after', other, residual, spoiled⟩
    obtain rfl := other.unique found
    exact ⟨remote, residual, spoiled⟩
  · rintro ⟨remote, residual, spoiled⟩
    exact ⟨valid, remote, before, ent, after, found, residual, spoiled⟩

private theorem snapshot_dropped_iff (ent : FlEntry) :
    FlEntry.snapshot { ent with locked := true, groups := [], meters := [] } = ent.snapshot ↔
      ent.groups = [] ∧ ent.meters = [] := by
  simp [FlEntry.snapshot, eq_comm]

private theorem snapshot_owned_iff (ent : FlEntry) (p : FlowModParams) :
    FlEntry.snapshot { ownedEntry ent p with locked := false } = ent.snapshot ↔
      (hasFlag ent.flags flEntResidual = true → ent.appOwnerList = [p.appOwner]) := by
  by_cases residual : hasFlag ent.flags flEntResidual = true
  · constructor
    · intro same _
      have owners := congrArg (fun snapshot => snapshot.2.1.1) same
      simpa [FlEntry.snapshot, ownedEntry, residual] using owners.symm
    · intro owners
      simp [FlEntry.snapshot, ownedEntry, residual, owners residual]
  · simp [FlEntry.snapshot, ownedEntry, residual]

/-- A failing add leaves everything as it was exactly when it spoils no residual entry. -/
theorem failed_add_unchanged_iff (sw : Switch) (p : FlowModParams) (now : Nat)
    (failed : (flowRuleAdd sw p now).2 < 0) :
    Unchanged sw (flowRuleAdd sw p now).1 ↔ ¬ SpoilsEntry sw p := by
  have outcome := @flowRuleAdd_outcome sw p now
  generalize flowRuleAdd sw p now = result at outcome failed ⊢
  cases outcome with
  | invalid rejected =>
    refine iff_of_true ⟨fun _ => rfl, rfl, rfl, id⟩ ?_
    rintro ⟨valid, -⟩
    simp [rejected] at valid
  | refused valid found reason =>
    apply iff_of_true unchanged_self
    rw [spoils_found_iff valid found]
    rintro ⟨remote, residual, -⟩
    simp [remote, residual] at reason
  | shared | modified | inserted => simp at failed
  | existing valid found settled =>
    refine iff_of_true ((unchanged_found_iff found).mpr ?_) ?_
    · simp [FlEntry.snapshot, clearFlag_clearFlag]
    · rw [spoils_found_iff valid found]
      rintro ⟨-, residual, -⟩
      simp [settled] at residual
  | dropped valid found residual again remote =>
    rw [spoils_found_iff valid found]
    refine (unchanged_found_iff found).trans ((snapshot_dropped_iff _).trans ?_)
    simp only [residual, again, remote, true_and, Bool.true_eq_false, false_and, or_false]
    tauto
  | missing valid found changes unresolved =>
    rw [spoils_found_iff valid found]
    refine (unchanged_found_iff found).trans ((snapshot_owned_iff _ _).trans ?_)
    split at changes
    · rename_i residual
      simp [residual, changes.1, changes.2, unresolved]
    · rename_i settled
      simp [settled]
  | unresolved valid fresh =>
    apply iff_of_true unchanged_self
    rintro ⟨-, -, before, ent, after, found, -⟩
    have member : ent ∈ sw.rules (tableOf p) := by rw [found.split]; simp
    have passes := found.passes
    simp [fresh ent member] at passes

/-- A residual rule of application 7 that depends on group 1. -/
def residualOverGroup : FlowModParams := { appOwner := 7, flags := flEntResidual, grpDep := [1] }

/-- A switch with group 1, and the residual rule over it. -/
def residualSwitch : Switch :=
  let group : Group :=
    { ptr := 100, key := 1, ref := 0,
      body := { appOwner := 8, type := 0, flags := 0, actVectors := [] } }
  (flowRuleAdd { ofpCtors := .of131, groups := [group] } residualOverGroup 0).1

theorem failed_add_unchanged_not_owner :
    Unchanged residualSwitch (flowRuleAdd residualSwitch
      { appOwner := 9, flags := flEntLocal } 1).1 := by
  apply (failed_add_unchanged_iff residualSwitch _ 1 (by decide)).mpr
  rintro ⟨-, remote, -⟩
  exact absurd remote (by decide)

/-- The add fails, and the entry has lost its group or changed its owner. -/
theorem failed_add_spoils_entry :
    let again := flowRuleAdd residualSwitch residualOverGroup 1
    let taken := flowRuleAdd residualSwitch { appOwner := 9, grpDep := [2] } 1
    again.2 < 0 ∧ (residualSwitch.rules 0).map FlEntry.groups = [[100]] ∧
      (again.1.rules 0).map FlEntry.groups = [[]] ∧
    taken.2 < 0 ∧ (residualSwitch.rules 0).map FlEntry.appOwnerList = [[7]] ∧
      (taken.1.rules 0).map FlEntry.appOwnerList = [[9]] := by
  decide

end OpenMul
