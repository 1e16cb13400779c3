import OpenMul.Core.RefInvariant

namespace OpenMul

open Lib RefTable

/-- The requests that keep every count exact. -/
def RefSafe (sw : Switch) (op : Op) : Prop := OwnerSafe sw op ∧ DropSafe sw op

/-- In every run of such requests a count is the number of references of the live rules. -/
theorem refs_eq_occurrences {sw : Switch} (reached : (switchRuns.restrict RefSafe).Reaches sw) :
    (∀ group ∈ sw.groups, group.ref = (sw.allRules.flatMap FlEntry.groups).count group.ptr) ∧
    ∀ meter ∈ sw.meters, meter.ref = (sw.allRules.flatMap FlEntry.meters).count meter.ptr := by
  have inv : RefInv (fun ref count => ref = count) sw := by
    refine Machine.Reaches.invariant _ (fun _ => refInv_start) ?_ reached
    intro sw op earlier inv admitted
    exact inv.exec refRel_eq earlier.of_restrict admitted.1 admitted.2.1 (.inr admitted.2.2)
  exact ⟨inv.groups.counts, inv.meters.counts⟩

/-- A group of application 8, at an address the allocator chose. -/
def groupOne : Op := .groupAdd { appOwner := 8, group := 1 } 100 0

theorem refs_eq_occurrences_one_rule :
    let sw := switchRuns.execAll (bootSwitch .of131)
      [groupOne, .flowAdd { appOwner := 7, grpDep := [1, 1] } 0]
    sw.groups.map Counted.ref = [2] ∧
      ∀ group ∈ sw.groups, group.ref = (sw.allRules.flatMap FlEntry.groups).count group.ptr := by
  intro sw
  have reached : (switchRuns.restrict RefSafe).Reaches sw := by
    refine @Machine.Reaches.execAll _ _ (switchRuns.restrict RefSafe) (bootSwitch .of131) _
      (.start ⟨rfl, rfl, rfl, rfl, rfl⟩) ⟨⟨?_, trivial, trivial⟩, ⟨trivial, trivial, ?_⟩, trivial⟩
    · intro group member
      cases member
    · intro _ residual
      exact absurd residual (by decide)
  exact ⟨by decide, (refs_eq_occurrences reached).1⟩

/-- The second report drops a reference and leaves the count at one. -/
theorem residual_twice_leaks_reference :
    let rule : FlowModParams := { appOwner := 7, flags := flEntResidual, grpDep := [1] }
    let sw := switchRuns.execAll (bootSwitch .of131) [groupOne, .flowAdd rule 0, .flowAdd rule 1]
    switchRuns.Reaches sw ∧ sw.groups.map Counted.ref = [1] ∧
      sw.groups.map (fun group => (sw.allRules.flatMap FlEntry.groups).count group.ptr) = [0] := by
  intro rule sw
  refine ⟨reaches_boot .of131 _ ⟨?_, trivial, trivial, trivial⟩, by decide, by decide +kernel⟩
  intro group member
  cases member

/-- Where no used object leaves with its owner, every referenced object is in its table. -/
theorem referenced_present {sw : Switch} (reached : (switchRuns.restrict OwnerSafe).Reaches sw)
    {ent : FlEntry} (live : ent ∈ sw.allRules) :
    (∀ ptr ∈ ent.groups, ∃ group ∈ sw.groups, group.ptr = ptr) ∧
    ∀ ptr ∈ ent.meters, ∃ meter ∈ sw.meters, meter.ptr = ptr := by
  have inv : RefInv (fun ref count => count ≤ ref) sw := by
    refine Machine.Reaches.invariant _ (fun _ => refInv_start) ?_ reached
    intro sw op earlier inv admitted
    exact inv.exec refRel_le earlier.of_restrict admitted.1 admitted.2
      (.inl fun _ _ _ less bound => le_trans less bound)
  constructor
  · intro ptr member
    exact inv.groups.live ptr (List.mem_flatMap.mpr ⟨ent, live, member⟩)
  · intro ptr member
    exact inv.meters.live ptr (List.mem_flatMap.mpr ⟨ent, live, member⟩)

/-- A rule of application 7 over the group of application 8. -/
def ruleOverGroup : Op := .flowAdd { appOwner := 7, grpDep := [1] } 0

theorem referenced_present_one_rule :
    let sw := switchRuns.execAll (bootSwitch .of131) [groupOne, ruleOverGroup]
    ∃ ent ∈ sw.allRules, ent.groups = [100] ∧ ∃ group ∈ sw.groups, group.ptr = 100 := by
  intro sw
  have reached : (switchRuns.restrict OwnerSafe).Reaches sw := by
    refine @Machine.Reaches.execAll _ _ (switchRuns.restrict OwnerSafe) (bootSwitch .of131) _
      (.start ⟨rfl, rfl, rfl, rfl, rfl⟩) ⟨⟨?_, trivial⟩, ⟨trivial, trivial⟩, trivial⟩
    intro group member
    cases member
  have live : ∃ ent ∈ sw.allRules, ent.groups = [100] := by decide
  obtain ⟨ent, member, groups⟩ := live
  exact ⟨ent, member, groups, (referenced_present reached member).1 100 (by simp [groups])⟩

/-- The rule of application 7 keeps the address of the freed group. -/
theorem owner_leaves_dangling_group :
    let sw := switchRuns.execAll (bootSwitch .of131) [groupOne, ruleOverGroup, .appUnregister 8]
    switchRuns.Reaches sw ∧ sw.groups = [] ∧ (sw.rules 0).map FlEntry.groups = [[100]] := by
  intro sw
  refine ⟨reaches_boot .of131 _ ⟨?_, trivial, trivial, trivial⟩, by decide +kernel, by
    decide +kernel⟩
  intro group member
  cases member

end OpenMul
