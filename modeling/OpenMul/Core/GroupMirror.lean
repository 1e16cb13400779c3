import Mathlib.Data.Finset.Insert
import OpenMul.Core.AppDeparture

namespace OpenMul

open Lib RefTable List Function

/-- The ids on a switch after one message. A message it has to reject changes none. -/
def acceptGroup (ids : Finset (BitVec 32)) : OfpMsg → Finset (BitVec 32)
  | .groupMod false group _ _ => insert group ids
  | .groupDel group => ids.erase group
  | _ => ids

def Switch.groupIds (sw : Switch) : Finset (BitVec 32) := sw.txQ.foldl acceptGroup ∅

/-- A switch record, with the last successful add of each id. -/
structure GroupRun where
  sw : Switch
  lastAdd : BitVec 32 → Option GroupModParams := fun _ => none

/-- A group as an add asks for it. -/
def GroupModParams.StoredAs (p : GroupModParams) (body : GroupBody) : Prop :=
  body.type = p.type ∧ body.actVectors = p.actVectors ∧ body.appOwner = p.appOwner

structure GroupsMirrored (ids : Finset (BitVec 32)) (groups : List Group)
    (lastAdd : BitVec 32 → Option GroupModParams) : Prop where
  same : ∀ id, id ∈ ids ↔ id ∈ groups.map Counted.key
  last : ∀ group ∈ groups, ∃ p, lastAdd group.key = some p ∧ p.StoredAs group.body

namespace GroupRun

def exec (run : GroupRun) (op : Op) : GroupRun where
  sw := OpenMul.exec run.sw op
  lastAdd :=
    match op with
    | .groupAdd p ptr now =>
      if (groupAdd run.sw p ptr now).2 = 0 then Function.update run.lastAdd p.group (some p)
      else run.lastAdd
    | _ => run.lastAdd

/-- Requests on groups, and applications that leave, at a master. -/
def runs : Machine GroupRun Op where
  start run := Started run.sw ∧ run.sw.master = true ∧ run.lastAdd = fun _ => none
  admits run op := admits run.sw op ∧
    match op with
    | .groupAdd .. | .groupDel _ | .appUnregister _ => True
    | _ => False
  exec := exec

def Mirrored (run : GroupRun) : Prop := GroupsMirrored run.sw.groupIds run.sw.groups run.lastAdd

/-- The tables agree after a request, a failed add changes no owner and no
bucket, and a delete succeeds exactly when it removes the group. -/
def Correct (run : GroupRun) (op : Op) : Prop :=
  (run.exec op).Mirrored ∧
    match op with
    | .groupAdd p ptr now =>
      let owned := fun group : Group => (group.key, group.body.appOwner, group.body.actVectors)
      (groupAdd run.sw p ptr now).2 ≠ 0 →
        (groupAdd run.sw p ptr now).1.groups.map owned = run.sw.groups.map owned
    | .groupDel p =>
      (groupDel run.sw p).2 = 0 ↔
        p.group ∈ run.sw.groups.map Counted.key ∧
          p.group ∉ (groupDel run.sw p).1.groups.map Counted.key
    | _ => True

/-- A request gets past the checks of `c_switch_group_add` and `c_switch_group_del`. -/
def Accepts (run : GroupRun) (add : Bool) (p : GroupModParams) : Prop :=
  run.sw.ofpCtors ≠ .of10 ∧ groupValidateParms add p = true

/-- An unknown group is not added as residual, and a residual one only changed as
residual by its owner; a group is only deleted by its owner; and who leaves owns none. -/
def Meets (run : GroupRun) : Op → Prop
  | .groupAdd p _ _ => run.Accepts true p →
    match lookup run.sw.groups p.group with
    | none => hasFlag p.flags grpResidual = false
    | some group =>
      hasFlag group.body.flags grpResidual = true → hasFlag p.flags grpResidual = true →
      group.body.appOwner = p.appOwner ∨
        group.body.actVectors = p.actVectors ∧ hasFlag group.body.flags grpExpired = false
  | .groupDel p => run.Accepts false p → ∀ group, lookup run.sw.groups p.group = some group →
    group.ref = 0 → group.body.appOwner = p.appOwner
  | .appUnregister app => ∀ group ∈ run.sw.groups, group.body.appOwner ≠ app
  | _ => True

end GroupRun

section Messages

variable {sw : Switch} {p : GroupModParams} {ids : Finset (BitVec 32)}

theorem foldl_acceptGroup_quiet {msgs : List OfpMsg}
    (quiet : ∀ msg ∈ msgs, ∀ ids, acceptGroup ids msg = ids) :
    msgs.foldl acceptGroup ids = ids := by
  induction msgs with
  | nil => rfl
  | cons msg rest ih =>
    rw [foldl_cons, quiet msg mem_cons_self]
    exact ih fun other member => quiet other (mem_cons_of_mem _ member)

private theorem barrierRequest_accepted : sw.barrierRequest.foldl acceptGroup ids = ids := by
  unfold Switch.barrierRequest
  split <;> rfl

theorem groupAddMsgs_accepted (master : sw.master = true) (modify install : Bool) :
    (groupAddMsgs sw p modify install).foldl acceptGroup ids =
      if install && !modify then insert p.group ids else ids := by
  rw [groupAddMsgs, master]
  cases install with
  | false => rfl
  | true =>
    simp only [Bool.and_self, if_true, foldl_cons]
    split
    · rw [barrierRequest_accepted]
      cases modify <;> rfl
    · cases modify <;> rfl

theorem sweepMsgs_quiet (ctors : OfpCtors) (master : Bool) (ent : FlEntry) :
    ∀ msg ∈ sweepMsgs ctors master ent, ∀ ids, acceptGroup ids msg = ids := by
  intro msg member
  unfold sweepMsgs Switch.flowDelMsgs at member
  split at member
  · split at member
    · rw [mem_singleton.1 member]
      exact fun _ => rfl
    · cases member
  · cases member

theorem perSwitchAppUnregister_groups (sw : Switch) (app : App) :
    ∃ dropped, (perSwitchAppUnregister sw app).groups =
        (release sw.groups dropped).filter (fun group => group.body.appOwner != app) ∧
      (perSwitchAppUnregister sw app).groupIds = sw.groupIds ∧
      (perSwitchAppUnregister sw app).master = sw.master := by
  obtain ⟨appRef, eq⟩ := delAppFlowOwner_eq sw app
  have quiet : (delAppFlowOwner sw app).groupIds = sw.groupIds := by
    rw [eq, Switch.groupIds, swept, foldl_append]
    apply foldl_acceptGroup_quiet
    intro msg member
    obtain ⟨ent, -, sent⟩ := mem_flatMap.1 member
    exact sweepMsgs_quiet _ _ ent msg sent
  rw [eq] at quiet
  simp only [perSwitchAppUnregister, delMeterWithOwner, delGroupWithOwner, eq]
  split <;> exact ⟨_, rfl, quiet, rfl⟩

end Messages

namespace GroupsMirrored

variable {ids : Finset (BitVec 32)} {groups : List Group}
    {lastAdd : BitVec 32 → Option GroupModParams}
  {group : Group} {key : BitVec 32} (mirrored : GroupsMirrored ids groups lastAdd)
include mirrored

section

variable (ptrs : (groups.map Counted.ptr).Nodup) (keys : (groups.map Counted.key).Nodup)
    (found : lookup groups key = some group)
include ptrs keys found

/-- A changed group matches an add exactly when its body does. -/
theorem setBody_iff (body : GroupBody) (p : GroupModParams) :
    GroupsMirrored ids (setBody groups group.ptr body) (update lastAdd key (some p)) ↔
      p.StoredAs body := by
  have member : group ∈ groups := mem_of_find?_eq_some found
  have keyed : group.key = key := by simpa using find?_some found
  constructor
  · intro after
    have changed : { group with body } ∈ setBody groups group.ptr body :=
      mem_map.2 ⟨group, member, if_pos rfl⟩
    obtain ⟨last, added, stored⟩ := after.last _ changed
    rw [show ({ group with body } : Group).key = key from keyed, update_self] at added
    rwa [Option.some.inj added]
  · intro stored
    constructor
    · intro id
      rw [mirrored.same, map_setBody _ fun _ _ => rfl]
    · intro after there
      obtain ⟨other, present, rfl⟩ := mem_map.1 there
      split
      · rename_i same
        rw [inj_on_of_nodup_map ptrs present member same, keyed, update_self]
        exact ⟨p, rfl, stored⟩
      · rename_i different
        have apart : other.key ≠ key := by
          intro same
          rw [inj_on_of_nodup_map keys present member (same.trans keyed.symm)] at different
          exact different rfl
        rw [update_of_ne apart]
        exact mirrored.last other present

/-- A group may change in what no add speaks about. -/
theorem setBody_same
    (same : body.type = group.body.type ∧ body.actVectors = group.body.actVectors ∧
      body.appOwner = group.body.appOwner) :
    GroupsMirrored ids (setBody groups group.ptr body) lastAdd := by
  obtain ⟨p, added, type, buckets, owner⟩ := mirrored.last group (mem_of_find?_eq_some found)
  have keyed : group.key = key := by simpa using find?_some found
  have after := (mirrored.setBody_iff ptrs keys found body p).2
    ⟨same.1.trans type, same.2.1.trans buckets, same.2.2.trans owner⟩
  rwa [← added, keyed, update_eq_self] at after

end

theorem cons (absent : lookup groups group.key = none) {p : GroupModParams}
    (stored : p.StoredAs group.body) :
    GroupsMirrored (insert group.key ids) (group :: groups)
      (update lastAdd group.key (some p)) := by
  constructor
  · intro id
    rw [Finset.mem_insert, mirrored.same, map_cons, mem_cons]
  · intro other member
    rcases mem_cons.1 member with rfl | present
    · exact ⟨p, update_self .., stored⟩
    · have apart : other.key ≠ group.key := by simpa using find?_eq_none.1 absent other present
      rw [update_of_ne apart]
      exact mirrored.last other present

theorem removeKey (key : BitVec 32) :
    GroupsMirrored (ids.erase key) (removeKey groups key) lastAdd := by
  constructor
  · intro id
    simp only [Finset.mem_erase, mirrored.same, mem_map, OpenMul.removeKey, mem_filter, bne_iff_ne]
    constructor
    · rintro ⟨apart, group, member, rfl⟩
      exact ⟨group, ⟨member, apart⟩, rfl⟩
    · rintro ⟨group, ⟨member, apart⟩, rfl⟩
      exact ⟨apart, group, member, rfl⟩
  · intro group member
    exact mirrored.last group (mem_of_mem_filter member)

/-- Groups that leave the table without a message are still on the switch. -/
theorem departed_iff (keys : (groups.map Counted.key).Nodup) (dropped : List Nat) (app : App) :
    GroupsMirrored ids ((release groups dropped).filter fun group => group.body.appOwner != app)
      lastAdd ↔ ∀ group ∈ groups, group.body.appOwner ≠ app := by
  rw [release_eq_shift, RefTable.shift, filter_map]
  constructor
  · intro after group member owned
    have known : group.key ∈ ids := (mirrored.same _).2 (mem_map_of_mem member)
    obtain ⟨left, there, same⟩ := mem_map.1 ((after.same _).1 known)
    obtain ⟨other, stays, rfl⟩ := mem_map.1 there
    obtain ⟨present, apart⟩ := mem_filter.1 stays
    rw [inj_on_of_nodup_map keys present member same] at apart
    exact bne_iff_ne.1 apart owned
  · intro apart
    rw [filter_eq_self.2]
    · constructor
      · intro id
        rw [map_map]
        exact mirrored.same id
      · intro after there
        obtain ⟨group, member, rfl⟩ := mem_map.1 there
        exact mirrored.last group member
    · exact fun group member => bne_iff_ne.2 (apart group member)

end GroupsMirrored

/-- When a change that is made leaves the group with the owner that asked for it. -/
theorem modVerdict_owner_iff (old new : BitVec 8) (sameOwner sameContent : Bool) :
    (∀ taken install, modVerdict old new sameOwner sameContent = some (taken, install) →
        taken = true ∨ sameOwner = true) ↔
          (hasFlag old grpResidual = true → hasFlag new grpResidual = true →
        sameOwner = true ∨ sameContent = true ∧ hasFlag old grpExpired = false) := by
  unfold modVerdict
  generalize hasFlag old grpResidual = residual, hasFlag new grpResidual = again,
    hasFlag old grpExpired = expired
  cases residual <;> cases again <;> cases expired <;> cases sameOwner <;>
    cases sameContent <;> simp

namespace GroupRun

variable {run : GroupRun} (mirrored : run.Mirrored) (sound : OwnersSound run.sw)
    (master : run.sw.master = true)

theorem groupAdd_refused (refused : ¬run.Accepts true p) (ptr now : Nat) :
    groupAdd run.sw p ptr now = (run.sw, -1) := by
  unfold Accepts at refused
  grind [groupAdd]

theorem groupDel_refused (refused : ¬run.Accepts false p) : groupDel run.sw p = (run.sw, -1) := by
  unfold Accepts at refused
  grind [groupDel]

include mirrored sound master

theorem groupAdd_correct_iff (p : GroupModParams) (ptr now : Nat) :
    run.Correct (.groupAdd p ptr now) ↔ run.Meets (.groupAdd p ptr now) := by
  simp only [Correct, Meets, Mirrored, exec, OpenMul.exec]
  by_cases accepts : run.Accepts true p
  · have opened := accepts
    unfold Accepts at opened
    cases found : lookup run.sw.groups p.group with
    | none =>
      have absent : p.group ∉ run.sw.groupIds := by
        rw [mirrored.same]
        intro known
        obtain ⟨group, member, same⟩ := mem_map.1 known
        simpa [same] using find?_eq_none.1 found group member
      simp only [groupAdd, opened, found, if_false, if_true, Switch.groupIds, Switch.switchTx,
        foldl_append, groupAddMsgs_accepted master, ne_eq, not_true_eq_false, false_implies,
          and_true, accepts, forall_const]
      cases residual : hasFlag p.flags grpResidual with
      | false =>
        exact iff_of_true
          (@GroupsMirrored.cons _ _ _ (groupInit p ptr now) mirrored found p ⟨rfl, rfl, rfl⟩) rfl
      | true =>
        refine iff_of_false (fun after => absent ?_) (by decide)
        exact (after.same p.group).2 mem_cons_self
    | some group =>
      have owner :=
        modVerdict_owner_iff group.body.flags p.flags (group.body.appOwner == p.appOwner)
        (group.body.actVectors == p.actVectors)
      simp only [beq_iff_eq] at owner
      simp only [accepts, forall_const]
      rw [← owner]
      cases verdict : modVerdict group.body.flags p.flags (group.body.appOwner == p.appOwner)
        (group.body.actVectors == p.actVectors) with
      | none =>
        simp only [groupAdd, opened, found, verdict, if_false, if_true]
        refine iff_of_true ⟨?_, fun _ => ?_⟩ (by simp)
        · exact mirrored.setBody_same sound.groupPtrs sound.groupKeys found ⟨rfl, rfl, rfl⟩
        · rw [setBody, map_map]
          apply map_congr_left
          intro other present
          simp only [comp_apply]
          split
          · rename_i same
            rw [inj_on_of_nodup_map sound.groupPtrs present (mem_of_find?_eq_some found) same]
          · rfl
      | some change =>
        simp only [groupAdd, opened, found, verdict, if_false, if_true, Switch.groupIds,
          Switch.switchTx, foldl_append, groupAddMsgs_accepted master, Bool.not_true,
            Bool.and_false, ne_eq, not_true_eq_false,
          false_implies, and_true]
        apply (mirrored.setBody_iff sound.groupPtrs sound.groupKeys found _ p).trans
        obtain ⟨taken, install⟩ := change
        cases taken <;> simp [GroupModParams.StoredAs]
  · rw [groupAdd_refused accepts]
    simpa [accepts, Mirrored] using mirrored

omit sound in
theorem groupDel_correct_iff (p : GroupModParams) :
    run.Correct (.groupDel p) ↔ run.Meets (.groupDel p) := by
  simp only [Correct, Meets, Mirrored, exec, OpenMul.exec]
  by_cases accepts : run.Accepts false p
  · have opened := accepts
    unfold Accepts at opened
    cases found : lookup run.sw.groups p.group with
    | none =>
      have absent : p.group ∉ run.sw.groups.map Counted.key := by
        intro known
        obtain ⟨group, member, same⟩ := mem_map.1 known
        simpa [same] using find?_eq_none.1 found group member
      simp only [groupDel, opened, found, if_false, if_true]
      refine iff_of_true ⟨mirrored, iff_of_false (by decide) fun removed => absent removed.1⟩ ?_
      intro _ group impossible
      cases impossible
    | some group =>
      have known : p.group ∈ run.sw.groups.map Counted.key :=
        mem_map.2 ⟨group, mem_of_find?_eq_some found, by simpa using find?_some found⟩
      simp only [accepts, forall_const, Option.some.injEq, forall_eq']
      by_cases held : group.ref = 0
      · by_cases owned : group.body.appOwner = p.appOwner
        · simp only [groupDel, opened, found, held, owned, master, if_false, if_true]
          refine iff_of_true ⟨?_, iff_of_true rfl ⟨known, ?_⟩⟩ (by simp)
          · simpa [Switch.groupIds, Switch.switchTx, acceptGroup] using mirrored.removeKey p.group
          · simp [Switch.switchTx, removeKey]
        · simp only [groupDel, opened, found, held, owned, if_false, if_true]
          refine iff_of_false (fun correct => ?_) (by simp)
          exact (correct.2.1 rfl).2 known
      · simp only [groupDel, opened, found, held, ne_eq, not_false_eq_true, if_false, if_true]
        refine iff_of_true ⟨mirrored, iff_of_false (by decide) fun removed => removed.2 known⟩
          (by simp)
  · rw [groupDel_refused accepts]
    simpa [accepts, Mirrored] using mirrored

omit master in
theorem appUnregister_correct_iff (app : App) :
    run.Correct (.appUnregister app) ↔ run.Meets (.appUnregister app) := by
  obtain ⟨dropped, groups, ids, -⟩ := perSwitchAppUnregister_groups run.sw app
  simp only [Correct, Meets, Mirrored, exec, OpenMul.exec, groups, ids, and_true]
  exact mirrored.departed_iff sound.groupKeys dropped app

theorem correct_iff (admitted : runs.admits run op) : run.Correct op ↔ run.Meets op := by
  cases op with
  | groupAdd p ptr now => exact groupAdd_correct_iff mirrored sound master p ptr now
  | groupDel p => exact groupDel_correct_iff mirrored master p
  | appUnregister app => exact appUnregister_correct_iff mirrored sound app
  | flowAdd | flowDel | meterAdd | meterDel | appRegister | flowStale | tblReset
  | tblDelete => exact admitted.2.elim

omit mirrored in
theorem exec_frame (admitted : runs.admits run op) :
    OwnersSound (OpenMul.exec run.sw op) ∧ (OpenMul.exec run.sw op).master = true := by
  cases op with
  | groupAdd p ptr now =>
    obtain ⟨_, _, _, _, _, next, -⟩ := groupAdd_outcome run.sw p ptr now
    exact ⟨sound.groupAdd p now admitted.1, by rw [OpenMul.exec, next, master]⟩
  | groupDel p =>
    obtain ⟨_, _, _, _, _, next, -⟩ := groupDel_outcome run.sw p
    exact ⟨sound.groupDel p, by rw [OpenMul.exec, next, master]⟩
  | appUnregister app =>
    obtain ⟨_, -, -, kept⟩ := perSwitchAppUnregister_groups run.sw app
    exact ⟨sound.appUnregister app, kept.trans master⟩
  | flowAdd | flowDel | meterAdd | meterDel | appRegister | flowStale | tblReset
  | tblDelete => exact admitted.2.elim

omit mirrored sound master in
theorem reaches_mirrored (reached : (runs.restrict Meets).Reaches run) :
    run.Mirrored ∧ OwnersSound run.sw ∧ run.sw.master = true := by
  induction reached with
  | start initial =>
    obtain ⟨⟨tables, groups, meters, sent, -⟩, master, -⟩ := initial
    refine ⟨⟨?_, ?_⟩, ⟨?_, ?_, ?_, ?_, ?_⟩, master⟩ <;>
      simp [Switch.groupIds, Switch.rules, tables, groups, meters, sent]
  | step _ admitted ih =>
    obtain ⟨mirrored, sound, master⟩ := ih
    exact ⟨((correct_iff mirrored sound master admitted.1).2 admitted.2).1,
      exec_frame sound master admitted.1⟩

end GroupRun

/-- While all requests met the condition the tables agree, and the next one goes
right exactly when it meets the condition. -/
theorem groups_mirrored {run : GroupRun}
    (reached : (GroupRun.runs.restrict GroupRun.Meets).Reaches run) :
    run.Mirrored ∧ ∀ op, GroupRun.runs.admits run op → (run.Correct op ↔ run.Meets op) := by
  obtain ⟨mirrored, sound, master⟩ := GroupRun.reaches_mirrored reached
  exact ⟨mirrored, fun op => GroupRun.correct_iff mirrored sound master⟩

/-- A group that application 1 added to a new switch. -/
def oneGroup : GroupRun :=
  GroupRun.exec { sw := bootSwitch .of131 } (.groupAdd { appOwner := 1, group := 7 } 0 0)

private theorem reaches_oneGroup : (GroupRun.runs.restrict GroupRun.Meets).Reaches oneGroup :=
  .step (.start ⟨⟨rfl, rfl, rfl, rfl, rfl⟩, rfl, rfl⟩)
    ⟨⟨fun _ => not_mem_nil.elim, trivial⟩, fun _ => (by decide : hasFlag 0 grpResidual = false)⟩

theorem groups_mirrored_one : oneGroup.Mirrored ∧
    oneGroup.Correct (.groupDel { appOwner := 1, group := 7 }) := by
  obtain ⟨mirrored, next⟩ := groups_mirrored reaches_oneGroup
  refine ⟨mirrored, (next (.groupDel _) ⟨trivial, trivial⟩).2 ?_⟩
  intro _ group found _
  cases found
  rfl

/-- The group stays on the switch when its owner leaves, and its deletion by
another application is a success that removes nothing. -/
theorem group_left_on_switch : oneGroup.Mirrored ∧ ¬oneGroup.Correct (.appUnregister 1) ∧
    ¬oneGroup.Correct (.groupDel { appOwner := 2, group := 7 }) := by
  obtain ⟨mirrored, sound, master⟩ := GroupRun.reaches_mirrored reaches_oneGroup
  refine ⟨mirrored, ?_, ?_⟩
  · rw [GroupRun.appUnregister_correct_iff mirrored sound]
    intro meets
    exact meets _ mem_cons_self rfl
  · rw [GroupRun.groupDel_correct_iff mirrored master]
    intro meets
    have same : (1 : App) = 2 := meets ⟨show OfpCtors.of131 ≠ .of10 by decide, rfl⟩ _ rfl rfl
    cases same

end OpenMul
