import OpenMul.Core.Switch

namespace OpenMul

open Lib

def grpExpired : BitVec 8 := 0x4
def grpBarrierEn : BitVec 8 := 0x8
def grpResidual : BitVec 8 := 0x20
def grpStale : BitVec 8 := 0x40

def ofpgMax : BitVec 32 := 0xffffff00
def ofpgAll : BitVec 32 := 0xfffffffc
def ofpgtIndirect : Byte := 2

structure GroupModParams where
  appOwner : App := 0
  group : BitVec 32 := 0
  type : Byte := 0
  flags : BitVec 8 := 0
  actVectors : List ActVecElem := []
  deriving DecidableEq, Repr

structure MeterModParams where
  appOwner : App := 0
  meter : BitVec 32 := 0
  flags : BitVec 16 := 0
  cflags : BitVec 8 := 0
  meterBands : List (List Byte) := []
  deriving DecidableEq, Repr

/-- The decision shared by `__c_switch_group_modify` and
`__c_switch_meter_modify`: `none` refuses, otherwise whether the new parameters
take a residual object over and whether the change is sent to the switch. -/
def modVerdict (old new : BitVec 8) (sameOwner sameContent : Bool) : Option (Bool × Bool) :=
  let residual := hasFlag old grpResidual
  let differs := !sameContent || hasFlag old grpExpired
  if !residual && !sameOwner then none
  else if residual && !hasFlag new grpResidual then some (true, differs)
  else if differs then some (false, true)
  else none

/-- The owner's reference moves with a takeover. -/
def takeOver (appRef : App → Int) (old new : App) : App → Int := countApp (appPut appRef old) new 1

/-- `of131_group_validate_parms`. -/
def groupValidateParms (add : Bool) (p : GroupModParams) : Bool :=
  if p.group = Switch.ofpgAny || decide (ofpgMax < p.group) then false
  else if add
    then !(p.group == ofpgAll || (p.type == ofpgtIndirect && decide (1 < p.actVectors.length)))
  else true

/-- Replace one object's body where its address is. -/
def setBody {Body : Type} (table : List (Counted (BitVec 32) Body)) (ptr : Nat) (body : Body) :
    List (Counted (BitVec 32) Body) :=
  table.map fun object => if object.ptr = ptr then { object with body } else object

theorem map_setBody {Field : Type} (field : Counted (BitVec 32) Body → Field)
    (same : ∀ object body, field { object with body } = field object)
    (table : List (Counted (BitVec 32) Body)) (ptr : Nat) (body : Body) :
    (setBody table ptr body).map field = table.map field := by
  rw [setBody, List.map_map]
  apply List.map_congr_left
  intro object _
  simp only [Function.comp_apply]
  split
  · exact same object body
  · rfl

/-- Remove the object stored under a key. -/
def removeKey {Body : Type} (table : List (Counted (BitVec 32) Body)) (key : BitVec 32) :
    List (Counted (BitVec 32) Body) :=
  table.filter fun object => object.key != key

def groupAddMsgs (sw : Switch) (p : GroupModParams) (modify install : Bool) : List OfpMsg :=
  if sw.master && install then
    .groupMod modify p.group p.type p.actVectors ::
      if hasFlag p.flags grpBarrierEn then sw.barrierRequest else []
  else []

def meterAddMsgs (sw : Switch) (p : MeterModParams) (modify install : Bool) : List OfpMsg :=
  if sw.master && install then
    .meterMod modify p.meter p.flags p.meterBands ::
      if hasFlag p.cflags grpBarrierEn then sw.barrierRequest else []
  else []

/-- `c_switch_group_init`. The address is the allocator's choice. -/
def groupInit (p : GroupModParams) (ptr now : Nat) : Group :=
  let stale := hasFlag p.flags grpResidual && p.group.getLsbD 31
  { ptr, key := p.group, ref := 0
    body :=
      { appOwner := p.appOwner, type := p.type, actVectors := p.actVectors, lastSeen := now
        flags := if stale then setFlag p.flags grpStale else p.flags
        staleTime := if stale then now else 0 } }

/-- `c_switch_meter_init`. -/
def meterInit (p : MeterModParams) (ptr now : Nat) : Meter :=
  let stale := hasFlag p.cflags grpResidual && p.meter.getLsbD 31
  { ptr, key := p.meter, ref := 0
    body :=
      { appOwner := p.appOwner, flags := p.flags, meterBands := p.meterBands, lastSeen := now
        cflags := if stale then setFlag p.cflags grpStale else p.cflags
        staleTime := if stale then now else 0 } }

/-- `c_switch_group_add`. -/
def groupAdd (sw : Switch) (p : GroupModParams) (ptr now : Nat) : Switch × Int :=
  if sw.ofpCtors = .of10 then (sw, -1)
  else if groupValidateParms true p then
    let unlocked := { sw with lock := false }
    match RefTable.lookup sw.groups p.group with
    | some group =>
      let old := group.body
      match modVerdict old.flags p.flags (old.appOwner == p.appOwner)
        (old.actVectors == p.actVectors) with
      | none =>
        let body := { old with flags := clearFlag old.flags grpStale }
        ({ unlocked with groups := setBody sw.groups group.ptr body }, -eexist)
      | some (taken, install) =>
        let body := { old with
          appOwner := if taken then p.appOwner else old.appOwner
          type := p.type, flags := p.flags, actVectors := p.actVectors
          installed := false, lastScan := 0, lastSeen := now }
        let changed := { unlocked with
          groups := setBody sw.groups group.ptr body
          appRef := if taken then takeOver sw.appRef old.appOwner p.appOwner else sw.appRef }
        (changed.switchTx (groupAddMsgs sw p true install), 0)
    | none =>
      let added := { unlocked with
        groups := groupInit p ptr now :: sw.groups, appRef := countApp sw.appRef p.appOwner 1 }
      (added.switchTx (groupAddMsgs sw p false (!hasFlag p.flags grpResidual)), 0)
  else (sw, -1)

/-- `c_switch_group_del`. Another application's group is kept, with success. -/
def groupDel (sw : Switch) (p : GroupModParams) : Switch × Int :=
  if sw.ofpCtors = .of10 then (sw, -1)
  else if groupValidateParms false p then
    let unlocked := { sw with lock := false }
    match RefTable.lookup sw.groups p.group with
    | none => (unlocked, -1)
    | some group =>
      if group.ref ≠ 0 then (unlocked, -1)
      else if group.body.appOwner = p.appOwner then
        let removed := { unlocked with
          groups := removeKey sw.groups p.group, appRef := appPut sw.appRef p.appOwner }
        (removed.switchTx (if sw.master then [.groupDel p.group] else []), 0)
      else (unlocked, 0)
  else (sw, -1)

/-- `c_switch_meter_add`. A refused change clears the stale bit of the OpenFlow
flags, where a group's clears that of its controller flags. -/
def meterAdd (sw : Switch) (p : MeterModParams) (ptr now : Nat) : Switch × Int :=
  if sw.ofpCtors = .of10 then (sw, -1)
  else
    let unlocked := { sw with lock := false }
    match RefTable.lookup sw.meters p.meter with
    | some meter =>
      let old := meter.body
      match modVerdict old.cflags p.cflags (old.appOwner == p.appOwner)
        (old.meterBands == p.meterBands) with
      | none =>
        let body := { old with flags := clearFlag old.flags (grpStale.zeroExtend 16) }
        ({ unlocked with meters := setBody sw.meters meter.ptr body }, -eexist)
      | some (taken, install) =>
        let body := { old with
          appOwner := if taken then p.appOwner else old.appOwner
          flags := p.flags, cflags := p.cflags, meterBands := p.meterBands
          installed := false, lastScan := 0, lastSeen := now }
        let changed := { unlocked with
          meters := setBody sw.meters meter.ptr body
          appRef := if taken then takeOver sw.appRef old.appOwner p.appOwner else sw.appRef }
        (changed.switchTx (meterAddMsgs sw p true install), 0)
    | none =>
      let added := { unlocked with
        meters := meterInit p ptr now :: sw.meters, appRef := countApp sw.appRef p.appOwner 1 }
      (added.switchTx (meterAddMsgs sw p false (!hasFlag p.cflags grpResidual)), 0)

/-- `c_switch_meter_del`. -/
def meterDel (sw : Switch) (p : MeterModParams) : Switch × Int :=
  if sw.ofpCtors = .of10 then (sw, -1)
  else
    let unlocked := { sw with lock := false }
    match RefTable.lookup sw.meters p.meter with
    | none => (unlocked, -1)
    | some meter =>
      if meter.ref ≠ 0 then (unlocked, -1)
      else if meter.body.appOwner = p.appOwner then
        let removed := { unlocked with
          meters := removeKey sw.meters p.meter, appRef := appPut sw.appRef p.appOwner }
        (removed.switchTx (if sw.master then [.meterDel p.meter] else []), 0)
      else (unlocked, 0)

/-- One request changes one object: its body, or whether it is there at all. -/
inductive ObjectStep {Body : Type} (fresh : Option Nat) (table : List (Counted (BitVec 32) Body)) :
    List (Counted (BitVec 32) Body) → Prop where
  | same : ObjectStep fresh table table
  | changed (ptr : Nat) (body : Body) : ObjectStep fresh table (setBody table ptr body)
  | added {object : Counted (BitVec 32) Body} (address : fresh = some object.ptr)
    (unused : object.ref = 0)
      (absent : RefTable.lookup table object.key = none) : ObjectStep fresh table (object :: table)
  | removed {object : Counted (BitVec 32) Body} {key : BitVec 32}
      (found : RefTable.lookup table key = some object) (unused : object.ref = 0) :
      ObjectStep fresh table (removeKey table key)

/-- Only the named objects, the lock, the counts and the connection changed. -/
def GroupsOnly (sw next : Switch) (groups : List Group) : Prop :=
  ∃ lock appRef msgs, next = { sw with lock, groups, appRef, txQ := sw.txQ ++ msgs } ∧
    msgs.filterMap OfpMsg.flowMod? = []

def MetersOnly (sw next : Switch) (meters : List Meter) : Prop :=
  ∃ lock appRef msgs, next = { sw with lock, meters, appRef, txQ := sw.txQ ++ msgs } ∧
    msgs.filterMap OfpMsg.flowMod? = []

variable (sw : Switch)

theorem barrierRequest_quiet : sw.barrierRequest.filterMap OfpMsg.flowMod? = [] := by
  unfold Switch.barrierRequest
  split <;> rfl

private theorem addMsgs_quiet (sends barrier : Bool) (quiet : msg.flowMod? = none) :
    (if sends then msg :: if barrier then sw.barrierRequest else [] else []).filterMap
      OfpMsg.flowMod? = [] := by
  split
  · simp only [List.filterMap_cons, quiet]
    split
    · exact barrierRequest_quiet sw
    · rfl
  · rfl

private theorem groupsOnly_quiet (lock : Bool) (step : ObjectStep fresh sw.groups groups) :
    ∃ after, ObjectStep fresh sw.groups after ∧ GroupsOnly sw { sw with lock, groups } after :=
  ⟨groups, step, lock, sw.appRef, [], by simp, rfl⟩

private theorem metersOnly_quiet (lock : Bool) (step : ObjectStep fresh sw.meters meters) :
    ∃ after, ObjectStep fresh sw.meters after ∧ MetersOnly sw { sw with lock, meters } after :=
  ⟨meters, step, lock, sw.appRef, [], by simp, rfl⟩

theorem groupAdd_outcome (p : GroupModParams) (ptr now : Nat) :
    ∃ groups, ObjectStep (some ptr) sw.groups groups ∧
      GroupsOnly sw (groupAdd sw p ptr now).1 groups := by
  unfold groupAdd
  split
  · exact groupsOnly_quiet sw sw.lock .same
  split
  · dsimp only
    split
    · rename_i group found
      split
      · exact groupsOnly_quiet sw false (.changed group.ptr _)
      · exact ⟨_, .changed group.ptr _, false, _, _, rfl, addMsgs_quiet sw _ _ rfl⟩
    · rename_i absent
      exact ⟨_, .added rfl rfl absent, false, _, _, rfl, addMsgs_quiet sw _ _ rfl⟩
  · exact groupsOnly_quiet sw sw.lock .same

theorem groupDel_outcome (p : GroupModParams) :
    ∃ groups, ObjectStep none sw.groups groups ∧ GroupsOnly sw (groupDel sw p).1 groups := by
  unfold groupDel
  split
  · exact groupsOnly_quiet sw sw.lock .same
  split
  · split
    · exact groupsOnly_quiet sw false .same
    · rename_i group found
      split
      · exact groupsOnly_quiet sw false .same
      · rename_i unused
        split
        · refine ⟨_, .removed found (by simpa using unused), false, _, _, rfl, ?_⟩
          split <;> rfl
        · exact groupsOnly_quiet sw false .same
  · exact groupsOnly_quiet sw sw.lock .same

theorem meterAdd_outcome (p : MeterModParams) (ptr now : Nat) :
    ∃ meters, ObjectStep (some ptr) sw.meters meters ∧
      MetersOnly sw (meterAdd sw p ptr now).1 meters := by
  unfold meterAdd
  split
  · exact metersOnly_quiet sw sw.lock .same
  dsimp only
  split
  · rename_i meter found
    split
    · exact metersOnly_quiet sw false (.changed meter.ptr _)
    · exact ⟨_, .changed meter.ptr _, false, _, _, rfl, addMsgs_quiet sw _ _ rfl⟩
  · rename_i absent
    exact ⟨_, .added rfl rfl absent, false, _, _, rfl, addMsgs_quiet sw _ _ rfl⟩

theorem meterDel_outcome (p : MeterModParams) :
    ∃ meters, ObjectStep none sw.meters meters ∧ MetersOnly sw (meterDel sw p).1 meters := by
  unfold meterDel
  split
  · exact metersOnly_quiet sw sw.lock .same
  split
  · exact metersOnly_quiet sw false .same
  · rename_i meter found
    split
    · exact metersOnly_quiet sw false .same
    · rename_i unused
      split
      · refine ⟨_, .removed found (by simpa using unused), false, _, _, rfl, ?_⟩
        split <;> rfl
      · exact metersOnly_quiet sw false .same

end OpenMul
