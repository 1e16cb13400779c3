import OpenMul.Core.RefInvariant

namespace OpenMul

open Lib RefTable

/-- The owners of the objects of a table. -/
def ownersOf {Body : Type} (owner : Body → App) (table : List (Counted (BitVec 32) Body)) :
    List App :=
  table.map fun object => owner object.body

/-- The owners of all rules, groups and meters, with multiplicity. -/
def Switch.owners (sw : Switch) : List App :=
  sw.held FlEntry.appOwnerList ++
    (ownersOf GroupBody.appOwner sw.groups ++ ownersOf MeterBody.appOwner sw.meters)

/-- Counts and ownerships changed by the same amount. -/
def Accounted (sw next : Switch) : Prop :=
  ∀ app, next.appRef app - sw.appRef app = (next.owners.count app : Int) - sw.owners.count app

theorem Accounted.refl (sw : Switch) : Accounted sw sw := fun _ => by omega

theorem Accounted.trans (one : Accounted first second) (two : Accounted second third) :
    Accounted first third := by
  intro app
  have early := one app
  have late := two app
  omega

/-- Each rule counts its owners, and no two groups or meters share an address or
an id. -/
structure OwnersSound (sw : Switch) : Prop where
  rules : ∀ table, ∀ ent ∈ sw.rules table, OwnerOk ent
  groupPtrs : (sw.groups.map Counted.ptr).Nodup
  groupKeys : (sw.groups.map Counted.key).Nodup
  meterPtrs : (sw.meters.map Counted.ptr).Nodup
  meterKeys : (sw.meters.map Counted.key).Nodup

theorem countApp_apply (appRef : App → Int) (owner : App) (change : Int) (app : App) :
    countApp appRef owner change app = appRef app + change * [owner].count app := by
  by_cases same : app = owner
  · subst same
    simp [countApp]
  · simp [countApp, same, Ne.symm same]

theorem countApp_one (appRef : App → Int) (owner app : App) :
    countApp appRef owner 1 app = appRef app + [owner].count app := by
  rw [countApp_apply, Int.one_mul]

theorem countApp_neg_one (appRef : App → Int) (owner app : App) :
    countApp appRef owner (-1) app = appRef app - [owner].count app := by
  rw [countApp_apply]
  omega

theorem countAll_apply (owners : List App) (change : Int) (appRef : App → Int) (app : App) :
    owners.foldl (fun counts owner => countApp counts owner change) appRef app =
      appRef app + change * owners.count app := by
  induction owners generalizing appRef with
  | nil => simp
  | cons head rest ih =>
    rw [List.foldl_cons, ih, countApp_apply, Int.add_assoc, ← Int.mul_add]
    simp [List.count_cons, Int.add_comm]

/-- A request on the rules alone, by the stretch of rules it rewrites. -/
theorem Rewritten.accounted (rewritten : Rewritten sw next old new)
    (groups : ownersOf GroupBody.appOwner next.groups = ownersOf GroupBody.appOwner sw.groups)
    (meters : ownersOf MeterBody.appOwner next.meters = ownersOf MeterBody.appOwner sw.meters)
    (counts : ∀ app,
      next.appRef app - sw.appRef app = ((new.flatMap FlEntry.appOwnerList).count app : Int) -
        (old.flatMap FlEntry.appOwnerList).count app) : Accounted sw next := by
  intro app
  have moved := @Rewritten.count _ _ FlEntry.appOwnerList _ _ rewritten app
  simp only [Switch.owners, groups, meters, List.count_append, counts]
  omega

section

variable {Body : Type} (owner : Body → App) (table : List (Counted (BitVec 32) Body))

private theorem owners_exchange (taken dropped : List Nat) :
    ownersOf owner (exchange table taken dropped) = ownersOf owner table := by
  simp [ownersOf, exchange, shift, Function.comp_def]

theorem owners_release (dropped : List Nat) :
    ownersOf owner (release table dropped) = ownersOf owner table := by
  rw [release_eq_exchange, owners_exchange]

end

private theorem accounted_unlocked (sw : Switch) (lock : Bool) : Accounted sw { sw with lock } := by
  intro app
  change sw.appRef app - sw.appRef app = (sw.owners.count app : Int) - sw.owners.count app
  omega

private theorem accounted_replaced
    (bounded : table < maxRuleFlowTbls)
    (found : FirstAt test (sw.rules table) before ent after)
    (tbls : next.ruleFlowTbls = (sw.setRules table (before ++ changed :: after)).ruleFlowTbls)
    (groups : ownersOf GroupBody.appOwner next.groups = ownersOf GroupBody.appOwner sw.groups)
    (meters : ownersOf MeterBody.appOwner next.meters = ownersOf MeterBody.appOwner sw.meters)
    (counts : ∀ app, next.appRef app - sw.appRef app =
      (changed.appOwnerList.count app : Int) - ent.appOwnerList.count app) : Accounted sw next := by
  apply (Rewritten.of_setRules bounded found tbls).accounted groups meters
  simpa using counts

private theorem ownedAppRef_count (sw : Switch) (ent : FlEntry) (p : FlowModParams) (app : App) :
    ownedAppRef sw ent p app - sw.appRef app =
      ((ownedEntry ent p).appOwnerList.count app : Int) - ent.appOwnerList.count app := by
  by_cases residual : hasFlag ent.flags flEntResidual
  · simp only [ownedAppRef, ownedEntry, residual, if_true, flowDelAllAppOwner, countApp_one,
      countAll_apply]
    omega
  · simp [ownedAppRef, ownedEntry, residual]

private theorem sharedAppRef_count (appRef : App → Int) (ent : FlEntry) (owner app : App) :
    (flowAddAppOwner appRef ent owner).1 app - appRef app =
      ((flowAddAppOwner appRef ent owner).2.appOwnerList.count app : Int) - ent.appOwnerList.count
        app := by
  by_cases known : owner ∈ ent.appOwnerList
  · simp [flowAddAppOwner, flowAddAppOwnerLocked, known]
  · simp only [flowAddAppOwner, flowAddAppOwnerLocked, known, if_false, countApp_one,
      List.count_append]
    omega

theorem flowRuleAdd_accounted (sw : Switch) (p : FlowModParams) (now : Nat) :
    Accounted sw (flowRuleAdd sw p now).1 := by
  have outcome := @flowRuleAdd_outcome sw p now
  generalize flowRuleAdd sw p now = result at outcome
  cases outcome with
  | invalid => exact accounted_unlocked sw sw.lock
  | refused | unresolved => exact accounted_unlocked sw false
  | shared valid found =>
    exact accounted_replaced (tableOf_lt valid) found rfl rfl rfl (sharedAppRef_count sw.appRef _ _)
  | existing valid found | dropped valid found =>
    apply accounted_replaced (tableOf_lt valid) found rfl rfl rfl
    intro app
    simp [Switch.setRules]
  | missing valid found =>
    exact accounted_replaced (tableOf_lt valid) found rfl rfl rfl (ownedAppRef_count sw _ p)
  | modified valid found =>
    exact accounted_replaced (tableOf_lt valid) found rfl
      (owners_exchange GroupBody.appOwner sw.groups _ _)
      (owners_exchange MeterBody.appOwner sw.meters _ _) (ownedAppRef_count sw _ p)
  | @inserted grps mets valid =>
    apply (Rewritten.of_inserted valid rfl).accounted
      (owners_exchange GroupBody.appOwner sw.groups _ _)
      (owners_exchange MeterBody.appOwner sw.meters _ _)
    intro app
    simp [countApp_one, addedEntry, stampEntry]

theorem withoutOwner_count (appRef : App → Int) {ent : FlEntry} {owner : App}
    (owned : owner ∈ ent.appOwnerList) (app : App) : countApp appRef owner (-1) app - appRef app =
      ((withoutOwner owner ent).appOwnerList.count app : Int) - ent.appOwnerList.count app := by
  have listed : 0 < ent.appOwnerList.count owner := List.count_pos_iff.mpr owned
  rw [countApp_neg_one, withoutOwner]
  by_cases same : app = owner
  · subst same
    simp only [List.count_erase_self, List.count_singleton_self]
    omega
  · simp [Ne.symm same, List.count_erase_of_ne same]

theorem flowRuleDel_accounted (sw : Switch) (p : FlowModParams)
    (owners : ∀ ent ∈ sw.rules (tableOf p), OwnerOk ent) : Accounted sw (flowRuleDel sw p).1 := by
  have outcome := @flowRuleDel_outcome sw p
  generalize flowRuleDel sw p = result at outcome
  cases outcome with
  | invalid => exact accounted_unlocked sw sw.lock
  | missing => exact accounted_unlocked sw false
  | @kept before ent after valid found =>
    exact accounted_replaced (tableOf_lt valid) found rfl rfl rfl
      (withoutOwner_count sw.appRef found.owned)
  | @removed before ent after valid found last =>
    -- The count of the rule is one, so its only owner is the one that leaves.
    have single : ent.appOwnerList = [p.appOwner] := by
      have counted := (owners ent found.member).counted
      have one : ent.appOwnerList.length = 1 := by omega
      obtain ⟨owner, only⟩ := List.length_eq_one_iff.mp one
      have member := found.owned
      rw [only, List.mem_singleton] at member
      rw [only, member]
    apply (Rewritten.of_update before [ent] [] after (tableOf_lt valid) rfl
      (by simpa using found.split) (by simp)).accounted
    · exact owners_release GroupBody.appOwner sw.groups _
    · exact owners_release MeterBody.appOwner sw.meters _
    · intro app
      simp [countApp_neg_one, single]

section Objects

variable {Body : Type} {owner : Body → App} {table : List (Counted (BitVec 32) Body)}

private theorem setBody_absent (body : Body) (absent : ∀ object ∈ table, object.ptr ≠ ptr) :
    setBody table ptr body = table :=
  (List.map_congr_left fun object member => if_neg (absent object member)).trans (List.map_id table)

private theorem removeKey_absent (absent : ∀ object ∈ table, object.key ≠ key) :
    removeKey table key = table :=
  List.filter_eq_self.mpr fun object member => bne_iff_ne.mpr (absent object member)

private theorem others_differ {field : Counted (BitVec 32) Body → α}
    (distinct : ((before ++ object :: after).map field).Nodup) :
    (∀ other ∈ before, field other ≠ field object) ∧ ∀ other ∈ after,
      field other ≠ field object := by
  rw [List.map_append, List.map_cons, List.nodup_middle, List.nodup_cons, ← List.map_append]
    at distinct
  rw [← List.forall_mem_append]
  intro other member same
  exact distinct.1 (same ▸ List.mem_map_of_mem member)

private theorem count_around (before new after : List (Counted (BitVec 32) Body)) (app : App) :
    (ownersOf owner (before ++ new ++ after)).count app + [owner object.body].count app =
      (ownersOf owner (before ++ object :: after)).count app + (ownersOf owner new).count app := by
  simp only [ownersOf, List.map_append, List.map_cons, List.count_append, List.count_cons,
    List.count_nil]
  omega

theorem count_setBody (body : Body)
    (distinct : (table.map Counted.ptr).Nodup) (member : object ∈ table) (app : App) :
    (ownersOf owner (setBody table object.ptr body)).count app + [owner object.body].count app =
      (ownersOf owner table).count app + [owner body].count app := by
  obtain ⟨before, after, rfl⟩ := List.append_of_mem member
  obtain ⟨early, late⟩ := others_differ distinct
  have split : setBody (before ++ object :: after) object.ptr body =
      setBody before object.ptr body ++ [{ object with body }] ++ setBody after object.ptr
        body := by
    simp [setBody]
  rw [split, setBody_absent body early, setBody_absent body late, count_around]
  rfl

theorem count_removeKey (distinct : (table.map Counted.key).Nodup)
    (member : object ∈ table) (app : App) :
    (ownersOf owner (removeKey table object.key)).count app + [owner object.body].count app =
      (ownersOf owner table).count app := by
  obtain ⟨before, after, rfl⟩ := List.append_of_mem member
  obtain ⟨early, late⟩ := others_differ distinct
  have split : removeKey (before ++ object :: after) object.key =
      removeKey before object.key ++ [] ++ removeKey after object.key := by
    simp [removeKey]
  rw [split, removeKey_absent early, removeKey_absent late, count_around]
  rfl

end Objects

/-- Every ownership has its reference. -/
def Covered (sw : Switch) : Prop := ∀ app, (sw.owners.count app : Int) ≤ sw.appRef app

section Moved

variable {Body : Type} {owner : Body → App} {table : List (Counted (BitVec 32) Body)}
  {object : Counted (BitVec 32) Body} {appRef : App → Int}

/-- The counts moved with the owners of a table's objects. -/
def Moved (owner : Body → App) (appRef next : App → Int)
    (table after : List (Counted (BitVec 32) Body)) : Prop :=
  ∀ app, next app - appRef app = ((ownersOf owner after).count app : Int) -
    (ownersOf owner table).count app

theorem appPut_held (held : 0 < appRef old) : appPut appRef old = countApp appRef old (-1) := by
  rw [appPut, if_neg (by omega)]

private theorem moved_setBody (distinct : (table.map Counted.ptr).Nodup) (member : object ∈ table)
    (held : 0 < appRef (owner object.body)) (taken : Bool) (new : App)
    (owned : owner body = if taken then new else owner object.body) :
    Moved owner appRef (if taken then takeOver appRef (owner object.body) new else appRef) table
      (setBody table object.ptr body) := by
  intro app
  have counts := @count_setBody _ owner _ _ body distinct member app
  rw [owned] at counts
  cases taken with
  | false =>
    simp only [Bool.false_eq_true, if_false] at counts ⊢
    omega
  | true =>
    simp only [if_true, takeOver, appPut_held held, countApp_one, countApp_neg_one] at counts ⊢
    omega

private theorem moved_cons (owner : Body → App) (appRef : App → Int)
    (object : Counted (BitVec 32) Body) (table : List (Counted (BitVec 32) Body)) :
    Moved owner appRef (countApp appRef (owner object.body) 1) table (object :: table) := by
  intro app
  simp only [countApp_one, ownersOf, List.map_cons, List.count_cons, List.count_nil]
  omega

private theorem moved_removeKey (distinct : (table.map Counted.key).Nodup) (member : object ∈ table)
    (held : 0 < appRef (owner object.body)) :
    Moved owner appRef (appPut appRef (owner object.body)) table (removeKey table object.key) := by
  intro app
  have counts := @count_removeKey _ owner _ _ distinct member app
  rw [appPut_held held, countApp_neg_one]
  omega

end Moved

section Requests

variable {sw next : Switch}

section

variable (tbls : next.ruleFlowTbls = sw.ruleFlowTbls)
include tbls

theorem held_of_tbls : next.held FlEntry.appOwnerList = sw.held FlEntry.appOwnerList := by
  have rules : next.rules = sw.rules := by
    funext table
    rw [Switch.rules, tbls, Switch.rules]
  rw [Switch.held, Switch.allRules, rules, Switch.held, Switch.allRules]

theorem accounted_groups (meters : next.meters = sw.meters)
    (moved : Moved GroupBody.appOwner sw.appRef next.appRef sw.groups next.groups) :
    Accounted sw next := by
  intro app
  have counts := moved app
  simp only [Switch.owners, held_of_tbls tbls, meters, List.count_append]
  omega

theorem accounted_meters (groups : next.groups = sw.groups)
    (moved : Moved MeterBody.appOwner sw.appRef next.appRef sw.meters next.meters) :
    Accounted sw next := by
  intro app
  have counts := moved app
  simp only [Switch.owners, held_of_tbls tbls, groups, List.count_append]
  omega

end

private theorem owner_held (covered : Covered sw) (owner : app ∈ sw.owners) :
    0 < sw.appRef app := by
  have listed : 0 < sw.owners.count app := List.count_pos_iff.mpr owner
  have enough := covered app
  omega

private theorem group_held (covered : Covered sw) (member : group ∈ sw.groups) :
    0 < sw.appRef group.body.appOwner :=
  owner_held covered (List.mem_append_right _ (List.mem_append_left _ (List.mem_map_of_mem member)))

private theorem meter_held (covered : Covered sw) (member : meter ∈ sw.meters) :
    0 < sw.appRef meter.body.appOwner :=
  owner_held covered
    (List.mem_append_right _ (List.mem_append_right _ (List.mem_map_of_mem member)))

section

variable (sound : OwnersSound sw) (covered : Covered sw)
include sound covered

theorem groupAdd_accounted (p : GroupModParams)
    (ptr now : Nat) : Accounted sw (groupAdd sw p ptr now).1 := by
  unfold groupAdd
  split
  · exact accounted_unlocked sw sw.lock
  split
  · dsimp only
    split
    · rename_i group found
      have member := mem_of_lookup found
      have held := group_held covered member
      split
      · exact accounted_groups rfl rfl (moved_setBody sound.groupPtrs member held false 0 rfl)
      · exact accounted_groups rfl rfl (moved_setBody sound.groupPtrs member held _ p.appOwner rfl)
    · exact accounted_groups rfl rfl
        (moved_cons GroupBody.appOwner sw.appRef (groupInit p ptr now) _)
  · exact accounted_unlocked sw sw.lock

theorem meterAdd_accounted (p : MeterModParams)
    (ptr now : Nat) : Accounted sw (meterAdd sw p ptr now).1 := by
  unfold meterAdd
  split
  · exact accounted_unlocked sw sw.lock
  dsimp only
  split
  · rename_i meter found
    have member := mem_of_lookup found
    have held := meter_held covered member
    split
    · exact accounted_meters rfl rfl (moved_setBody sound.meterPtrs member held false 0 rfl)
    · exact accounted_meters rfl rfl (moved_setBody sound.meterPtrs member held _ p.appOwner rfl)
  · exact accounted_meters rfl rfl (moved_cons MeterBody.appOwner sw.appRef (meterInit p ptr now) _)

theorem groupDel_accounted (p : GroupModParams) : Accounted sw (groupDel sw p).1 := by
  unfold groupDel
  split
  · exact accounted_unlocked sw sw.lock
  split
  · split
    · exact accounted_unlocked sw false
    · rename_i group found
      split
      · exact accounted_unlocked sw false
      split
      · rename_i owner
        have member := mem_of_lookup found
        rw [← owner, ← key_of_lookup found]
        exact accounted_groups rfl rfl
          (moved_removeKey sound.groupKeys member (group_held covered member))
      · exact accounted_unlocked sw false
  · exact accounted_unlocked sw sw.lock

theorem meterDel_accounted (p : MeterModParams) : Accounted sw (meterDel sw p).1 := by
  unfold meterDel
  split
  · exact accounted_unlocked sw sw.lock
  split
  · exact accounted_unlocked sw false
  · rename_i meter found
    split
    · exact accounted_unlocked sw false
    split
    · rename_i owner
      have member := mem_of_lookup found
      rw [← owner, ← key_of_lookup found]
      exact accounted_meters rfl rfl
        (moved_removeKey sound.meterKeys member (meter_held covered member))
    · exact accounted_unlocked sw false

end

end Requests

namespace OwnersSound

variable {sw next : Switch}

theorem maps_exchange {Field : Type} {field : Counted (BitVec 32) Body → Field}
    (kept : ∀ object ref, field { object with ref } = field object)
    (table : List (Counted (BitVec 32) Body)) (taken dropped : List Nat) :
    (exchange table taken dropped).map field = table.map field := by
  simp [exchange, shift, Function.comp_def, kept]

/-- Rules from earlier ones or just linked, over object tables whose references moved. -/
private theorem of_rules (sound : OwnersSound sw) (same : next = exec sw op)
    (groups : ∃ taken dropped, next.groups = exchange sw.groups taken dropped)
    (meters : ∃ taken dropped, next.meters = exchange sw.meters taken dropped) :
    OwnersSound next := by
  obtain ⟨taken, dropped, groups⟩ := groups
  obtain ⟨takenMeters, droppedMeters, meters⟩ := meters
  refine ⟨?_, ?_, ?_, ?_, ?_⟩
  · intro table ent member
    rw [same] at member
    rcases exec_entries sw op table ent member with
      ⟨old, present, step⟩ | ⟨p, now, grps, mets, -, -, -, rfl⟩
    · exact (sound.rules table old present).step step
    · exact .added sw p grps mets now
  · rw [groups, maps_exchange fun _ _ => rfl]
    exact sound.groupPtrs
  · rw [groups, maps_exchange fun _ _ => rfl]
    exact sound.groupKeys
  · rw [meters, maps_exchange fun _ _ => rfl]
    exact sound.meterPtrs
  · rw [meters, maps_exchange fun _ _ => rfl]
    exact sound.meterKeys

private theorem exchange_none (table : List (Counted (BitVec 32) Body)) :
    ∃ taken dropped, table = exchange table taken dropped :=
  ⟨[], [], (exchange_self table []).symm⟩

theorem flowAdd (sound : OwnersSound sw) (p : FlowModParams) (now : Nat) :
    OwnersSound (flowRuleAdd sw p now).1 := by
  have same : (flowRuleAdd sw p now).1 = exec sw (.flowAdd p now) := rfl
  have outcome := @flowRuleAdd_outcome sw p now
  generalize flowRuleAdd sw p now = result at outcome same
  apply sound.of_rules same
  all_goals cases outcome with
    | invalid | refused | unresolved | shared | existing | dropped
    | missing => exact exchange_none _
    | modified | inserted => exact ⟨_, _, rfl⟩

theorem flowDel (sound : OwnersSound sw) (p : FlowModParams) :
    OwnersSound (flowRuleDel sw p).1 := by
  have same : (flowRuleDel sw p).1 = exec sw (.flowDel p) := rfl
  have outcome := @flowRuleDel_outcome sw p
  generalize flowRuleDel sw p = result at outcome same
  apply sound.of_rules same
  all_goals cases outcome with
    | invalid | missing | kept => exact exchange_none _
    | removed => exact ⟨_, _, release_eq_exchange _ _⟩

private theorem distinct_step
    (step : ObjectStep fresh table after)
    (free : ∀ ptr, fresh = some ptr → ∀ object ∈ table, object.ptr ≠ ptr)
    (ptrs : (table.map Counted.ptr).Nodup) (keys : (table.map Counted.key).Nodup) :
    (after.map Counted.ptr).Nodup ∧ (after.map Counted.key).Nodup := by
  cases step with
  | same => exact ⟨ptrs, keys⟩
  | changed ptr body =>
    rw [map_setBody _ fun _ _ => rfl, map_setBody _ fun _ _ => rfl]
    exact ⟨ptrs, keys⟩
  | added address _ absent =>
    have tracked : Tracked (fun _ _ => True) table [] := ⟨ptrs, keys, by simp, fun _ _ => trivial⟩
    have after := tracked.cons (free _ address) absent trivial
    exact ⟨after.distinct, after.keys⟩
  | removed =>
    exact ⟨ptrs.sublist (List.filter_sublist.map _), keys.sublist (List.filter_sublist.map _)⟩

section

variable (sound : OwnersSound sw)
include sound

private theorem of_groups (step : ObjectStep fresh sw.groups groups)
    (free : ∀ ptr, fresh = some ptr → ∀ group ∈ sw.groups, group.ptr ≠ ptr)
    (only : GroupsOnly sw next groups) : OwnersSound next := by
  obtain ⟨ptrs, keys⟩ := distinct_step step free sound.groupPtrs sound.groupKeys
  obtain ⟨lock, appRef, msgs, rfl, -⟩ := only
  exact ⟨sound.rules, ptrs, keys, sound.meterPtrs, sound.meterKeys⟩

private theorem of_meters (step : ObjectStep fresh sw.meters meters)
    (free : ∀ ptr, fresh = some ptr → ∀ meter ∈ sw.meters, meter.ptr ≠ ptr)
    (only : MetersOnly sw next meters) : OwnersSound next := by
  obtain ⟨ptrs, keys⟩ := distinct_step step free sound.meterPtrs sound.meterKeys
  obtain ⟨lock, appRef, msgs, rfl, -⟩ := only
  exact { sound with meterPtrs := ptrs, meterKeys := keys }

theorem groupAdd (p : GroupModParams) (now : Nat) (free : ∀ group ∈ sw.groups, group.ptr ≠ ptr) :
    OwnersSound (groupAdd sw p ptr now).1 := by
  obtain ⟨groups, step, only⟩ := groupAdd_outcome sw p ptr now
  exact sound.of_groups step (fun _ same => Option.some.inj same ▸ free) only

theorem groupDel (p : GroupModParams) : OwnersSound (groupDel sw p).1 := by
  obtain ⟨groups, step, only⟩ := groupDel_outcome sw p
  exact sound.of_groups step (by simp) only

theorem meterAdd (p : MeterModParams) (now : Nat) (free : ∀ meter ∈ sw.meters, meter.ptr ≠ ptr) :
    OwnersSound (meterAdd sw p ptr now).1 := by
  obtain ⟨meters, step, only⟩ := meterAdd_outcome sw p ptr now
  exact sound.of_meters step (fun _ same => Option.some.inj same ▸ free) only

theorem meterDel (p : MeterModParams) : OwnersSound (meterDel sw p).1 := by
  obtain ⟨meters, step, only⟩ := meterDel_outcome sw p
  exact sound.of_meters step (by simp) only

end

end OwnersSound

end OpenMul
