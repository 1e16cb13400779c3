import OpenMul.Core.AppOwners

namespace OpenMul

open Lib RefTable List

/-- The last owner of a rule that counts its owners is its only one. -/
theorem OwnerOk.single {ent : FlEntry} (ok : OwnerOk ent) (owned : app ∈ ent.appOwnerList)
    (last : ent.appRef - 1 = 0) : ent.appOwnerList = [app] := by
  have counted := ok.counted
  have one : ent.appOwnerList.length = 1 := by omega
  obtain ⟨owner, only⟩ := length_eq_one_iff.mp one
  rw [only, mem_singleton] at owned
  rw [only, owned]

private theorem delAppFlowRule_last (sw : Switch) (owned : app ∈ ent.appOwnerList)
    (last : ent.appRef - 1 = 0) (rest : List FlEntry) :
    ∃ freed : Switch, delAppFlowRule sw app (ent :: rest) = delAppFlowRule freed app rest ∧
      freed.appRef = countApp sw.appRef app (-1) := by
  rw [delAppFlowRule, if_pos owned]
  simp only [flowDelAppOwner, last, if_true]
  refine ⟨_, rfl, ?_⟩
  split <;> rfl

/-- A walk over the rules of a table counts one off for each rule it takes from
the application. -/
theorem delAppFlowRule_counts (sw : Switch) (app : App) (list : List FlEntry)
    (ok : ∀ ent ∈ list, OwnerOk ent) (other : App) :
    let result := delAppFlowRule sw app list
    result.1.appRef other - sw.appRef other =
      ((result.2.flatMap FlEntry.appOwnerList).count other : Int) -
        (list.flatMap FlEntry.appOwnerList).count other := by
  induction list generalizing sw with
  | nil => simp [delAppFlowRule]
  | cons ent rest ih =>
    have later := fun sw => ih sw fun ent member => ok ent (mem_cons_of_mem _ member)
    by_cases owned : app ∈ ent.appOwnerList
    · have dropped := withoutOwner_count sw.appRef owned other
      by_cases last : ent.appRef - 1 = 0
      · have single := (ok ent mem_cons_self).single owned last
        have gone : (withoutOwner app ent).appOwnerList = [] := by simp [withoutOwner, single]
        obtain ⟨freed, run, counts⟩ := delAppFlowRule_last sw owned last rest
        have tail := later freed
        rw [run, flatMap_cons, count_append]
        rw [counts] at tail
        rw [gone] at dropped
        simp only [count_nil] at tail dropped ⊢
        omega
      · have tail := later { sw with appRef := countApp sw.appRef app (-1) }
        simp only [delAppFlowRule, owned, if_true, flowDelAppOwner, last, if_false] at tail ⊢
        simp only [flatMap_cons, count_append, withoutOwner] at tail dropped ⊢
        omega
    · have tail := later sw
      simp only [delAppFlowRule, owned, if_false, flatMap_cons, count_append] at tail ⊢
      omega

private theorem delAppFlowRule_accounted (sw : Switch) (app : App)
    (bounded : table < maxRuleFlowTbls) (ok : ∀ ent ∈ sw.rules table, OwnerOk ent) :
    let swept := delAppFlowRule sw app (sw.rules table)
    Accounted sw (swept.1.setRules table swept.2) ∧
      ∀ other ≠ table, (swept.1.setRules table swept.2).rules other = sw.rules other := by
  have counts := delAppFlowRule_counts sw app (sw.rules table) ok
  obtain ⟨appRef, eq⟩ := delAppFlowRule_eq sw app (sw.rules table)
  rw [eq] at counts ⊢
  constructor
  · apply (Rewritten.of_update [] (sw.rules table) ((sw.rules table).filterMap (keepOwned app)) []
      bounded rfl (by simp) (by simp)).accounted
    · exact owners_release GroupBody.appOwner sw.groups _
    · exact owners_release MeterBody.appOwner sw.meters _
    · exact counts
  · intro other different
    simp [Switch.setRules, Switch.rules, different]

private theorem foldl_delAppFlowRule (app : App) (tables : List Nat) (distinct : tables.Nodup)
    (bounded : ∀ table ∈ tables, table < maxRuleFlowTbls) (sw : Switch)
    (ok : ∀ table ∈ tables, ∀ ent ∈ sw.rules table, OwnerOk ent) :
    Accounted sw (tables.foldl (fun sw table =>
      (delAppFlowRule sw app (sw.rules table)).1.setRules table
        (delAppFlowRule sw app (sw.rules table)).2) sw) := by
  induction tables generalizing sw with
  | nil =>
    intro app
    simp
  | cons table rest ih =>
    obtain ⟨absent, distinctRest⟩ := nodup_cons.mp distinct
    obtain ⟨head, others⟩ := delAppFlowRule_accounted sw app (bounded table mem_cons_self)
      (ok table mem_cons_self)
    apply head.trans
    apply ih distinctRest fun other member => bounded other (mem_cons_of_mem _ member)
    intro other member
    rw [others other fun same => absent (same ▸ member)]
    exact ok other (mem_cons_of_mem _ member)

theorem delAppFlowOwner_accounted (sound : OwnersSound sw) (app : App) :
    Accounted sw (delAppFlowOwner sw app) :=
  foldl_delAppFlowRule app _ nodup_range (fun _ member => mem_range.mp member) sw
    fun table _ => sound.rules table

theorem foldl_appPut (owners : List App) (appRef : App → Int)
    (held : ∀ app, (owners.count app : Int) ≤ appRef app) (app : App) :
    owners.foldl appPut appRef app = appRef app - owners.count app := by
  induction owners generalizing appRef with
  | nil => simp
  | cons head rest ih =>
    have first : 0 < appRef head := by
      have enough := held head
      rw [count_cons_self] at enough
      omega
    rw [foldl_cons, appPut_held first, ih, countApp_neg_one]
    · simp only [count_cons, count_nil]
      omega
    · intro other
      have enough := held other
      rw [countApp_neg_one]
      simp only [count_cons, count_nil] at enough ⊢
      omega

theorem moved_departed {table : List (Counted (BitVec 32) Body)}
    (held : ((ownersOf owner table).count app : Int) ≤ appRef app)
    (others : ∀ other, 0 ≤ appRef other) :
    Moved owner appRef ((table.filter fun object => owner object.body == app).foldl
      (fun counts _ => appPut counts app) appRef) table
      (table.filter fun object => owner object.body != app) := by
  have total : (table.filter fun object => owner object.body == app).length =
      (ownersOf owner table).count app := by
    rw [ownersOf, count, countP_map, countP_eq_length_filter]
    rfl
  have puts :
      (table.filter fun object => owner object.body == app).foldl
        (fun counts _ => appPut counts app)
      appRef = (replicate ((ownersOf owner table).count app) app).foldl appPut appRef := by
    rw [← total, ← map_const', foldl_map]
  intro other
  rw [puts, foldl_appPut]
  · by_cases same : other = app
    · subst same
      have gone :
          other ∉ ownersOf owner (table.filter fun object => owner object.body != other) := by
        simp [ownersOf]
      simp [count_eq_zero_of_not_mem gone]
    · have kept :
          (ownersOf owner (table.filter fun object => owner object.body != app)).count other =
          (ownersOf owner table).count other := by
        simp only [ownersOf, count, countP_map, countP_filter]
        apply countP_congr
        intro object _
        simp only [Function.comp_apply, Bool.and_eq_true, beq_iff_eq, bne_iff_ne, ne_eq]
        exact ⟨And.left, fun here => ⟨here, here ▸ same⟩⟩
      rw [kept, count_replicate]
      simp [Ne.symm same]
  · intro other
    rw [count_replicate]
    split
    · rename_i same
      rw [beq_iff_eq] at same
      exact same ▸ held
    · exact others other

/-- All that holds a reference to an application on a switch. -/
def Switch.holders (sw : Switch) : List App := sw.appList ++ sw.owners

/-- Every holder has its reference. -/
def Enough (sw : Switch) : Prop := ∀ app, (sw.holders.count app : Int) ≤ sw.appRef app

/-- Counts and holders changed by the same amount. -/
def Settled (sw next : Switch) : Prop :=
  ∀ app, next.appRef app - sw.appRef app = (next.holders.count app : Int) - sw.holders.count app

section Settled

variable {sw middle next : Switch} {app : App}

theorem Settled.refl (sw : Switch) : Settled sw sw := by
  intro app
  simp

theorem Settled.trans (first : Settled sw middle) (second : Settled middle next) :
    Settled sw next := by
  intro app
  have early := first app
  have late := second app
  omega

theorem Settled.enough (settled : Settled sw next) (enough : Enough sw) : Enough next := by
  intro app
  have before := enough app
  have moved := settled app
  omega

theorem Enough.covered (enough : Enough sw) : Covered sw := by
  intro app
  have all := enough app
  rw [Switch.holders, count_append] at all
  omega

theorem Enough.nonneg (enough : Enough sw) (app : App) : 0 ≤ sw.appRef app := by
  have all := enough app
  omega

/-- A request on what is owned, which leaves the list alone. -/
theorem Accounted.settled (accounted : Accounted sw next) (list : next.appList = sw.appList) :
    Settled sw next := by
  intro app
  have moved := accounted app
  simp only [Switch.holders, list, count_append]
  omega

theorem Settled.of_list (owners : next.owners = sw.owners)
    (counts : ∀ app, next.appRef app - sw.appRef app =
      (next.appList.count app : Int) - sw.appList.count app) : Settled sw next := by
  intro app
  have moved := counts app
  simp only [Switch.holders, owners, count_append]
  omega

theorem perSwitchAppRegister_settled (sw : Switch) (app : App) :
    Settled sw (perSwitchAppRegister sw app) := by
  simp only [perSwitchAppRegister]
  split
  · exact .refl sw
  · refine Settled.of_list ?_ ?_
    · rfl
    · intro other
      simp only [countApp_one, count_append]
      omega

theorem settled_erase (enough : Enough sw) (listed : app ∈ sw.appList) (lock : Bool) :
    Settled sw
      { sw with lock, appList := sw.appList.erase app, appRef := appPut sw.appRef app } := by
  have present : 0 < sw.appList.count app := count_pos_iff.mpr listed
  have held : 0 < sw.appRef app := by
    have all := enough app
    rw [Switch.holders, count_append] at all
    omega
  refine Settled.of_list ?_ ?_
  · rfl
  · intro other
    simp only [appPut_held held, countApp_neg_one]
    by_cases same : other = app
    · subst same
      simp only [count_erase_self, count_singleton_self]
      omega
    · simp [Ne.symm same, count_erase_of_ne same]

end Settled

section Departure

variable {sw : Switch}

theorem delAppFlowOwner_appList (sw : Switch) (app : App) :
    (delAppFlowOwner sw app).appList = sw.appList := by
  obtain ⟨appRef, eq⟩ := delAppFlowOwner_eq sw app
  rw [eq]
  rfl

private theorem objects_appList (sw : Switch) (app : App) :
    (delMeterWithOwner (delGroupWithOwner (delAppFlowOwner sw app) app) app).appList =
      sw.appList := by
  simp [delMeterWithOwner, delGroupWithOwner, delAppFlowOwner_appList]

private theorem delGroupWithOwner_settled (enough : Enough sw) (app : App) :
    Settled sw (delGroupWithOwner sw app) := by
  have all := enough.covered app
  simp only [Switch.owners, count_append] at all
  have accounted : Accounted sw (delGroupWithOwner sw app) :=
    accounted_groups rfl rfl (moved_departed (by omega) enough.nonneg)
  exact accounted.settled rfl

private theorem delMeterWithOwner_settled (enough : Enough sw) (app : App) :
    Settled sw (delMeterWithOwner sw app) := by
  have all := enough.covered app
  simp only [Switch.owners, count_append] at all
  have accounted : Accounted sw (delMeterWithOwner sw app) :=
    accounted_meters rfl rfl (moved_departed (by omega) enough.nonneg)
  exact accounted.settled rfl

/-- An application that leaves a switch gives back what it holds there. -/
theorem perSwitchAppUnregister_settled (sound : OwnersSound sw) (enough : Enough sw) (app : App) :
    Settled sw (perSwitchAppUnregister sw app) := by
  have rules := (delAppFlowOwner_accounted sound app).settled (delAppFlowOwner_appList sw app)
  have groups := rules.trans (delGroupWithOwner_settled (rules.enough enough) app)
  have meters := groups.trans (delMeterWithOwner_settled (groups.enough enough) app)
  have list := objects_appList sw app
  unfold perSwitchAppUnregister
  generalize delMeterWithOwner (delGroupWithOwner (delAppFlowOwner sw app) app) app = swept
    at meters list
  split
  · rename_i listed
    rw [← list] at listed ⊢
    exact meters.trans (settled_erase (meters.enough enough) listed false)
  · exact meters

theorem perSwitchAppUnregister_appList (sw : Switch) (app : App) :
    (perSwitchAppUnregister sw app).appList = sw.appList.erase app := by
  have list := objects_appList sw app
  unfold perSwitchAppUnregister
  generalize delMeterWithOwner (delGroupWithOwner (delAppFlowOwner sw app) app) app = swept at list
  split
  · rfl
  · rename_i absent
    rw [erase_of_not_mem absent]
    exact list

/-- What is left of the objects when an application leaves a switch. -/
theorem perSwitchAppUnregister_objects (sw : Switch) (app : App) :
    let next := perSwitchAppUnregister sw app
    (∀ table, next.rules table = if table ∈ range maxRuleFlowTbls
      then (sw.rules table).filterMap (keepOwned app) else sw.rules table) ∧
    (∃ dropped, next.groups = (release sw.groups dropped).filter
      fun group => group.body.appOwner != app) ∧
    ∃ dropped, next.meters = (release sw.meters dropped).filter fun meter =>
      meter.body.appOwner != app := by
  obtain ⟨appRef, eq⟩ := delAppFlowOwner_eq sw app
  have rules := rules_swept (keepOwned app) (sweepMsgs sw.ofpCtors sw.master) sw
    (range maxRuleFlowTbls) appRef
  simp only [perSwitchAppUnregister, delMeterWithOwner, delGroupWithOwner, eq]
  split <;> exact ⟨rules, ⟨_, rfl⟩, ⟨_, rfl⟩⟩

private theorem departed_nodup {Body Field : Type} {field : Counted (BitVec 32) Body → Field}
    (kept : ∀ object ref, field { object with ref } = field object)
    {table : List (Counted (BitVec 32) Body)} (distinct : (table.map field).Nodup)
    (dropped : List Nat) (select : Counted (BitVec 32) Body → Bool) :
    (((release table dropped).filter select).map field).Nodup := by
  apply List.Nodup.sublist (filter_sublist.map field)
  rw [release_eq_exchange, OwnersSound.maps_exchange kept]
  exact distinct

theorem OwnersSound.appUnregister (sound : OwnersSound sw) (app : App) :
    OwnersSound (perSwitchAppUnregister sw app) := by
  obtain ⟨-, ⟨_, groups⟩, ⟨_, meters⟩⟩ := perSwitchAppUnregister_objects sw app
  refine ⟨?_, ?_, ?_, ?_, ?_⟩
  · intro table ent member
    rcases exec_entries sw (.appUnregister app) table ent member with
      ⟨old, present, step⟩ | ⟨_, _, _, _, same, -⟩
    · exact (sound.rules table old present).step step
    · cases same
  · rw [groups]
    exact departed_nodup (fun _ _ => rfl) sound.groupPtrs _ _
  · rw [groups]
    exact departed_nodup (fun _ _ => rfl) sound.groupKeys _ _
  · rw [meters]
    exact departed_nodup (fun _ _ => rfl) sound.meterPtrs _ _
  · rw [meters]
    exact departed_nodup (fun _ _ => rfl) sound.meterKeys _ _

private theorem owners_departed
    (member : other ∈
      ownersOf owner ((release table dropped).filter fun object => owner object.body != app)) :
    other ∈ ownersOf owner table ∧ other ≠ app := by
  obtain ⟨object, inside, rfl⟩ := mem_map.mp member
  obtain ⟨present, differs⟩ := mem_filter.mp inside
  constructor
  · rw [← owners_release owner table dropped]
    exact mem_map_of_mem present
  · simpa using differs

theorem perSwitchAppUnregister_owners (sound : OwnersSound sw)
    (member : other ∈ (perSwitchAppUnregister sw app).owners) :
    other ∈ sw.owners ∧ other ≠ app := by
  obtain ⟨rules, ⟨_, groups⟩, ⟨_, meters⟩⟩ := perSwitchAppUnregister_objects sw app
  simp only [Switch.owners, mem_append, groups, meters] at member ⊢
  rcases member with held | grouped | metered
  · obtain ⟨ent, inside, owner⟩ := mem_flatMap.mp held
    obtain ⟨table, bounded, present⟩ := mem_flatMap.mp inside
    rw [rules, if_pos bounded] at present
    obtain ⟨old, before, keeps⟩ := mem_filterMap.mp present
    have there : ∀ {owner}, owner ∈ old.appOwnerList → owner ∈ sw.held FlEntry.appOwnerList :=
      fun owns =>
      mem_flatMap.mpr ⟨old, mem_flatMap.mpr ⟨table, bounded, before⟩, owns⟩
    -- A rule stays as it is, or less the application that leaves.
    rcases keepOwned_cases keeps with rfl | ⟨owned, -, rfl⟩
    · refine ⟨.inl (there owner), ?_⟩
      rintro rfl
      have ok := sound.rules table ent before
      simp only [keepOwned, owner, if_true] at keeps
      split at keeps
      · cases keeps
      · have erased := congrArg FlEntry.appOwnerList (Option.some.inj keeps)
        simp only [withoutOwner] at erased
        rw [← erased, ok.nodup.mem_erase_iff] at owner
        exact owner.1 rfl
    · simp only [withoutOwner] at owner
      rw [(sound.rules table old before).nodup.mem_erase_iff] at owner
      exact ⟨.inl (there owner.2), owner.1⟩
  · obtain ⟨before, differs⟩ := owners_departed grouped
    exact ⟨.inr (.inl before), differs⟩
  · obtain ⟨before, differs⟩ := owners_departed metered
    exact ⟨.inr (.inr before), differs⟩

end Departure

end OpenMul
