import OpenMul.Core.OwnerInvariant

namespace OpenMul

open Lib RefTable

theorem allRules_split (sw : Switch) (bounded : table < maxRuleFlowTbls) :
    ∃ before after : List FlEntry, ∀ other : Switch,
      (∀ query, query ≠ table → other.rules query = sw.rules query) →
        other.allRules = before ++ other.rules table ++ after := by
  obtain ⟨low, high, range⟩ := List.append_of_mem (List.mem_range.mpr bounded)
  have distinct : (low ++ table :: high).Nodup := range ▸ List.nodup_range
  rw [List.nodup_middle, List.nodup_cons, List.mem_append, not_or] at distinct
  refine ⟨low.flatMap sw.rules, high.flatMap sw.rules, ?_⟩
  intro other same
  have lower : low.flatMap other.rules = low.flatMap sw.rules :=
    List.flatMap_congr fun query member => same query fun here => distinct.1.1 (here ▸ member)
  have higher : high.flatMap other.rules = high.flatMap sw.rules :=
    List.flatMap_congr fun query member => same query fun here => distinct.1.2 (here ▸ member)
  rw [Switch.allRules, range, List.flatMap_append, List.flatMap_cons, lower, higher,
    List.append_assoc]

variable {keep : FlEntry → Option FlEntry} {msgs : FlEntry → List OfpMsg}

theorem allRules_swept (sw : Switch) (appRef : App → Int) :
    (swept keep msgs sw (List.range maxRuleFlowTbls) appRef).allRules =
      sw.allRules.filterMap keep := by
  rw [Switch.allRules, Switch.allRules, List.filterMap_flatMap]
  exact List.flatMap_congr fun table member => by rw [rules_swept, if_pos member]

/-- One stretch of all rules was rewritten. -/
def Rewritten (sw next : Switch) (old new : List FlEntry) : Prop :=
  ∃ lower higher, sw.allRules = lower ++ old ++ higher ∧ next.allRules = lower ++ new ++ higher

theorem Rewritten.of_update {next : Switch} {tbl : FlowTbl} (before old new after : List FlEntry)
    (bounded : table < maxRuleFlowTbls)
    (tbls : next.ruleFlowTbls = Function.update sw.ruleFlowTbls table tbl) (split :
      sw.rules table = before ++ old ++ after) (rules : tbl.ruleFlTbl = before ++ new ++ after) :
    Rewritten sw next old new := by
  obtain ⟨lower, higher, around⟩ := allRules_split sw bounded
  refine ⟨lower ++ before, after ++ higher, ?_, ?_⟩
  · rw [around sw fun _ _ => rfl, split]
    simp
  · have here : next.rules table = before ++ new ++ after := by simp [Switch.rules, tbls, rules]
    rw [around next, here]
    · simp
    · intro query other
      simp [Switch.rules, tbls, other]

variable {changed : FlEntry}

theorem Rewritten.of_setRules (bounded : table < maxRuleFlowTbls)
    (found : FirstAt test (sw.rules table) before ent after)
    (tbls : next.ruleFlowTbls = (sw.setRules table (before ++ changed :: after)).ruleFlowTbls) :
    Rewritten sw next [ent] [changed] :=
  .of_update before [ent] [changed] after bounded tbls (found.split.trans (by simp)) (by simp)

theorem Rewritten.of_inserted {sw next : Switch} (valid : flowModValidateParms sw p = true)
    (tbls : next.ruleFlowTbls = Function.update sw.ruleFlowTbls (tableOf p)
      ⟨counter, insertBefore (sw.rules (tableOf p)) hint added⟩) :
    Rewritten sw next [] [added] := by
  obtain ⟨before, after, split, inserted⟩ := insertBefore_split (sw.rules (tableOf p)) hint added
  exact .of_update before [] [added] after (tableOf_lt valid) tbls (split.trans (by simp))
    (inserted.trans (by simp))

variable {old new : List FlEntry}

section Holders

variable (holds : FlEntry → List Nat)

/-- The addresses all rules hold, with multiplicity. -/
def Switch.held (sw : Switch) : List Nat := sw.allRules.flatMap holds

variable {holds}

section

variable {sw next : Switch} (rewritten : Rewritten sw next old new)
include rewritten

theorem Rewritten.count (ptr : Nat) : (next.held holds).count ptr + (old.flatMap holds).count ptr =
      (sw.held holds).count ptr + (new.flatMap holds).count ptr := by
  obtain ⟨lower, higher, before, after⟩ := rewritten
  simp only [Switch.held, before, after, List.flatMap_append, List.count_append]
  omega

theorem Rewritten.mem (member : ptr ∈ next.held holds) :
    ptr ∈ sw.held holds ∨ ptr ∈ new.flatMap holds := by
  obtain ⟨lower, higher, before, after⟩ := rewritten
  simp only [Switch.held, after, before, List.flatMap_append, List.mem_append] at member ⊢
  tauto

theorem Rewritten.held_eq (same : new.flatMap holds = old.flatMap holds) :
    next.held holds = sw.held holds := by
  obtain ⟨lower, higher, before, after⟩ := rewritten
  simp [Switch.held, before, after, same]

end

theorem count_freed (same : ∀ ent kept, keep ent = some kept → holds kept = holds ent)
    (list : List FlEntry) (ptr : Nat) : ((list.filterMap keep).flatMap holds).count
      ptr + ((freed keep list).flatMap holds).count ptr =
      (list.flatMap holds).count ptr := by
  induction list with
  | nil => simp [freed]
  | cons ent rest ih =>
    cases kept : keep ent with
    | none =>
      simp only [freed, kept, List.filterMap_cons, List.filter_cons, Option.isNone_none, if_true,
        List.flatMap_cons, List.count_append] at ih ⊢
      omega
    | some changed =>
      simp only [freed, kept, List.filterMap_cons, List.filter_cons, Option.isNone_some,
        Bool.false_eq_true, if_false, List.flatMap_cons, List.count_append,
          same ent changed kept] at ih ⊢
      omega

theorem mem_held_swept (same : ∀ ent kept, keep ent = some kept → holds kept = holds ent)
    {sw : Switch} :
    ptr ∈ (swept keep msgs sw (List.range maxRuleFlowTbls) appRef).held holds ↔
      ∃ ent ∈ sw.allRules, keep ent ≠ none ∧ ptr ∈ holds ent := by
  rw [Switch.held, allRules_swept, List.mem_flatMap]
  constructor
  · rintro ⟨kept, member, inside⟩
    obtain ⟨ent, present, keeps⟩ := List.mem_filterMap.mp member
    exact ⟨ent, present, by simp [keeps], same ent kept keeps ▸ inside⟩
  · rintro ⟨ent, present, keeps, inside⟩
    obtain ⟨kept, eq⟩ := Option.ne_none_iff_exists'.mp keeps
    exact ⟨kept, List.mem_filterMap.mpr ⟨ent, present, eq⟩, (same ent kept eq).symm ▸ inside⟩

end Holders

/-- What a relation must bear to survive taking and dropping references. -/
structure RefRel (rel : Int → Int → Prop) : Prop where
  translates : ∀ ref count amount, rel ref count → rel (ref + amount) (count + amount)
  bounds : ∀ ref count, rel ref count → count ≤ ref
  zero : rel 0 0

theorem refRel_eq : RefRel fun ref count => ref = count :=
  ⟨fun _ _ _ same => by rw [same], fun _ _ same => le_of_eq same.symm, rfl⟩

theorem refRel_le : RefRel fun ref count => count ≤ ref :=
  ⟨fun _ _ _ bound => by omega, fun _ _ bound => bound, le_refl _⟩

/-- The references of a switch, to groups and to meters. -/
structure RefInv (rel : Int → Int → Prop) (sw : Switch) : Prop where
  groups : Tracked rel sw.groups (sw.held FlEntry.groups)
  meters : Tracked rel sw.meters (sw.held FlEntry.meters)

section Tracked

variable {rel : Int → Int → Prop} {Body : Type} {table : List (Counted (BitVec 32) Body)}
  {holds : FlEntry → List Nat} {sw next : Switch}

theorem Rewritten.tracked (rewritten : Rewritten sw next old new) (refs : RefRel rel)
    (tracked : Tracked rel table (sw.held holds))
    (stored : ∀ ptr ∈ new.flatMap holds, ∃ object ∈ table, object.ptr = ptr) :
    Tracked rel (exchange table (new.flatMap holds) (old.flatMap holds)) (next.held holds) := by
  refine tracked.shift refs.translates ?_ ?_
  · intro ptr
    have moved := @Rewritten.count _ _ holds _ _ rewritten ptr
    omega
  · intro ptr member
    rcases rewritten.mem member with before | taken
    · exact tracked.live ptr before
    · exact stored ptr taken

theorem ObjectStep.tracked (step : ObjectStep fresh table after) (refs : RefRel rel)
    (tracked : Tracked rel table held) (admitted : ∀ object ∈ table, fresh ≠ some object.ptr) :
    Tracked rel after held := by
  cases step with
  | same => exact tracked
  | changed ptr body =>
    refine tracked.map (fun object => ?_) (fun object => ?_) (fun object => ?_) <;> split <;> rfl
  | @added object address unused absent =>
    refine tracked.cons ?_ absent (unused ▸ refs.zero)
    intro other member same
    exact admitted other member (same ▸ address)
  | @removed object key found unused =>
    apply tracked.filter
    intro other member gone
    have stored := mem_of_lookup found
    have keyed : object.key = key := by simpa using List.find?_some found
    have same : other = object :=
      List.inj_on_of_nodup_map tracked.keys member stored (by simpa [keyed] using gone)
    exact same ▸ tracked.not_held_of_zero refs.bounds stored unused

end Tracked

/-- None of an application's groups and meters is referenced by a rule that survives it. -/
def OwnerSafe (sw : Switch) : Op → Prop
  | .appUnregister app => ∀ ent ∈ sw.allRules, ent.appOwnerList ≠ [app] →
      (∀ group ∈ sw.groups, group.body.appOwner = app → group.ptr ∉ ent.groups) ∧
      ∀ meter ∈ sw.meters, meter.body.appOwner = app → meter.ptr ∉ ent.meters
  | _ => True

/-- No residual rule is added over a residual entry that references something. -/
def DropSafe (sw : Switch) : Op → Prop
  | .flowAdd p _ => flowModValidateParms sw p = true → hasFlag p.flags flEntResidual = true →
      hasFlag p.flags flEntLocal = false → ∀ ent ∈ sw.rules (tableOf p),
        sameRule p.flow p.mask p.prio ent = true → hasFlag ent.flags flEntResidual = true →
        ent.groups = [] ∧ ent.meters = []
  | _ => True

/-- A relation that also holds when a rule forgets what it referenced. -/
def Forgives (rel : Int → Int → Prop) : Prop := ∀ ref count less, less ≤ count → rel ref count →
    rel ref less

variable {rel : Int → Int → Prop} {sw next : Switch}

private theorem RefInv.of_rewritten {old : FlEntry} (inv : RefInv rel sw)
    (rewritten : Rewritten sw next [old] [changed]) (groups : changed.groups = old.groups)
    (meters : changed.meters = old.meters) (tableG : next.groups = sw.groups)
    (tableM : next.meters = sw.meters) : RefInv rel next := by
  constructor
  · rw [tableG, @Rewritten.held_eq _ _ FlEntry.groups _ _ rewritten (by simp [groups])]
    exact inv.groups
  · rw [tableM, @Rewritten.held_eq _ _ FlEntry.meters _ _ rewritten (by simp [meters])]
    exact inv.meters

private theorem RefInv.of_exchanged (inv : RefInv rel sw) (refs : RefRel rel)
    (rewritten : Rewritten sw next old new)
    (storedG : ∀ ptr ∈ new.flatMap FlEntry.groups, ∃ object ∈ sw.groups, object.ptr = ptr)
    (storedM : ∀ ptr ∈ new.flatMap FlEntry.meters, ∃ object ∈ sw.meters, object.ptr = ptr)
    (tableG :
      next.groups = exchange sw.groups (new.flatMap FlEntry.groups) (old.flatMap FlEntry.groups))
    (tableM :
      next.meters = exchange sw.meters (new.flatMap FlEntry.meters) (old.flatMap FlEntry.meters)) :
    RefInv rel next :=
  ⟨tableG ▸ rewritten.tracked refs inv.groups storedG,
    tableM ▸ rewritten.tracked refs inv.meters storedM⟩

@[simp] private theorem groups_ownedEntry (ent : FlEntry) (p : FlowModParams) :
    (ownedEntry ent p).groups = ent.groups := by
  unfold ownedEntry
  split <;> rfl

@[simp] private theorem meters_ownedEntry (ent : FlEntry) (p : FlowModParams) :
    (ownedEntry ent p).meters = ent.meters := by
  unfold ownedEntry
  split <;> rfl

private theorem lists_flowAddAppOwner (appRef : App → Int) (ent : FlEntry) (app : App) :
    (flowAddAppOwner appRef ent app).2.groups = ent.groups ∧
      (flowAddAppOwner appRef ent app).2.meters = ent.meters := by
  unfold flowAddAppOwner flowAddAppOwnerLocked
  split <;> exact ⟨rfl, rfl⟩

private theorem Rewritten.forget {old : FlEntry}
    (rewritten : Rewritten sw next [old] [changed])
    (tracked : Tracked rel table (sw.held holds)) (none : holds changed = [])
    (forgives : Forgives rel) : Tracked rel table (next.held holds) := by
  refine tracked.forget (fun ptr member => ?_) (fun object _ => forgives _ _ _ ?_)
  · simpa [none] using rewritten.mem member
  · have moved := @Rewritten.count _ _ holds _ _ rewritten object.ptr
    simp only [List.flatMap_cons, List.flatMap_nil, none, List.append_nil, List.count_nil] at moved
    omega

theorem RefInv.flowAdd (inv : RefInv rel sw) (refs : RefRel rel) (p : FlowModParams) (now : Nat)
    (drops : Forgives rel ∨ DropSafe sw (.flowAdd p now)) :
    RefInv rel (flowRuleAdd sw p now).1 := by
  have outcome := @flowRuleAdd_outcome sw p now
  generalize flowRuleAdd sw p now = result at outcome ⊢
  cases outcome with
  | invalid | refused | unresolved => exact ⟨inv.groups, inv.meters⟩
  | @shared before ent after valid found =>
    have lists := lists_flowAddAppOwner sw.appRef ent p.appOwner
    exact inv.of_rewritten (.of_setRules (tableOf_lt valid) found rfl) lists.1 lists.2 rfl rfl
  | existing valid found =>
    exact inv.of_rewritten (.of_setRules (tableOf_lt valid) found rfl) rfl rfl rfl rfl
  | @dropped before ent after valid found residual again remote =>
    rcases drops with forgives | safe
    · exact ⟨(Rewritten.of_setRules (tableOf_lt valid) found rfl).forget inv.groups rfl forgives,
        (Rewritten.of_setRules (tableOf_lt valid) found rfl).forget inv.meters rfl forgives⟩
    · have member : ent ∈ sw.rules (tableOf p) := by rw [found.split]; simp
      have empty := safe valid again remote ent member found.passes residual
      exact inv.of_rewritten (.of_setRules (tableOf_lt valid) found rfl) empty.1.symm empty.2.symm
        rfl rfl
  | missing valid found =>
    exact inv.of_rewritten (.of_setRules (tableOf_lt valid) found rfl) (groups_ownedEntry ..)
      (meters_ownedEntry ..) rfl rfl
  | @modified before ent after grps mets valid found _ groups meters =>
    refine inv.of_exchanged refs (.of_setRules (tableOf_lt valid) found rfl) ?_ ?_ ?_ ?_
    · intro ptr member
      exact mem_of_resolve groups (by simpa [modEntry] using member)
    · intro ptr member
      exact mem_of_resolve meters (by simpa [modEntry] using member)
    · simp [modEntry]
    · simp [modEntry]
  | @inserted grps mets valid _ groups meters =>
    refine inv.of_exchanged refs (.of_inserted valid rfl) ?_ ?_ ?_ ?_
    · intro ptr member
      exact mem_of_resolve groups (by simpa [addedEntry, stampEntry] using member)
    · intro ptr member
      exact mem_of_resolve meters (by simpa [addedEntry, stampEntry] using member)
    · simp [addedEntry, stampEntry]
    · simp [addedEntry, stampEntry]

theorem RefInv.flowDel (inv : RefInv rel sw) (refs : RefRel rel) (p : FlowModParams) :
    RefInv rel (flowRuleDel sw p).1 := by
  have outcome := @flowRuleDel_outcome sw p
  generalize flowRuleDel sw p = result at outcome ⊢
  cases outcome with
  | invalid | missing => exact ⟨inv.groups, inv.meters⟩
  | kept valid found =>
    exact inv.of_rewritten (.of_setRules (tableOf_lt valid) found rfl) rfl rfl rfl rfl
  | @removed before ent after valid found =>
    refine inv.of_exchanged refs
      (.of_update before [ent] [] after (tableOf_lt valid) rfl (found.split.trans (by simp))
        (by simp))
      (by simp) (by simp) ?_ ?_
    · simp [release_eq_exchange]
    · simp [release_eq_exchange]

private theorem tracked_swept
    (same : ∀ ent kept, keep ent = some kept → holds kept = holds ent) (refs : RefRel rel)
    (tracked : Tracked rel table (sw.held holds)) (appRef : App → Int) :
    Tracked rel (release table ((freed keep sw.allRules).flatMap holds))
      ((swept keep msgs sw (List.range maxRuleFlowTbls) appRef).held holds) := by
  rw [release_eq_shift]
  refine tracked.shift refs.translates ?_ ?_
  · intro ptr
    have moved := count_freed same sw.allRules ptr
    rw [Switch.held, allRules_swept, Switch.held]
    omega
  · intro ptr member
    obtain ⟨ent, present, -, inside⟩ := (mem_held_swept same).mp member
    exact tracked.live ptr (List.mem_flatMap.mpr ⟨ent, present, inside⟩)

theorem RefInv.swept (inv : RefInv rel sw) (refs : RefRel rel)
    (groups : ∀ ent kept, keep ent = some kept → kept.groups = ent.groups)
    (meters : ∀ ent kept, keep ent = some kept → kept.meters = ent.meters) (appRef : App → Int) :
    RefInv rel (swept keep msgs sw (List.range maxRuleFlowTbls) appRef) :=
  ⟨tracked_swept groups refs inv.groups appRef, tracked_swept meters refs inv.meters appRef⟩

private theorem keepOwned_lists (app : App) (ent kept : FlEntry)
    (keeps : keepOwned app ent = some kept) :
    kept.groups = ent.groups ∧ kept.meters = ent.meters := by
  obtain rfl | ⟨-, -, rfl⟩ := keepOwned_cases keeps
  · exact ⟨rfl, rfl⟩
  · exact ⟨rfl, rfl⟩

theorem mem_allRules : ent ∈ sw.allRules ↔ ∃ table < maxRuleFlowTbls, ent ∈ sw.rules table := by
  simp [Switch.allRules]

/-- Objects go with their owner, none of them held by a rule that stays. -/
private theorem tracked_disowned {Body : Type} {table : List (Counted (BitVec 32) Body)}
    (owner : Body → App) (app : App)
    (same : ∀ ent kept, keepOwned app ent = some kept → holds kept = holds ent) (refs : RefRel rel)
    (tracked : Tracked rel table (sw.held holds)) (appRef : App → Int)
    (safe : ∀ ent ∈ sw.allRules, keepOwned app ent ≠ none →
      ∀ object ∈ table, owner object.body = app → object.ptr ∉ holds ent) : Tracked rel
      ((release table ((freed (keepOwned app) sw.allRules).flatMap holds)).filter
        fun object => owner object.body != app)
      ((swept (keepOwned app) msgs sw (List.range maxRuleFlowTbls) appRef).held holds) := by
  apply (tracked_swept same refs tracked appRef).filter
  intro object stored own held
  obtain ⟨ent, member, keeps, inside⟩ := (mem_held_swept same).mp held
  rw [release_eq_shift] at stored
  obtain ⟨old, there, rfl⟩ := List.mem_map.mp stored
  exact safe ent member keeps old there (by simpa using own) inside

theorem RefInv.appUnregister (inv : RefInv rel sw) (refs : RefRel rel)
    (reached : switchRuns.Reaches sw) (app : App) (safe : OwnerSafe sw (.appUnregister app)) :
    RefInv rel (perSwitchAppUnregister sw app) := by
  obtain ⟨appRef, eq⟩ := delAppFlowOwner_eq sw app
  -- A survivor has another owner than the application that leaves.
  have survives : ∀ ent ∈ sw.allRules, keepOwned app ent ≠ none → ent.appOwnerList ≠ [app] := by
    intro ent member keeps only
    obtain ⟨table, -, present⟩ := mem_allRules.mp member
    exact keeps ((keepOwned_none (reaches_ownerOk reached present) app).mpr (by simp [only]))
  have groups :=
    @tracked_disowned (sweepMsgs sw.ofpCtors sw.master) rel sw _ _ _ GroupBody.appOwner app
    (fun ent kept keeps => (keepOwned_lists app ent kept keeps).1) refs inv.groups appRef
    (fun ent member keeps => (safe ent member (survives ent member keeps)).1)
  have meters :=
    @tracked_disowned (sweepMsgs sw.ofpCtors sw.master) rel sw _ _ _ MeterBody.appOwner app
    (fun ent kept keeps => (keepOwned_lists app ent kept keeps).2) refs inv.meters appRef
    (fun ent member keeps => (safe ent member (survives ent member keeps)).2)
  simp only [perSwitchAppUnregister, delMeterWithOwner, delGroupWithOwner, eq]
  split <;> exact ⟨groups, meters⟩

private theorem lists_appPerFlowStale (appCookie : BitVec 32) (now : Nat) (ent : FlEntry) :
    (appPerFlowStale appCookie now ent).groups = ent.groups ∧
      (appPerFlowStale appCookie now ent).meters = ent.meters := by
  unfold appPerFlowStale
  split
  · exact ⟨rfl, rfl⟩
  · split <;> exact ⟨rfl, rfl⟩

theorem allRules_stale (sw : Switch) (appCookie : BitVec 32) (now : Nat) :
    (appFlowStale sw appCookie now).allRules = sw.allRules.map (appPerFlowStale appCookie now) := by
  rw [Switch.allRules, Switch.allRules, List.map_flatMap]
  refine List.flatMap_congr fun table member => ?_
  simp [appFlowStale, Switch.rules, List.mem_range.mp member]

private theorem held_stale (appCookie : BitVec 32) (now : Nat)
    (same : ∀ ent, holds (appPerFlowStale appCookie now ent) = holds ent) :
    (appFlowStale sw appCookie now).held holds = sw.held holds := by
  simp [Switch.held, allRules_stale, List.flatMap_map, same]

theorem RefInv.exec (inv : RefInv rel sw) (refs : RefRel rel) (reached : switchRuns.Reaches sw)
    (admitted : admits sw op) (owners : OwnerSafe sw op) (drops : Forgives rel ∨ DropSafe sw op) :
    RefInv rel (exec sw op) := by
  cases op with
  | flowAdd p now => exact inv.flowAdd refs p now drops
  | flowDel p => exact inv.flowDel refs p
  | groupAdd p ptr now =>
    obtain ⟨groups, step, lock, appRef, msgs, eq, -⟩ := groupAdd_outcome sw p ptr now
    have tracked := step.tracked refs inv.groups fun object member same =>
      admitted object member (Option.some.inj same).symm
    simp only [OpenMul.exec, eq]
    exact ⟨tracked, inv.meters⟩
  | groupDel p =>
    obtain ⟨groups, step, lock, appRef, msgs, eq, -⟩ := groupDel_outcome sw p
    have tracked := step.tracked refs inv.groups (by simp)
    simp only [OpenMul.exec, eq]
    exact ⟨tracked, inv.meters⟩
  | meterAdd p ptr now =>
    obtain ⟨meters, step, lock, appRef, msgs, eq, -⟩ := meterAdd_outcome sw p ptr now
    have tracked := step.tracked refs inv.meters fun object member same =>
      admitted object member (Option.some.inj same).symm
    simp only [OpenMul.exec, eq]
    exact ⟨inv.groups, tracked⟩
  | meterDel p =>
    obtain ⟨meters, step, lock, appRef, msgs, eq, -⟩ := meterDel_outcome sw p
    have tracked := step.tracked refs inv.meters (by simp)
    simp only [OpenMul.exec, eq]
    exact ⟨inv.groups, tracked⟩
  | appRegister app =>
    simp only [OpenMul.exec, perSwitchAppRegister]
    split <;> exact ⟨inv.groups, inv.meters⟩
  | appUnregister app => exact inv.appUnregister refs reached app owners
  | flowStale appCookie now =>
    constructor
    · rw [OpenMul.exec,
        held_stale appCookie now fun ent => (lists_appPerFlowStale appCookie now ent).1]
      exact inv.groups
    · rw [OpenMul.exec,
        held_stale appCookie now fun ent => (lists_appPerFlowStale appCookie now ent).2]
      exact inv.meters
  | tblReset | tblDelete =>
    obtain ⟨appRef, eq⟩ := flowTblClear_eq sw
    have after :=
      @RefInv.swept (fun _ => none) (fun _ => []) rel sw inv refs (by simp) (by simp) appRef
    simp only [OpenMul.exec, switchFlowTblReset, switchFlowTblDelete, eq]
    exact ⟨after.groups, after.meters⟩

theorem refInv_start (started : Started sw) : RefInv rel sw := by
  obtain ⟨tables, groups, meters, -, -⟩ := started
  have empty : sw.allRules = [] := by
    simp [Switch.allRules, Switch.rules, tables]
  constructor
  · simp only [groups, Switch.held, empty]
    exact .nil
  · simp only [meters, Switch.held, empty]
    exact .nil

end OpenMul
