import OpenMul.Core.Mirror

namespace OpenMul

open Lib RefTable

section Step

variable {sw : Switch}

private theorem others_of_nodup {p : FlowModParams} {ent : FlEntry}
    (reached : switchRuns.Reaches sw) (rule : ent.ruleKey = p.ruleKey)
    (split : sw.allRules = lower ++ [ent] ++ higher) :
    ∀ other ∈ lower ++ higher, other.ruleKey ≠ p.ruleKey := by
  have distinct := reaches_allKeys_nodup reached
  rw [split, List.append_assoc, List.map_append, List.singleton_append, List.map_cons,
    List.nodup_middle, List.nodup_cons, ← List.map_append] at distinct
  intro other member same
  exact distinct.1 (List.mem_map.mpr ⟨other, member, same.trans rule.symm⟩)

theorem reaches_single (reached : switchRuns.Reaches sw) {ent : FlEntry}
    (member : ent ∈ sw.rules table) : ent.clonedList = [] := by
  refine @reaches_entries sw table ent (fun _ ent => ent.clonedList = []) ?_ ?_ reached member
  · intro table ent next single step
    rw [← single]
    cases step with
    | same | refreshed | dropped | disowned => rfl
    | shared =>
      simp only [flowAddAppOwner, flowAddAppOwnerLocked]
      split <;> rfl
    | missing | modified =>
      simp only [modEntry, ownedEntry]
      split <;> rfl
    | stale =>
      unfold appPerFlowStale
      split
      · rfl
      · split <;> rfl
  · rintro sw op table next ⟨p, now, grps, mets, -, -, -, rfl⟩
    rfl

/-- The rules around the one a request is about. -/
private structure Around (sw next : Switch) (p : FlowModParams) (old new rest : List FlEntry) :
    Prop where
  before : ∀ ctors key, Shown ctors sw.allRules key ↔ Shown ctors rest key ∨ Shown ctors old key
  after : ∀ ctors key, Shown ctors next.allRules key ↔ Shown ctors rest key ∨ Shown ctors new key
  elsewhere : ShownElsewhere sw p ↔ Shown sw.ofpCtors rest (p.wireKey sw.ofpCtors)

variable {next : Switch} {p : FlowModParams}

private theorem Rewritten.around (rewritten : Rewritten sw next old new)
    (mine : ∀ ent ∈ old, ent.ruleKey = p.ruleKey)
    (others : ∀ lower higher, sw.allRules = lower ++ old ++ higher →
      ∀ other ∈ lower ++ higher, other.ruleKey ≠ p.ruleKey) :
    ∃ rest, Around sw next p old new rest := by
  obtain ⟨lower, higher, before, after⟩ := rewritten
  refine ⟨lower ++ higher, ?_, ?_, ?_⟩
  · intro ctors key
    simp only [before, shown_append]
    tauto
  · intro ctors key
    simp only [after, shown_append]
    tauto
  · constructor
    · rintro ⟨other, member, different, shows, same⟩
      refine ⟨other, ?_, shows, same⟩
      simp only [before, List.mem_append] at member ⊢
      rcases member with (low | here) | high
      · exact .inl low
      · exact absurd (mine other here) different
      · exact .inr high
    · rintro ⟨other, member, shows, same⟩
      refine ⟨other, ?_, others lower higher before other member, shows, same⟩
      simp only [before, List.mem_append] at member ⊢
      tauto

private theorem around_fresh (reached : switchRuns.Reaches sw)
    (valid : flowModValidateParms sw p = true)
    (fresh : ∀ ent ∈ sw.rules (tableOf p), sameRule p.flow p.mask p.prio ent = false)
    (tbls : next.ruleFlowTbls = Function.update sw.ruleFlowTbls (tableOf p)
      ⟨counter, insertBefore (sw.rules (tableOf p)) hint added⟩) :
    ∃ rest, Around sw next p [] [added] rest := by
  refine Rewritten.around (.of_inserted valid tbls) (by simp) ?_
  intro lower higher all other member same
  have present : other ∈ sw.allRules := by simpa [all] using member
  obtain ⟨table, -, inside⟩ := mem_allRules.mp present
  have here : table = tableOf p := by
    rw [← reaches_tableId reached inside, show other.fl = p.flow from congrArg Prod.fst same]
    rfl
  have differs := fresh other (here ▸ inside)
  rw [(sameRule_iff ..).mpr same] at differs
  cases differs

/-- The mirror after one entry was added or rewritten, with or without a write. -/
private theorem Around.mirrors_iff (around : Around sw next p old [changed] rest)
    (mirrors : Mirrors sw) (rule : changed.ruleKey = p.ruleKey)
    (ctors : next.ofpCtors = sw.ofpCtors)
    (olds : ∀ key, Shown sw.ofpCtors old key ↔ was = true ∧ key = p.wireKey sw.ofpCtors)
    (hw : ∀ key, key ∈ hwTable next.txQ ↔ (sync = true ∧ key = p.wireKey sw.ofpCtors) ∨
      key ∈ hwTable sw.txQ) :
    Mirrors next ↔ ShownElsewhere sw p ∨ mirrored changed.flags = (was || sync) := by
  rw [around.elsewhere, ← agree_iff]
  refine forall_congr' fun key => ?_
  rw [hw, mirrors key, around.before, olds, ctors, around.after, shown_singleton,
    wireKey_of_params sw.ofpCtors rule]

private theorem shown_rule (rule : ent.ruleKey = p.ruleKey) (key : WireKey) :
    Shown sw.ofpCtors [ent] key ↔ mirrored ent.flags = true ∧ key = p.wireKey sw.ofpCtors := by
  rw [shown_singleton, wireKey_of_params sw.ofpCtors rule]

section InPlace

variable {test : FlEntry → Bool} {before after : List FlEntry} {ent changed : FlEntry} {sync : Bool}
  (reached : switchRuns.Reaches sw) (mirrors : Mirrors sw) (bounded : tableOf p < maxRuleFlowTbls)
  (found : FirstAt test (sw.rules (tableOf p)) before ent after) (rule : ent.ruleKey = p.ruleKey)
  (tbls : next.ruleFlowTbls = (sw.setRules (tableOf p) (before ++ changed :: after)).ruleFlowTbls)
  (ctors : next.ofpCtors = sw.ofpCtors) (same : changed.ruleKey = ent.ruleKey)
include reached mirrors bounded found rule tbls ctors same

private theorem mirrors_found_iff (hw : ∀ key, key ∈ hwTable next.txQ ↔
      (sync = true ∧ key = p.wireKey sw.ofpCtors) ∨ key ∈ hwTable sw.txQ) :
    Mirrors next ↔ ShownElsewhere sw p ∨ mirrored changed.flags = (mirrored ent.flags || sync) := by
  obtain ⟨rest, around⟩ :=
    @Rewritten.around sw next p [ent] [changed] (.of_setRules bounded found tbls)
    (by simp [rule]) fun lower higher split => others_of_nodup reached rule split
  exact around.mirrors_iff mirrors (same.trans rule) ctors (shown_rule rule) hw

/-- A change in place that writes nothing and leaves the flags alone. -/
private theorem mirrors_quiet (hw : hwTable next.txQ = hwTable sw.txQ)
    (flags : mirrored changed.flags = mirrored ent.flags) : Mirrors next := by
  refine (@mirrors_found_iff _ _ _ _ _ _ _ _ false reached mirrors bounded found rule tbls
    ctors same ?_).mpr (.inr (flags.trans (Bool.or_false _).symm))
  simp [hw]

end InPlace

private theorem mirrors_fresh_iff (reached : switchRuns.Reaches sw) (mirrors : Mirrors sw)
    (valid : flowModValidateParms sw p = true)
    (fresh : ∀ ent ∈ sw.rules (tableOf p), sameRule p.flow p.mask p.prio ent = false)
    (tbls : next.ruleFlowTbls = Function.update sw.ruleFlowTbls (tableOf p)
      ⟨counter, insertBefore (sw.rules (tableOf p)) hint added⟩)
        (ctors : next.ofpCtors = sw.ofpCtors) (rule : added.ruleKey = p.ruleKey)
    (hw : ∀ key, key ∈ hwTable next.txQ ↔ (sync = true ∧ key = p.wireKey sw.ofpCtors) ∨
      key ∈ hwTable sw.txQ) :
    Mirrors next ↔ ShownElsewhere sw p ∨ mirrored added.flags = sync := by
  obtain ⟨rest, around⟩ := around_fresh reached valid fresh tbls
  have nothing : ∀ key, Shown sw.ofpCtors [] key ↔ false = true ∧ key = p.wireKey sw.ofpCtors := by
    simp [Shown]
  exact around.mirrors_iff mirrors rule ctors nothing hw

private theorem mirrored_flowAddAppOwner (appRef : App → Int) (ent : FlEntry) (app : App) :
    mirrored (flowAddAppOwner appRef ent app).2.flags = mirrored ent.flags := by
  unfold flowAddAppOwner flowAddAppOwnerLocked
  split <;> rfl

private theorem flags_ownedEntry (ent : FlEntry) (p : FlowModParams) :
    (ownedEntry ent p).flags = ent.flags := by
  unfold ownedEntry
  split <;> rfl

/-- A successful add keeps the mirror exactly when the write fits the flags. -/
theorem mirrors_flowAdd_iff (reached : switchRuns.Reaches sw) (master : sw.master = true)
    (mirrors : Mirrors sw) (p : FlowModParams) (now : Nat) :
    Mirrors (flowRuleAdd sw p now).1 ↔ MirrorSafe sw (.flowAdd p now) := by
  have outcome := @flowRuleAdd_outcome sw p now
  simp only [MirrorSafe]
  generalize flowRuleAdd sw p now = result at outcome ⊢
  have rule : ∀ {before ent after}, AddFound sw p before ent after → ent.ruleKey = p.ruleKey :=
    fun found => (sameRule_iff ..).mp found.passes
  cases outcome with
  | invalid | refused | unresolved => exact iff_of_true mirrors (by simp [einval, eperm])
  | @shared before ent after valid found asked locals settled =>
    refine iff_of_true ?_ fun _ => .inr ?_
    · exact mirrors_quiet reached mirrors (tableOf_lt valid) found (rule found) rfl rfl
        (ruleKey_flowAddAppOwner ..) rfl (mirrored_flowAddAppOwner ..)
    · simp [writeFits, found.find?_eq, modFlags, modSync, settled, mirrored, locals, needHwSync,
        asked]
  | existing valid found =>
    refine iff_of_true ?_ (by simp [eexist])
    exact mirrors_quiet reached mirrors (tableOf_lt valid) found (rule found) rfl rfl rfl rfl
      (mirrored_clearStale _)
  | dropped valid found =>
    refine iff_of_true ?_ (by simp [einval])
    exact mirrors_quiet reached mirrors (tableOf_lt valid) found (rule found) rfl rfl rfl rfl rfl
  | missing valid found =>
    refine iff_of_true ?_ (by simp [einval])
    exact mirrors_quiet reached mirrors (tableOf_lt valid) found (rule found) rfl rfl
      (ruleKey_ownedEntry ..) rfl (congrArg mirrored (flags_ownedEntry ..))
  | @modified before ent after grps mets valid found =>
    have same := ruleKey_modEntry ent p grps mets now
    refine Iff.trans (b := ShownElsewhere sw p ∨ mirrored (modEntry ent p grps mets now).flags =
      (mirrored ent.flags || modSync sw ent p)) ?_ ?_
    · refine mirrors_found_iff reached mirrors (tableOf_lt valid) found (rule found) rfl rfl same ?_
      intro key
      rw [← wireKey_of_params sw.ofpCtors (same.trans (rule found))]
      cases modSync sw ent p with
      | true => simpa using mem_hw_flowAdd master sw.txQ _ p.bufferId true key
      | false => simp
    · rw [mirrored_modEntry, writeFits, found.find?_eq]
      simp
  | @inserted grps mets valid fresh =>
    refine Iff.trans (b := ShownElsewhere sw p ∨ mirrored (addedEntry sw p grps mets now).flags =
      needHwSync sw p) ?_ ?_
    · refine mirrors_fresh_iff reached mirrors valid fresh rfl rfl rfl ?_
      intro key
      rw [← wireKey_of_params sw.ofpCtors (ruleKey_addedEntry sw p grps mets now)]
      cases needHwSync sw p with
      | true => simpa using mem_hw_flowAdd master sw.txQ _ p.bufferId false key
      | false => simp
    · rw [mirrored_addedEntry, writeFits, List.find?_eq_none.mpr (by simpa using fresh)]
      simp

/-- A rule is unlinked: its strict delete must not hit another rule's entry. -/
private theorem mirrors_removed_iff
    (reached : switchRuns.Reaches sw) (mirrors : Mirrors sw) (bounded : tableOf p < maxRuleFlowTbls)
    (found : DelFound sw p before ent after)
    (tbls : next.ruleFlowTbls = Function.update sw.ruleFlowTbls (tableOf p) tbl)
    (rules : tbl.ruleFlTbl = before ++ after) (ctors : next.ofpCtors = sw.ofpCtors)
    (hw : ∀ key, key ∈ hwTable next.txQ ↔ key ∈ hwTable sw.txQ ∧
      (hasFlag ent.flags flEntLocal = false → key ≠ ent.wireKey sw.ofpCtors)) :
    Mirrors next ↔ (hasFlag ent.flags flEntLocal = false → ¬ShownElsewhere sw p) := by
  have rule : ent.ruleKey = p.ruleKey := delStrictMatch_key found.passes
  obtain ⟨rest, around⟩ := @Rewritten.around sw next p [ent] []
    (.of_update before [ent] [] after bounded tbls (found.split.trans (by simp))
      (rules.trans (by simp)))
    (by simp [rule]) fun lower higher split => others_of_nodup reached rule split
  have shows : ∀ key, Shown sw.ofpCtors next.allRules key ↔ Shown sw.ofpCtors rest key := by
    intro key
    rw [around.after]
    simp [Shown]
  rw [around.elsewhere]
  constructor
  · intro agree remote elsewhere
    have present : p.wireKey sw.ofpCtors ∈ hwTable next.txQ := by
      rw [agree, ctors, shows]
      exact elsewhere
    exact ((hw _).mp present).2 remote (wireKey_of_params sw.ofpCtors rule).symm
  · intro alone key
    rw [hw, mirrors key, around.before, shown_rule rule, ctors, shows,
      wireKey_of_params sw.ofpCtors rule]
    constructor
    · rintro ⟨elsewhere | ⟨shown, rfl⟩, apart⟩
      · exact elsewhere
      · exact absurd rfl (apart (not_local_of_mirrored shown))
    · intro elsewhere
      refine ⟨.inl elsewhere, ?_⟩
      rintro remote rfl
      exact alone remote elsewhere

theorem mirrors_flowDel_iff (reached : switchRuns.Reaches sw) (master : sw.master = true)
    (mirrors : Mirrors sw) (p : FlowModParams) :
    Mirrors (flowRuleDel sw p).1 ↔ MirrorSafe sw (.flowDel p) := by
  have outcome := @flowRuleDel_outcome sw p
  simp only [MirrorSafe]
  generalize flowRuleDel sw p = result at outcome ⊢
  cases outcome with
  | invalid | missing => exact iff_of_true mirrors (by simp)
  | @kept before ent after valid found others =>
    have ok := reaches_ownerOk reached found.member
    -- Only a LOCAL entry outlives one of its owners, and nothing is sent for it.
    have locals : hasFlag ent.flags flEntLocal = true := by
      apply ok.sharing
      have counted := ok.counted
      have positive := List.length_pos_of_mem found.owned
      omega
    refine iff_of_true ?_ ?_
    · refine mirrors_quiet reached mirrors (tableOf_lt valid) found
        (delStrictMatch_key found.passes) rfl rfl rfl ?_ rfl
      simp [delMsgs, locals]
    · rintro - ⟨other, member, passes, remote⟩
      rw [found.unique reached member passes, locals] at remote
      cases remote
  | @removed before ent after valid found last =>
    refine Iff.trans (b := hasFlag ent.flags flEntLocal = false → ¬ShownElsewhere sw p) ?_ ?_
    · exact mirrors_removed_iff reached mirrors (tableOf_lt valid) found rfl rfl rfl
        (mem_hw_delMsgs master sw.txQ ent)
    · constructor
      · rintro alone - ⟨other, member, passes, remote⟩
        exact alone (found.unique reached member passes ▸ remote)
      · intro alone remote
        exact alone rfl ⟨ent, found.member, found.passes, remote⟩

end Step

end OpenMul
