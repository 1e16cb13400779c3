import OpenMul.Core.TableInvariant

namespace OpenMul

open Lib RefTable List

/-- The ways an entry that stays in its table can change in one request. -/
inductive EntryStep : FlEntry → FlEntry → Prop where
  | same (ent : FlEntry) : EntryStep ent ent
  | shared (appRef : App → Int) (ent : FlEntry) (app : App)
      (locals : hasFlag ent.flags flEntLocal = true) :
        EntryStep ent (flowAddAppOwner appRef ent app).2
  | refreshed (ent : FlEntry) : EntryStep ent { ent with flags := clearFlag ent.flags flEntStale }
  | dropped (ent : FlEntry) : EntryStep ent { ent with locked := true, groups := [], meters := [] }
  | missing (ent : FlEntry) (p : FlowModParams) : EntryStep ent
    { ownedEntry ent p with locked := false }
  | modified (ent : FlEntry) (p : FlowModParams) (grps mets : List Nat) (now : Nat) :
      EntryStep ent (modEntry ent p grps mets now)
  | disowned (ent : FlEntry) (app : App) (owned : app ∈ ent.appOwnerList)
    (others : ent.appRef - 1 ≠ 0) :
      EntryStep ent (withoutOwner app ent)
  | stale (appCookie : BitVec 32) (now : Nat) (ent : FlEntry) :
      EntryStep ent (appPerFlowStale appCookie now ent)

/-- The entry a request linked, if it linked one. -/
def LinkedBy (sw : Switch) (op : Op) (table : Nat) (next : FlEntry) : Prop :=
  ∃ p now grps mets, op = .flowAdd p now ∧ table = tableOf p ∧ flowModValidateParms sw p = true ∧
    next = addedEntry sw p grps mets now

variable {sw : Switch} {table : Nat} {before after : List FlEntry} {ent next : FlEntry}

private theorem mem_replaced (found : FirstAt test (sw.rules table) before ent after)
    (step : EntryStep ent changed)
    (member : next ∈ (sw.setRules table (before ++ changed :: after)).rules query) :
    ∃ old ∈ sw.rules query, EntryStep old next := by
  rw [Switch.rules_setRules] at member
  by_cases here : query = table
  · subst query
    simp only [if_true, mem_append, mem_cons] at member
    rw [found.split]
    rcases member with earlier | rfl | later
    · exact ⟨next, by simp [earlier], .same next⟩
    · exact ⟨ent, by simp, step⟩
    · exact ⟨next, by simp [later], .same next⟩
  · rw [if_neg here] at member
    exact ⟨next, member, .same next⟩

private theorem flowRuleAdd_entries (sw : Switch) (p : FlowModParams) (now table : Nat)
    (next : FlEntry) (member : next ∈ (flowRuleAdd sw p now).1.rules table) :
    (∃ ent ∈ sw.rules table, EntryStep ent next) ∨ LinkedBy sw (.flowAdd p now) table next := by
  have outcome := @flowRuleAdd_outcome sw p now
  generalize flowRuleAdd sw p now = result at outcome member
  cases outcome with
  | invalid | refused | unresolved => exact .inl ⟨next, member, .same next⟩
  | shared _ found _ locals => exact .inl (mem_replaced found (.shared _ _ _ locals) member)
  | existing _ found => exact .inl (mem_replaced found (.refreshed _) member)
  | dropped _ found => exact .inl (mem_replaced found (.dropped _) member)
  | missing _ found => exact .inl (mem_replaced found (.missing _ p) member)
  | modified _ found => exact .inl (mem_replaced found (.modified ..) member)
  | @inserted grps mets valid _ =>
    by_cases here : table = tableOf p
    · subst table
      simp only [Switch.rules, Function.update_self] at member
      rcases mem_insertBefore.mp member with rfl | old
      · exact .inr ⟨p, now, grps, mets, rfl, rfl, valid, rfl⟩
      · exact .inl ⟨next, old, .same next⟩
    · simp only [Switch.rules, Function.update_of_ne here] at member
      exact .inl ⟨next, member, .same next⟩

private theorem flowRuleDel_entries (sw : Switch) (p : FlowModParams) (table : Nat) (next : FlEntry)
    (member : next ∈ (flowRuleDel sw p).1.rules table) :
    ∃ ent ∈ sw.rules table, EntryStep ent next := by
  have outcome := @flowRuleDel_outcome sw p
  generalize flowRuleDel sw p = result at outcome member
  cases outcome with
  | invalid | missing => exact ⟨next, member, .same next⟩
  | kept _ found others =>
    have owned := found.passes
    simp only [delStrictMatch, Bool.and_eq_true, decide_eq_true_eq] at owned
    exact mem_replaced found (.disowned _ _ owned.2 others) member
  | @removed before ent after _ found =>
    refine ⟨next, ?_, .same next⟩
    by_cases here : table = tableOf p
    · subst table
      simp only [Switch.rules, Function.update_self] at member
      rw [found.split]
      rcases mem_append.mp member with earlier | later
      · simp [earlier]
      · simp [later]
    · simpa only [Switch.rules, Function.update_of_ne here] using member

variable {app : App}

private theorem keepOwned_step (keeps : keepOwned app ent = some kept) : EntryStep ent kept := by
  obtain rfl | ⟨owned, others, rfl⟩ := keepOwned_cases keeps
  · exact .same kept
  · exact .disowned ent app owned others

private theorem swept_entries
    (steps : ∀ ent kept, keep ent = some kept → EntryStep ent kept) {tables : List Nat}
    {appRef : App → Int} (member : next ∈ (swept keep msgs sw tables appRef).rules table) :
    ∃ ent ∈ sw.rules table, EntryStep ent next := by
  rw [rules_swept] at member
  split at member
  · obtain ⟨ent, present, keeps⟩ := mem_filterMap.mp member
    exact ⟨ent, present, steps ent next keeps⟩
  · exact ⟨next, member, .same next⟩

/-- Entries after a request come from entries before it, or were just linked. -/
theorem exec_entries (sw : Switch) (op : Op) (table : Nat) (next : FlEntry)
    (member : next ∈ (exec sw op).rules table) :
    (∃ ent ∈ sw.rules table, EntryStep ent next) ∨ LinkedBy sw op table next := by
  cases op with
  | flowAdd p now => exact flowRuleAdd_entries sw p now table next member
  | flowDel p => exact .inl (flowRuleDel_entries sw p table next member)
  | groupAdd | groupDel | meterAdd | meterDel | appRegister =>
    rw [Switch.rules, exec_offTables sw rfl] at member
    exact .inl ⟨next, member, .same next⟩
  | appUnregister app =>
    obtain ⟨appRef, eq⟩ := delAppFlowOwner_eq sw app
    simp only [exec, perSwitchAppUnregister, delMeterWithOwner, delGroupWithOwner, eq] at member
    have inside : next ∈ (swept (keepOwned app) (sweepMsgs sw.ofpCtors sw.master) sw
        (range maxRuleFlowTbls) appRef).rules table := by
      split at member <;> exact member
    exact .inl (swept_entries (fun _ _ => keepOwned_step) inside)
  | flowStale appCookie now =>
    by_cases inside : table < maxRuleFlowTbls
    · simp only [exec, appFlowStale, Switch.rules, inside, if_true] at member
      obtain ⟨ent, present, rfl⟩ := mem_map.mp member
      exact .inl ⟨ent, present, .stale appCookie now ent⟩
    · simp only [exec, appFlowStale, Switch.rules, inside, if_false] at member
      exact .inl ⟨next, member, .same next⟩
  | tblReset | tblDelete =>
    obtain ⟨appRef, eq⟩ := flowTblClear_eq sw
    simp only [exec, switchFlowTblReset, switchFlowTblDelete, eq] at member
    exact .inl (@swept_entries sw table next _ (fun _ => []) (by simp) _ appRef member)

/-- The owner count and list of one entry. -/
structure OwnerOk (ent : FlEntry) : Prop where
  counted : ent.appRef = ent.appOwnerList.length
  nodup : ent.appOwnerList.Nodup
  owned : ent.appOwnerList ≠ []
  sharing : 1 < ent.appOwnerList.length → hasFlag ent.flags flEntLocal = true

variable (flags : BitVec 64)

private theorem local_clearStale :
    hasFlag (clearFlag flags flEntStale) flEntLocal = hasFlag flags flEntLocal :=
  hasFlag_clearFlag _ _ _ (by decide)

private theorem local_clearNoAck :
    hasFlag (clearFlag flags flNoAck) flEntLocal = hasFlag flags flEntLocal :=
  hasFlag_clearFlag _ _ _ (by decide)

private theorem local_setStale :
    hasFlag (setFlag flags flEntStale) flEntLocal = hasFlag flags flEntLocal :=
  hasFlag_setFlag _ _ _ (by decide)

private theorem OwnerOk.of_same (ok : OwnerOk ent) (count : next.appRef = ent.appRef)
    (owners : next.appOwnerList = ent.appOwnerList)
    (flags : hasFlag next.flags flEntLocal = hasFlag ent.flags flEntLocal) : OwnerOk next :=
  ⟨by rw [count, owners]; exact ok.counted, owners ▸ ok.nodup, owners ▸ ok.owned,
    by rw [owners, flags]; exact ok.sharing⟩

private theorem OwnerOk.of_single (count : ent.appRef = 1) (owners : ent.appOwnerList = [app]) :
    OwnerOk ent :=
  ⟨by simp [count, owners], by simp [owners], by simp [owners], by simp [owners]⟩

private theorem OwnerOk.ownedEntry (ok : OwnerOk ent) (p : FlowModParams) :
    OwnerOk (ownedEntry ent p) := by
  by_cases residual : hasFlag ent.flags flEntResidual
  · refine @OwnerOk.of_single _ p.appOwner ?_ (by simp [OpenMul.ownedEntry, residual])
    simp [OpenMul.ownedEntry, residual, ok.counted]
  · simpa [OpenMul.ownedEntry, residual] using ok

private theorem OwnerOk.shared (ok : OwnerOk ent) (appRef : App → Int) (app : App)
    (locals : hasFlag ent.flags flEntLocal = true) :
    OwnerOk (flowAddAppOwner appRef ent app).2 := by
  by_cases owner : app ∈ ent.appOwnerList
  · simp only [flowAddAppOwner, flowAddAppOwnerLocked, owner, if_true]
    exact ok.of_same rfl rfl rfl
  · simp only [flowAddAppOwner, flowAddAppOwnerLocked, owner, if_false]
    refine ⟨?_, ?_, by simp, fun _ => locals⟩
    · simp [ok.counted]
    · exact nodup_append.mpr ⟨ok.nodup, by simp, by
        intro first firstAt last lastAt same
        exact owner (mem_singleton.mp lastAt ▸ same ▸ firstAt)⟩

private theorem OwnerOk.disowned (ok : OwnerOk ent) (owned : app ∈ ent.appOwnerList)
    (others : ent.appRef - 1 ≠ 0) : OwnerOk (withoutOwner app ent) := by
  have counted := ok.counted
  have length := length_erase_of_mem owned
  have nonempty : 0 < ent.appOwnerList.length := length_pos_of_mem owned
  refine ⟨?_, ok.nodup.erase app, ?_, ?_⟩
  · simp only [withoutOwner, length]
    omega
  · simp only [withoutOwner, ne_eq, ← length_eq_zero_iff, length]
    omega
  · intro many
    exact ok.sharing (by omega)

theorem OwnerOk.step (ok : OwnerOk ent) (step : EntryStep ent next) : OwnerOk next := by
  cases step with
  | same => exact ok
  | shared appRef _ app locals => exact ok.shared appRef app locals
  | refreshed => exact ok.of_same rfl rfl (local_clearStale _)
  | dropped => exact ok.of_same rfl rfl rfl
  | missing _ p => exact (ok.ownedEntry p).of_same rfl rfl rfl
  | modified _ p grps mets now =>
    by_cases residual : hasFlag ent.flags flEntResidual
    · refine @OwnerOk.of_single _ p.appOwner ?_ ?_ <;>
        simp [modEntry, OpenMul.ownedEntry, residual, ok.counted]
    · refine ok.of_same ?_ ?_ ?_ <;>
        simp [modEntry, OpenMul.ownedEntry, residual, local_clearStale, local_clearNoAck]
  | disowned _ app owned others => exact ok.disowned owned others
  | stale appCookie now =>
    unfold appPerFlowStale
    split
    · exact ok.of_same rfl rfl rfl
    · split
      · exact ok.of_same rfl rfl (local_setStale _)
      · exact ok.of_same rfl rfl rfl

theorem OwnerOk.added (sw : Switch) (p : FlowModParams) (grps mets : List Nat) (now : Nat) :
    OwnerOk (addedEntry sw p grps mets now) :=
  @OwnerOk.of_single _ p.appOwner rfl rfl

/-- What holds of a linked entry and is kept by the later changes holds of every one. -/
theorem reaches_entries {good : Nat → FlEntry → Prop}
    (kept : ∀ table ent next, good table ent → EntryStep ent next → good table next)
    (linked : ∀ sw op table next, LinkedBy sw op table next → good table next)
    (reached : switchRuns.Reaches sw) (member : ent ∈ sw.rules table) : good table ent := by
  refine Machine.Reaches.invariant (fun sw => ∀ table, ∀ ent ∈ sw.rules table, good table ent) ?_ ?_
    reached table ent member
  · rintro sw ⟨tables, -⟩ table ent member
    simp [Switch.rules, tables] at member
  · intro sw op _ all _ table next member
    rcases exec_entries sw op table next member with ⟨ent, present, step⟩ | fresh
    · exact kept table ent next (all table ent present) step
    · exact linked sw op table next fresh

theorem reaches_ownerOk (reached : switchRuns.Reaches sw) (member : ent ∈ sw.rules table) :
    OwnerOk ent := by
  refine @reaches_entries sw table ent (fun _ ent => OwnerOk ent)
    (fun _ _ _ ok step => ok.step step) ?_ reached member
  rintro sw op table next ⟨p, now, grps, mets, -, -, -, rfl⟩
  exact .added sw p grps mets now

theorem reaches_table_lt (reached : switchRuns.Reaches sw)
    (member : ent ∈ sw.rules table) : table < maxRuleFlowTbls := by
  refine @reaches_entries sw table ent (fun table _ => table < maxRuleFlowTbls)
    (fun _ _ _ inside _ => inside) ?_ reached member
  rintro sw op table next ⟨p, now, grps, mets, -, rfl, valid, -⟩
  exact tableOf_lt valid

theorem reaches_rule_unique (reached : switchRuns.Reaches sw) {first second : FlEntry}
    (one : first ∈ sw.rules table) (two : second ∈ sw.rules table)
    (same : first.ruleKey = second.ruleKey) : first = second :=
  inj_on_of_nodup_map (reaches_ordered reached table).nodup one two same

/-- The request takes the last owner of the entry away. -/
def LosesLastOwner (sw : Switch) (op : Op) (table : Nat) (ent : FlEntry) : Prop :=
  match op with
  | .flowDel p => flowModValidateParms sw p = true ∧ table = tableOf p ∧
      delStrictMatch p.flow p.mask p.prio p.appOwner ent = true ∧
      ent.appOwnerList.erase p.appOwner = []
  | .appUnregister app => app ∈ ent.appOwnerList ∧ ent.appOwnerList.erase app = []
  | _ => False

/-- A takeover of a residual entry by an application's own rule. -/
def TakenOver (sw : Switch) (p : FlowModParams) (table : Nat) (ent : FlEntry) : Prop :=
  flowModValidateParms sw p = true ∧ table = tableOf p ∧ sameRule p.flow p.mask p.prio ent = true ∧
    hasFlag ent.flags flEntResidual = true ∧ hasFlag p.flags flEntResidual = false ∧
    hasFlag p.flags flEntLocal = false

private theorem OwnerOk.last_iff (ok : OwnerOk ent)
    (owned : app ∈ ent.appOwnerList) : ent.appRef - 1 = 0 ↔ ent.appOwnerList.erase app = [] := by
  have counted := ok.counted
  have length := length_erase_of_mem owned
  have nonempty : 0 < ent.appOwnerList.length := length_pos_of_mem owned
  rw [← length_eq_zero_iff]
  omega

theorem delStrictMatch_key {fl mask : Flow} (found : delStrictMatch fl mask prio app ent = true) :
    ent.ruleKey = (fl, mask.sansPad, prio) := by
  simp only [delStrictMatch, Bool.and_eq_true, beq_iff_eq, decide_eq_true_eq] at found
  simp [FlEntry.ruleKey, found.1]

variable {p : FlowModParams} {found : FlEntry}

theorem DelFound.unique (reached : switchRuns.Reaches sw) (first : DelFound sw p before found after)
    (member : ent ∈ sw.rules (tableOf p))
    (passes : delStrictMatch p.flow p.mask p.prio p.appOwner ent = true) : ent = found := by
  have present : found ∈ sw.rules (tableOf p) := by
    rw [first.split]
    simp
  exact reaches_rule_unique reached member present
    ((delStrictMatch_key passes).trans (delStrictMatch_key first.passes).symm)

theorem DelFound.owned (first : DelFound sw p before found after) :
    p.appOwner ∈ found.appOwnerList := by
  have passes := first.passes
  simp only [delStrictMatch, Bool.and_eq_true, decide_eq_true_eq] at passes
  exact passes.2

theorem DelFound.member (first : DelFound sw p before found after) :
    found ∈ sw.rules (tableOf p) := by
  rw [first.split]
  simp

private theorem flowRuleDel_leaves (reached : switchRuns.Reaches sw) (member : ent ∈ sw.rules table)
    (p : FlowModParams) :
    ent.ruleKey ∉ (flowRuleDel sw p).1.ruleKeys table ↔
      LosesLastOwner sw (.flowDel p) table ent := by
  have present : ent.ruleKey ∈ sw.ruleKeys table := mem_map_of_mem member
  have outcome := @flowRuleDel_outcome sw p
  generalize flowRuleDel sw p = result at outcome ⊢
  simp only [LosesLastOwner]
  cases outcome with
  | invalid rejected => simpa [rejected] using present
  | missing valid none =>
    apply iff_of_false (not_not_intro present)
    rintro ⟨-, rfl, found, -⟩
    rw [none ent member] at found
    cases found
  | @kept before found after valid first others =>
    have keys := @keys_replaced sw _ _ _ _ _ (withoutOwner p.appOwner found) first rfl table
    refine iff_of_false (not_not_intro ?_) ?_
    · change ent.ruleKey ∈ map FlEntry.ruleKey (Switch.rules (sw.setRules _ _) table)
      rw [keys]
      exact present
    · rintro ⟨-, rfl, passes, last⟩
      obtain rfl := first.unique reached member passes
      exact others (((reaches_ownerOk reached member).last_iff first.owned).mpr last)
  | @removed before found after valid first last =>
    by_cases here : table = tableOf p
    · subst table
      have distinct := (reaches_ordered reached (tableOf p)).nodup
      rw [Switch.ruleKeys, first.split, map_append, map_cons, nodup_middle,
        ← map_append, nodup_cons] at distinct
      simp only [Switch.ruleKeys, Switch.rules, Function.update_self]
      by_cases same : ent = found
      · subst ent
        exact iff_of_true distinct.1
          ⟨valid, trivial, first.passes,
            ((reaches_ownerOk reached member).last_iff first.owned).mp last⟩
      · refine iff_of_false (not_not_intro (mem_map_of_mem ?_)) ?_
        · rw [first.split] at member
          simpa [same] using member
        · rintro ⟨-, -, passes, -⟩
          exact same (first.unique reached member passes)
    · simpa [Switch.ruleKeys, Switch.rules, here] using present

private theorem swept_leaves (reached : switchRuns.Reaches sw) (member : ent ∈ sw.rules table)
    {keep : FlEntry → Option FlEntry} {msgs : FlEntry → List OfpMsg}
    (keys : ∀ ent kept, keep ent = some kept → kept.ruleKey = ent.ruleKey) (appRef : App → Int) :
    ent.ruleKey ∉ (swept keep msgs sw (range maxRuleFlowTbls) appRef).ruleKeys table ↔
      keep ent = none := by
  have inside : table ∈ range maxRuleFlowTbls := mem_range.mpr (reaches_table_lt reached member)
  rw [Switch.ruleKeys, rules_swept, if_pos inside]
  constructor
  · intro left
    cases kept : keep ent with
    | none => rfl
    | some next =>
      refine absurd ?_ left
      rw [← keys ent next kept]
      exact mem_map_of_mem (mem_filterMap.mpr ⟨ent, member, kept⟩)
  · intro gone stays
    obtain ⟨next, present, same⟩ := mem_map.mp stays
    obtain ⟨other, old, kept⟩ := mem_filterMap.mp present
    have equal := reaches_rule_unique reached old member ((keys other next kept).symm.trans same)
    rw [equal, gone] at kept
    cases kept

theorem keepOwned_none (ok : OwnerOk ent) (app : App) :
    keepOwned app ent = none ↔ app ∈ ent.appOwnerList ∧ ent.appOwnerList.erase app = [] := by
  unfold keepOwned
  by_cases owned : app ∈ ent.appOwnerList
  · rw [if_pos owned]
    split
    · rename_i last
      exact iff_of_true rfl ⟨owned, (ok.last_iff owned).mp last⟩
    · rename_i others
      exact iff_of_false (by simp) fun last => others ((ok.last_iff owned).mpr last.2)
  · simp [owned]

theorem keepOwned_none_iff (ok : OwnerOk ent) (app : App) :
    keepOwned app ent = none ↔ ent.appOwnerList = [app] := by
  rw [keepOwned_none ok]
  constructor
  · rintro ⟨owned, last⟩
    have perm := perm_cons_erase owned
    rw [last] at perm
    exact perm_singleton.mp perm
  · intro only
    simp [only]

theorem leaves_iff (reached : switchRuns.Reaches sw) (member : ent ∈ sw.rules table) (op : Op) :
    ent.ruleKey ∉ (exec sw op).ruleKeys table ↔
      LosesLastOwner sw op table ent ∨ op = .tblReset ∨ op = .tblDelete := by
  have present : ent.ruleKey ∈ sw.ruleKeys table := mem_map_of_mem member
  cases op with
  | flowAdd p now =>
    refine iff_of_false (not_not_intro ?_) (by simp [LosesLastOwner])
    rcases flowRuleAdd_keys sw p now with same | link
    · simpa only [exec, same] using present
    · by_cases here : table = tableOf p
      · subst table
        obtain ⟨added, -, rules⟩ := link.linked
        rw [exec, Switch.ruleKeys, rules]
        exact mem_map_of_mem (mem_insertBefore.mpr (.inr member))
      · rw [exec, Switch.ruleKeys, link.others table here]
        exact present
  | flowDel p => simpa [exec] using flowRuleDel_leaves reached member p
  | groupAdd | groupDel | meterAdd | meterDel | appRegister =>
    refine iff_of_false (not_not_intro ?_) (by simp [LosesLastOwner])
    rw [Switch.ruleKeys, Switch.rules, exec_offTables sw rfl]
    exact present
  | appUnregister app =>
    obtain ⟨appRef, eq⟩ := delAppFlowOwner_eq sw app
    have leaves := @swept_leaves sw table ent reached member _ (sweepMsgs sw.ofpCtors sw.master)
      (keepOwned_key app) appRef
    rw [keepOwned_none (reaches_ownerOk reached member)] at leaves
    simp only [exec, perSwitchAppUnregister, delMeterWithOwner, delGroupWithOwner, eq,
      LosesLastOwner, reduceCtorEq, or_false]
    split <;> exact leaves
  | flowStale appCookie now =>
    refine iff_of_false (not_not_intro ?_) (by simp [LosesLastOwner])
    have bounded := reaches_table_lt reached member
    simpa [exec, appFlowStale, Switch.ruleKeys, Switch.rules, bounded] using present
  | tblReset | tblDelete =>
    obtain ⟨appRef, eq⟩ := flowTblClear_eq sw
    have leaves :=
      @swept_leaves sw table ent reached member (fun _ => none) (fun _ => []) (by simp) appRef
    refine iff_of_true ?_ (by simp)
    simp only [exec, switchFlowTblReset, switchFlowTblDelete, eq]
    exact leaves.mpr rfl

/-- A takeover replaces the owners in place, whether or not the new
dependencies exist. -/
theorem takenOver_owner (reached : switchRuns.Reaches sw) (member : ent ∈ sw.rules table)
    (now : Nat) (taken : TakenOver sw p table ent) :
    ∃ next ∈ (exec sw (.flowAdd p now)).rules table,
      next.ruleKey = ent.ruleKey ∧ next.appOwnerList = [p.appOwner] := by
  obtain ⟨valid, rfl, same, residual, fresh, remote⟩ := taken
  have unique : ∀ before found after, AddFound sw p before found after → found = ent := by
    intro before found after first
    apply reaches_rule_unique reached (by rw [first.split]; simp) member
    rw [(sameRule_iff ..).mp first.passes, (sameRule_iff ..).mp same]
  have outcome := @flowRuleAdd_outcome sw p now
  rw [exec]
  generalize flowRuleAdd sw p now = result at outcome ⊢
  cases outcome with
  | invalid rejected => simp [valid] at rejected
  | refused _ first reason =>
    obtain rfl := unique _ _ _ first
    simp [remote, residual] at reason
  | shared _ _ asked => simp [remote] at asked
  | existing _ first settled =>
    obtain rfl := unique _ _ _ first
    simp [residual] at settled
  | dropped _ _ _ again => simp [fresh] at again
  | @missing before found after _ first =>
    obtain rfl := unique _ _ _ first
    refine ⟨{ ownedEntry found p with locked := false }, ?_, ruleKey_ownedEntry found p, ?_⟩
    · simp [Switch.rules, Switch.setRules]
    · simp [ownedEntry, residual]
  | @modified before found after grps mets _ first =>
    obtain rfl := unique _ _ _ first
    refine ⟨modEntry found p grps mets now, ?_, ruleKey_modEntry .., ?_⟩
    · simp [Switch.rules, Switch.setRules]
    · simp [modEntry, ownedEntry, residual]
  | unresolved _ none | inserted _ none => simp [none ent member] at same

/-- Ownership in every reachable state: count and list agree, and an entry leaves
exactly with its last owner or when the tables are cleared. -/
theorem ownership_accounting {sw : Switch} (reached : switchRuns.Reaches sw) {table : Nat}
    {ent : FlEntry} (member : ent ∈ sw.rules table) :
    (ent.appRef = ent.appOwnerList.length ∧ ent.appOwnerList.Nodup ∧ ent.appOwnerList ≠ [] ∧
      (1 < ent.appOwnerList.length → hasFlag ent.flags flEntLocal = true)) ∧
    (∀ op, ent.ruleKey ∉ (exec sw op).ruleKeys table ↔
      LosesLastOwner sw op table ent ∨ op = .tblReset ∨ op = .tblDelete) ∧
    ∀ p now, TakenOver sw p table ent → ∃ next ∈ (exec sw (.flowAdd p now)).rules table,
      next.ruleKey = ent.ruleKey ∧ next.appOwnerList = [p.appOwner] := by
  have ok := reaches_ownerOk reached member
  exact ⟨⟨ok.counted, ok.nodup, ok.owned, ok.sharing⟩, leaves_iff reached member,
    fun _ now => takenOver_owner reached member now⟩

/-- One rule of application 7, as read back from the switch. -/
def residualRule : FlowModParams := { appOwner := 7, flags := flEntResidual }

theorem ownership_accounting_residual :
    let sw := switchRuns.execAll (bootSwitch .of131) [.flowAdd residualRule 0]
    ∃ ent ∈ sw.rules 0, ent.appRef = 1 ∧ ent.ruleKey ∉ (exec sw (.appUnregister 7)).ruleKeys 0 := by
  intro sw
  have reached : switchRuns.Reaches sw := reaches_boot .of131 _ ⟨trivial, trivial⟩
  have member : addedEntry (bootSwitch .of131) residualRule [] [] 0 ∈ sw.rules 0 := by decide
  refine ⟨_, member, rfl, ?_⟩
  exact ((ownership_accounting reached member).2.1 _).mpr (.inl ⟨by decide, by decide⟩)

/-- The only owner is gone by a takeover, and the entry is still there. -/
theorem takeover_last_owner_stays :
    let sw := switchRuns.execAll (bootSwitch .of131) [.flowAdd residualRule 0]
    let next := exec sw (.flowAdd { appOwner := 8, actions := [1] } 1)
    switchRuns.Reaches sw ∧ (sw.rules 0).map FlEntry.appOwnerList = [[7]] ∧
      (next.rules 0).map FlEntry.appOwnerList = [[8]] ∧ next.ruleKeys 0 = sw.ruleKeys 0 := by
  intro sw next
  exact ⟨reaches_boot .of131 _ ⟨trivial, trivial⟩, by decide, by decide, by decide⟩

end OpenMul
