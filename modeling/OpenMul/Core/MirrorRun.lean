import OpenMul.Core.MirrorRule

namespace OpenMul

open Lib RefTable

section Step

variable {sw : Switch}

private theorem keepOwned_flags (keeps : keepOwned app ent = some kept) :
    kept.flags = ent.flags := by
  obtain rfl | ⟨-, -, rfl⟩ := keepOwned_cases keeps
  · rfl
  · rfl

private theorem shown_keepOwned (reached : switchRuns.Reaches sw) (app : App) (ctors : OfpCtors)
    (key : WireKey) : Shown ctors (sw.allRules.filterMap (keepOwned app)) key ↔
      ∃ ent ∈ sw.allRules, ent.appOwnerList ≠ [app] ∧ mirrored ent.flags = true ∧
        ent.wireKey ctors = key := by
  have stays : ∀ ent ∈ sw.allRules, keepOwned app ent = none ↔ ent.appOwnerList = [app] := by
    intro ent member
    obtain ⟨table, -, present⟩ := mem_allRules.mp member
    exact keepOwned_none_iff (reaches_ownerOk reached present) app
  constructor
  · rintro ⟨kept, member, shows, rfl⟩
    obtain ⟨ent, present, keeps⟩ := List.mem_filterMap.mp member
    refine ⟨ent, present, fun leaves => ?_, keepOwned_flags keeps ▸ shows,
      (wireKey_of_ruleKey ctors (keepOwned_key app ent kept keeps)).symm⟩
    rw [(stays ent present).mpr leaves] at keeps
    cases keeps
  · rintro ⟨ent, present, different, shows, rfl⟩
    obtain ⟨kept, keeps⟩ := Option.ne_none_iff_exists'.mp (mt (stays ent present).mp different)
    exact ⟨kept, List.mem_filterMap.mpr ⟨ent, present, keeps⟩, (keepOwned_flags keeps).symm ▸ shows,
      wireKey_of_ruleKey ctors (keepOwned_key app ent kept keeps)⟩

private theorem mem_freed (reached : switchRuns.Reaches sw) (app : App) (ent : FlEntry) :
    ent ∈ freed (keepOwned app) sw.allRules ↔ ent ∈ sw.allRules ∧ ent.appOwnerList = [app] := by
  rw [freed, List.mem_filter, Option.isNone_iff_eq_none]
  refine and_congr_right fun member => ?_
  obtain ⟨table, -, present⟩ := mem_allRules.mp member
  exact keepOwned_none_iff (reaches_ownerOk reached present) app

private theorem mirrors_appUnregister_iff (reached : switchRuns.Reaches sw)
    (master : sw.master = true) (mirrors : Mirrors sw) (app : App) :
    Mirrors (perSwitchAppUnregister sw app) ↔ MirrorSafe sw (.appUnregister app) := by
  obtain ⟨appRef, eq⟩ := delAppFlowOwner_eq sw app
  have single : ∀ ent ∈ freed (keepOwned app) sw.allRules, ent.clonedList = [] := by
    intro ent member
    obtain ⟨table, -, present⟩ := mem_allRules.mp ((mem_freed reached app ent).mp member).1
    exact reaches_single reached present
  have next : Mirrors (perSwitchAppUnregister sw app) ↔ ∀ key,
      key ∈ hwTable (sw.txQ ++
        (freed (keepOwned app) sw.allRules).flatMap (sweepMsgs sw.ofpCtors sw.master)) ↔
      Shown sw.ofpCtors (sw.allRules.filterMap (keepOwned app)) key := by
    rw [← @allRules_swept _ (sweepMsgs sw.ofpCtors sw.master) sw appRef]
    simp only [perSwitchAppUnregister, delMeterWithOwner, delGroupWithOwner, eq]
    split <;> rfl
  rw [next]
  simp only [mem_hw_sweep master sw.txQ _ single, shown_keepOwned reached, mem_freed reached,
    mirrors _]
  constructor
  · intro agree gone member leaves remote other present stays shows
    exact ((agree _).mpr ⟨other, present, stays, shows, rfl⟩).2 gone ⟨member, leaves⟩ remote
  · intro safe key
    constructor
    · rintro ⟨⟨ent, member, shows, rfl⟩, spared⟩
      refine ⟨ent, member, fun leaves => ?_, shows, rfl⟩
      have covered := spared ent ⟨member, leaves⟩ (not_local_of_mirrored shows)
      rw [WireKey.covers_refl] at covered
      cases covered
    · rintro ⟨other, present, stays, shows, rfl⟩
      refine ⟨⟨other, present, shows, rfl⟩, ?_⟩
      rintro gone ⟨member, leaves⟩ remote
      exact safe gone member leaves remote other present stays shows

/-- Clearing the tables tells the switch nothing. -/
private theorem mirrors_flowTblClear_iff (mirrors : Mirrors sw) :
    Mirrors (flowTblClear sw) ↔ ∀ ent ∈ sw.allRules, mirrored ent.flags = false := by
  obtain ⟨appRef, eq⟩ := flowTblClear_eq sw
  have next : Mirrors (flowTblClear sw) ↔ ∀ key, ¬key ∈ hwTable sw.txQ := by
    have rules := @allRules_swept (fun _ => none) (fun _ => []) sw appRef
    have queue :
        sw.txQ ++ (freed (fun _ => none) sw.allRules).flatMap (fun _ => ([] : List OfpMsg)) =
        sw.txQ := by simp
    rw [eq]
    refine forall_congr' fun key => ?_
    change (key ∈ hwTable (sw.txQ ++ (freed (fun _ => none) sw.allRules).flatMap fun _ => []) ↔
      Shown sw.ofpCtors (swept (fun _ => none) (fun _ => []) sw (List.range maxRuleFlowTbls)
        appRef).allRules key) ↔ _
    rw [rules, queue]
    simp [Shown]
  rw [next]
  simp only [mirrors _, Shown, not_exists, not_and]
  constructor
  · intro empty ent member
    exact Bool.eq_false_iff.mpr fun shows => empty _ ent member shows rfl
  · intro empty key ent member shows
    rw [empty ent member] at shows
    cases shows

private theorem mirrored_appPerFlowStale (appCookie : BitVec 32) (now : Nat) (ent : FlEntry) :
    mirrored (appPerFlowStale appCookie now ent).flags = mirrored ent.flags := by
  unfold appPerFlowStale
  split
  · rfl
  · split
    · exact mirrored_setStale _
    · rfl

private theorem mirrors_flowStale (mirrors : Mirrors sw) (appCookie : BitVec 32) (now : Nat) :
    Mirrors (appFlowStale sw appCookie now) := by
  intro key
  apply (mirrors key).trans
  rw [allRules_stale]
  constructor
  · rintro ⟨ent, member, shows, rfl⟩
    exact ⟨_, List.mem_map_of_mem member, (mirrored_appPerFlowStale ..).trans shows,
      wireKey_of_ruleKey _ (ruleKey_appPerFlowStale ..)⟩
  · rintro ⟨next, member, shows, rfl⟩
    obtain ⟨ent, present, rfl⟩ := List.mem_map.mp member
    exact ⟨ent, present, (mirrored_appPerFlowStale ..).symm.trans shows,
      (wireKey_of_ruleKey _ (ruleKey_appPerFlowStale ..)).symm⟩

private theorem hwTable_offTables (off : op.offTables = true) :
    hwTable (exec sw op).txQ = hwTable sw.txQ ∧ (exec sw op).ofpCtors = sw.ofpCtors := by
  obtain ⟨_, _, _, _, _, _, next, quiet, -⟩ := exec_offTables_eq sw off
  rw [next]
  exact ⟨hwTable_append_quiet _ quiet, rfl⟩

private theorem mirrors_offTables (off : op.offTables = true) (mirrors : Mirrors sw) :
    Mirrors (exec sw op) := by
  obtain ⟨hw, ctors⟩ := @hwTable_offTables sw op off
  have rules : (exec sw op).allRules = sw.allRules :=
    List.flatMap_congr fun table _ => by rw [Switch.rules, exec_offTables sw off, Switch.rules]
  intro key
  rw [hw, ctors, rules]
  exact mirrors key

theorem mirrors_exec_iff (reached : switchRuns.Reaches sw) (master : sw.master = true)
    (mirrors : Mirrors sw) (op : Op) : Mirrors (exec sw op) ↔ MirrorSafe sw op := by
  cases op with
  | flowAdd p now => exact mirrors_flowAdd_iff reached master mirrors p now
  | flowDel p => exact mirrors_flowDel_iff reached master mirrors p
  | groupAdd | groupDel | meterAdd | meterDel | appRegister =>
    exact iff_of_true (mirrors_offTables rfl mirrors) trivial
  | appUnregister app => exact mirrors_appUnregister_iff reached master mirrors app
  | flowStale appCookie now => exact iff_of_true (mirrors_flowStale mirrors appCookie now) trivial
  | tblReset | tblDelete => exact mirrors_flowTblClear_iff mirrors

private theorem exec_master (sw : Switch) (op : Op) : (exec sw op).master = sw.master := by
  by_cases off : op.offTables = true
  · obtain ⟨_, _, _, _, _, _, next, -⟩ := exec_offTables_eq sw off
    rw [next]
  cases op with
  | flowAdd p now =>
    have outcome := @flowRuleAdd_outcome sw p now
    rw [exec]
    generalize flowRuleAdd sw p now = result at outcome ⊢
    cases outcome <;> rfl
  | flowDel p =>
    have outcome := @flowRuleDel_outcome sw p
    rw [exec]
    generalize flowRuleDel sw p = result at outcome ⊢
    cases outcome <;> rfl
  | groupAdd | groupDel | meterAdd | meterDel | appRegister => exact absurd rfl off
  | appUnregister app =>
    obtain ⟨appRef, eq⟩ := delAppFlowOwner_eq sw app
    simp only [exec, perSwitchAppUnregister, delMeterWithOwner, delGroupWithOwner, eq]
    split <;> rfl
  | flowStale => rfl
  | tblReset | tblDelete =>
    obtain ⟨appRef, eq⟩ := flowTblClear_eq sw
    simp only [exec, switchFlowTblReset, switchFlowTblDelete, eq]
    rfl

end Step

/-- In every run of safe requests under a master, the switch mirrors the rules. -/
theorem switch_mirrors_rules {sw : Switch} (reached : (switchRuns.restrict MirrorSafe).Reaches sw)
    (master : sw.master = true) (key : WireKey) : key ∈ hwTable sw.txQ ↔
      ∃ ent ∈ sw.allRules, mirrored ent.flags = true ∧ ent.wireKey sw.ofpCtors = key := by
  refine Machine.Reaches.invariant (fun sw => sw.master = true →
    Mirrors sw) ?_ ?_ reached master key
  · rintro sw ⟨tables, -, -, queue, -⟩ - key
    simp [queue, hwTable, Shown, Switch.allRules, Switch.rules, tables]
  · intro sw op earlier mirrors admitted still
    have master : sw.master = true := (exec_master sw op).symm.trans still
    exact (mirrors_exec_iff earlier.of_restrict master (mirrors master) op).mpr admitted.2

def ipRule : FlowModParams :=
  { appOwner := 7, prio := 1, flow := { dlType := ethTypeIp }, mask := { dlType := 0xffff } }

def arpRule : FlowModParams :=
  { appOwner := 8, prio := 2, flow := { dlType := ethTypeArp }, mask := { dlType := 0xffff } }

/-- Two applications with rules for different packets; one of them leaves. -/
theorem switch_mirrors_rules_disjoint :
    let sw := switchRuns.execAll (bootSwitch .of131)
      [.flowAdd ipRule 0, .flowAdd arpRule 0, .appUnregister 7]
    hwTable sw.txQ = [arpRule.wireKey .of131] ∧ ∀ key, key ∈ hwTable sw.txQ ↔
      ∃ ent ∈ sw.allRules, mirrored ent.flags = true ∧ ent.wireKey sw.ofpCtors = key := by
  intro sw
  have reached : (switchRuns.restrict MirrorSafe).Reaches sw :=
    @Machine.Reaches.execAll _ _ (switchRuns.restrict MirrorSafe) (bootSwitch .of131) _
      (.start ⟨rfl, rfl, rfl, rfl, rfl⟩)
      ⟨⟨trivial, fun _ => .inr (by decide)⟩, ⟨trivial, fun _ => .inr (by decide)⟩,
        ⟨trivial, by unfold MirrorSafe; decide +kernel⟩, trivial⟩
  have left : hwTable sw.txQ = [arpRule.wireKey .of131] ∧ sw.master = true := by decide +kernel
  exact ⟨left.1, switch_mirrors_rules reached left.2⟩

/-- The non-strict delete of a leaving application clears the other application's entry. -/
theorem leaving_app_clears_other_rule :
    let sw := switchRuns.execAll (bootSwitch .of131)
      [.flowAdd { appOwner := 7, prio := 1 } 0, .flowAdd arpRule 0, .appUnregister 7]
    switchRuns.Reaches sw ∧ sw.master = true ∧ hwTable sw.txQ = [] ∧
      sw.allRules.map (fun ent => (ent.appOwnerList, mirrored ent.flags)) = [([8], true)] := by
  intro sw
  have left : sw.master = true ∧ hwTable sw.txQ = [] ∧
      sw.allRules.map (fun ent => (ent.appOwnerList, mirrored ent.flags)) = [([8], true)] := by
        decide +kernel
  exact ⟨reaches_boot .of131 _ ⟨trivial, trivial, trivial, trivial⟩, left⟩

end OpenMul
