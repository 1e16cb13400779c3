import OpenMul.Core.RegistrationKept

namespace OpenMul

open Lib RefTable List

/-- A switch after a walk: passed by, or changed under the counts of the moment. -/
def Visited (select : RegSwitch → Bool) (change : Switch → Switch) (node next : RegSwitch) : Prop :=
  (select node = false ∧ next = node) ∨
    (select node = true ∧ ∃ appRef, next = { node with sw := change (node.sw.withRef appRef) })

theorem visitSwitches_visited (select : RegSwitch → Bool) (change : Switch → Switch)
    (list : List RegSwitch) (appRef : App → Int) :
    List.Forall₂ (Visited select change) list (visitSwitches select change appRef list).1 := by
  apply visitSwitches_related
  · exact fun node passed => .inl ⟨passed, rfl⟩
  · exact fun node appRef chosen => .inr ⟨chosen, appRef, rfl⟩

theorem OwnersSound.withRef (sound : OwnersSound sw) (appRef : App → Int) :
    OwnersSound (sw.withRef appRef) :=
  sound.of_same rfl rfl rfl

theorem exec_appList (sw : Switch) {op : Op} (ofApp : op.ofApp = true) :
    (exec sw op).appList = sw.appList := by
  by_cases off : op.offTables = true
  · obtain ⟨_, _, _, _, _, _, next, -, same | ⟨_, rfl⟩⟩ := exec_offTables_eq sw off
    · rw [next]
      exact same
    · cases ofApp
  cases op with
  | flowAdd p now =>
    have outcome := @flowRuleAdd_outcome sw p now
    simp only [exec]
    generalize flowRuleAdd sw p now = result at outcome
    cases outcome <;> rfl
  | flowDel p =>
    have outcome := @flowRuleDel_outcome sw p
    simp only [exec]
    generalize flowRuleDel sw p = result at outcome
    cases outcome <;> rfl
  | groupAdd | groupDel | meterAdd | meterDel => exact absurd rfl off
  | appRegister | appUnregister | flowStale | tblReset | tblDelete => cases ofApp

theorem exec_sound (sound : OwnersSound sw) {op : Op} (ofApp : op.ofApp = true)
    (admitted : admits sw op) : OwnersSound (exec sw op) := by
  cases op with
  | flowAdd p now => exact sound.flowAdd p now
  | flowDel p => exact sound.flowDel p
  | groupAdd p ptr now => exact sound.groupAdd p now admitted
  | groupDel p => exact sound.groupDel p
  | meterAdd p ptr now => exact sound.meterAdd p now admitted
  | meterDel p => exact sound.meterDel p
  | appRegister | appUnregister | flowStale | tblReset | tblDelete => cases ofApp

theorem exec_settled (sound : OwnersSound sw) (enough : Enough sw) {op : Op}
    (ofApp : op.ofApp = true) : Settled sw (exec sw op) := by
  have accounted : Accounted sw (exec sw op) := by
    cases op with
    | flowAdd p now => exact flowRuleAdd_accounted sw p now
    | flowDel p => exact flowRuleDel_accounted sw p (sound.rules _)
    | groupAdd p ptr now => exact groupAdd_accounted sound enough.covered p ptr now
    | groupDel p => exact groupDel_accounted sound enough.covered p
    | meterAdd p ptr now => exact meterAdd_accounted sound enough.covered p ptr now
    | meterDel p => exact meterDel_accounted sound enough.covered p
    | appRegister | appUnregister | flowStale | tblReset | tblDelete => cases ofApp
  exact accounted.settled (exec_appList sw ofApp)

theorem RegInv.request (inv : RegInv reg) (dpid : BitVec 64) {op : Op}
    (ofApp : op.ofApp = true)
    (admitted : ∀ node ∈ reg.switches, node.dpid = dpid → admits node.sw op) :
    RegInv (reg.visit (fun node => node.dpid == dpid) fun sw => exec sw op) := by
  refine ⟨?_, inv.apps, inv.direct, inv.counted_of_kept ?_⟩
  · refine forall_of_related (visitSwitches_visited _ _ reg.switches reg.appRef) ?_
    rintro node member _ (⟨-, rfl⟩ | ⟨chosen, appRef, rfl⟩)
    · exact { inv.nodes _ member with }
    · have booked := inv.nodes node member
      have list := exec_appList (node.sw.withRef appRef) ofApp
      have allowed : admits (node.sw.withRef appRef) op := by
        have before := admitted node member (beq_iff_eq.mp chosen)
        cases op <;> exact before
      refine ⟨?_, ?_, ?_, exec_sound (booked.sound.withRef appRef) ofApp allowed⟩ <;>
        simp only [list]
      · exact booked.listed
      · exact booked.covering
      · exact booked.once
  · apply Registry.visit_kept inv.enough
    intro node member _ appRef enough
    exact exec_settled ((inv.nodes node member).sound.withRef appRef) enough ofApp

section Unregister

variable {reg : Registry} {app : App}

/-- The registry after `mul_unregister_app` found an application. -/
def Registry.departed (reg : Registry) (app : App) : Registry :=
  ({ reg with appRef := countApp reg.appRef app 1, appList := reg.appList.erase app } :
    Registry).visit (fun _ => true) fun sw => perSwitchAppUnregister sw app

theorem Registry.mulUnregisterApp_found (found : reg.appLookup appName = some app) :
    ∃ info, reg.mulUnregisterApp appName =
      { (reg.departed app).setInfo app info with
          appRef := appPut (reg.departed app).appRef app } := by
  rw [mulUnregisterApp, found]
  exact ⟨_, rfl⟩

/-- The reference the registrar takes is the only one nobody holds. -/
private theorem departed_counts (inv : RegInv reg) (app other : App) :
    (reg.departed app).appRef other =
      (holdersOf (reg.departed app).switches).count other + [app].count other := by
  let taken : Registry :=
    { reg with appRef := countApp reg.appRef app 1, appList := reg.appList.erase app }
  have one : ∀ other,
      taken.appRef other = (holdersOf taken.switches).count other + [app].count other := by
    intro other
    rw [← inv.counted other]
    exact countApp_one reg.appRef app other
  have enough : taken.Enough := by
    intro other
    rw [one other]
    omega
  have kept : taken.Kept (reg.departed app) := by
    apply Registry.visit_kept enough
    intro node member _ appRef here
    exact perSwitchAppUnregister_settled ((inv.nodes node member).sound.withRef appRef) here app
  have before := one other
  have moved := kept other
  omega

private theorem departed_nodes (inv : RegInv reg) (app : App) (registered : List App)
    (info : App → AppInfo) (apps : registered = reg.appList.erase app)
    (others : ∀ other ≠ app, info other = reg.info other) :
    ∀ node ∈ (reg.departed app).switches, NodeBooked { reg with appList := registered, info } node ∧
        ∀ other ∈ node.sw.owners, other ≠ app ∧ ∃ old ∈ reg.switches, other ∈ old.sw.owners := by
  refine forall_of_related (visitSwitches_visited _ _ reg.switches (countApp reg.appRef app 1)) ?_
  rintro node member _ (⟨passed, -⟩ | ⟨-, appRef, rfl⟩)
  · cases passed
  have booked := inv.nodes node member
  have sound := booked.sound.withRef appRef
  have list := perSwitchAppUnregister_appList (node.sw.withRef appRef) app
  constructor
  · refine ⟨?_, ?_, ?_, sound.appUnregister app⟩ <;> simp only [list, apps]
    · intro other listed
      obtain ⟨different, before⟩ := booked.once.mem_erase_iff.mp listed
      obtain ⟨registered, covers⟩ := booked.listed other before
      rw [others other different]
      exact ⟨inv.apps.mem_erase_iff.mpr ⟨different, registered⟩, covers⟩
    · intro published other still covers
      obtain ⟨different, registered⟩ := inv.apps.mem_erase_iff.mp still
      rw [others other different] at covers
      exact booked.once.mem_erase_iff.mpr ⟨different,
        booked.covering published other registered covers⟩
    · exact booked.once.erase app
  · intro other owner
    obtain ⟨before, different⟩ := perSwitchAppUnregister_owners sound owner
    exact ⟨different, node, member, before⟩

theorem RegInv.mulUnregisterApp (inv : RegInv reg) (appName : List Byte) :
    RegInv (reg.mulUnregisterApp appName) ∧
      ∀ other, reg.appLookup appName = some other ∨
        (other ∉ reg.appList ∧ ∀ node ∈ reg.switches, other ∉ node.sw.owners) →
          (reg.mulUnregisterApp appName).appRef other = 0 := by
  cases found : reg.appLookup appName with
  | none =>
    have same : reg.mulUnregisterApp appName = reg := by rw [Registry.mulUnregisterApp, found]
    rw [same]
    refine ⟨inv, ?_⟩
    rintro other (known | ⟨unregistered, nothing⟩)
    · cases known
    · exact inv.count_unregistered unregistered nothing
  | some app =>
    obtain ⟨info, next⟩ := Registry.mulUnregisterApp_found found
    have counts := departed_counts inv app
    have nodes :=
      departed_nodes inv app _ (Function.update reg.info app info) rfl fun other different =>
      Function.update_of_ne different ..
    have held : 0 < (reg.departed app).appRef app := by
      rw [counts, count_singleton_self]
      omega
    have after : RegInv (reg.mulUnregisterApp appName) := by
      rw [next]
      refine ⟨?_, inv.apps.erase app, ?_, ?_⟩
      · intro node member
        have booked := (nodes node member).1
        exact { booked with }
      · intro other registered
        obtain ⟨different, before⟩ := inv.apps.mem_erase_iff.mp registered
        change hasFlag (Function.update reg.info app info other).appFlags _ = false
        rw [Function.update_of_ne different]
        exact inv.direct other before
      · intro other
        change appPut (reg.departed app).appRef app other = _
        rw [appPut_held held, countApp_neg_one, counts]
        exact Int.add_sub_cancel ..
    refine ⟨after, ?_⟩
    intro other gone
    apply after.count_unregistered
    · rw [next]
      intro registered
      obtain ⟨different, before⟩ := inv.apps.mem_erase_iff.mp registered
      rcases gone with same | ⟨unregistered, -⟩
      · exact different (Option.some.inj same).symm
      · exact unregistered before
    · rw [next]
      intro node member owner
      obtain ⟨different, old, present, owned⟩ := (nodes node member).2 other owner
      rcases gone with same | ⟨-, nothing⟩
      · exact different (Option.some.inj same).symm
      · exact nothing old present owned

end Unregister

private theorem foldl_rules_appRef (list : List FlEntry) (sw : Switch) :
    (list.foldl flowRuleFree sw).appRef = sw.appRef := by
  induction list generalizing sw with
  | nil => rfl
  | cons ent rest ih => exact ih (flowRuleFree sw ent)

private theorem foldl_tables_appRef (tables : List Nat) (sw : Switch) :
    (tables.foldl (fun sw table => ((sw.rules table).foldl flowRuleFree sw).setRules table [])
      sw).appRef =
      sw.appRef := by
  induction tables generalizing sw with
  | nil => rfl
  | cons table rest ih => exact (ih _).trans (foldl_rules_appRef (sw.rules table) sw)

theorem flowTblClear_appRef (sw : Switch) : (flowTblClear sw).appRef = sw.appRef := by
  simp [flowTblClear, foldl_tables_appRef]

private theorem flowTblClear_owners (sw : Switch) :
    (flowTblClear sw).appList = sw.appList ∧ (flowTblClear sw).held FlEntry.appOwnerList = [] ∧
      ownersOf GroupBody.appOwner (flowTblClear sw).groups = ownersOf GroupBody.appOwner sw.groups ∧
      ownersOf MeterBody.appOwner (flowTblClear sw).meters =
        ownersOf MeterBody.appOwner sw.meters := by
  obtain ⟨appRef, eq⟩ := flowTblClear_eq sw
  rw [eq]
  refine ⟨rfl, ?_, owners_release _ _ _, owners_release _ _ _⟩
  simp only [Switch.held, Switch.allRules, flatMap_eq_nil_iff, mem_flatMap]
  rintro ent ⟨table, bounded, member⟩
  have rules := rules_swept (fun _ => none) (fun _ => []) sw (range maxRuleFlowTbls) appRef table
  rw [if_pos bounded] at rules
  change ent ∈ (swept (fun _ => none) (fun _ => []) sw (range maxRuleFlowTbls) appRef).rules table
    at member
  rw [rules] at member
  simp at member

theorem switchFreed_holders (sw : Switch) : (switchFreed sw).holders = sw.appList := by
  obtain ⟨list, held, -, -⟩ := flowTblClear_owners sw
  unfold switchFreed switchFlowTblDelete
  generalize flowTblClear sw = cleared at list held
  change cleared.appList ++ (cleared.held FlEntry.appOwnerList ++ []) = sw.appList
  rw [list, held, append_nil, append_nil]

/-- A switch without rules gives everything back when it is freed. -/
theorem switchFreed_settled (rules : sw.held FlEntry.appOwnerList = []) (enough : Enough sw) :
    Settled sw (switchFreed sw) := by
  obtain ⟨-, -, groups, meters⟩ := flowTblClear_owners sw
  have unchanged := flowTblClear_appRef sw
  have owners :
      sw.owners = ownersOf GroupBody.appOwner sw.groups ++ ownersOf MeterBody.appOwner
        sw.meters := by
    rw [Switch.owners, rules, nil_append]
  have freed : (switchFreed sw).appRef = sw.owners.foldl appPut sw.appRef := by
    unfold switchFreed switchFlowTblDelete
    dsimp only
    rw [groups, meters, unchanged, ← owners]
  intro app
  have counts := foldl_appPut sw.owners sw.appRef enough.covered app
  rw [freed, switchFreed_holders, Switch.holders, count_append]
  omega

section DeExp

variable {reg : Registry} {dpid : BitVec 64}

/-- Every application of the walk is taken off the list and put. -/
private theorem foldl_unregister_settled (reg : Registry) (dpid : BitVec 64) (apps : List App)
    (distinct : apps.Nodup) (sw : Switch) (once : sw.appList.Nodup) (enough : Enough sw)
    (listed : ∀ app ∈ apps, (reg.info app).perSwitch dpid = true → app ∈ sw.appList) :
    let next := apps.foldl (reg.perAppSwitchUnregister dpid) sw
    Settled sw next ∧
      ∀ app ∈ next.appList, app ∈ sw.appList ∧
        ¬(app ∈ apps ∧ (reg.info app).perSwitch dpid = true) := by
  induction apps generalizing sw with
  | nil => exact ⟨.refl sw, by simp⟩
  | cons head rest ih =>
    obtain ⟨absent, distinctRest⟩ := nodup_cons.mp distinct
    rw [foldl_cons]
    cases covered : (reg.info head).perSwitch dpid with
    | false =>
      have same : reg.perAppSwitchUnregister dpid sw head = sw := by
        simp [Registry.perAppSwitchUnregister, covered]
      rw [same]
      obtain ⟨settled, left⟩ := ih distinctRest sw once enough fun app member =>
        listed app (mem_cons_of_mem _ member)
      refine ⟨settled, ?_⟩
      intro app member
      obtain ⟨before, others⟩ := left app member
      refine ⟨before, ?_⟩
      rintro ⟨inside, covers⟩
      rcases mem_cons.mp inside with rfl | later
      · rw [covered] at covers
        cases covers
      · exact others ⟨later, covers⟩
    | true =>
      have step : reg.perAppSwitchUnregister dpid sw head =
          { sw with appRef := appPut sw.appRef head, appList := sw.appList.erase head } := by
        simp [Registry.perAppSwitchUnregister, covered, perSwitchAppUnregisterLocked]
      have first := settled_erase enough (listed head mem_cons_self covered) sw.lock
      rw [step]
      obtain ⟨settled, left⟩ := ih distinctRest _ (once.erase head) (first.enough enough) (by
        intro app member covers
        apply once.mem_erase_iff.mpr
        refine ⟨?_, listed app (mem_cons_of_mem _ member) covers⟩
        rintro rfl
        exact absent member)
      refine ⟨first.trans settled, ?_⟩
      intro app member
      obtain ⟨before, others⟩ := left app member
      obtain ⟨different, present⟩ := once.mem_erase_iff.mp before
      refine ⟨present, ?_⟩
      rintro ⟨inside, covers⟩
      rcases mem_cons.mp inside with same | later
      · exact different same
      · exact others ⟨later, covers⟩

private theorem foldl_unregister_tbls (reg : Registry) (dpid : BitVec 64) (apps : List App)
    (sw : Switch) :
    (apps.foldl (reg.perAppSwitchUnregister dpid) sw).ruleFlowTbls = sw.ruleFlowTbls := by
  induction apps generalizing sw with
  | nil => rfl
  | cons head rest ih =>
    rw [foldl_cons, ih, Registry.perAppSwitchUnregister]
    split <;> rfl

private theorem deExpSwitch_left (reg : Registry) (dpid : BitVec 64) (sw : Switch) :
    (reg.deExpSwitch dpid sw).appList = [] ∧
      (reg.deExpSwitch dpid sw).held FlEntry.appOwnerList = sw.held FlEntry.appOwnerList := by
  unfold Registry.deExpSwitch
  split
  · rename_i empty
    exact ⟨isEmpty_iff.mp empty, rfl⟩
  · exact ⟨rfl, held_of_tbls (foldl_unregister_tbls reg dpid reg.appList sw)⟩

/-- The list of a switch is given back when all that cover the switch are on it. -/
private theorem deExpSwitch_settled (inv : RegInv reg) (member : node ∈ reg.switches)
    (complete : node.sw.appList ≠ [] → ∀ app ∈ reg.appList, (reg.info app).covers node.dpid = true →
      app ∈ node.sw.appList) (appRef : App → Int) (enough : Enough (node.sw.withRef appRef)) :
    Settled (node.sw.withRef appRef) (reg.deExpSwitch node.dpid (node.sw.withRef appRef)) := by
  have booked := inv.nodes node member
  unfold Registry.deExpSwitch
  split
  · exact .refl _
  rename_i some
  have nonempty : node.sw.appList ≠ [] := fun none => some (isEmpty_iff.mpr none)
  obtain ⟨settled, left⟩ := foldl_unregister_settled reg node.dpid reg.appList inv.apps
    (node.sw.withRef appRef) booked.once enough fun app registered covers =>
      complete nonempty app registered (Bool.and_eq_true _ _ ▸ covers).2
  generalize reg.appList.foldl (reg.perAppSwitchUnregister node.dpid) (node.sw.withRef appRef) =
    next at settled left
  have gone : next.appList = [] := by
    apply eq_nil_iff_forall_not_mem.mpr
    intro app still
    obtain ⟨before, others⟩ := left app still
    obtain ⟨registered, covers⟩ := booked.listed app before
    apply others
    refine ⟨registered, ?_⟩
    rw [AppInfo.perSwitch, inv.direct app registered, covers]
    rfl
  rw [← gone]
  exact settled

private theorem visitSwitches_others (dpid : BitVec 64) (change : Switch → Switch)
    (list : List RegSwitch) (appRef : App → Int) :
    (visitSwitches (fun node => node.dpid == dpid) change appRef list).1.filter
    (fun node => node.dpid != dpid) = list.filter fun node => node.dpid != dpid := by
  induction list generalizing appRef with
  | nil => rfl
  | cons node rest ih =>
    by_cases same : node.dpid = dpid
    · simp [visitSwitches, same, ih]
    · simp [visitSwitches, same, ih]

private theorem holders_filter (list : List RegSwitch) (dpid : BitVec 64)
    (none : ∀ node ∈ list, node.dpid = dpid → node.sw.holders = []) :
    holdersOf (list.filter fun node => node.dpid != dpid) = holdersOf list := by
  induction list with
  | nil => rfl
  | cons node rest ih =>
    have later := ih fun node member => none node (mem_cons_of_mem _ member)
    simp only [holdersOf] at later ⊢
    by_cases same : node.dpid = dpid
    · simp [same, later, none node mem_cons_self same]
    · simp [same, later]

/-- A switch without rules whose list is complete leaves nothing behind. -/
theorem RegInv.workerDoSwitchZap (inv : RegInv reg) (dpid : BitVec 64)
    (clean : ∀ node ∈ reg.switches, node.dpid = dpid → node.sw.held FlEntry.appOwnerList = [] ∧
      (node.sw.appList ≠ [] → ∀ app ∈ reg.appList, (reg.info app).covers dpid = true →
        app ∈ node.sw.appList)) :
    RegInv (reg.workerDoSwitchZap dpid) := by
  let emptied := reg.switchAppListDeExp dpid
  have first : reg.Kept emptied := by
    apply Registry.visit_kept inv.enough
    intro node member chosen appRef enough
    obtain rfl := beq_iff_eq.mp chosen
    exact deExpSwitch_settled inv member (clean node member rfl).2 appRef enough
  have bare : ∀ node ∈ emptied.switches, node.dpid = dpid →
      node.sw.appList = [] ∧ node.sw.held FlEntry.appOwnerList = [] := by
    refine forall_of_related
      (visitSwitches_visited _ (reg.deExpSwitch dpid) reg.switches reg.appRef) ?_
    rintro node member _ (⟨passed, rfl⟩ | ⟨-, appRef, rfl⟩) same
    · simp [same] at passed
    · obtain ⟨list, held⟩ := deExpSwitch_left reg dpid (node.sw.withRef appRef)
      exact ⟨list, held.trans (clean node member same).1⟩
  let freed := emptied.visit (fun node => node.dpid == dpid) switchFreed
  have second : emptied.Kept freed := by
    apply Registry.visit_kept (first.enough inv.enough)
    intro node member chosen appRef enough
    have rules : (node.sw.withRef appRef).held FlEntry.appOwnerList = [] :=
      (bare node member (beq_iff_eq.mp chosen)).2
    exact switchFreed_settled rules enough
  have none : ∀ node ∈ freed.switches, node.dpid = dpid → node.sw.holders = [] := by
    refine forall_of_related (visitSwitches_visited _ switchFreed emptied.switches emptied.appRef)
      ?_
    rintro node member _ (⟨passed, rfl⟩ | ⟨-, appRef, rfl⟩) same
    · simp [same] at passed
    · rw [switchFreed_holders]
      exact (bare node member same).1
  have others : (reg.workerDoSwitchZap dpid).switches = reg.switches.filter fun node =>
      node.dpid != dpid :=
    (visitSwitches_others dpid switchFreed emptied.switches emptied.appRef).trans
      (visitSwitches_others dpid (reg.deExpSwitch dpid) reg.switches reg.appRef)
  refine ⟨?_, inv.apps, inv.direct, ?_⟩
  · rw [others]
    intro node member
    have booked := inv.nodes node (mem_of_mem_filter member)
    exact { booked with }
  · intro app
    have same : holdersOf (reg.workerDoSwitchZap dpid).switches = holdersOf freed.switches :=
      holders_filter freed.switches dpid none
    rw [same]
    exact inv.counted_of_kept (first.trans second) app

end DeExp

/-- Events that keep the books. A registration gives a free name and comes from a
record that is not registered yet, and not from an auxiliary connection. An
application whose connection ends is the one registered under its name, or it is
not registered and owns nothing. A switch that leaves has no rules, and its list,
if anybody is on it, has all the applications that cover the switch. -/
def Registry.Clean (reg : Registry) : RegOp → Prop
  | .register _ _ (some appName) appFlags _ _ _ =>
    reg.appLookup appName = none ∧ hasFlag appFlags cAppAuxRemote = false
  | .registerCommand order app msg =>
    cOfpRegisterAppSz + (order.swap msg.dpid).toNat * 4 ≤ (order.swap msg.length).toNat →
      reg.appLookup msg.appName = none ∧ app ∉ reg.appList ∧
        hasFlag (order.swap msg.appFlags) cAppAuxRemote = false
  | .appDisconnect app =>
    reg.appLookup (reg.info app).appName = some app ∨
      (app ∉ reg.appList ∧ ∀ node ∈ reg.switches, app ∉ node.sw.owners)
  | .switchDisconnect dpid => ∀ node ∈ reg.switches, node.dpid = dpid →
      node.sw.held FlEntry.appOwnerList = [] ∧ (node.sw.appList ≠ [] →
        ∀ app ∈ reg.appList, (reg.info app).covers dpid = true → app ∈ node.sw.appList)
  | _ => True

namespace RegInv

variable {reg : Registry}

private theorem mulRegisterApp (inv : RegInv reg) (order : ByteOrder)
    (unregistered : app ∉ reg.appList) (cleared : remote = false → reg.appRef app = 0)
    (unused : reg.appLookup appName = none) (plain : hasFlag appFlags cAppAuxRemote = false)
    (evMask nDpid : BitVec 32) (dpidList : Nat → BitVec 64) :
    RegInv (reg.mulRegisterApp order remote app (some appName) appFlags evMask nDpid
      dpidList).1 := by
  by_cases proper : hasFlag appFlags cAppAllSw = true ∨ nDpid ≠ 0
  · rw [Registry.mulRegisterApp_registered unused proper]
    exact inv.registered order unregistered cleared appName plain evMask nDpid dpidList
  · obtain ⟨byList, none⟩ := not_or.mp proper
    have flags := (reg.writeRecord_flags remote app appName appFlags evMask).1
    have refused :
        (reg.mulRegisterApp order remote app (some appName) appFlags evMask nDpid dpidList).1 =
        reg.writeRecord remote app appName appFlags evMask := by
      simp only [Registry.mulRegisterApp, unused, flags, byList, Bool.false_eq_true, if_false,
        if_pos (not_not.mp none)]
    rw [refused, Registry.writeRecord_eq cleared]
    exact inv.setInfo unregistered _

private theorem appRegisterAppCommand (inv : RegInv reg) (order : ByteOrder) (app : App)
    (msg : RegisterAppMsg) (clean : reg.Clean (.registerCommand order app msg)) :
    RegInv (reg.appRegisterAppCommand order app msg).1 := by
  unfold Registry.appRegisterAppCommand
  dsimp only
  split
  · exact inv
  split
  · exact inv
  rename_i long
  obtain ⟨unused, unregistered, plain⟩ := clean (Nat.le_of_not_lt long)
  have after :=
    inv.mulRegisterApp order unregistered (show true = false → _ from nofun) unused plain
    (order.swap msg.evMask) (order.swap msg.dpid) fun pos =>
      if pos < (order.swap msg.dpid).toNat then order.swap (msg.dpidList pos) else msg.dpidList pos
  split
  · exact after
  · exact after.switchReplayAll app

private theorem put_none (inv : RegInv reg) (none : reg.appRef app = 0) :
    RegInv { reg with appRef := appPut reg.appRef app } := by
  rw [appPut, if_pos none]
  exact inv

private theorem workerDoAppDel (inv : RegInv reg) (app : App)
    (clean : reg.Clean (.appDisconnect app)) : RegInv (reg.workerDoAppDel app) := by
  obtain ⟨after, counts⟩ := inv.mulUnregisterApp (reg.info app).appName
  unfold Registry.workerDoAppDel
  split
  · rename_i aux
    apply inv.put_none
    rcases clean with registered | ⟨unregistered, nothing⟩
    · have direct := inv.direct app (mem_of_find?_eq_some registered)
      rw [aux] at direct
      cases direct
    · exact inv.count_unregistered unregistered nothing
  · exact after.put_none (counts app clean)

theorem exec (inv : RegInv reg) (op : RegOp) (admitted : reg.admits op) (clean : reg.Clean op) :
    RegInv (reg.exec op) := by
  cases op with
  | switchConnect dpid ctors => exact inv.registerSwitch dpid ctors
  | switchPublish dpid => exact inv.publish dpid
  | switchDisconnect dpid => exact inv.workerDoSwitchZap dpid clean
  | appConnect app aux =>
    have none := inv.count_unregistered admitted.1 fun node member => (admitted.2 node member).2
    have same : Function.update reg.appRef app 0 = reg.appRef := by
      rw [← none, Function.update_eq_self]
    change RegInv (reg.workerDoAppAdd app aux)
    rw [Registry.workerDoAppAdd, same]
    exact inv.setInfo admitted.1 _
  | appDisconnect app => exact inv.workerDoAppDel app clean
  | register order app appName appFlags evMask nDpid dpidList =>
    have none := inv.count_unregistered admitted.1 fun node member => (admitted.2 node member).2
    cases appName with
    | none => exact inv
    | some appName =>
      exact inv.mulRegisterApp order admitted.1 (fun _ => none) clean.1 clean.2 _ _ _
  | registerCommand order app msg => exact inv.appRegisterAppCommand order app msg clean
  | unregister appName => exact (inv.mulUnregisterApp appName).1
  | request dpid op => exact inv.request dpid admitted.1 admitted.2

end RegInv

/-- The books in the words of the source. -/
structure Registry.Booked (reg : Registry) : Prop where
  listed : ∀ node ∈ reg.switches, ∀ app ∈ node.sw.appList,
    app ∈ reg.appList ∧ (reg.info app).covers node.dpid = true
  exactly : ∀ node ∈ reg.switches, node.published = true → ∀ app,
    app ∈ node.sw.appList ↔ app ∈ reg.appList ∧ (reg.info app).covers node.dpid = true
  once : ∀ node ∈ reg.switches, node.sw.appList.Nodup
  counted : ∀ app,
    reg.appRef app = (reg.switches.countP fun node => decide (app ∈ node.sw.appList)) +
    ((reg.switches.flatMap fun node => node.sw.owners).count app : Int)

theorem count_holdersOf (app : App) (list : List RegSwitch)
    (once : ∀ node ∈ list, node.sw.appList.Nodup) :
    (holdersOf list).count app = (list.countP fun node => decide (app ∈ node.sw.appList)) +
      (list.flatMap fun node => node.sw.owners).count app := by
  induction list with
  | nil => rfl
  | cons node rest ih =>
    have later := ih fun node member => once node (mem_cons_of_mem _ member)
    have here := (once node mem_cons_self).count (a := app)
    simp only [holdersOf, Switch.holders] at later
    simp only [holdersOf, flatMap_cons, count_append, Switch.holders, countP_cons, later, here,
      decide_eq_true_eq]
    omega

theorem RegInv.booked (inv : RegInv reg) : reg.Booked := by
  refine ⟨fun node member => (inv.nodes node member).listed, ?_,
    fun node member => (inv.nodes node member).once, ?_⟩
  · intro node member published app
    constructor
    · exact (inv.nodes node member).listed app
    · rintro ⟨registered, covers⟩
      exact (inv.nodes node member).covering published app registered covers
  · intro app
    rw [inv.counted,
      count_holdersOf app reg.switches fun node member => (inv.nodes node member).once]
    exact Int.natCast_add _ _

theorem RegInv.of_reaches {reg : Registry}
    (reached : (registryRuns.restrict Registry.Clean).Reaches reg) : RegInv reg := by
  refine reached.invariant RegInv ?_ ?_
  · rintro start ⟨none, nobody, counts⟩
    refine ⟨?_, ?_, ?_, ?_⟩
    · rw [none]
      exact nofun
    · rw [nobody]
      exact nodup_nil
    · rw [nobody]
      exact nofun
    · intro app
      rw [none, counts app]
      rfl
  · intro state op _ inv admitted
    exact inv.exec op admitted.1 admitted.2

/-- In every run of clean events the books are right after each. -/
theorem registryRuns_booked {reg : Registry}
    (reached : (registryRuns.restrict Registry.Clean).Reaches reg) : reg.Booked :=
  (RegInv.of_reaches reached).booked

/-- An application, a switch, and a group of the application there. -/
def l2Run : List RegOp :=
  [.register .little 7 (some [108, 50]) cAppAllSw 0 0 fun _ => 0, .switchConnect 5 .of131,
    .switchPublish 5, .request 5 (.groupAdd { group := 1, appOwner := 7 } 100 0)]

theorem l2Run_reached :
    (registryRuns.restrict Registry.Clean).Reaches (registryRuns.execAll {} l2Run) := by
  have fresh : ∀ node ∈ (registryRuns.execAll {} (l2Run.take 3)).switches, node.dpid = 5 →
      ∀ group ∈ node.sw.groups, group.ptr ≠ 100 := by decide
  apply Machine.Reaches.execAll
  · exact .start ⟨rfl, rfl, fun _ => rfl⟩
  · exact ⟨⟨⟨nofun, nofun⟩, rfl, rfl⟩, ⟨trivial, trivial⟩, ⟨trivial, trivial⟩,
      ⟨⟨rfl, fresh⟩, trivial⟩, trivial⟩

theorem l2Run_booked :
    let reg := registryRuns.execAll {} l2Run
    reg.Booked ∧ reg.appRef 7 = 2 :=
  ⟨registryRuns_booked l2Run_reached, by decide⟩

/-- A second registration under a name in use takes a reference nobody holds. -/
theorem usedName_not_booked :
    let run : List RegOp := [.register .little 7 (some [108, 50]) cAppAllSw 0 0 fun _ => 0,
      .register .little 8 (some [108, 50]) cAppAllSw 0 0 fun _ => 0]
    registryRuns.Reaches (registryRuns.execAll {} run) ∧ ¬(registryRuns.execAll {} run).Booked := by
  intro run
  constructor
  · apply Machine.Reaches.execAll
    · exact .start ⟨rfl, rfl, fun _ => rfl⟩
    · exact ⟨⟨nofun, nofun⟩, ⟨by decide, by decide⟩, trivial⟩
  · intro booked
    have counted := booked.counted 7
    revert counted
    decide

/-- Nothing refers to an application that has unregistered. -/
theorem unregistered_forgotten (reached : (registryRuns.restrict Registry.Clean).Reaches reg)
    (found : reg.appLookup appName = some app) : (reg.mulUnregisterApp appName).appRef app = 0 ∧
      ∀ node ∈ (reg.mulUnregisterApp appName).switches, app ∉ node.sw.appList ∧
        app ∉ node.sw.owners := by
  obtain ⟨after, counts⟩ := (RegInv.of_reaches reached).mulUnregisterApp appName
  have gone := counts app (.inl found)
  have nobody : app ∉ holdersOf _ :=
    count_eq_zero.mp (Int.ofNat_eq_zero.mp ((after.counted app).symm.trans gone))
  refine ⟨gone, fun node member => not_or.mp fun held => nobody ?_⟩
  exact mem_flatMap.mpr ⟨node, member, mem_append.mpr held⟩

theorem unregistered_forgotten_l2 :
    let reg := registryRuns.execAll {} l2Run
    (∃ node ∈ reg.switches, 7 ∈ node.sw.appList ∧ 7 ∈ ownersOf GroupBody.appOwner node.sw.groups) ∧
      reg.appRef 7 = 2 ∧
      (reg.mulUnregisterApp [108, 50]).appRef 7 = 0 ∧
      ∀ node ∈ (reg.mulUnregisterApp [108, 50]).switches, 7 ∉ node.sw.appList ∧
        7 ∉ node.sw.owners :=
  ⟨by decide, by decide, unregistered_forgotten l2Run_reached (by decide)⟩

end OpenMul
