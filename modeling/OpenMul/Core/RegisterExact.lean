import OpenMul.Core.Registration

namespace OpenMul

open Lib List Function

/-- A switch whose list was joined by some applications; nothing else of it
changed. -/
structure Joined (joins : App → BitVec 64 → Prop) (node next : RegSwitch) : Prop where
  dpid : next.dpid = node.dpid
  published : next.published = node.published
  mem : ∀ app, app ∈ next.sw.appList ↔ app ∈ node.sw.appList ∨ joins app node.dpid
  nodup : node.sw.appList.Nodup → next.sw.appList.Nodup
  tbls : next.sw.ruleFlowTbls = node.sw.ruleFlowTbls
  groups : next.sw.groups = node.sw.groups
  meters : next.sw.meters = node.sw.meters

section Joined

variable {joins later : App → BitVec 64 → Prop} {node middle next : RegSwitch}

theorem Joined.same (nobody : ∀ app, joins app node.dpid → app ∈ node.sw.appList) :
    Joined joins node node :=
  ⟨rfl, rfl, fun app => (or_iff_left_of_imp (nobody app)).symm, id, rfl, rfl, rfl⟩

theorem Joined.trans (first : Joined joins node middle) (second : Joined later middle next) :
    Joined (fun app dpid => joins app dpid ∨ later app dpid) node next := by
  refine ⟨second.dpid.trans first.dpid, second.published.trans first.published, ?_,
    second.nodup ∘ first.nodup, second.tbls.trans first.tbls, second.groups.trans first.groups,
    second.meters.trans first.meters⟩
  intro app
  rw [second.mem, first.mem, first.dpid, or_assoc]

theorem Joined.congr (joined : Joined joins node next)
    (same : ∀ app, joins app node.dpid ↔ later app node.dpid) : Joined later node next := by
  refine ⟨joined.dpid, joined.published, ?_, joined.nodup, joined.tbls, joined.groups,
    joined.meters⟩
  intro app
  rw [joined.mem, same]

/-- One application joins; it is on the list once. -/
theorem Joined.one (node : RegSwitch) (app : App) {sw : Switch}
    (list : sw.appList = if app ∈ node.sw.appList then node.sw.appList
      else node.sw.appList ++ [app])
    (tbls : sw.ruleFlowTbls = node.sw.ruleFlowTbls) (groups : sw.groups = node.sw.groups)
    (meters : sw.meters = node.sw.meters) :
    Joined (fun other _ => other = app) node { node with sw } := by
  refine ⟨rfl, rfl, ?_, ?_, tbls, groups, meters⟩ <;> simp only [list]
  · intro other
    split
    · rename_i known
      exact (or_iff_left_of_imp fun same => same ▸ known).symm
    · simp
  · intro distinct
    split
    · exact distinct
    · rename_i fresh
      exact distinct.append (nodup_singleton app) (by simpa using fresh)

theorem Joined.trans_all (first : List.Forall₂ (Joined joins) nodes between)
    (second : List.Forall₂ (Joined later) between nexts) :
    List.Forall₂ (Joined fun app dpid => joins app dpid ∨ later app dpid) nodes nexts := by
  induction first generalizing nexts with
  | nil =>
    cases second
    exact .nil
  | cons head _ ih =>
    cases second with
    | cons joined others => exact .cons (head.trans joined) (ih others)

end Joined

section Visit

variable {select : RegSwitch → Bool} {change : Switch → Switch}

theorem visitSwitches_related (passed : ∀ node, select node = false → related node node)
    (visited : ∀ node appRef, select node = true →
      related node { node with sw := change (node.sw.withRef appRef) }) (list : List RegSwitch)
    (appRef : App → Int) :
      List.Forall₂ related list (visitSwitches select change appRef list).1 := by
  induction list generalizing appRef with
  | nil => exact .nil
  | cons node rest ih =>
    cases chosen : select node with
    | true =>
      simp only [visitSwitches, chosen, if_true]
      exact .cons (visited node appRef chosen) (ih _)
    | false =>
      simp only [visitSwitches, chosen, Bool.false_eq_true, if_false]
      exact .cons (passed node chosen) (ih _)

end Visit

/-- A registry whose switches were joined by some applications. -/
structure JoinedAll (joins : App → BitVec 64 → Prop) (reg next : Registry) : Prop where
  switches : List.Forall₂ (Joined joins) reg.switches next.switches
  appList : next.appList = reg.appList

namespace JoinedAll

variable {joins later : App → BitVec 64 → Prop} {reg middle next : Registry}

theorem trans (first : JoinedAll joins reg middle) (second : JoinedAll later middle next) :
    JoinedAll (fun app dpid => joins app dpid ∨ later app dpid) reg next :=
  ⟨Joined.trans_all first.switches second.switches, second.appList.trans first.appList⟩

theorem none (nobody : ∀ app dpid, ¬joins app dpid) : JoinedAll joins reg { reg with info } :=
  ⟨forall₂_same.mpr fun _ _ => .same fun app joined => absurd joined (nobody app _), rfl⟩

theorem congr (joined : JoinedAll joins reg next)
    (same : ∀ app dpid, joins app dpid ↔ later app dpid) : JoinedAll later reg next :=
  ⟨joined.switches.imp fun _ _ here => here.congr fun app => same app _, joined.appList⟩

end JoinedAll

namespace Registry

variable {reg : Registry} {order : ByteOrder} {app : App}

theorem visit_register_joined (reg : Registry) (app : App) (select : BitVec 64 → Bool) :
    JoinedAll (fun other dpid => other = app ∧ select dpid = true) reg
      (reg.visit (fun node => select node.dpid) fun sw => perSwitchAppRegister sw app) := by
  refine ⟨?_, rfl⟩
  apply visitSwitches_related
  · intro node passed
    apply Joined.same
    rintro other ⟨-, chosen⟩
    rw [passed] at chosen
    cases chosen
  · intro node appRef chosen
    apply @Joined.congr fun other _ => other = app
    · by_cases known : app ∈ node.sw.appList <;> apply Joined.one node app <;>
        simp [perSwitchAppRegister, Switch.withRef, known]
    · exact fun other => ⟨fun same => ⟨same, chosen⟩, And.left⟩

theorem registerDpid_spec (reg : Registry) (order : ByteOrder) (app : App) (word : BitVec 64) :
    let next := reg.registerDpid order app word
    JoinedAll (fun other dpid => other = app ∧ dpid = order.swap word ∧
      (reg.info app).listed dpid = false) reg next ∧
      (∀ dpid, (next.info app).listed dpid = true ↔ (reg.info app).listed dpid = true ∨
        dpid = order.swap word) ∧
      ∃ dpids, next.info = update reg.info app { reg.info app with dpidHlist := dpids } := by
  cases known : (reg.info app).listed (order.swap word) with
  | true =>
    simp only [registerDpid, known, if_true]
    refine ⟨.none ?_, fun dpid => ?_, (reg.info app).dpidHlist, (update_eq_self app reg.info).symm⟩
    · rintro other dpid ⟨-, rfl, fresh⟩
      rw [known] at fresh
      cases fresh
    · exact (or_iff_left_of_imp fun same => same ▸ known).symm
  | false =>
    simp only [registerDpid, known, Bool.false_eq_true, if_false]
    refine ⟨JoinedAll.congr ⟨(visit_register_joined (reg.setInfo app _) app fun dpid =>
      dpid == order.swap word).switches, rfl⟩ ?_, ?_, _, rfl⟩
    · intro other dpid
      simp only [beq_iff_eq]
      constructor
      · rintro ⟨same, rfl⟩
        exact ⟨same, rfl, known⟩
      · exact fun joins => ⟨joins.1, joins.2.1⟩
    · simp [visit, setInfo, AppInfo.listed, or_comm]

theorem registerDpids (reg : Registry) (order : ByteOrder) (app : App) (words : List (BitVec 64)) :
    let next := words.foldl (fun reg => reg.registerDpid order app) reg
    JoinedAll (fun other dpid => other = app ∧ dpid ∈ words.map order.swap ∧
        (reg.info app).listed dpid = false) reg next ∧
      (∀ dpid, (next.info app).listed dpid = true ↔
        (reg.info app).listed dpid = true ∨ dpid ∈ words.map order.swap) ∧
      ∃ dpids, next.info = update reg.info app { reg.info app with dpidHlist := dpids } := by
  induction words generalizing reg with
  | nil =>
    exact ⟨.none (by simp), by simp, (reg.info app).dpidHlist, (update_eq_self app reg.info).symm⟩
  | cons word rest ih =>
    obtain ⟨joined, listed, dpids, info⟩ := ih (reg.registerDpid order app word)
    obtain ⟨joinedFirst, first, early, infoFirst⟩ := reg.registerDpid_spec order app word
    refine ⟨(joinedFirst.trans joined).congr ?_, ?_, dpids, ?_⟩
    · -- A datapath of the rest joins here unless the first word already brought it in.
      intro other dpid
      have one := first dpid
      rw [← Bool.not_eq_true, ← Bool.not_eq_true, one, map_cons]
      by_cases here : dpid = order.swap word <;> simp [here]
    · intro dpid
      rw [foldl_cons, listed, first, map_cons, mem_cons, or_assoc]
    · rw [foldl_cons, info, infoFirst]
      simp

private theorem perAppSwitchRegister_joined (reg : Registry) (dpid : BitVec 64) (node : RegSwitch)
    (app : App) :
    Joined (fun other _ => other = app ∧ (reg.info other).perSwitch dpid = true) node
      { node with sw := reg.perAppSwitchRegister dpid node.sw app } := by
  cases covered : (reg.info app).perSwitch dpid with
  | false =>
    simp only [perAppSwitchRegister, covered, Bool.false_eq_true, if_false]
    apply Joined.same
    rintro other ⟨rfl, covers⟩
    rw [covered] at covers
    cases covers
  | true =>
    apply @Joined.congr fun other _ => other = app
    · simp only [perAppSwitchRegister, covered, if_true, perSwitchAppRegisterLocked]
      apply Joined.one node app <;> split <;> rfl
    · exact fun other => ⟨fun same => ⟨same, same ▸ covered⟩, And.left⟩

private theorem foldl_register_joined (reg : Registry) (dpid : BitVec 64) (apps : List App)
    (node : RegSwitch) :
    Joined (fun other _ => other ∈ apps ∧ (reg.info other).perSwitch dpid = true) node
      { node with sw := apps.foldl (reg.perAppSwitchRegister dpid) node.sw } := by
  induction apps generalizing node with
  | nil => exact .same (by simp)
  | cons app rest ih =>
    have first := reg.perAppSwitchRegister_joined dpid node app
    apply (first.trans (ih { node with sw := reg.perAppSwitchRegister dpid node.sw app })).congr
    intro other
    rw [mem_cons, or_and_right]

/-- A list is joined by every registered application that covers the switch. -/
theorem switchAppListExp_joined (reg : Registry) (dpid : BitVec 64) :
    JoinedAll (fun app other => other = dpid ∧ app ∈ reg.appList ∧
      (reg.info app).perSwitch dpid = true) reg (reg.switchAppListExp dpid) := by
  refine ⟨?_, rfl⟩
  apply visitSwitches_related
  · intro node passed
    apply Joined.same
    rintro app ⟨same, -⟩
    simp [same] at passed
  · intro node appRef chosen
    have joined :=
      reg.foldl_register_joined dpid reg.appList { node with sw := node.sw.withRef appRef }
    refine ⟨rfl, rfl, ?_, joined.nodup, joined.tbls, joined.groups, joined.meters⟩
    intro app
    rw [joined.mem app, beq_iff_eq.mp chosen]
    simp [Switch.withRef]

/-- The switches an application is announced, among those of a list. -/
def replayed (reg : Registry) (app : App) (dpids : List (BitVec 64)) (dpid : BitVec 64) : Prop :=
  dpid ∈ dpids ∧ (reg.info app).covers dpid = true

private theorem foldl_replay_joined (app : App) (dpids : List (BitVec 64)) (reg : Registry) :
    let next := dpids.foldl (fun now dpid =>
      if (now.info app).covers dpid then
        now.switchAppListExp dpid
      else now) reg
    JoinedAll (fun other dpid => reg.replayed app dpids dpid ∧ other ∈ reg.appList ∧
      (reg.info other).perSwitch dpid = true) reg next ∧ next.info = reg.info := by
  induction dpids generalizing reg with
  | nil =>
    exact ⟨.none (by simp [replayed]), rfl⟩
  | cons dpid rest ih =>
    simp only [foldl_cons]
    split
    · rename_i covered
      obtain ⟨joined, info⟩ := ih (reg.switchAppListExp dpid)
      refine ⟨((reg.switchAppListExp_joined dpid).trans joined).congr ?_, info⟩
      intro other query
      simp only [replayed, mem_cons]
      constructor
      · rintro (⟨rfl, joins⟩ | ⟨⟨member, covers⟩, joins⟩)
        · exact ⟨⟨.inl rfl, covered⟩, joins⟩
        · exact ⟨⟨.inr member, covers⟩, joins⟩
      · rintro ⟨⟨rfl | member, covers⟩, joins⟩
        · exact .inl ⟨rfl, joins⟩
        · exact .inr ⟨⟨member, covers⟩, joins⟩
    · rename_i passed
      obtain ⟨joined, info⟩ := ih reg
      refine ⟨joined.congr ?_, info⟩
      intro other query
      simp only [replayed, mem_cons]
      constructor
      · exact fun joins => ⟨⟨.inr joins.1.1, joins.1.2⟩, joins.2⟩
      · rintro ⟨⟨rfl | member, covers⟩, joins⟩
        · exact absurd covers passed
        · exact ⟨⟨member, covers⟩, joins⟩

theorem switchReplayAll_joined (reg : Registry) (app : App) : JoinedAll (fun other dpid =>
      reg.replayed app ((reg.switches.filter RegSwitch.published).map RegSwitch.dpid) dpid ∧
        other ∈ reg.appList ∧
          (reg.info other).perSwitch dpid = true) reg (reg.switchReplayAll app) ∧
      (reg.switchReplayAll app).info = reg.info :=
  foldl_replay_joined app _ reg

/-- The mark of a remote application hides no other flag. -/
theorem writeRecord_flags (reg : Registry) (remote : Bool) (app : App) (appName : List Byte)
    (appFlags evMask : BitVec 32) :
    let info := (reg.writeRecord remote app appName appFlags evMask).info app
    hasFlag info.appFlags cAppAllSw = hasFlag appFlags cAppAllSw ∧
      hasFlag info.appFlags cAppAuxRemote = hasFlag appFlags cAppAuxRemote := by
  simp only [writeRecord, update_self]
  cases remote with
  | false => exact ⟨rfl, rfl⟩
  | true =>
    constructor
    · exact hasFlag_setFlag appFlags cAppRemote cAppAllSw rfl
    · exact hasFlag_setFlag appFlags cAppRemote cAppAuxRemote rfl

section Register

variable {remote : Bool} {appName : List Byte} {appFlags evMask nDpid : BitVec 32}
    {dpidList : Nat → BitVec 64}

theorem mulRegisterApp_refused (byList : hasFlag appFlags cAppAllSw = false)
    (refused : reg.appLookup appName ≠ none ∨ nDpid = 0) :
    let result := reg.mulRegisterApp order remote app (some appName) appFlags evMask nDpid dpidList
    result.2 = -1 ∧ result.1.switches = reg.switches ∧ result.1.appList = reg.appList := by
  cases known : reg.appLookup appName with
  | some found => simp [mulRegisterApp, known]
  | none =>
    have empty : nDpid = 0 := refused.resolve_left (absurd known)
    have flags := (reg.writeRecord_flags remote app appName appFlags evMask).1.trans byList
    simp only [mulRegisterApp, known, flags, Bool.false_eq_true, if_false, if_pos empty]
    exact ⟨trivial, rfl, rfl⟩

/-- The walk of the registrar over the switches, once it accepts. -/
def registered (reg : Registry) (order : ByteOrder) (remote : Bool) (app : App)
    (appName : List Byte) (appFlags evMask nDpid : BitVec 32) (dpidList : Nat → BitVec 64) :
    Registry :=
  let written := reg.writeRecord remote app appName appFlags evMask
  if hasFlag appFlags cAppAllSw then written.visit (fun _ => true) fun sw =>
    perSwitchAppRegister sw app
  else ((List.range nDpid.toNat).map dpidList).foldl (fun reg => reg.registerDpid order app)
    (written.setInfo app { written.info app with dpidHlist := some [], nDpid })

theorem mulRegisterApp_registered (unused : reg.appLookup appName = none)
    (proper : hasFlag appFlags cAppAllSw = true ∨ nDpid ≠ 0) :
    let walked := reg.registered order remote app appName appFlags evMask nDpid dpidList
    reg.mulRegisterApp order remote app (some appName) appFlags evMask nDpid dpidList =
      ({ walked with appList := walked.appList ++ [app] }, 0) := by
  have flags := (reg.writeRecord_flags remote app appName appFlags evMask).1
  cases all : hasFlag appFlags cAppAllSw with
  | true => simp [mulRegisterApp, registered, unused, flags, all]
  | false =>
    have given : nDpid ≠ 0 := proper.resolve_left (by simp [all])
    simp only [mulRegisterApp, registered, unused, flags, all, Bool.false_eq_true, if_false,
      if_neg given]

theorem registered_spec (reg : Registry) (order : ByteOrder) (remote : Bool) (app : App)
    (appName : List Byte) (appFlags evMask nDpid : BitVec 32) (dpidList : Nat → BitVec 64) :
    let walked := reg.registered order remote app appName appFlags evMask nDpid dpidList
    JoinedAll (fun other dpid => other = app ∧ (walked.info app).covers dpid = true) reg walked ∧
      hasFlag (walked.info app).appFlags cAppAllSw = hasFlag appFlags cAppAllSw ∧
      hasFlag (walked.info app).appFlags cAppAuxRemote = hasFlag appFlags cAppAuxRemote ∧
      (∀ other ≠ app, walked.info other = reg.info other) ∧
      (hasFlag appFlags cAppAllSw = false → ∀ dpid, (walked.info app).listed dpid = true ↔
        dpid ∈ ((range nDpid.toNat).map dpidList).map order.swap) := by
  have flags := reg.writeRecord_flags remote app appName appFlags evMask
  let written := reg.writeRecord remote app appName appFlags evMask
  cases all : hasFlag appFlags cAppAllSw with
  | true =>
    simp only [registered, all, if_true]
    have joined := visit_register_joined written app fun _ => true
    refine ⟨JoinedAll.congr ⟨joined.switches, joined.appList⟩ ?_, flags.1.trans all, flags.2, ?_,
      nofun⟩
    · intro other dpid
      apply and_congr_right
      intro _
      exact iff_of_true rfl ((Bool.or_eq_true _ _).mpr (.inl (flags.1.trans all)))
    · exact fun other different => update_of_ne different ..
  | false =>
    simp only [registered, all, Bool.false_eq_true, if_false]
    let started := written.setInfo app { written.info app with dpidHlist := some [], nDpid }
    have here : started.info app = { written.info app with dpidHlist := some [], nDpid } :=
      update_self ..
    have empty : ∀ dpid, (started.info app).listed dpid = false := by
      intro dpid
      rw [here]
      rfl
    obtain ⟨joined, listed, dpids, after⟩ :=
      started.registerDpids order app ((range nDpid.toNat).map dpidList)
    simp only [empty, Bool.false_eq_true, false_or] at listed
    have record : ∀ bit,
        hasFlag (written.info app).appFlags bit = hasFlag ((((range nDpid.toNat).map
        dpidList).foldl (fun reg => reg.registerDpid order app) started).info app).appFlags
          bit := by
      intro bit
      rw [after, update_self, here]
    refine ⟨JoinedAll.congr ⟨joined.switches, joined.appList⟩ ?_,
      (record _).symm.trans (flags.1.trans all), (record _).symm.trans flags.2, ?_, fun _ => listed⟩
    · intro other dpid
      apply and_congr_right
      intro _
      rw [AppInfo.covers, ← record, show hasFlag _ cAppAllSw = false from flags.1.trans all,
        Bool.false_or, listed, and_iff_left (empty dpid)]
    · intro other different
      rw [after, update_of_ne different]
      exact (update_of_ne different ..).trans (update_of_ne different ..)

theorem mulRegisterApp_done (byList : hasFlag appFlags cAppAllSw = false)
    (unused : reg.appLookup appName = none) (some : nDpid ≠ 0) : ∃ walked : Registry,
      reg.mulRegisterApp order remote app (.some appName) appFlags evMask nDpid dpidList =
        ({ walked with appList := walked.appList ++ [app] }, 0) ∧
      JoinedAll (fun other dpid => other = app ∧
        dpid ∈ ((range nDpid.toNat).map dpidList).map order.swap) reg walked ∧
      (∀ dpid, (walked.info app).listed dpid = true ↔
        dpid ∈ ((range nDpid.toNat).map dpidList).map order.swap) ∧
      hasFlag (walked.info app).appFlags cAppAllSw = false ∧
      hasFlag (walked.info app).appFlags cAppAuxRemote = hasFlag appFlags cAppAuxRemote := by
  obtain ⟨joined, all, aux, -, listed⟩ :=
    reg.registered_spec order remote app appName appFlags evMask nDpid dpidList
  refine ⟨_, mulRegisterApp_registered unused (.inr some), joined.congr ?_, listed byList,
    all.trans byList, aux⟩
  intro other dpid
  rw [AppInfo.covers, all, byList, Bool.false_or, listed byList]

theorem mulRegisterApp_accepts :
    (reg.mulRegisterApp order remote app (some appName) appFlags evMask nDpid dpidList).2 = 0 ↔
      reg.appLookup appName = none ∧ (hasFlag appFlags cAppAllSw = true ∨ nDpid ≠ 0) := by
  cases all : hasFlag appFlags cAppAllSw with
  | true =>
    have flags := (reg.writeRecord_flags remote app appName appFlags evMask).1
    cases known : reg.appLookup appName with
    | some found => simp [mulRegisterApp, known]
    | none => simp [mulRegisterApp, known, flags, all]
  | false =>
    by_cases fails : reg.appLookup appName ≠ none ∨ nDpid = 0
    · rw [(mulRegisterApp_refused all fails).1]
      constructor
      · intro accepted
        cases accepted
      · rintro ⟨unused, listed | given⟩
        · cases listed
        · exact absurd fails (not_or.mpr ⟨not_not.mpr unused, given⟩)
    · obtain ⟨unused, given⟩ := not_or.mp fails
      obtain ⟨walked, done, -⟩ :=
        @mulRegisterApp_done reg order app remote appName appFlags evMask nDpid
        dpidList all (not_not.mp unused) given
      rw [done]
      exact iff_of_true rfl ⟨not_not.mp unused, .inr given⟩

end Register

end Registry

/-- An application is on the lists of the switches of some datapaths and on no other. -/
structure RegisteredExactly (reg : Registry) (app : App) (dpids : List (BitVec 64)) : Prop where
  connected : ∀ node ∈ reg.switches, app ∈ node.sw.appList ↔ node.dpid ∈ dpids
  later : ∀ dpid sw, app ∉ sw.appList → app ∈ (reg.perAppSwitchRegister dpid sw app).appList →
    dpid ∈ dpids

section Exactly

variable {reg next : Registry} {app : App} {dpids : List (BitVec 64)}
    {joins : App → BitVec 64 → Prop}

private theorem later_iff :
    (∀ dpid sw, app ∉ sw.appList → app ∈ (reg.perAppSwitchRegister dpid sw app).appList →
      dpid ∈ dpids) ↔ ∀ dpid, (reg.info app).perSwitch dpid = true → dpid ∈ dpids := by
  constructor
  · intro later dpid covers
    apply later dpid (bootSwitch .of131) not_mem_nil
    simp [Registry.perAppSwitchRegister, covers, perSwitchAppRegisterLocked, bootSwitch]
  · intro covered dpid sw absent joined
    apply covered dpid
    cases covers : (reg.info app).perSwitch dpid with
    | true => rfl
    | false =>
      simp only [Registry.perAppSwitchRegister, covers] at joined
      exact absurd joined absent

private theorem connected_iff (joined : List.Forall₂ (Joined joins) nodes nexts) :
    (∀ node ∈ nexts, app ∈ node.sw.appList ↔ node.dpid ∈ dpids) ↔
      ∀ node ∈ nodes, (app ∈ node.sw.appList ∨ joins app node.dpid) ↔ node.dpid ∈ dpids := by
  induction joined with
  | nil => simp
  | cons head _ ih => rw [forall_mem_cons, forall_mem_cons, ih, head.mem, head.dpid]

/-- Exactness after some applications joined, by the state before. -/
theorem registeredExactly_iff (joined : List.Forall₂ (Joined joins) reg.switches next.switches) :
    RegisteredExactly next app dpids ↔
      (∀ node ∈ reg.switches, (app ∈ node.sw.appList ∨ joins app node.dpid) ↔ node.dpid ∈ dpids) ∧
        ∀ dpid, (next.info app).perSwitch dpid = true → dpid ∈ dpids := by
  rw [← connected_iff joined, ← later_iff]
  exact ⟨fun exactly => ⟨exactly.connected, exactly.later⟩, fun both => ⟨both.1, both.2⟩⟩

end Exactly

/-- The converted list names the same switches as the list itself. -/
def SwapsWithin (order : ByteOrder) (reg : Registry) (appFlags : BitVec 32)
    (dpids : List (BitVec 64)) : Prop :=
  (∀ node ∈ reg.switches, order.swap node.dpid ∈ dpids ↔ node.dpid ∈ dpids) ∧
    (hasFlag appFlags cAppAuxRemote = false → ∀ dpid ∈ dpids, order.swap dpid ∈ dpids)

section Register

variable {reg : Registry} {order : ByteOrder} {app : App} {appName : List Byte}
  {appFlags evMask appCookie : BitVec 32} {dpids : List (BitVec 64)} {behind : Nat → BitVec 64}

private theorem back (order : ByteOrder) (word : BitVec 64) : order.swap (order.swap word) = word :=
  @ByteOrder.swap_swap 64 8 order rfl word

private theorem mem_map_swap (order : ByteOrder) (dpids : List (BitVec 64)) (dpid : BitVec 64) :
    dpid ∈ dpids.map order.swap ↔ order.swap dpid ∈ dpids := by
  rw [mem_map]
  constructor
  · rintro ⟨word, member, rfl⟩
    rwa [back]
  · exact fun member => ⟨order.swap dpid, member, back order dpid⟩

private theorem range_getD (dpids : List (BitVec 64)) (behind : Nat → BitVec 64) :
    (range dpids.length).map (fun pos => dpids.getD pos (behind pos)) = dpids := by
  apply ext_getElem
  · simp
  · intro pos _ inside
    simp [inside]

private theorem counted (given : dpids ≠ []) (fits : dpids.length < 2 ^ 32) :
    (BitVec.ofNat 32 dpids.length).toNat = dpids.length ∧ BitVec.ofNat 32 dpids.length ≠ 0 := by
  have count : (BitVec.ofNat 32 dpids.length).toNat = dpids.length := by
    rw [BitVec.toNat_ofNat, Nat.mod_eq_of_lt fits]
  refine ⟨count, ?_⟩
  intro none
  rw [none] at count
  exact given (length_eq_zero_iff.mp count.symm)

/-- An application in the core's own process: the list is converted once. -/
private theorem inProcess_exact (byList : hasFlag appFlags cAppAllSw = false)
    (unused : reg.appLookup appName = none) (given : dpids ≠ []) (fits : dpids.length < 2 ^ 32)
    (fresh : ∀ node ∈ reg.switches, app ∉ node.sw.appList) :
    let result := reg.mulRegisterApp order false app (some appName) appFlags evMask
      (BitVec.ofNat 32 dpids.length) fun pos => dpids.getD pos (behind pos)
    result.2 = 0 ∧
      (RegisteredExactly result.1 app dpids ↔ SwapsWithin order reg appFlags dpids) := by
  obtain ⟨count, some⟩ := counted given fits
  obtain ⟨walked, done, joined, listed, all, aux⟩ :=
    @Registry.mulRegisterApp_done reg order app false appName
    appFlags evMask _ (fun pos => dpids.getD pos (behind pos)) byList unused some
  rw [count, range_getD] at joined listed
  have covers : ∀ dpid, (walked.info app).perSwitch dpid = true ↔
      hasFlag appFlags cAppAuxRemote = false ∧ order.swap dpid ∈ dpids := by
    intro dpid
    rw [AppInfo.perSwitch, AppInfo.covers, aux, all, Bool.false_or, Bool.and_eq_true,
      Bool.not_eq_true', listed, mem_map_swap]
  rw [done]
  refine ⟨rfl, ?_⟩
  rw [@registeredExactly_iff reg
    { walked with appList := walked.appList ++ [app] } app dpids _ joined.switches]
  apply and_congr
  · apply forall₂_congr
    intro node member
    simp [fresh node member, mem_map_swap]
  · -- Conversion is its own inverse, so the converted words may be named by the plain ones.
    simp only [covers]
    constructor
    · intro within direct dpid member
      apply within _ ⟨direct, ?_⟩
      rwa [back order]
    · rintro within dpid ⟨direct, member⟩
      rw [← back order dpid]
      exact within direct _ member

/-- The list in the words the handler passes on. -/
private def converted (order : ByteOrder) (dpids : List (BitVec 64)) (behind : Nat → BitVec 64)
    (pos : Nat) : BitVec 64 :=
  if pos < dpids.length then order.swap (dpids.getD pos (behind pos))
  else dpids.getD pos (behind pos)

private theorem range_converted :
    (range dpids.length).map (converted order dpids behind) = dpids.map order.swap := by
  apply ext_getElem
  · simp
  · intro pos _ inside
    have bound : pos < dpids.length := by simpa using inside
    simp [converted, bound]

/-- The handler reads what the client library wrote on a host of its own order. -/
private theorem appRegisterAppCommand_commom
    (fits : cOfpRegisterAppSz + dpids.length * 8 < 2 ^ 16) :
    reg.appRegisterAppCommand order app
        (commomRegApp order appName appFlags evMask appCookie dpids behind) =
      let result :=
  reg.mulRegisterApp order true app (some (appName.take (cMaxAppStrlen - 1))) appFlags
        evMask (BitVec.ofNat 32 dpids.length) (converted order dpids behind)
      if result.2 ≠ 0 then (result.1, .badAppReg)
      else (result.1.switchReplayAll app, .registered) := by
  have length : (BitVec.ofNat 16 (cOfpRegisterAppSz + dpids.length * 8)).toNat =
      cOfpRegisterAppSz + dpids.length * 8 := by
    rw [BitVec.toNat_ofNat, Nat.mod_eq_of_lt fits]
  have count : (BitVec.ofNat 32 dpids.length).toNat = dpids.length := by
    rw [BitVec.toNat_ofNat, Nat.mod_eq_of_lt (by omega)]
  have back16 := @ByteOrder.swap_swap 16 2 order rfl
  have back32 := @ByteOrder.swap_swap 32 4 order rfl
  simp only [Registry.appRegisterAppCommand, commomRegApp, back16, back32, length, count]
  rw [if_neg (by omega), if_neg (by omega)]
  rfl

/-- An application behind the client library: the list is converted twice. -/
private theorem remote_exact (byList : hasFlag appFlags cAppAllSw = false)
    (unused : reg.appLookup (appName.take (cMaxAppStrlen - 1)) = none) (given : dpids ≠ [])
    (fits : cOfpRegisterAppSz + dpids.length * 8 < 2 ^ 16) :
    let result := reg.appRegisterAppCommand order app
      (commomRegApp order appName appFlags evMask appCookie dpids behind)
    result.2 = .registered ∧ (RegisteredExactly result.1 app dpids ↔
      ∀ node ∈ reg.switches, app ∈ node.sw.appList → node.dpid ∈ dpids) := by
  obtain ⟨count, some⟩ := counted given (show dpids.length < 2 ^ 32 by omega)
  obtain ⟨walked, done, joined, listed, all, -⟩ := @Registry.mulRegisterApp_done reg order app true
    (appName.take (cMaxAppStrlen - 1)) appFlags evMask _ (converted order dpids behind) byList
      unused some
  have twice : (dpids.map order.swap).map order.swap = dpids := by
    simp [comp_def, back]
  rw [count, range_converted, twice] at joined listed
  rw [appRegisterAppCommand_commom fits, done]
  refine ⟨rfl, ?_⟩
  -- The replay fills up lists, but this application covers only the switches of its list.
  obtain ⟨filled, info⟩ :=
    ({ walked with appList := walked.appList ++ [app] } : Registry).switchReplayAll_joined app
  have covered : ∀ dpid, (walked.info app).perSwitch dpid = true → dpid ∈ dpids := by
    intro dpid covers
    rw [AppInfo.perSwitch, AppInfo.covers, all, Bool.false_or, Bool.and_eq_true, listed] at covers
    exact covers.2
  rw [if_neg (not_not.mpr rfl),
    registeredExactly_iff (Joined.trans_all joined.switches filled.switches), info]
  constructor
  · intro exactly node member before
    exact (exactly.1 node member).mp (.inl before)
  · intro before
    refine ⟨fun node member => ⟨?_, fun listed => .inr (.inl ⟨rfl, listed⟩)⟩, covered⟩
    rintro (already | ⟨-, listed⟩ | ⟨-, -, covers⟩)
    · exact before node member already
    · exact listed
    · exact covered _ covers

/-- A message is registered as soon as its list is half inside. -/
private theorem appRegisterAppCommand_registered (msg : RegisterAppMsg) :
    (reg.appRegisterAppCommand order app msg).2 = .registered ↔
      cOfpRegisterAppSz + (order.swap msg.dpid).toNat * 4 ≤ (order.swap msg.length).toNat ∧
        reg.appLookup msg.appName = none ∧
          (hasFlag (order.swap msg.appFlags) cAppAllSw = true ∨ order.swap msg.dpid ≠ 0) := by
  rw [← @Registry.mulRegisterApp_accepts reg order app true msg.appName (order.swap msg.appFlags)
    (order.swap msg.evMask) (order.swap msg.dpid) fun pos =>
      if pos < (order.swap msg.dpid).toNat then order.swap (msg.dpidList pos) else msg.dpidList pos]
  unfold Registry.appRegisterAppCommand
  dsimp only
  split
  · exact iff_of_false nofun fun both => absurd both.1 (by omega)
  split
  · exact iff_of_false nofun fun both => absurd both.1 (by omega)
  rename_i long
  split
  · rename_i refused
    exact iff_of_false nofun fun both => refused both.2
  · rename_i accepted
    exact iff_of_true rfl ⟨Nat.le_of_not_lt long, not_not.mp accepted⟩

end Register

/-- Registration by a list of datapaths is exact in process if the conversion names
the same switches, and through the client library unless earlier lists are in the way. -/
theorem registerByDpids_exact_iff (reg : Registry) (order : ByteOrder) (app : App)
    (appName : List Byte) (appFlags evMask appCookie : BitVec 32) (dpids : List (BitVec 64))
    (behind : Nat → BitVec 64) (byList : hasFlag appFlags cAppAllSw = false) :
    (dpids.length < 2 ^ 32 → (∀ node ∈ reg.switches, app ∉ node.sw.appList) →
      let result := reg.mulRegisterApp order false app (some appName) appFlags evMask
        (BitVec.ofNat 32 dpids.length) fun pos => dpids.getD pos (behind pos)
      if reg.appLookup appName = none ∧ dpids ≠ [] then
        result.2 = 0 ∧ (RegisteredExactly result.1 app dpids ↔ SwapsWithin order reg appFlags dpids)
      else result.2 = -1 ∧ result.1.switches = reg.switches ∧ result.1.appList = reg.appList) ∧
    (cOfpRegisterAppSz + dpids.length * 8 < 2 ^ 16 →
      let result := reg.appRegisterAppCommand order app
        (commomRegApp order appName appFlags evMask appCookie dpids behind)
      if reg.appLookup (appName.take (cMaxAppStrlen - 1)) = none ∧ dpids ≠ [] then
        result.2 = .registered ∧ (RegisteredExactly result.1 app dpids ↔
          ∀ node ∈ reg.switches, app ∈ node.sw.appList → node.dpid ∈ dpids)
      else result.2 = .badAppReg ∧ result.1.switches = reg.switches ∧
        result.1.appList = reg.appList) ∧
    ∀ msg : RegisterAppMsg,
      ((reg.appRegisterAppCommand order app msg).2 = .registered →
        cOfpRegisterAppSz + (order.swap msg.dpid).toNat * 8 ≤ (order.swap msg.length).toNat) ↔
      reg.appLookup msg.appName ≠ none ∨
        (order.swap msg.length).toNat < cOfpRegisterAppSz + (order.swap msg.dpid).toNat * 4 ∨
        cOfpRegisterAppSz + (order.swap msg.dpid).toNat * 8 ≤ (order.swap msg.length).toNat := by
  have empty : ∀ {name}, ¬(reg.appLookup name = none ∧ dpids ≠ []) →
      reg.appLookup name ≠ none ∨ BitVec.ofNat 32 dpids.length = 0 := by
    intro name fails
    rcases not_and_or.mp fails with used | nothing
    · exact .inl used
    · rw [not_not.mp nothing]
      exact .inr rfl
  refine ⟨?_, ?_, ?_⟩
  · intro fits fresh
    split
    · rename_i accepted
      exact inProcess_exact byList accepted.1 accepted.2 fits fresh
    · rename_i fails
      exact Registry.mulRegisterApp_refused byList (empty fails)
  · intro fits
    split
    · rename_i accepted
      exact remote_exact byList accepted.1 accepted.2 fits
    · rename_i fails
      obtain ⟨ret, lists⟩ := @Registry.mulRegisterApp_refused reg order app true
        (appName.take (cMaxAppStrlen - 1)) appFlags evMask _ (converted order dpids behind) byList
          (empty fails)
      rw [appRegisterAppCommand_commom fits]
      rw [if_pos (by rw [ret]; decide)]
      exact ⟨rfl, lists⟩
  · intro msg
    rw [appRegisterAppCommand_registered]
    constructor
    · intro inside
      by_contra outside
      obtain ⟨unused, long, short⟩ := by
        simpa only [not_or, not_not, Nat.not_lt, Nat.not_le] using outside
      have some : order.swap msg.dpid ≠ 0 := by
        intro none
        rw [none] at short long
        exact absurd short (Nat.not_lt.mpr long)
      exact absurd (inside ⟨long, unused, .inr some⟩) (Nat.not_le.mpr short)
    · rintro (used | short | inside) ⟨long, unused, -⟩
      · exact absurd unused used
      · exact absurd short (Nat.not_lt.mpr long)
      · exact inside

/-- A registry with one connected switch and nobody registered. -/
def oneSwitchRegistry (dpid : BitVec 64) : Registry where
  switches := [{ dpid, sw := bootSwitch .of131, published := true }]

/-- A datapath that reads the same in both orders, and any through the client library. -/
theorem oneSwitch_registered :
    RegisteredExactly
      ((oneSwitchRegistry 0x0100000000000001).mulRegisterApp .little false 7 (some [108, 50])
        0 0 1 fun pos => [0x0100000000000001].getD pos 0).1 7 [0x0100000000000001] ∧
      RegisteredExactly ((oneSwitchRegistry 1).appRegisterAppCommand .little 7
        (commomRegApp .little [108, 50] 0 0 0 [1] fun _ => 0)).1 7 [1] := by
  obtain ⟨inProcess, -⟩ :=
    registerByDpids_exact_iff (oneSwitchRegistry 0x0100000000000001) .little 7
    [108, 50] 0 0 0 [0x0100000000000001] (fun _ => 0) rfl
  obtain ⟨-, client, -⟩ :=
    registerByDpids_exact_iff (oneSwitchRegistry 1) .little 7 [108, 50] 0 0 0 [1]
    (fun _ => 0) rfl
  have palindrome :
      SwapsWithin .little (oneSwitchRegistry 0x0100000000000001) 0 [0x0100000000000001] := by
    have same : ByteOrder.little.swap (0x0100000000000001 : BitVec 64) = 0x0100000000000001 := by
      decide
    refine ⟨?_, fun _ => ?_⟩ <;> simp only [oneSwitchRegistry, mem_singleton, forall_eq, same]
  constructor
  · have result := inProcess (by decide) (by simp [oneSwitchRegistry, bootSwitch])
    exact result.2.mpr palindrome
  · have result := client (by decide)
    exact result.2.mpr (by simp [oneSwitchRegistry, bootSwitch])

/-- Datapath one is looked for in the wrong order; a short message registers one past its end. -/
theorem oneSwitch_not_registered :
    let inProcess := (oneSwitchRegistry 1).mulRegisterApp .little false 7 (some [108, 50]) 0 0 1
      fun pos => [1].getD pos 0
    let message : RegisterAppMsg :=
      { commomRegApp .little [108, 50] 0 0 0 [1] (fun _ => 0) with
          length := ByteOrder.little.swap 92 }
    inProcess.2 = 0 ∧ ¬RegisteredExactly inProcess.1 7 [1] ∧
      ((oneSwitchRegistry 1).appRegisterAppCommand .little 7 message).2 = .registered ∧
      ByteOrder.little.swap message.length = 92 ∧ ByteOrder.little.swap message.dpid = 1 := by
  refine ⟨by decide, ?_, by decide, by decide, by decide⟩
  intro exactly
  have absent : ((oneSwitchRegistry 1).mulRegisterApp .little false 7 (some [108, 50]) 0 0 1
      fun pos =>
        [1].getD pos 0).1.switches.map (fun node => (node.dpid, node.sw.appList)) = [(1, [])] := by
    decide
  obtain ⟨node, member, same⟩ := mem_map.mp (absent ▸ mem_singleton_self _)
  obtain ⟨dpid, list⟩ := Prod.mk.inj same
  have listed := (exactly.connected node member).mpr (by simp [dpid])
  rw [list] at listed
  cases listed

end OpenMul
