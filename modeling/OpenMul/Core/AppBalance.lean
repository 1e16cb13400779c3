import OpenMul.Core.AppObject
import OpenMul.Core.AppOwners
import OpenMul.Core.AppRounds

namespace OpenMul

open Lib List

/-- The owners of everything on every switch, with multiplicity. -/
def Controller.owners (ctrl : Controller) : List App := ctrl.switches.flatMap fun node =>
    node.sw.owners

@[simp] theorem Switch.withRef_appRef (sw : Switch) (appRef : App → Int) :
    (sw.withRef appRef).appRef = appRef := rfl

@[simp] theorem Switch.withRef_owners (sw : Switch) (appRef : App → Int) :
    (sw.withRef appRef).owners = sw.owners := rfl

/-- A controller whose counts cover the ownerships. -/
structure Controller.Sound (ctrl : Controller) : Prop where
  switches : ∀ node ∈ ctrl.switches, OwnersSound node.sw
  covered : ∀ app, (ctrl.owners.count app : Int) ≤ ctrl.appRef app
  vty : ctrl.auxRemote ctrl.vty = false

/-- Switches as they are allocated owe nothing to anybody. -/
theorem Controller.Sound.of_started {ctrl : Controller}
    (started : ∀ node ∈ ctrl.switches, Started node.sw) (counts : ∀ app, 0 ≤ ctrl.appRef app)
    (vty : ctrl.auxRemote ctrl.vty = false) : ctrl.Sound := by
  have rules : ∀ node ∈ ctrl.switches, ∀ table, node.sw.rules table = [] := by
    intro node member table
    simp [Switch.rules, (started node member).1]
  refine ⟨?_, ?_, vty⟩
  · intro node member
    obtain ⟨-, groups, meters, -⟩ := started node member
    refine ⟨?_, by simp [groups], by simp [groups], by simp [meters], by simp [meters]⟩
    intro table ent inside
    rw [rules node member] at inside
    cases inside
  · have none : ctrl.owners = [] := by
      apply flatMap_eq_nil_iff.mpr
      intro node member
      obtain ⟨-, groups, meters, -⟩ := started node member
      simp [Switch.owners, Switch.held, Switch.allRules, rules node member, ownersOf, groups,
        meters]
    intro app
    rw [none]
    exact counts app

/-- The switches have their references, and the counts moved with the ownerships. -/
structure Balanced (ctrl next : Controller) : Prop where
  switches : next.switches.map CtrlSwitch.ref = ctrl.switches.map CtrlSwitch.ref
  apps : ∀ app, next.appRef app - ctrl.appRef app =
    (next.owners.count app : Int) - ctrl.owners.count app

theorem Balanced.refl (ctrl : Controller) : Balanced ctrl ctrl :=
  ⟨rfl, fun _ => by omega⟩

private theorem map_modify {Item Field : Type} {field : Item → Field} {change : Item → Item}
    (kept : ∀ item, field (change item) = field item) (list : List Item) (pos : Nat) :
    (list.modify pos change).map field = list.map field := by
  induction list generalizing pos with
  | nil => simp
  | cons head rest ih =>
    cases pos with
    | zero => simp [kept]
    | succ pos => simp [ih]

private theorem count_modify {Item : Type} {owners : Item → List App} {change : Item → Item}
    {list : List Item} {pos : Nat} {item : Item} (found : list[pos]? = some item) (app : App) :
    ((list.modify pos change).flatMap owners).count app + (owners item).count app =
      (list.flatMap owners).count app + (owners (change item)).count app := by
  induction list generalizing pos with
  | nil => simp at found
  | cons head rest ih =>
    cases pos with
    | zero =>
      have same : head = item := by simpa using found
      subst same
      simp only [modify_zero_cons, flatMap_cons, count_append]
      omega
    | succ pos =>
      have later := ih (by simpa using found)
      simp only [modify_succ_cons, flatMap_cons, count_append]
      omega

namespace Controller

variable {ctrl : Controller} {pos : Nat} {node : CtrlSwitch} {appArg : App}

theorem deref_some (known : ctrl.deref found = some (pos, node)) :
    ctrl.switches[pos]? = some node := by
  simp only [deref, Option.bind_eq_some_iff, Option.map_eq_some_iff, Prod.mk.injEq] at known
  obtain ⟨index, -, found, there, rfl, rfl⟩ := known
  exact there

theorem switchPut_switchGet (ctrl : Controller) (pos : Nat) :
    (ctrl.switchGet pos).switchPut pos = ctrl := by
  simp only [switchPut, switchGet, modify_modify_eq]
  exact congrArg (fun switches : List CtrlSwitch => { ctrl with switches })
    (modify_id pos ctrl.switches)

/-- Whether a command runs under another application than its sender. -/
def substitutes (ctrl : Controller) (appArg : App) : Bool :=
  (appArg == 0 || ctrl.auxRemote appArg) && ctrl.vty != 0

theorem commandApp_own (own : ctrl.substitutes appArg = false) :
    ctrl.commandApp appArg = (ctrl, appArg) := by
  simp only [substitutes, Bool.and_eq_false_iff, bne_eq_false_iff_eq] at own
  rcases own with direct | absent
  · simp_all [commandApp]
  · simp [commandApp, absent]

theorem commandApp_substituted (other : ctrl.substitutes appArg = true) :
    ctrl.commandApp appArg = ({ ctrl with appRef := countApp ctrl.appRef ctrl.vty 1 },
      ctrl.vty) := by
  simp only [substitutes, Bool.and_eq_true, bne_iff_ne, Bool.or_eq_true, beq_iff_eq] at other
  simp [commandApp, other]

theorem vty_ne_sender (sound : ctrl.Sound) (other : ctrl.substitutes appArg = true) :
    ctrl.vty ≠ appArg := by
  simp only [substitutes, Bool.and_eq_true, bne_iff_ne, Bool.or_eq_true, beq_iff_eq] at other
  intro same
  rcases other with ⟨worker | aux, present⟩
  · exact present (same.trans worker)
  · rw [← same, sound.vty] at aux
    cases aux

/-- The counts a request on a switch starts from. -/
def heldRef (ctrl : Controller) (appArg : App) : App → Int := (ctrl.commandApp appArg).1.appRef

theorem heldRef_eq (ctrl : Controller) (appArg app : App) : ctrl.heldRef appArg app =
      ctrl.appRef app + if ctrl.substitutes appArg then [ctrl.vty].count app else 0 := by
  cases other : ctrl.substitutes appArg with
  | false => simp [heldRef, commandApp_own other]
  | true => simp [heldRef, commandApp_substituted other, countApp_one]

def setAppRef (ctrl : Controller) (appRef : App → Int) : Controller := { ctrl with appRef }

/-- What is left of a command once its request is made and the switch is put. -/
def settled (ctrl : Controller) (pos : Nat) (sw : Switch) : Controller :=
  { ctrl with
    switches := ctrl.switches.modify pos fun node => { node with sw }
    appRef := sw.appRef }

theorem commandApp_switchGet (ctrl : Controller) (pos : Nat) (appArg : App) :
    (ctrl.switchGet pos).commandApp appArg =
      ((ctrl.switchGet pos).setAppRef (ctrl.heldRef appArg), (ctrl.commandApp appArg).2) := by
  cases other : ctrl.substitutes appArg with
  | false =>
    have same : (ctrl.switchGet pos).substitutes appArg = false := other
    simp only [commandApp_own same, heldRef, commandApp_own other]
    rfl
  | true =>
    have same : (ctrl.switchGet pos).substitutes appArg = true := other
    simp only [commandApp_substituted same, heldRef, commandApp_substituted other]
    rfl

theorem onSwitch_settled (ctrl : Controller) (pos : Nat) (node : CtrlSwitch)
    (appRef : App → Int) (request : Switch → Switch × Out) :
    ((((ctrl.switchGet pos).setAppRef appRef).onSwitch pos node request).1.switchPut pos =
        ctrl.settled pos (request (node.sw.withRef appRef)).1) ∧
      (((ctrl.switchGet pos).setAppRef appRef).onSwitch pos node request).2 =
        (request (node.sw.withRef appRef)).2 := by
  refine ⟨?_, rfl⟩
  simp only [onSwitch, switchPut, setAppRef, switchGet, settled, modify_modify_eq]
  rfl

section Settled

variable {sw : Switch}

theorem settled_refs (ctrl : Controller) (pos : Nat) (sw : Switch) :
    (ctrl.settled pos sw).switches.map CtrlSwitch.ref = ctrl.switches.map CtrlSwitch.ref := by
  apply map_modify
  intro node
  rfl

section

variable (found : ctrl.switches[pos]? = some node)
    (accounted : Accounted (node.sw.withRef (ctrl.heldRef appArg)) sw)
include found accounted

theorem settled_counts (app : App) : (ctrl.settled pos sw).appRef app - ctrl.heldRef appArg app =
      ((ctrl.settled pos sw).owners.count app : Int) - ctrl.owners.count app := by
  have total := @count_modify _ (fun node : CtrlSwitch => node.sw.owners)
    (fun node => { node with sw }) _ _ _ found app
  have counts := accounted app
  simp only [Switch.withRef_appRef, Switch.withRef_owners] at counts
  simp only [settled, owners] at total ⊢
  omega

theorem settled_balanced (own : ctrl.substitutes appArg = false) :
    Balanced ctrl (ctrl.settled pos sw) := by
  refine ⟨settled_refs ctrl pos sw, ?_⟩
  intro app
  have counts := settled_counts found accounted app
  simp only [heldRef_eq, own, Bool.false_eq_true, if_false] at counts
  omega

end

/-- The reference on the substitute is given back at the end of a handler. -/
theorem dropApp_balanced (sound : ctrl.Sound) (found : ctrl.switches[pos]? = some node)
    (accounted : Accounted (node.sw.withRef (ctrl.heldRef appArg)) sw) :
    Balanced ctrl ((ctrl.settled pos sw).dropApp appArg (ctrl.commandApp appArg).2) := by
  cases other : ctrl.substitutes appArg with
  | false =>
    rw [commandApp_own other, dropApp, if_pos rfl]
    exact settled_balanced found accounted other
  | true =>
    have counts := settled_counts found accounted
    simp only [heldRef_eq, other, if_true] at counts
    have positive : 0 < (ctrl.settled pos sw).appRef ctrl.vty := by
      have here := counts ctrl.vty
      have enough := sound.covered ctrl.vty
      simp only [count_singleton_self] at here
      omega
    rw [commandApp_substituted other, dropApp, if_neg (vty_ne_sender sound other)]
    refine ⟨settled_refs ctrl pos sw, ?_⟩
    intro app
    have here := counts app
    change appPut (ctrl.settled pos sw).appRef ctrl.vty app - _ =
      ((ctrl.settled pos sw).owners.count app : Int) - _
    rw [appPut_held positive, countApp_neg_one]
    omega

/-- Without it the substitute has one reference too many. -/
theorem settled_unbalanced (found : ctrl.switches[pos]? = some node)
    (accounted : Accounted (node.sw.withRef (ctrl.heldRef appArg)) sw)
    (other : ctrl.substitutes appArg = true) : ¬Balanced ctrl (ctrl.settled pos sw) := by
  intro balanced
  have counts := settled_counts found accounted ctrl.vty
  have claimed := balanced.apps ctrl.vty
  simp only [heldRef_eq, other, if_true, count_singleton_self] at counts
  omega

end Settled

theorem switchGet_unbalanced (found : ctrl.switches[pos]? = some node) (appRef : App → Int) :
    ¬Balanced ctrl ((ctrl.switchGet pos).setAppRef appRef) := by
  intro balanced
  have refs := congrArg (·[pos]?) balanced.switches
  simp [setAppRef, switchGet, getElem?_map, getElem?_modify_eq, found] at refs

theorem loaded_covered (sound : ctrl.Sound) (found : ctrl.switches[pos]? = some node)
    (appArg : App) : Covered (node.sw.withRef (ctrl.heldRef appArg)) := by
  intro app
  have part : node.sw.owners.count app ≤ ctrl.owners.count app := by
    apply List.Sublist.count_le
    exact sublist_flatten_of_mem (mem_map_of_mem (mem_of_getElem? found))
  have enough := sound.covered app
  change (node.sw.owners.count app : Int) ≤ ctrl.heldRef appArg app
  rw [heldRef_eq]
  split <;> omega

theorem loaded_sound (sound : ctrl.Sound) (found : ctrl.switches[pos]? = some node)
    (appRef : App → Int) : OwnersSound (node.sw.withRef appRef) := by
  have here := sound.switches node (mem_of_getElem? found)
  exact { here with }

end Controller

section Requests

variable {sw : Switch}

theorem flowModRequest_accounted (sound : OwnersSound sw) (msg : FlowModMsg) (p : FlowModParams)
    (now : Nat) : Accounted sw (flowModRequest msg p now sw).1 ∧
      OwnersSound (flowModRequest msg p now sw).1 := by
  have quiet : ∀ msgs, Accounted sw (sw.switchTx msgs) ∧ OwnersSound (sw.switchTx msgs) := by
    intro msgs
    refine ⟨?_, { sound with }⟩
    intro app
    change sw.appRef app - sw.appRef app = (sw.owners.count app : Int) - sw.owners.count app
    omega
  unfold flowModRequest
  split
  · split
    · unfold sendFlowAddDirect
      split
      · exact quiet _
      · exact ⟨.refl sw, sound⟩
    · unfold sendFlowDelDirect
      split
      · exact quiet _
      · exact ⟨.refl sw, sound⟩
  split
  · exact ⟨flowRuleAdd_accounted sw p now, sound.flowAdd p now⟩
  · exact ⟨flowRuleDel_accounted sw p (sound.rules _), sound.flowDel p⟩

theorem flowModRounds_accounted (sound : OwnersSound run.node.sw) (msg : FlowModMsg)
    (app : App) (now table : Nat) (above : List Nat) :
    Accounted run.node.sw (flowModRounds msg app now table above run).1.node.sw ∧
      OwnersSound (flowModRounds msg app now table above run).1.node.sw := by
  refine flowModRounds_invariant
    (fun later => Accounted run.node.sw later.node.sw ∧ OwnersSound later.node.sw) ?_ ?_ ?_ above
    ⟨.refl _, sound⟩
  · intro run checked table kept passed
    have node : checked.node = run.node := by rw [FlowModRun.allowed_some passed]
    rw [node]
    exact kept
  · intro run kept
    obtain ⟨accounted, still⟩ := flowModRequest_accounted kept.2 msg (run.params msg app) now
    exact ⟨kept.1.trans accounted, still⟩
  · intro run next kept
    exact kept

theorem flowModOnSwitch_accounted (sound : OwnersSound sw) (node : CtrlSwitch) (msg : FlowModMsg)
    (app : App) (now : Nat) (flow mask : Flow) :
    Accounted sw (flowModOnSwitch node msg app now flow mask sw).1 :=
  (@flowModRounds_accounted (FlowModRun.start { node with sw } msg flow mask) sound msg app now
    _ _).1

theorem groupModOnSwitch_accounted (sound : OwnersSound sw) (covered : Covered sw)
    (node : CtrlSwitch) (msg : GroupModMsg) (add : Bool) (app : App) (ptr now : Nat) :
    Accounted sw (groupModOnSwitch node msg add app ptr now sw).1 := by
  unfold groupModOnSwitch
  dsimp only
  split
  · exact .refl sw
  split
  · split
    · exact .refl sw
    · exact groupAdd_accounted sound covered _ ptr now
  · exact groupDel_accounted sound covered _

theorem meterModOnSwitch_accounted (sound : OwnersSound sw) (covered : Covered sw)
    (node : CtrlSwitch) (msg : MeterModMsg) (add : Bool) (app : App) (ptr now : Nat) :
    Accounted sw (meterModOnSwitch node msg add app ptr now sw).1 := by
  unfold meterModOnSwitch
  dsimp only
  split
  · exact .refl sw
  split
  · split
    · exact .refl sw
    · exact meterAdd_accounted sound covered _ ptr now
  · exact meterDel_accounted sound covered _

end Requests

namespace Controller

variable (ctrl : Controller) (appArg : App) (msg : FlowModMsg) (now : Nat)

/-- The ways `c_app_flow_mod_wrk_command` returns. -/
inductive WrkOutcome : Controller × Int → Prop where
  | ignored (unknown : msg.allWildcard = true ∨ ctrl.flowModSwitch msg = none) :
    WrkOutcome (ctrl, -1)
  | leaked {pos node} {ret : Int} (specific : msg.allWildcard = false)
      (known : ctrl.flowModSwitch msg = some (pos, node))
      (bad : msg.badFlags = true ∨ normalizeMsg node msg = .error ret) (failed : ret < 0) :
      WrkOutcome ((ctrl.switchGet pos).setAppRef (ctrl.heldRef appArg), ret)
  | refused {pos node flow mask sw fault} (specific : msg.allWildcard = false)
      (known : ctrl.flowModSwitch msg = some (pos, node)) (good : msg.badFlags = false)
      (normal : normalizeMsg node msg = .ok (flow, mask))
      (rounds : flowModOnSwitch node msg (ctrl.commandApp appArg).2 now flow mask
        (node.sw.withRef (ctrl.heldRef appArg)) = (sw, none, fault)) :
      WrkOutcome ((ctrl.settled pos sw).markFault fault, -1)
  | done {pos node flow mask sw ret fault} (specific : msg.allWildcard = false)
      (known : ctrl.flowModSwitch msg = some (pos, node)) (good : msg.badFlags = false)
      (normal : normalizeMsg node msg = .ok (flow, mask))
      (rounds : flowModOnSwitch node msg (ctrl.commandApp appArg).2 now flow mask
        (node.sw.withRef (ctrl.heldRef appArg)) = (sw, some ret, fault)) :
      WrkOutcome (((ctrl.settled pos sw).markFault fault).dropApp appArg (ctrl.commandApp appArg).2,
        ret)

private theorem normalizeMsg_error {msg : FlowModMsg} {ret : Int}
    (failed : normalizeMsg node msg = .error ret) : ret < 0 := by
  unfold normalizeMsg at failed
  split at failed
  · cases failed
  dsimp only at failed
  split at failed
  · cases failed
    assumption
  · cases failed

theorem appFlowModWrkCommand_outcome :
    WrkOutcome ctrl appArg msg now (ctrl.appFlowModWrkCommand appArg msg now) := by
  unfold appFlowModWrkCommand
  cases specific : msg.allWildcard with
  | true => exact .ignored (.inl specific)
  | false =>
    cases known : ctrl.flowModSwitch msg with
    | none => exact .ignored (.inr known)
    | some found =>
      obtain ⟨pos, node⟩ := found
      simp only [Bool.false_eq_true, if_false, commandApp_switchGet]
      cases good : msg.badFlags with
      | true => exact .leaked specific known (.inl good) (by decide)
      | false =>
        cases normal : normalizeMsg node msg with
        | error ret => exact .leaked specific known (.inr normal) (normalizeMsg_error normal)
        | ok flows =>
          obtain ⟨flow, mask⟩ := flows
          obtain ⟨put, out⟩ := onSwitch_settled ctrl pos node (ctrl.heldRef appArg)
            (flowModOnSwitch node msg (ctrl.commandApp appArg).2 now flow mask)
          cases rounds : flowModOnSwitch node msg (ctrl.commandApp appArg).2 now flow mask
            (node.sw.withRef (ctrl.heldRef appArg)) with
          | mk sw verdict =>
            obtain ⟨ret, fault⟩ := verdict
            simp only [rounds] at put out
            simp only [put, out, Bool.false_eq_true, if_false]
            cases ret with
            | none => exact .refused specific known good normal rounds
            | some ret => exact .done specific known good normal rounds

end Controller

theorem Balanced.markFault (balanced : Balanced ctrl done) (fault : Bool) :
    Balanced ctrl (done.markFault fault) :=
  ⟨balanced.switches, balanced.apps⟩

theorem Controller.dropApp_markFault (ctrl : Controller) (fault : Bool) (appArg app : App) :
    (ctrl.markFault fault).dropApp appArg app = (ctrl.dropApp appArg app).markFault fault := by
  unfold Controller.dropApp
  split <;> rfl

/-- The rounds of a command keep what they take, by the rules on its switch. -/
def RoundsKeep (node : CtrlSwitch) (msg : FlowModMsg) (flow mask : Flow) (app : App) (lent : Bool) :
    Prop :=
  (FlowModRun.start node msg flow mask).KeepsFrom msg app lent (physTable node msg flow).toNat
    (node.tablesAbove (physTable node msg flow).toNat)

theorem flowModOnSwitch_keeps_iff {msg : FlowModMsg} (good : msg.badFlags = false)
    (node : CtrlSwitch) (flow mask : Flow) (app : App) (now : Nat) (lent : Bool)
    (appRef : App → Int) :
    ((flowModOnSwitch node msg app now flow mask (node.sw.withRef appRef)).2.2 = false ∧
        (lent = true →
          (flowModOnSwitch node msg app now flow mask (node.sw.withRef appRef)).2.1 ≠ none)) ↔
      RoundsKeep node msg flow mask app lent := by
  -- The counts of the applications are not read by the rounds.
  have untouched : ∀ tables, Untouched (FlowModRun.start node msg flow mask).node.sw tables
      (node.sw.withRef appRef) := fun tables => .of_same rfl rfl rfl fun _ _ => rfl
  exact flowModRounds_keeps_iff good lent (untouched _) rfl rfl (node.tablesAbove_ascending _)
    (node.tablesAbove_lt _)

namespace Controller

/-- A flow-mod returns every reference it takes, and reads no list that it freed. -/
def WrkKeeps (ctrl : Controller) (appArg : App) (msg : FlowModMsg) : Prop :=
  msg.allWildcard = false → ∀ pos node, ctrl.flowModSwitch msg = some (pos, node) →
    msg.badFlags = false ∧ ∃ flow mask, normalizeMsg node msg = .ok (flow, mask) ∧
      RoundsKeep node msg flow mask (ctrl.commandApp appArg).2 (ctrl.substitutes appArg)

/-- A command returns every reference it takes; queued flow-mods take none. -/
def Keeps (ctrl : Controller) (app : App) : AppCommand → Prop
  | .flowMod msg => msg.whole = true →
      (msg.has flNoAck = true → 0 < ctrl.appWorqTx app msg.datapathId) → ctrl.WrkKeeps app msg
  | .queuedFlowMod msg => ctrl.WrkKeeps 0 msg
  | .groupMod _ | .meterMod _ => True
  | .packetOut msg => msg.whole = true →
      ∀ pos node, ctrl.deref (ctrl.swHashTbl msg.datapathId) = some (pos, node) →
        node.txLimited = true ∨ msg.actionsLen.toNat ≤ msg.body.length

variable {ctrl : Controller} {appArg : App} {msg : FlowModMsg}

/-- The next state has its references back and no freed list was read. -/
def Settled (ctrl next : Controller) : Prop := Balanced ctrl next ∧ next.heapFault = false

section

variable (known : ctrl.flowModSwitch msg = some (pos, node))
  (rounds : flowModOnSwitch node msg (ctrl.commandApp appArg).2 now flow mask
    (node.sw.withRef (ctrl.heldRef appArg)) = (sw, ret, fault))
include known rounds

private theorem wrk_accounted (sound : ctrl.Sound) :
    Accounted (node.sw.withRef (ctrl.heldRef appArg)) sw := by
  have accounted := flowModOnSwitch_accounted (loaded_sound sound (deref_some known)
    (ctrl.heldRef appArg)) node msg (ctrl.commandApp appArg).2 now flow mask
  rwa [rounds] at accounted

private theorem wrkKeeps_iff (specific : msg.allWildcard = false) (good : msg.badFlags = false)
    (normal : normalizeMsg node msg = .ok (flow, mask)) : ctrl.WrkKeeps appArg msg ↔
      fault = false ∧ (ctrl.substitutes appArg = true → ret ≠ none) := by
  have keeps_iff := flowModOnSwitch_keeps_iff good node flow mask (ctrl.commandApp appArg).2 now
    (ctrl.substitutes appArg) (ctrl.heldRef appArg)
  rw [rounds] at keeps_iff
  refine Iff.trans ⟨?_, ?_⟩ keeps_iff.symm
  · intro keeps
    obtain ⟨-, otherFlow, otherMask, same, kept⟩ := keeps specific pos node known
    rw [normal] at same
    cases same
    exact kept
  · intro kept _ otherPos otherNode same
    rw [known] at same
    cases same
    exact ⟨good, flow, mask, normal, kept⟩

end

section

variable (sound : ctrl.Sound) (intact : ctrl.heapFault = false)
include intact

private theorem unchanged_settled {keeps : Prop} (always : keeps) : Settled ctrl ctrl ↔ keeps :=
  iff_of_true ⟨.refl ctrl, intact⟩ always

private theorem markFault_settled {next : Controller} (same : next.heapFault = ctrl.heapFault)
    (fault : Bool) : Settled ctrl (next.markFault fault) ↔ Balanced ctrl next ∧ fault = false := by
  have flag : (next.markFault fault).heapFault = fault := by simp [markFault, same, intact]
  rw [Settled, flag]
  exact and_congr_left fun _ =>
    ⟨fun kept => ⟨kept.switches, kept.apps⟩, fun kept => kept.markFault fault⟩

include sound

private theorem wrk_settled_iff (now : Nat) :
    Settled ctrl (ctrl.appFlowModWrkCommand appArg msg now).1 ↔ ctrl.WrkKeeps appArg msg := by
  have outcome := appFlowModWrkCommand_outcome ctrl appArg msg now
  generalize ctrl.appFlowModWrkCommand appArg msg now = result at outcome
  cases outcome with
  | ignored unknown =>
    apply unchanged_settled intact
    intro specific pos node known
    rcases unknown with wild | missing
    · rw [specific] at wild
      cases wild
    · rw [missing] at known
      cases known
  | @leaked pos node ret specific known bad =>
    apply iff_of_false
    · exact fun settled => switchGet_unbalanced (deref_some known) _ settled.1
    intro keeps
    obtain ⟨good, flow, mask, normal, -⟩ := keeps specific pos node known
    rcases bad with flags | error
    · rw [good] at flags
      cases flags
    · rw [normal] at error
      cases error
  | @refused pos node flow mask sw fault specific known good normal rounds =>
    have accounted := wrk_accounted known rounds sound
    rw [wrkKeeps_iff known rounds specific good normal,
      @markFault_settled ctrl intact (ctrl.settled pos sw) rfl fault]
    cases other : ctrl.substitutes appArg with
    | false => simp [settled_balanced (deref_some known) accounted other]
    | true => simp [settled_unbalanced (deref_some known) accounted other]
  | @done pos node flow mask sw ret fault specific known good normal rounds =>
    have balanced := dropApp_balanced sound (deref_some known) (wrk_accounted known rounds sound)
    have flag : ((ctrl.settled pos sw).dropApp appArg (ctrl.commandApp appArg).2).heapFault =
        ctrl.heapFault := by
      unfold dropApp
      split <;> rfl
    rw [wrkKeeps_iff known rounds specific good normal, dropApp_markFault,
      markFault_settled intact flag]
    simp [balanced]

private theorem flowMod_settled_iff (now : Nat) :
    Settled ctrl (ctrl.appFlowModCommand appArg msg now).1.1 ↔
      ctrl.Keeps appArg (.flowMod msg) := by
  have handled := @wrk_settled_iff ctrl appArg msg sound intact now
  unfold appFlowModCommand
  cases whole : msg.whole with
  | false =>
    apply unchanged_settled intact
    intro long
    rw [whole] at long
    cases long
  | true =>
    simp only [Bool.not_true, Bool.false_eq_true, if_false]
    cases quiet : msg.has flNoAck with
    | false => simp [handled, Keeps, whole, quiet]
    | true =>
      simp only [if_true]
      split
      · apply unchanged_settled intact
        intro _ direct
        have positive := direct quiet
        omega
      · rename_i direct
        have positive : 0 < ctrl.appWorqTx appArg msg.datapathId := by omega
        simp [handled, Keeps, whole, positive]

/-- The group and meter handlers give back what they take on every path. -/
private theorem object_settled (whole : Bool) (command : ModCommand) (dpid : BitVec 64)
    (accounts : ∀ node add app sw, OwnersSound sw → Covered sw →
      Accounted sw (request node add app sw).1) :
    Settled ctrl (ctrl.appObjectCommand appArg whole command dpid request).1 := by
  unfold appObjectCommand
  split
  · exact ⟨.refl ctrl, intact⟩
  cases known : ctrl.deref (ctrl.swHashTbl dpid) with
  | none => exact ⟨.refl ctrl, intact⟩
  | some found =>
    obtain ⟨pos, node⟩ := found
    have there := deref_some known
    simp only [commandApp_switchGet, onSwitch_settled]
    refine ⟨dropApp_balanced sound there ?_, ?_⟩
    · exact accounts node _ _ _ (loaded_sound sound there _) (loaded_covered sound there appArg)
    · unfold dropApp
      split <;> exact intact

omit sound in
private theorem packetOut_settled_iff (msg : PacketOutMsg) :
    Settled ctrl (ctrl.appPacketOutCommand msg).1 ↔ ctrl.Keeps appArg (.packetOut msg) := by
  unfold appPacketOutCommand
  cases whole : msg.whole with
  | false => exact unchanged_settled intact fun long => by rw [whole] at long; cases long
  | true =>
    cases known : ctrl.deref (ctrl.swHashTbl msg.datapathId) with
    | none => exact unchanged_settled intact fun _ _ _ found => by rw [known] at found; cases found
    | some found =>
      obtain ⟨pos, node⟩ := found
      have keeps_iff : ctrl.Keeps appArg (.packetOut msg) ↔
          (node.txLimited = true ∨ msg.actionsLen.toNat ≤ msg.body.length) := by
        simp [Keeps, whole, known]
      simp only [Bool.not_true, Bool.false_eq_true, if_false, switchPut_switchGet]
      split
      · rename_i limited
        exact unchanged_settled intact (keeps_iff.mpr (.inl limited))
      split
      · rename_i unlimited short
        apply iff_of_false
        · exact fun settled => switchGet_unbalanced (deref_some known) ctrl.appRef settled.1
        rw [keeps_iff]
        rintro (limited | long)
        · exact unlimited limited
        · omega
      · exact unchanged_settled intact (keeps_iff.mpr (.inr (by omega)))

/-- A command is balanced, and frees nothing it reads again, exactly if its handler keeps
what it takes by the state before it. -/
theorem appCommand_balanced_iff (app : App) (ptr now : Nat) (command : AppCommand) :
    (Balanced ctrl (ctrl.appCommand app ptr now command) ∧
        (ctrl.appCommand app ptr now command).heapFault = false) ↔ ctrl.Keeps app command := by
  cases command with
  | flowMod msg => exact flowMod_settled_iff sound intact now
  | queuedFlowMod msg => exact wrk_settled_iff sound intact now
  | groupMod msg =>
    refine iff_of_true (object_settled sound intact _ _ _ ?_) trivial
    exact fun node add app sw sound covered =>
      groupModOnSwitch_accounted sound covered node msg add app ptr now
  | meterMod msg =>
    refine iff_of_true (object_settled sound intact _ _ _ ?_) trivial
    exact fun node add app sw sound covered =>
      meterModOnSwitch_accounted sound covered node msg add app ptr now
  | packetOut msg => exact packetOut_settled_iff intact msg

end

end Controller

/-- A switch with port 1 and the tables 0 and 5, the second of them as virtual table 1. -/
def twoTableSwitch : CtrlSwitch where
  sw := bootSwitch .of131
  cmd := of131CmdCtors
  ports := fun port => port == 1
  hwTblActive := fun table => table == 5
  xphysMapTbl := fun table => if table = 1 then 5 else 0

/-- That switch, the command line's application 5 and an auxiliary connection 9. -/
def oneSwitch : Controller where
  switches := [twoTableSwitch]
  swHashTbl dpid := if dpid = 1 then some 0 else none
  vty := 5
  auxRemote app := app == 9

def inPortRule (port : BitVec 32) : FlowModMsg :=
  { datapathId := 1, flow := { inPort := port }, mask := { inPort := 0xffffffff } }

/-- A rule for both tables. -/
def replicatedRule (actions : List Byte) : FlowModMsg :=
  { inPortRule 1 with flags := flEntLocal, actions }

private theorem oneSwitch_sound : oneSwitch.Sound := by
  apply Controller.Sound.of_started
  · intro node member
    rw [mem_singleton.mp member]
    exact ⟨rfl, rfl, rfl, rfl, rfl⟩
  · intro app
    exact Int.le_refl 0
  · rfl

theorem auxiliary_rule_balanced : oneSwitch.Keeps 9 (.flowMod (replicatedRule [])) ∧
      Balanced oneSwitch (oneSwitch.appCommand 9 0 0 (.flowMod (replicatedRule []))) ∧
      (oneSwitch.appCommand 9 0 0 (.flowMod (replicatedRule []))).appRef 5 = 2 := by
  have keeps : oneSwitch.Keeps 9 (.flowMod (replicatedRule [])) := by
    intro _ _ _ pos node known
    cases known
    refine ⟨rfl, _, _, rfl, ?_⟩
    have above : twoTableSwitch.tablesAbove 0 = [5] := by decide +kernel
    change FlowModRun.KeepsFrom _ _ _ 0 (twoTableSwitch.tablesAbove 0) _
    rw [above]
    exact fun _ => ⟨rfl, rfl, fun refused => absurd refused (Option.some_ne_none _)⟩
  exact ⟨keeps, ((Controller.appCommand_balanced_iff oneSwitch_sound rfl 9 0 0
    (.flowMod (replicatedRule []))).mpr keeps).1, by decide +kernel⟩

/-- Refused commands keep the switch's reference, or that of the command line's application,
also when only a later table refuses. -/
theorem refused_commands_unbalanced :
    ¬Balanced oneSwitch (oneSwitch.appCommand 7 0 0 (.flowMod (inPortRule 0))) ∧
    ¬Balanced oneSwitch (oneSwitch.appCommand 9 0 0 (.flowMod (inPortRule 2))) ∧
    ¬Balanced oneSwitch
      (oneSwitch.appCommand 9 0 0 (.flowMod (replicatedRule [0, 1, 0, 4, 1, 1, 0, 4]))) ∧
    ¬Balanced oneSwitch
      (oneSwitch.appCommand 7 0 0 (.packetOut { datapathId := 1, actionsLen := 8 })) := by
  refine ⟨?_, ?_, ?_, ?_⟩
  · intro balanced
    have refs := balanced.switches
    revert refs
    decide
  · intro balanced
    have counts := balanced.apps 5
    revert counts
    decide +kernel
  · intro balanced
    have counts := balanced.apps 5
    revert counts
    decide +kernel
  · intro balanced
    have refs := balanced.switches
    revert refs
    decide

end OpenMul
