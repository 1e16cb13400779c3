import OpenMul.Core.FlowRule
import OpenMul.Core.Group
import OpenMul.Core.InstCheck

namespace OpenMul

open Lib

def flEntSwalias : BitVec 64 := 0x40
def flEntTblPhys : BitVec 64 := 0x1000

/-- What `validate_acts` leaves: verdict, list and dependencies. -/
structure ActsVerdict where
  ret : Int
  actions : List Byte
  args : InstCheckArgs

/-- The constructors of `sw->ofp_ctors` that only the command handlers call. The
two feature checks come with the features the switch reported. -/
structure CmdCtors where
  normalizeFlow : Option (Flow → Flow → NormFlow) := none
  validateActs : Option (Option Flow → Option Flow → List Byte → Bool → InstCheckArgs →
    ActsVerdict) :=
    none
  groupValidateFeat : Option (GroupModParams → Int) := none
  meterValidateFeat : Option (MeterModParams → Int) := none

/-- `of131_validate_actions` behind its constructor. -/
def of131ValidateActs (fl mask : Option Flow) (actions : List Byte) (actsOnly : Bool)
    (args : InstCheckArgs) : ActsVerdict :=
  let arg := of131ValidateActions fl mask actions (BitVec.ofNat 64 actions.length) actsOnly args
  ⟨arg.res, arg.msg, arg.user.uArg⟩

/-- The OpenFlow 1.3 constructors, less the meter features. -/
def of131CmdCtors : CmdCtors where
  normalizeFlow := some of131FlowNormalize
  validateActs := some of131ValidateActs

/-- `c_switch_t` as the command handlers see it: its rule tables with what the
switch reported about them, its ports and its reference count. -/
structure CtrlSwitch where
  sw : Switch
  ref : Nat := 0
  cmd : CmdCtors := {}
  debugFlag : Bool := false
  /-- `__c_switch_port_valid`. -/
  ports : BitVec 32 → Bool := fun _ => false
  hwTblActive : Nat → Bool := fun _ => false
  props : Nat → Option TblProps := fun _ => none
  xphysMapTbl : Byte → Byte := fun _ => 0
  /-- The verdict of `tx_lim_on` and its rate limit on the next packet-out. -/
  txLimited : Bool := false

namespace CtrlSwitch

/-- `of_switch_port_valid`. -/
def portValid (node : CtrlSwitch) (fl mask : Flow) : Bool :=
  if mask.inPort ≠ 0 then node.ports fl.inPort else true

/-- `of_switch_table_valid`. -/
def tableValid (node : CtrlSwitch) (table : Nat) : Bool :=
  if table ≠ 0 && node.sw.ofpCtors.multiTableSupport then node.hwTblActive table else true

/-- `of_switch_get_v2p_tbl`. -/
def getV2pTbl (node : CtrlSwitch) (vtable : Byte) : Byte :=
  if node.sw.ofpCtors.multiTableSupport then node.xphysMapTbl vtable else 0

/-- The lookup of `c_of_fl_group_check_add`. -/
def liveGroup (node : CtrlSwitch) (group : BitVec 32) : Bool :=
  (RefTable.lookup node.sw.groups group).any fun found => !hasFlag found.body.flags grpExpired

/-- The lookup of `c_of_fl_meter_check_add`. -/
def liveMeter (node : CtrlSwitch) (meter : BitVec 32) : Bool :=
  (RefTable.lookup node.sw.meters meter).any fun found => !hasFlag found.body.cflags grpExpired

/-- The tables the replication of a local flow goes on to. -/
def tablesAbove (node : CtrlSwitch) (table : Nat) : List Nat :=
  (List.range maxRuleFlowTbls).filter fun next => decide (table < next) && node.tableValid next

theorem tablesAbove_lt (node : CtrlSwitch) (table : Nat) :
    ∀ next ∈ node.tablesAbove table, next < maxRuleFlowTbls := by
  intro next member
  exact List.mem_range.mp (List.mem_filter.mp member).1

theorem tablesAbove_ascending (node : CtrlSwitch) (table : Nat) :
    (table :: node.tablesAbove table).Pairwise (· < ·) := by
  refine List.pairwise_cons.mpr ⟨?_, List.pairwise_lt_range.filter _⟩
  intro next member
  simp only [tablesAbove, List.mem_filter, Bool.and_eq_true, decide_eq_true_eq] at member
  exact member.2.1

end CtrlSwitch

/-- A switch record with the current counts of the applications. -/
def Switch.withRef (sw : Switch) (appRef : App → Int) : Switch := { sw with appRef }

/-- `ctrl_hdl_t`. Switches are addressed by position and applications by their
record; `vty` is `NULL` when no such application is registered. -/
structure Controller where
  switches : List CtrlSwitch
  swHashTbl : BitVec 64 → Option Nat
  swIpool : BitVec 32 → Option Nat := fun _ => none
  appRef : App → Int := fun _ => 0
  vty : App := 0
  auxRemote : App → Bool := fun _ => false
  /-- Whether an application's queue to the thread of a switch is dead. -/
  wqDead : App → Nat → Bool := fun _ _ => false
  /-- Set once a list that was freed is read again. -/
  heapFault : Bool := false

namespace Controller

/-- A pointer read from one of the two indexes, with what it points to. -/
def deref (ctrl : Controller) (found : Option Nat) : Option (Nat × CtrlSwitch) :=
  found.bind fun pos => (ctrl.switches[pos]?).map fun node => (pos, node)

/-- The reference `c_switch_get` takes on the switch it returns. -/
def switchGet (ctrl : Controller) (pos : Nat) : Controller :=
  { ctrl with switches := ctrl.switches.modify pos fun node => { node with ref := node.ref + 1 } }

/-- `c_switch_put` of a switch whose reference is held. -/
def switchPut (ctrl : Controller) (pos : Nat) : Controller :=
  { ctrl with switches := ctrl.switches.modify pos fun node => { node with ref := node.ref - 1 } }

/-- Run a request on a switch with the shared counts of the applications. -/
def onSwitch {Out : Type} (ctrl : Controller) (pos : Nat) (node : CtrlSwitch)
    (request : Switch → Switch × Out) : Controller × Out :=
  let (sw, out) := request (node.sw.withRef ctrl.appRef)
  ({ ctrl with
    switches := ctrl.switches.modify pos fun node => { node with sw }, appRef := sw.appRef }, out)

/-- The application a command is handled for. Commands of the worker and of
auxiliary connections run under the command line's application, whose reference
is taken. -/
def commandApp (ctrl : Controller) (appArg : App) : Controller × App :=
  if appArg = 0 || ctrl.auxRemote appArg then
    if ctrl.vty = 0 then (ctrl, appArg)
    else ({ ctrl with appRef := countApp ctrl.appRef ctrl.vty 1 }, ctrl.vty)
  else (ctrl, appArg)

/-- Record whether a freed list was read. -/
def markFault (ctrl : Controller) (fault : Bool) : Controller :=
  { ctrl with heapFault := ctrl.heapFault || fault }

/-- The `c_app_put` at the end of a handler. -/
def dropApp (ctrl : Controller) (appArg app : App) : Controller :=
  if app = appArg then ctrl else { ctrl with appRef := appPut ctrl.appRef app }

end Controller

/-- `struct c_ofp_flow_mod` with the action list behind it. `whole` tells whether
the header's length covers the record. -/
structure FlowModMsg where
  whole : Bool := true
  datapathId : BitVec 64 := 0
  flow : Flow := {}
  mask : Flow := {}
  flags : BitVec 64 := 0
  /-- `command == C_OFPC_ADD`; every other value deletes. -/
  add : Bool := true
  priority : BitVec 16 := 0
  swAlias : BitVec 32 := 0
  itimeo : BitVec 16 := 0
  htimeo : BitVec 16 := 0
  oport : BitVec 32 := 0
  bufferId : BitVec 32 := 0xffffffff
  ogroup : BitVec 32 := 0
  cookie : BitVec 32 := 0
  seqCookie : BitVec 32 := 0
  actions : List Byte := []
  deriving DecidableEq, Repr

namespace FlowModMsg

def has (msg : FlowModMsg) (flag : BitVec 64) : Bool := hasFlag msg.flags flag

/-- `of_check_flow_wildcard_generic`. -/
def checkFlowWildcardGeneric (mask : Flow) : Bool :=
  mask.dlSrc == 0 && mask.dlDst == 0 && mask.dlType == 0 && mask.dlVlan == 0 &&
  mask.dlVlanPcp == 0 && mask.mplsLabel == 0 && mask.mplsTc == 0 && mask.mplsBos == 0 &&
  mask.inPort == 0 && mask.tunnelId == 0 && mask.metadata == 0

/-- The flow-mods that match everything and are refused for it. -/
def allWildcard (msg : FlowModMsg) : Bool :=
  !msg.has flEntLocal && !msg.has flEntResidual && checkFlowWildcardGeneric msg.mask

/-- The flag combination that is refused once the switch is known. -/
def badFlags (msg : FlowModMsg) : Bool :=
  msg.has flEntNocache && (msg.has flEntLocal || msg.has flEntClone)

end FlowModMsg

/-- The locals of `c_app_flow_mod_wrk_command` that its rounds change. -/
structure FlowModRun where
  node : CtrlSwitch
  flow : Flow
  mask : Flow
  actions : List Byte
  args : InstCheckArgs
  heapFault : Bool := false

namespace FlowModRun

/-- The switch with its callbacks. They look at the switch as it is by then. -/
def checkArgs (run : FlowModRun) : InstCheckArgs :=
  { run.args with
    checkPort := some run.node.ports
    checkAddGroup := some run.node.liveGroup
    checkAddMeter := some run.node.liveMeter
    getV2pTbl := some run.node.getV2pTbl }

/-- The check of the action list; a deletion has none. -/
def validateActs (run : FlowModRun) (add : Bool) : ActsVerdict :=
  match (if add then run.node.cmd.validateActs else none) with
  | none => ⟨0, run.actions, run.args⟩
  | some validate => validate (some run.flow) (some run.mask) run.actions false run.checkArgs

/-- The test at `loop_mtable`, `none` when it refuses. -/
def allowed (run : FlowModRun) (add : Bool) (table : Nat) : Option FlowModRun :=
  if run.node.debugFlag then some run
  else if !run.node.portValid run.flow run.mask || !run.node.tableValid table then none
  else
    let verdict := run.validateActs add
    if verdict.ret ≠ 0 then none
    else some { run with actions := verdict.actions, args := verdict.args }

/-- The parameters of one round. -/
def params (run : FlowModRun) (msg : FlowModMsg) (app : App) : FlowModParams where
  appOwner := app
  flow := run.flow
  mask := run.mask
  actions := run.actions
  bufferId := msg.bufferId
  prio := msg.priority
  itimeo := msg.itimeo
  htimeo := msg.htimeo
  flags := setFlag msg.flags flEntTblPhys
  cookie := msg.cookie
  seqCookie := msg.seqCookie
  meterDep := run.args.meterList
  grpDep := run.args.grpList

end FlowModRun

/-- `of_send_flow_add_direct`. -/
def sendFlowAddDirect (sw : Switch) (p : FlowModParams) : Switch :=
  if sw.master then
    sw.switchTx [.flowMod (sw.ofpCtors.flowAdd p.flow p.mask p.bufferId p.actions p.itimeo p.htimeo
      p.prio 0 false)]
  else sw

/-- `of_send_flow_del_direct`, as the command handler calls it. -/
def sendFlowDelDirect (sw : Switch) (p : FlowModParams) (oport ogroup : BitVec 32) : Switch :=
  if sw.master then
    sw.switchTx [.flowMod (sw.ofpCtors.flowDel p.flow p.mask ((oport.setWidth 16).setWidth 32)
      false p.prio ogroup)]
  else sw

/-- What one round asks of the switch. -/
def flowModRequest (msg : FlowModMsg) (p : FlowModParams) (now : Nat) (sw : Switch) :
    Switch × Int :=
  if msg.has flEntNocache then
    (if msg.add then sendFlowAddDirect sw p else sendFlowDelDirect sw p msg.oport msg.ogroup, 0)
  else if msg.add then flowRuleAdd sw p now
  else flowRuleDel sw p

/-- One round from `loop_mtable` on, `none` when the test refuses. -/
def flowModRound (msg : FlowModMsg) (app : App) (now table : Nat) (run : FlowModRun) :
    FlowModRun × Option Int :=
  match run.allowed msg.add table with
  | none => (run, none)
  | some checked =>
    let (sw, ret) := flowModRequest msg (checked.params msg app) now checked.node.sw
    ({ checked with node.sw := sw }, some ret)

/-- Whether a command goes on to the tables above. -/
def replicates (msg : FlowModMsg) (sw : Switch) : Bool :=
  msg.has flEntLocal && sw.ofpCtors.multiTableSupport

/-- A further round. The dependency lists were freed and not cleared. -/
def FlowModRun.nextTable (run : FlowModRun) (table : Nat) : FlowModRun :=
  { run with
    flow.tableId := BitVec.ofNat 8 table
    heapFault := run.heapFault || run.args.grpList != [] || run.args.meterList != [] }

/-- All rounds of a command: the requested table and the tables above it. -/
def flowModRounds (msg : FlowModMsg) (app : App) (now table : Nat) :
    List Nat → FlowModRun → FlowModRun × Option Int
  | [], run => flowModRound msg app now table run
  | next :: above, run =>
    match flowModRound msg app now table run with
    | (done, some ret) =>
      if ret = 0 && replicates msg done.node.sw then
        flowModRounds msg app now next above (done.nextTable next)
      else (done, some ret)
    | refused => refused

/-- The flow and mask a command works with, or the error of `normalize_flow`. -/
def normalizeMsg (node : CtrlSwitch) (msg : FlowModMsg) : Except Int (Flow × Flow) :=
  match node.cmd.normalizeFlow with
  | none => .ok (msg.flow, msg.mask)
  | some normalize =>
    let norm := normalize msg.flow msg.mask
    if norm.ret < 0 then .error norm.ret else .ok (norm.fl, norm.mask)

/-- The physical table of a command. -/
def physTable (node : CtrlSwitch) (msg : FlowModMsg) (flow : Flow) : Byte :=
  if msg.has flEntTblPhys then flow.tableId else node.getV2pTbl flow.tableId

/-- The locals when `loop_mtable` is reached first. -/
def FlowModRun.start (node : CtrlSwitch) (msg : FlowModMsg) (flow mask : Flow) : FlowModRun :=
  let table := physTable node msg flow
  { node, mask, actions := msg.actions
    flow := { flow with tableId := table }
    args := { tblProp := node.props table.toNat } }

/-- The rounds of a command on its switch. -/
def flowModOnSwitch (node : CtrlSwitch) (msg : FlowModMsg) (app : App) (now : Nat)
    (flow mask : Flow) (sw : Switch) : Switch × Option Int × Bool :=
  let start := FlowModRun.start { node with sw } msg flow mask
  let table := start.flow.tableId.toNat
  let (done, ret) := flowModRounds msg app now table (start.node.tablesAbove table) start
  (done.node.sw, ret, done.heapFault)

namespace Controller

/-- The switch a flow-mod is for. -/
def flowModSwitch (ctrl : Controller) (msg : FlowModMsg) : Option (Nat × CtrlSwitch) :=
  ctrl.deref (if msg.has flEntSwalias then ctrl.swIpool msg.swAlias
    else ctrl.swHashTbl msg.datapathId)

/-- `c_app_flow_mod_wrk_command`. Early returns keep the references taken by then. The number is
the result that `RETURN_APP_FL_ERR` reports. An application in the process is returned it; to
remote and auxiliary ones it is sent as success or error, and the call returns 0. -/
def appFlowModWrkCommand (ctrl : Controller) (appArg : App) (msg : FlowModMsg) (now : Nat) :
    Controller × Int :=
  if msg.allWildcard then (ctrl, -1)
  else
    match ctrl.flowModSwitch msg with
    | none => (ctrl, -1)
    | some (pos, node) =>
      let (held, app) := (ctrl.switchGet pos).commandApp appArg
      if msg.badFlags then (held, -1)
      else
        match normalizeMsg node msg with
        | .error ret => (held, ret)
        | .ok (flow, mask) =>
          let (done, ret, fault) :=
            held.onSwitch pos node (flowModOnSwitch node msg app now flow mask)
          let left := (done.switchPut pos).markFault fault
          match ret with
          | none => (left, -1)
          | some ret => (left.dropApp appArg app, ret)

/-- `c_app_worq_tx`: whether the command was queued, was refused, or has to be
handled at once. -/
def appWorqTx (ctrl : Controller) (app : App) (dpid : BitVec 64) : Int :=
  match ctrl.deref (ctrl.swHashTbl dpid) with
  | none => -1
  | some (pos, _) => if ctrl.wqDead app pos then 1 else 0

/-- `c_app_flow_mod_command`, with the result it reports and the command it leaves
in the queue of the switch's thread. -/
def appFlowModCommand (ctrl : Controller) (app : App) (msg : FlowModMsg) (now : Nat) :
    (Controller × Int) × Option FlowModMsg :=
  if !msg.whole then ((ctrl, -1), none)
  else if msg.has flNoAck then
    let sent := ctrl.appWorqTx app msg.datapathId
    if sent ≤ 0 then ((ctrl, 1), if sent = 0 then some msg else none)
    else (ctrl.appFlowModWrkCommand app msg now, none)
  else (ctrl.appFlowModWrkCommand app msg now, none)

/-- `__mul_app_workq_handler` on a command in the queue: the sender is not known there. -/
def mulAppWorkqHandler (ctrl : Controller) (msg : FlowModMsg) (now : Nat) : Controller :=
  (ctrl.appFlowModWrkCommand 0 msg now).1

end Controller

end OpenMul
