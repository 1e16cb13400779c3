import OpenMul.Topo.Route

namespace OpenMul.Topo

open Lib

def ofppcNoRecv : BitVec 32 := 0x4
def ofppcNoFlood : BitVec 32 := 0x10
def ofppcNoFwd : BitVec 32 := 0x20

/-- The port configuration `mul_loop_port_mod` writes, with its mask. -/
def loopPortConfig : LoopPortStatus → BitVec 32 × BitVec 32
  | .init => (ofppcNoRecv ||| ofppcNoFlood, ofppcNoRecv ||| ofppcNoFwd ||| ofppcNoFlood)
  | .none | .dp | .rp => (0, ofppcNoRecv ||| ofppcNoFwd ||| ofppcNoFlood)
  | .dpN | .ndp => (ofppcNoRecv ||| ofppcNoFlood, ofppcNoRecv ||| ofppcNoFlood)

/-- The port receives. -/
def LoopPortStatus.unblocked (status : LoopPortStatus) : Bool :=
  !hasFlag (loopPortConfig status).1 ofppcNoRecv

/-- The states of `next_loop_state`. -/
inductive LoopState where
  | reset
  | rootElect
  | rootCostCalc
  | dpSelect
  | noneSelect
  deriving DecidableEq, Repr

/-- `C_LOOP_STATE_NONE`, `C_LOOP_STATE_LD` and `C_LOOP_STATE_CONV`. -/
inductive LoopConvState where
  | none
  | ld
  | conv
  deriving DecidableEq, Repr

/-- `topo_hdl_t` with the loop fields of its switches and ports, its routing
matrices, and the port-mods and convergence notices it has sent. -/
structure TopoHdl where
  topo : Topology
  loopStatus : PortId → LoopPortStatus := fun _ => .init
  commitLoopStatus : PortId → LoopPortStatus := fun _ => .init
  holdTime : PortId → Nat := fun _ => 0
  rootPathCost : Dpid → Int := fun _ => 0
  rt : RtApsp
  loopTrigger : Bool := false
  loopEn : Bool := false
  rootDpid : Dpid := invDpid
  nextLoopState : LoopState := .reset
  loopBlocked : Bool := false
  rootSw : Option LldpSwitch := none
  loopResetOnly : Bool := false
  loopConvState : LoopConvState := .none
  heldPorts : Nat := 0
  clrPorts : Nat := 0
  portMods : List (PortId × BitVec 32 × BitVec 32) := []
  notices : List LoopConvState := []

def LldpSwitch.portIds (sw : LldpSwitch) : List PortId := sw.ports.map fun port =>
    (sw.dpid, port.portNo)

def loopPortHoldTimeo : Nat := 2

/-- `mul_loop_port_mod`. -/
def loopPortMod (hdl : TopoHdl) (port : PortId) (status : LoopPortStatus) : TopoHdl :=
  { hdl with portMods := hdl.portMods ++ [(port, loopPortConfig status)] }

/-- What the switch was last told about a port. -/
def TopoHdl.lastPortMod (hdl : TopoHdl) (port : PortId) : Option (BitVec 32 × BitVec 32) :=
  (hdl.portMods.reverse.find? fun sent => sent.1 == port).map Prod.snd

/-- The common end of `__mul_loop_port_update`. -/
def loopPortSet (hdl : TopoHdl) (port : PortId) (status : LoopPortStatus) : TopoHdl :=
  { loopPortMod hdl port status with loopStatus := Function.update hdl.loopStatus port status }

/-- `__mul_loop_port_update` for `LOOP_PORT_STATUS_NONE`: the port is held back
until its hold time is over. -/
def loopPortUpdateNone (now : Nat) (hdl : TopoHdl) (port : PortId) : TopoHdl :=
  let committed := { hdl with commitLoopStatus := Function.update hdl.commitLoopStatus port .none }
  if hdl.holdTime port = 0 ∨ now ≤ hdl.holdTime port + loopPortHoldTimeo then
    if hdl.holdTime port = 0 then
      { committed with holdTime := Function.update hdl.holdTime port now }
    else committed
  else loopPortSet { committed with holdTime := Function.update hdl.holdTime port 0 } port .none

/-- `__mul_loop_port_update`. -/
def loopPortUpdate (now : Nat) (hdl : TopoHdl) (port : PortId) (status : LoopPortStatus) :
    TopoHdl :=
  if status = .none then loopPortUpdateNone now hdl port else loopPortSet hdl port status

/-- `mul_loop_rt_neigh_conn_update` for a port and the switch at its far end. -/
def loopRtNeighConnUpdate (hdl : TopoHdl) (sw : LldpSwitch) (port : LldpPort) (neigh : LldpSwitch) :
    TopoHdl :=
  { hdl with
    rt := routeApspAddNeighConn hdl.rt sw.aliasId neigh.aliasId
      ⟨port.portNo, port.neighborPort, ⊤, setFlag neighFlOnlink neighFlBlock⟩ true }

/-- `mul_per_switch_loop_reset`. No port-mod is sent. -/
def perSwitchLoopReset (hdl : TopoHdl) (sw : LldpSwitch) : TopoHdl :=
  { hdl with
    rootPathCost := Function.update hdl.rootPathCost sw.dpid 0
    loopStatus :=
      sw.portIds.foldl (fun status port => Function.update status port .init) hdl.loopStatus }

/-- `__mul_loop_detect_state_reset`. -/
def loopDetectStateReset (hdl : TopoHdl) : TopoHdl :=
  { hdl.topo.switches.foldl perSwitchLoopReset { hdl with rootDpid := invDpid } with
    loopTrigger := hdl.loopResetOnly || hdl.loopTrigger
    loopBlocked := hdl.loopResetOnly || hdl.loopBlocked
    nextLoopState := .rootElect }

/-- The fold of `mul_root_per_switch_elect`: the least dpid with a port. -/
def rootElect (topo : Topology) : Dpid :=
  topo.switches.foldl (fun least sw => if sw.dpid < least ∧ sw.ports ≠ [] then sw.dpid else least)
    invDpid

/-- `__mul_loop_detect_root_select`. -/
def loopDetectRootSelect (now : Nat) (hdl : TopoHdl) : TopoHdl :=
  let least := rootElect hdl.topo
  match if least = invDpid then none else hdl.topo.fetchSwitch least with
  | none => { hdl with rootSw := none, rootDpid := invDpid, nextLoopState := .noneSelect }
  | some root =>
    root.portIds.foldl (fun hdl port => loopPortUpdate now hdl port .dp)
      { hdl with rootSw := some root, rootDpid := least, nextLoopState := .rootCostCalc }

/-- `mul_route_cost_calc`: the cost, and the first port number that is not 0. -/
def routeCostCalc (route : Route) : Int × PortNo :=
  route.foldl (fun found elem => (found.1 + 10, if found.2 = 0 then elem.link.la else found.2))
    (0, 0)

/-- `mul_per_switch_rp_calc`. -/
def perSwitchRpCalc (now : Nat) (root : LldpSwitch) (hdl : TopoHdl) (sw : LldpSwitch) : TopoHdl :=
  if sw.dpid = root.dpid then hdl
  else
    match trGetRoute hdl.topo hdl.rt sw.aliasId root.aliasId with
    | none =>
      sw.portIds.foldl (fun hdl port => loopPortUpdate now hdl port .none)
        { hdl with rootPathCost := Function.update hdl.rootPathCost sw.dpid (-1) }
    | some route =>
      let cost := routeCostCalc route
      let costed := { hdl with rootPathCost := Function.update hdl.rootPathCost sw.dpid cost.1 }
      match sw.portFind cost.2 with
      | none => costed
      | some port => loopPortUpdate now costed (sw.dpid, port.portNo) .rp

/-- `__mul_loop_detect_root_cost_calc`. -/
def loopDetectRootCostCalc (now : Nat) (hdl : TopoHdl) : TopoHdl :=
  match hdl.rootSw with
  | none => { hdl with rootDpid := invDpid, nextLoopState := .noneSelect }
  | some root =>
    { hdl.topo.switches.foldl (perSwitchRpCalc now root) hdl with nextLoopState := .dpSelect }

/-- The port and its far end are both shut: `NDP` here, `DP_N` there. -/
def shutBothEnds (now : Nat) (hdl : TopoHdl) (sw : LldpSwitch) (port : LldpPort)
    (neigh : LldpSwitch) (back : LldpPort) : TopoHdl :=
  let here :=
    loopRtNeighConnUpdate (loopPortUpdate now hdl (sw.dpid, port.portNo) .ndp) sw port neigh
  loopRtNeighConnUpdate (loopPortUpdate now here (neigh.dpid, back.portNo) .dpN) neigh back sw

/-- Only the port is shut. -/
def shutThisEnd (now : Nat) (hdl : TopoHdl) (sw : LldpSwitch) (port : LldpPort) (neigh : LldpSwitch)
    (status : LoopPortStatus) : TopoHdl :=
  loopRtNeighConnUpdate (loopPortUpdate now hdl (sw.dpid, port.portNo) status) sw port neigh

/-- The verdict of `mul_per_switch_port_dp_calc` once the far end is found. -/
def portDpVerdict (now : Nat) (hdl : TopoHdl) (sw : LldpSwitch) (port : LldpPort)
    (neigh : LldpSwitch) (back : LldpPort) : TopoHdl :=
  match hdl.loopStatus (neigh.dpid, back.portNo) with
  | .rp => loopPortUpdate now hdl (sw.dpid, port.portNo) .dp
  | .dp => shutBothEnds now hdl sw port neigh back
  | .ndp => shutThisEnd now hdl sw port neigh .dpN
  | .dpN => shutThisEnd now hdl sw port neigh .ndp
  | .init | .none =>
    if hdl.rootPathCost sw.dpid < hdl.rootPathCost neigh.dpid then
      shutThisEnd now hdl sw port neigh .dpN
    else if hdl.rootPathCost neigh.dpid < hdl.rootPathCost sw.dpid then
      shutBothEnds now hdl sw port neigh back
    else if sw.dpid ≤ neigh.dpid then shutThisEnd now hdl sw port neigh .dpN
    else shutBothEnds now hdl sw port neigh back

/-- `mul_per_switch_port_dp_calc`. -/
def perSwitchPortDpCalc (now : Nat) (sw : LldpSwitch) (hdl : TopoHdl) (port : LldpPort) : TopoHdl :=
  if port.status = .neighbor ∧ hdl.loopStatus (sw.dpid, port.portNo) ≠ .rp then
    match hdl.topo.fetchSwitch port.neighborDpid with
    | none => hdl
    | some neigh =>
      match neigh.portFind port.neighborPort with
      | none => hdl
      | some back => portDpVerdict now hdl sw port neigh back
  else hdl

/-- `mul_per_switch_dp_calc`. -/
def perSwitchDpCalc (now : Nat) (root : LldpSwitch) (hdl : TopoHdl) (sw : LldpSwitch) : TopoHdl :=
  if sw.dpid = root.dpid then hdl else sw.ports.foldl (perSwitchPortDpCalc now sw) hdl

/-- `__mul_loop_detect_dp_select`, with the recalculation that follows it. -/
def loopDetectDpSelect (now : Nat) (hdl : TopoHdl) : TopoHdl :=
  let selected := match hdl.rootSw with
    | none => { hdl with rootDpid := invDpid, nextLoopState := .noneSelect }
    | some root =>
      { hdl.topo.switches.foldl (perSwitchDpCalc now root) hdl with nextLoopState := .noneSelect }
  { selected with rt := routeApspRecalc selected.topo selected.loopStatus selected.rt }

/-- `mul_per_switch_port_mark_none`. -/
def perSwitchPortMarkNone (now : Nat) (hdl : TopoHdl) (port : PortId) : TopoHdl :=
  if hdl.loopStatus port = .none ∨ hdl.loopStatus port = .init then
    let held := if hdl.holdTime port ≠ 0 then { hdl with heldPorts := hdl.heldPorts + 1 } else hdl
    let marked := loopPortUpdate now held port .none
    if marked.holdTime port = 0 then { marked with clrPorts := marked.clrPorts + 1 } else marked
  else hdl

/-- `mul_per_switch_port_mark_none_lazy`: only ports on hold. -/
def perSwitchPortMarkNoneLazy (now : Nat) (hdl : TopoHdl) (port : PortId) : TopoHdl :=
  if hdl.holdTime port ≠ 0 then perSwitchPortMarkNone now hdl port else hdl

/-- `mul_per_switch_none_select_lazy`. -/
def perSwitchNoneSelectLazy (now : Nat) (hdl : TopoHdl) (sw : LldpSwitch) : TopoHdl :=
  sw.portIds.foldl (perSwitchPortMarkNoneLazy now) hdl

/-- `mul_per_switch_none_select`. -/
def perSwitchNoneSelect (now : Nat) (root : LldpSwitch) (hdl : TopoHdl) (sw : LldpSwitch) :
    TopoHdl :=
  if sw.dpid = root.dpid then hdl else sw.portIds.foldl (perSwitchPortMarkNone now) hdl

/-- `__mul_loop_detect_none_select`. -/
def loopDetectNoneSelect (now : Nat) (hdl : TopoHdl) : TopoHdl :=
  let selected := match hdl.rootSw with
    | none => { hdl with rootDpid := invDpid }
    | some root =>
      { hdl.topo.switches.foldl (perSwitchNoneSelect now root) hdl with rootSw := none }
  { selected with loopBlocked := true, nextLoopState := .reset }

/-- One round of the loop of `mul_loop_detect`. -/
def loopRound (now : Nat) (hdl : TopoHdl) : TopoHdl :=
  match hdl.nextLoopState with
  | .reset => loopDetectStateReset hdl
  | .rootElect => loopDetectRootSelect now hdl
  | .rootCostCalc => loopDetectRootCostCalc now hdl
  | .dpSelect => loopDetectDpSelect now hdl
  | .noneSelect => loopDetectNoneSelect now hdl

/-- The loop of `mul_loop_detect`. It visits its states in order, so five
rounds are enough. -/
def loopRounds (now : Nat) : Nat → TopoHdl → TopoHdl
  | 0, hdl => hdl
  | rounds + 1, hdl => if hdl.loopBlocked then hdl else loopRounds now rounds (loopRound now hdl)

/-- `mul_loop_convergence_state`. -/
def loopConvergenceState (hdl : TopoHdl) (run : Bool) : LoopConvState :=
  if hdl.heldPorts = hdl.clrPorts then .conv else if run then .ld else .none

/-- `mul_loop_detect`. -/
def loopDetect (now : Nat) (hdl : TopoHdl) : TopoHdl :=
  let lazy :=
    hdl.topo.switches.foldl (perSwitchNoneSelectLazy now) { hdl with heldPorts := 0, clrPorts := 0 }
  let triggered := lazy.loopTrigger && lazy.loopEn
  let detected := if triggered
    then loopRounds now 5 { lazy with loopBlocked := false, loopTrigger := false } else lazy
  let reached := loopConvergenceState detected (triggered && !lazy.loopResetOnly)
  { detected with
    loopResetOnly := false
    loopConvState := reached
    notices := if reached ≠ .none ∧ detected.loopConvState ≠ reached
      then detected.notices ++ [reached] else detected.notices }

end OpenMul.Topo
