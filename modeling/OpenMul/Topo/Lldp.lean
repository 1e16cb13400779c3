import Mathlib.Logic.Function.Basic
import OpenMul.Lib.Machine
import OpenMul.Topo.Topology

namespace OpenMul.Topo

open Lib

/-- Where a record was allocated. -/
abbrev Addr := Nat

/-- `lldp_port_t` as an allocated record. -/
structure PortRec extends LldpPort where
  addr : Addr
  ttl : Nat := 0
  deriving DecidableEq, Repr

/-- `lldp_switch_t` with its two hash tables. The entry of a neighbour lists
pointers to port records. -/
structure SwitchRec where
  aliasId : Int
  ports : PortNo → Option PortRec := fun _ => none
  neighbors : Dpid → Option (List Addr) := fun _ => none

namespace SwitchRec

/-- The ports list of a neighbour, if there is an entry for it. -/
def portsOf (sw : SwitchRec) (dpid : Dpid) : List Addr := (sw.neighbors dpid).getD []

def setPort (sw : SwitchRec) (port : PortRec) : SwitchRec :=
  { sw with ports := Function.update sw.ports port.portNo (some port) }

/-- `lldp_port_connect_to_neigh`. A port that was connected elsewhere stays in
the list of that neighbour. -/
def portConnectToNeigh (sw : SwitchRec) (port : PortRec) (otherId : Dpid) (otherPortId : PortNo)
    (ttl : Nat) : SwitchRec :=
  if port.status = .neighbor ∧ port.neighborDpid = otherId ∧ port.neighborPort = otherPortId then
    sw.setPort { port with ttl := ttl }
  else
    { sw.setPort
        { port with
          status := .neighbor, neighborDpid := otherId, neighborPort := otherPortId
          ttl := ttl } with
      neighbors := Function.update sw.neighbors otherId (some (sw.portsOf otherId ++ [port.addr])) }

/-- The neighbour table without the first pointer to the port in the list of
its neighbour; an entry left empty is removed. -/
def dropNeighbor (sw : SwitchRec) (port : PortRec) : Dpid → Option (List Addr) :=
  match sw.neighbors port.neighborDpid with
  | none => sw.neighbors
  | some listed =>
    Function.update sw.neighbors port.neighborDpid
      (if (listed.erase port.addr).isEmpty then none else some (listed.erase port.addr))

/-- `lldp_port_disconnect_to_neigh` at one end. -/
def portDisconnect (sw : SwitchRec) (port : PortRec) : SwitchRec :=
  if port.status ≠ .neighbor then sw
  else { sw.setPort { port with status := .init } with neighbors := sw.dropNeighbor port }

end SwitchRec

/-- `topo_hdl_t`, the part of the LLDP module. The index map is kept as the set of aliases in use;
after a
`NULL` pointer was followed the process is gone. -/
structure LldpHdl where
  switches : Dpid → Option SwitchRec := fun _ => none
  swImap : Int → Bool := fun _ => false
  crashed : Bool := false

namespace LldpHdl

def setSwitch (hdl : LldpHdl) (dpid : Dpid) (sw : SwitchRec) : LldpHdl :=
  { hdl with switches := Function.update hdl.switches dpid (some sw) }

/-- `lldp_port_disconnect_to_neigh` with `tear_pair` set. The far end is
disconnected from whatever it is connected to; the error message for a far
port that does not exist reads it through the pointer just found `NULL`. -/
def portDisconnectToNeigh (hdl : LldpHdl) (dpid : Dpid) (sw : SwitchRec) (port : PortRec) :
    LldpHdl :=
  if port.status ≠ .neighbor then hdl
  else
    let torn := hdl.setSwitch dpid (sw.portDisconnect port)
    match torn.switches port.neighborDpid with
    | none => torn
    | some peer =>
      match peer.ports port.neighborPort with
      | none => { torn with crashed := true }
      | some peerPort => torn.setSwitch port.neighborDpid (peer.portDisconnect peerPort)

/-- `connect_lldp_switch_neigh_pair`. -/
def connectNeighPair (hdl : LldpHdl) (switchId : Dpid) (portId : PortNo) (neighSwitchId : Dpid)
    (neighPortId : PortNo) (ttl : Nat) : LldpHdl :=
  match hdl.switches switchId with
  | none => hdl
  | some sw =>
    match sw.ports portId with
    | none => hdl
    | some port => hdl.setSwitch switchId (sw.portConnectToNeigh port neighSwitchId neighPortId ttl)

end LldpHdl

/-- `lldp_pkt_t`, in host byte order; the lengths of its fields are not read. -/
structure LldpPkt where
  ethertype : BitVec 16
  chassisTlvType : BitVec 7
  chassisTlvSubtype : BitVec 8
  chassisTlvId : Dpid
  portTlvType : BitVec 7
  portTlvSubtype : BitVec 8
  portTlvId : PortNo
  ttlTlvType : BitVec 7
  ttlTlvTtl : BitVec 16
  endOfLldpduTlvType : BitVec 7
  deriving DecidableEq, Repr

namespace LldpPkt

def chassisIdTlv : BitVec 7 := 1

def portIdTlv : BitVec 7 := 2

def ttlTlv : BitVec 7 := 3

def endOfLldpduTlv : BitVec 7 := 0

/-- `LLDP_CHASSIS_ID_LOCALLY_ASSIGNED` and `LLDP_PORT_ID_LOCALLY_ASSIGNED`. -/
def locallyAssigned : BitVec 8 := 7

/-- The validity check of `lldp_packet_handler`. -/
def valid (pkt : LldpPkt) : Bool :=
  pkt.chassisTlvType == chassisIdTlv && pkt.chassisTlvSubtype == locallyAssigned &&
    pkt.portTlvType == portIdTlv && pkt.portTlvSubtype == locallyAssigned &&
    pkt.ttlTlvType == ttlTlv && pkt.endOfLldpduTlvType == endOfLldpduTlv

end LldpPkt

namespace LldpHdl

/-- `lldp_packet_handler`. -/
def packetHandler (hdl : LldpHdl) (receiverId : Dpid) (receiverPort : PortNo) (pkt : LldpPkt)
    (now : Nat) : LldpHdl :=
  if pkt.valid then
    hdl.connectNeighPair receiverId receiverPort pkt.chassisTlvId pkt.portTlvId
      (now + pkt.ttlTlvTtl.toNat)
  else hdl

/-- `lldp_packet_in_cb`, which truncates the port number. -/
def packetIn (hdl : LldpHdl) (dpid : Dpid) (inport : BitVec 32) (pkt : LldpPkt) (now : Nat) :
    LldpHdl :=
  if pkt.ethertype = 0x88cc then hdl.packetHandler dpid (inport.setWidth 16) pkt now else hdl

/-- `lldp_switch_add`. -/
def switchAdd (hdl : LldpHdl) (dpid : Dpid) (aliasId : Int) : LldpHdl :=
  if (hdl.switches dpid).isSome then hdl
  else if aliasId < 0 ∨ (maxSwitchesPerCluster : Int) ≤ aliasId ∨ hdl.swImap aliasId then hdl
  else { hdl.setSwitch dpid { aliasId := aliasId } with
           swImap := Function.update hdl.swImap aliasId true }

/-- `lldp_switch_delete`; the last reference frees the switch with its tables. -/
def switchDelete (hdl : LldpHdl) (dpid : Dpid) : LldpHdl :=
  match hdl.switches dpid with
  | none => hdl
  | some sw =>
    { hdl with
      switches := Function.update hdl.switches dpid none
      swImap := Function.update hdl.swImap sw.aliasId false }

/-- `lldp_cleanall_switches`. -/
def cleanallSwitches (hdl : LldpHdl) : LldpHdl :=
  { hdl with switches := fun _ => none, swImap := fun _ => false }

/-- `lldp_port_add_with_dpid`, with the address that the allocator returns. -/
def portAdd (hdl : LldpHdl) (dpid : Dpid) (portNo : PortNo) (addr : Addr) : LldpHdl :=
  match hdl.switches dpid with
  | none => hdl
  | some sw =>
    if ofppMax < portNo ∨ (sw.ports portNo).isSome then hdl
    else hdl.setSwitch dpid (sw.setPort { portNo := portNo, addr := addr })

/-- `lldp_port_mod`; a port that goes up changes no table. -/
def portMod (hdl : LldpHdl) (dpid : Dpid) (portNo : PortNo) (upDown : Bool) : LldpHdl :=
  if ofppMax < portNo then hdl
  else
    match hdl.switches dpid with
    | none => hdl
    | some sw =>
      match sw.ports portNo with
      | none => hdl
      | some port => if upDown then hdl else hdl.portDisconnectToNeigh dpid sw port

/-- `lldp_port_delete`. It does not check that the switch exists. -/
def portDelete (hdl : LldpHdl) (dpid : Dpid) (portNo : PortNo) : LldpHdl :=
  if ofppMax < portNo then hdl
  else
    match hdl.switches dpid with
    | none => { hdl with crashed := true }
    | some sw =>
      match sw.ports portNo with
      | none => hdl
      | some port =>
        let torn := hdl.portDisconnectToNeigh dpid sw port
        if torn.crashed then torn
        else
          { torn with
            switches := Function.update torn.switches dpid ((torn.switches dpid).map fun sw =>
              { sw with ports := Function.update sw.ports portNo none }) }

/-- `__lldp_per_port_timer`: a link that was not refreshed in time is torn. -/
def perPortTimer (hdl : LldpHdl) (now : Nat) (visit : Dpid × PortNo) : LldpHdl :=
  if hdl.crashed then hdl
  else
    match hdl.switches visit.1 with
    | none => hdl
    | some sw =>
      match sw.ports visit.2 with
      | none => hdl
      | some port =>
        if port.status = .neighbor ∧ port.ttl ≤ now then hdl.portDisconnectToNeigh visit.1 sw port
        else hdl

/-- `lldp_update_timer`, visiting the ports in the order of the hash tables. -/
def updateTimer (hdl : LldpHdl) (now : Nat) (visits : List (Dpid × PortNo)) : LldpHdl :=
  visits.foldl (fun hdl visit => hdl.perPortTimer now visit) hdl

end LldpHdl

/-- The events of the module. -/
inductive LldpEvent where
  | switchAdd (dpid : Dpid) (aliasId : Int)
  | switchDelete (dpid : Dpid)
  | cleanallSwitches
  | portAdd (dpid : Dpid) (portNo : PortNo) (addr : Addr)
  | portMod (dpid : Dpid) (portNo : PortNo) (upDown : Bool)
  | portDelete (dpid : Dpid) (portNo : PortNo)
  | packetIn (dpid : Dpid) (inport : BitVec 32) (pkt : LldpPkt) (now : Nat)
  | updateTimer (now : Nat) (visits : List (Dpid × PortNo))

namespace LldpHdl

def handle (hdl : LldpHdl) : LldpEvent → LldpHdl
  | .switchAdd dpid aliasId => hdl.switchAdd dpid aliasId
  | .switchDelete dpid => hdl.switchDelete dpid
  | .cleanallSwitches => hdl.cleanallSwitches
  | .portAdd dpid portNo addr => hdl.portAdd dpid portNo addr
  | .portMod dpid portNo upDown => hdl.portMod dpid portNo upDown
  | .portDelete dpid portNo => hdl.portDelete dpid portNo
  | .packetIn dpid inport pkt now => hdl.packetIn dpid inport pkt now
  | .updateTimer now visits => hdl.updateTimer now visits

/-- The record of a port that exists. -/
def Port (hdl : LldpHdl) (dpid : Dpid) (portNo : PortNo) (port : PortRec) : Prop :=
  ∃ sw, hdl.switches dpid = some sw ∧ sw.ports portNo = some port

/-- What the environment can do: the allocator does not return a record in use,
and the timer visits every port once. -/
def Possible (hdl : LldpHdl) : LldpEvent → Prop
  | .portAdd _ _ addr => ∀ dpid portNo port, hdl.Port dpid portNo port → port.addr ≠ addr
  | .updateTimer _ visits =>
    visits.Nodup ∧ ∀ visit, visit ∈ visits ↔ ∃ port, hdl.Port visit.1 visit.2 port
  | _ => True

end LldpHdl

/-- The module from its start until it crashes. -/
def lldpMachine : Machine LldpHdl LldpEvent where
  start hdl := hdl = {}
  admits hdl event := hdl.crashed = false ∧ hdl.Possible event
  exec := LldpHdl.handle

end OpenMul.Topo
