import Mathlib.Data.List.AList
import OpenMul.Topo.Lldp

namespace OpenMul.Topo

open Lib

/-- `lldp_switch_t` as an allocated record. -/
structure SwitchObj extends SwitchRec where
  dpid : Dpid
  ref : Int := 0

/-- `topo_hdl_t` with the memory of its switches. Once freed memory or a `NULL`
pointer was followed the process is gone. -/
structure CountedHdl where
  heap : Addr → Option SwitchObj := fun _ => none
  switches : AList (fun _ : Dpid => Addr) := ∅
  swImap : Nat → Option Addr := fun _ => none
  maxSwAlias : Int := -1
  crashed : Bool := false

namespace SwitchRec

/-- `lldp_port_add`. -/
def portAdd (sw : SwitchRec) (portNo : PortNo) (addr : Addr) : SwitchRec :=
  if ofppMax < portNo ∨ (sw.ports portNo).isSome then sw
  else sw.setPort { portNo := portNo, addr := addr }

def removePort (sw : SwitchRec) (portNo : PortNo) : SwitchRec :=
  { sw with ports := Function.update sw.ports portNo none }

end SwitchRec

namespace CountedHdl

/-- The switch that the table has for a datapath. -/
def switchAt (hdl : CountedHdl) (dpid : Dpid) : Option SwitchObj :=
  (hdl.switches.lookup dpid).bind hdl.heap

/-- `__lldp_get_max_switch_alias`, where -1 is `none`. -/
def maxSwitchAlias (hdl : CountedHdl) : Option Nat :=
  if hdl.maxSwAlias < 0 then none else some hdl.maxSwAlias.toNat

def setSwitch (hdl : CountedHdl) (addr : Addr) (sw : SwitchObj) : CountedHdl :=
  { hdl with heap := Function.update hdl.heap addr (some sw) }

/-- Write the ports and neighbours of a switch. -/
def modify (hdl : CountedHdl) (addr : Addr) (write : SwitchRec → SwitchRec) : CountedHdl :=
  match hdl.heap addr with
  | none => hdl
  | some sw => hdl.setSwitch addr { sw with toSwitchRec := write sw.toSwitchRec }

/-- `lldp_add_switch_to_imap`; it fails without a change. -/
def addSwitchToImap (hdl : CountedHdl) (aliasId : Int) (addr : Addr) : Option CountedHdl :=
  if aliasId < 0 ∨ (maxSwitchesPerCluster : Int) ≤ aliasId then none
  else if (hdl.swImap aliasId.toNat).isSome then none
  else some { hdl with swImap := Function.update hdl.swImap aliasId.toNat (some addr) }

/-- `lldp_del_switch_from_imap`. -/
def delSwitchFromImap (hdl : CountedHdl) (aliasId : Int) : CountedHdl :=
  if aliasId < 0 ∨ (maxSwitchesPerCluster : Int) ≤ aliasId then hdl
  else { hdl with swImap := Function.update hdl.swImap aliasId.toNat none }

/-- `lldp_switch_unref`. Its ports are freed with a switch; disconnecting them
at this end only writes to the switch itself. -/
def switchUnref (hdl : CountedHdl) (addr : Addr) : CountedHdl :=
  match hdl.heap addr with
  | none => { hdl with crashed := true }
  | some sw =>
    if sw.ref - 1 = 0 then
      { hdl.delSwitchFromImap sw.aliasId with heap := Function.update hdl.heap addr none }
    else hdl.setSwitch addr { sw with ref := sw.ref - 1 }

/-- `lldp_switch_ref`. -/
def switchRef (hdl : CountedHdl) (addr : Addr) : CountedHdl :=
  match hdl.heap addr with
  | none => { hdl with crashed := true }
  | some sw => hdl.setSwitch addr { sw with ref := sw.ref + 1 }

/-- `fetch_and_retain_switch`. -/
def fetchAndRetainSwitch (hdl : CountedHdl) (dpid : Dpid) : Option (Addr × CountedHdl) :=
  (hdl.switches.lookup dpid).map fun addr => (addr, hdl.switchRef addr)

/-- `lldp_switch_add`, with the address that the allocator returns. A switch
that the index map does not take is freed again. -/
def switchAdd (hdl : CountedHdl) (dpid : Dpid) (aliasId : Int) (addr : Addr) : CountedHdl :=
  if (hdl.switches.lookup dpid).isSome then hdl
  else
    match hdl.addSwitchToImap aliasId addr with
    | none => hdl
    | some mapped =>
      { mapped.setSwitch addr { dpid := dpid, aliasId := aliasId, ref := 0 + 1 } with
        switches := mapped.switches.insert dpid addr
        maxSwAlias := if mapped.maxSwAlias < aliasId then aliasId else mapped.maxSwAlias }

/-- `lldp_max_alias_finder`. -/
def maxAliasFinder (hdl : CountedHdl) (addr : Addr) : CountedHdl :=
  match hdl.heap addr with
  | none => { hdl with crashed := true }
  | some sw => if hdl.maxSwAlias < sw.aliasId then { hdl with maxSwAlias := sw.aliasId } else hdl

/-- `__lldp_max_aliasid_reset`. -/
def maxAliasidReset (hdl : CountedHdl) : CountedHdl :=
  hdl.switches.entries.foldl (fun hdl entry => hdl.maxAliasFinder entry.2)
    { hdl with maxSwAlias := -1 }

/-- `lldp_switch_delete`. The table drops its reference to what it removed. -/
def switchDelete (hdl : CountedHdl) (dpid : Dpid) : CountedHdl :=
  let removed :=
    match hdl.switches.lookup dpid with
    | none => hdl
    | some addr => { hdl with switches := hdl.switches.erase dpid }.switchUnref addr
  removed.maxAliasidReset

/-- `lldp_port_add_with_dpid`. -/
def portAdd (hdl : CountedHdl) (dpid : Dpid) (portNo : PortNo) (port : Addr) : CountedHdl :=
  match hdl.fetchAndRetainSwitch dpid with
  | none => hdl
  | some (addr, held) => (held.modify addr fun sw => sw.portAdd portNo port).switchUnref addr

/-- The record of a port, `__lldp_port_find`. -/
def portFind (hdl : CountedHdl) (addr : Addr) (portNo : PortNo) : Option PortRec :=
  (hdl.heap addr).bind fun sw => sw.ports portNo

/-- `lldp_port_disconnect_to_neigh` with `tear_pair` set. -/
def portDisconnectToNeigh (hdl : CountedHdl) (addr : Addr) (port : PortRec) : CountedHdl :=
  if port.status ≠ .neighbor then hdl
  else
    let torn := hdl.modify addr fun sw => sw.portDisconnect port
    match torn.fetchAndRetainSwitch port.neighborDpid with
    | none => torn
    | some (peer, held) =>
      match held.portFind peer port.neighborPort with
      | none => { held with crashed := true }
      | some peerPort => (held.modify peer fun sw => sw.portDisconnect peerPort).switchUnref peer

/-- `lldp_port_mod`. -/
def portMod (hdl : CountedHdl) (dpid : Dpid) (portNo : PortNo) (upDown : Bool) : CountedHdl :=
  if ofppMax < portNo then hdl
  else
    match hdl.fetchAndRetainSwitch dpid with
    | none => hdl
    | some (addr, held) =>
      match held.portFind addr portNo with
      | none => held.switchUnref addr
      | some port =>
        (if upDown then held else held.portDisconnectToNeigh addr port).switchUnref addr

/-- `lldp_port_delete`. -/
def portDelete (hdl : CountedHdl) (dpid : Dpid) (portNo : PortNo) : CountedHdl :=
  if ofppMax < portNo then hdl
  else
    match hdl.fetchAndRetainSwitch dpid with
    | none => { hdl with crashed := true }
    | some (addr, held) =>
      match held.portFind addr portNo with
      | none => held.switchUnref addr
      | some port =>
        let torn := held.portDisconnectToNeigh addr port
        if torn.crashed then torn
        else (torn.modify addr fun sw => sw.removePort portNo).switchUnref addr

/-- `connect_lldp_switch_neigh_pair`. -/
def connectNeighPair (hdl : CountedHdl) (switchId : Dpid) (portId : PortNo) (neighSwitchId : Dpid)
    (neighPortId : PortNo) (ttl : Nat) : CountedHdl :=
  match hdl.fetchAndRetainSwitch switchId with
  | none => hdl
  | some (addr, held) =>
    match held.portFind addr portId with
    | none => held.switchUnref addr
    | some port =>
      (held.modify addr
        fun sw => sw.portConnectToNeigh port neighSwitchId neighPortId ttl).switchUnref addr

/-- `lldp_packet_in_cb` and `lldp_packet_handler`. -/
def packetIn (hdl : CountedHdl) (dpid : Dpid) (inport : BitVec 32) (pkt : LldpPkt) (now : Nat) :
    CountedHdl :=
  if pkt.ethertype = 0x88cc ∧ pkt.valid then
    hdl.connectNeighPair dpid (inport.setWidth 16) pkt.chassisTlvId pkt.portTlvId
      (now + pkt.ttlTlvTtl.toNat)
  else hdl

/-- `__lldp_per_port_timer`. -/
def perPortTimer (hdl : CountedHdl) (now : Nat) (visit : Dpid × PortNo) : CountedHdl :=
  if hdl.crashed then hdl
  else
    match hdl.switches.lookup visit.1 with
    | none => hdl
    | some addr =>
      match hdl.portFind addr visit.2 with
      | none => hdl
      | some port =>
        if port.status = .neighbor ∧ port.ttl ≤ now then hdl.portDisconnectToNeigh addr port
        else hdl

/-- `lldp_update_timer`. -/
def updateTimer (hdl : CountedHdl) (now : Nat) (visits : List (Dpid × PortNo)) : CountedHdl :=
  visits.foldl (fun hdl visit => hdl.perPortTimer now visit) hdl

end CountedHdl

/-- What changes the switch table or works with its switches. A reference can
also be taken and released by others, at any time between two events. -/
inductive CountedEvent where
  | switchAdd (dpid : Dpid) (aliasId : Int) (addr : Addr)
  | switchDelete (dpid : Dpid)
  | portAdd (dpid : Dpid) (portNo : PortNo) (port : Addr)
  | portMod (dpid : Dpid) (portNo : PortNo) (upDown : Bool)
  | portDelete (dpid : Dpid) (portNo : PortNo)
  | packetIn (dpid : Dpid) (inport : BitVec 32) (pkt : LldpPkt) (now : Nat)
  | updateTimer (now : Nat) (visits : List (Dpid × PortNo))
  | retain (dpid : Dpid)
  | release (addr : Addr)

/-- The module and the temporary references that were not released yet. -/
structure CountedRun where
  hdl : CountedHdl := {}
  held : List Addr := []

namespace CountedRun

/-- A reference taken outside of the handlers. -/
def retain (run : CountedRun) (dpid : Dpid) : CountedRun :=
  match run.hdl.fetchAndRetainSwitch dpid with
  | none => run
  | some (addr, hdl) => { hdl := hdl, held := addr :: run.held }

def exec (run : CountedRun) : CountedEvent → CountedRun
  | .switchAdd dpid aliasId addr => { run with hdl := run.hdl.switchAdd dpid aliasId addr }
  | .switchDelete dpid => { run with hdl := run.hdl.switchDelete dpid }
  | .portAdd dpid portNo port => { run with hdl := run.hdl.portAdd dpid portNo port }
  | .portMod dpid portNo upDown => { run with hdl := run.hdl.portMod dpid portNo upDown }
  | .portDelete dpid portNo => { run with hdl := run.hdl.portDelete dpid portNo }
  | .packetIn dpid inport pkt now => { run with hdl := run.hdl.packetIn dpid inport pkt now }
  | .updateTimer now visits => { run with hdl := run.hdl.updateTimer now visits }
  | .retain dpid => run.retain dpid
  | .release addr => { hdl := run.hdl.switchUnref addr, held := run.held.erase addr }

/-- The allocator does not return memory in use, and only a reference that is
held is released. -/
def Possible (run : CountedRun) : CountedEvent → Prop
  | .switchAdd _ _ addr => run.hdl.heap addr = none
  | .release addr => addr ∈ run.held
  | _ => True

instance decidablePossible (run : CountedRun) (event : CountedEvent) :
    Decidable (run.Possible event) :=
  match event with
  | .switchAdd _ _ addr => inferInstanceAs (Decidable (run.hdl.heap addr = none))
  | .release addr => inferInstanceAs (Decidable (addr ∈ run.held))
  | .switchDelete _ | .portAdd .. | .portMod .. | .portDelete .. | .packetIn .. | .updateTimer ..
  | .retain _ =>
    .isTrue trivial

end CountedRun

/-- The module from its start until it crashes. -/
def countedMachine : Machine CountedRun CountedEvent where
  start run := run = {}
  admits run event := run.hdl.crashed = false ∧ run.Possible event
  exec := CountedRun.exec

instance decidableAdmits (run : CountedRun) (event : CountedEvent) :
    Decidable (countedMachine.admits run event) :=
  inferInstanceAs (Decidable (run.hdl.crashed = false ∧ run.Possible event))

end OpenMul.Topo
