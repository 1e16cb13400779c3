import OpenMul.Lib.Multigraph

namespace OpenMul.Topo

open Lib

abbrev Dpid := BitVec 64

abbrev PortNo := BitVec 16

/-- A port of the network. -/
abbrev PortId := Dpid × PortNo

/-- `MUL_LLDP_INV_DPID`. -/
def invDpid : Dpid := 0xffffffffffffffff

def maxSwitchesPerCluster : Nat := 512

def ofppMax : PortNo := 0xff00

inductive LldpPortStatus where
  | init
  | neighbor
  | external
  deriving DecidableEq, Repr

/-- `enum loop_port_status`. -/
inductive LoopPortStatus where
  | init
  | none
  | dp
  | rp
  | ndp
  | dpN
  deriving DecidableEq, Repr

/-- `lldp_port_t`, the part that discovery writes. -/
structure LldpPort where
  portNo : PortNo
  status : LldpPortStatus := .init
  neighborPort : PortNo := 0
  neighborDpid : Dpid := 0
  deriving DecidableEq, Repr

/-- `lldp_switch_t`, the part that discovery writes. For each neighbour the
table `neighbors` lists the ports that lead to it, oldest first. -/
structure LldpSwitch where
  dpid : Dpid
  aliasId : Nat
  ports : List LldpPort
  neighbors : List (Dpid × List LldpPort)
  deriving DecidableEq, Repr

variable {sw : LldpSwitch} {dpid : Dpid} {port : LldpPort}

namespace LldpSwitch

/-- `__lldp_port_find`. -/
def portFind (sw : LldpSwitch) (portNo : PortNo) : Option LldpPort :=
  sw.ports.find? fun port => port.portNo == portNo

/-- The ports of the neighbour entry, if there is one. -/
def portsTo (sw : LldpSwitch) (dpid : Dpid) : List LldpPort :=
  ((sw.neighbors.find? fun entry => entry.1 == dpid).map Prod.snd).getD []

theorem exists_of_mem_portsTo (listed : port ∈ sw.portsTo dpid) :
    ∃ entry ∈ sw.neighbors, entry.1 = dpid ∧ port ∈ entry.2 := by
  unfold portsTo at listed
  cases found : sw.neighbors.find? fun entry => entry.1 == dpid with
  | none => simp [found] at listed
  | some entry =>
    have key : entry.1 = dpid := by simpa using List.find?_some found
    rw [found, Option.map_some] at listed
    exact ⟨entry, List.mem_of_find?_eq_some found, key, listed⟩

end LldpSwitch

/-- `back` is the far end of `port`, and the other way round. -/
def FarEnd (sw : LldpSwitch) (port : LldpPort) (other : LldpSwitch) (back : LldpPort) : Prop :=
  other.dpid = port.neighborDpid ∧ back.portNo = port.neighborPort ∧ back.status = .neighbor ∧
    back.neighborDpid = sw.dpid ∧ back.neighborPort = port.portNo ∧
    (other.dpid, back.portNo) ≠ (sw.dpid, port.portNo)

instance (sw : LldpSwitch) (port : LldpPort) (other : LldpSwitch) (back : LldpPort) :
    Decidable (FarEnd sw port other back) := by
  unfold FarEnd
  infer_instance

/-- A topology with symmetric adjacency. No switch has the dpid that stands for
none. Ports are numbered from 1, as the OpenFlow headers say, and up to
`OFPP_MAX`, beyond which none is added. -/
structure Topology where
  switches : List LldpSwitch
  dpids : (switches.map LldpSwitch.dpid).Nodup
  aliases : (switches.map LldpSwitch.aliasId).Nodup
  valid : ∀ sw ∈ switches, sw.dpid ≠ invDpid ∧ sw.aliasId < maxSwitchesPerCluster
  portNos : ∀ sw ∈ switches, (sw.ports.map LldpPort.portNo).Nodup
  numbered : ∀ sw ∈ switches, ∀ port ∈ sw.ports, port.portNo ≠ 0 ∧ port.portNo ≤ ofppMax
  symmetric : ∀ sw ∈ switches, ∀ port ∈ sw.ports, port.status = .neighbor →
    ∃ other ∈ switches, ∃ back ∈ other.ports, FarEnd sw port other back
  /-- The neighbour table lists exactly the connected ports. -/
  listed : ∀ sw ∈ switches, ∀ port ∈ sw.ports, port.status = .neighbor →
    port ∈ sw.portsTo port.neighborDpid
  connected : ∀ sw ∈ switches, ∀ entry ∈ sw.neighbors, ∀ port ∈ entry.2,
    port ∈ sw.ports ∧ port.status = .neighbor ∧ port.neighborDpid = entry.1

private theorem find?_key_iff [DecidableEq Key] {list : List Item}
    (distinct : (list.map key).Nodup) {wanted : Key} :
    (list.find? fun other => key other == wanted) = some item ↔ item ∈ list ∧
      key item = wanted := by
  constructor
  · intro found
    exact ⟨List.mem_of_find?_eq_some found, by simpa using List.find?_some found⟩
  · rintro ⟨member, rfl⟩
    have present : (list.find? fun other => key other == key item).isSome := by
      rw [List.find?_isSome]
      exact ⟨item, member, by simp⟩
    obtain ⟨found, eq⟩ := Option.isSome_iff_exists.mp present
    have same : key found = key item := by simpa using List.find?_some eq
    rw [eq, List.inj_on_of_nodup_map distinct (List.mem_of_find?_eq_some eq) member same]

namespace Topology

variable (topo : Topology)

/-- `__fetch_and_retain_switch`. -/
def fetchSwitch (dpid : Dpid) : Option LldpSwitch := topo.switches.find? fun sw => sw.dpid == dpid

/-- `lldp_get_switch_from_imap`. -/
def switchFromImap (node : Nat) : Option LldpSwitch := topo.switches.find? fun sw =>
    sw.aliasId == node

/-- `__lldp_get_max_switch_alias`, which is -1 without switches. -/
def maxSwAlias : Option Nat := (topo.switches.map LldpSwitch.aliasId).max?

/-- The port at the other end of a link. -/
def partner (port : PortId) : PortId :=
  match (topo.fetchSwitch port.1).bind fun sw => sw.portFind port.2 with
  | some record => (record.neighborDpid, record.neighborPort)
  | none => port

/-- The port is an end of a discovered link. -/
def Linked (port : PortId) : Prop :=
  ∃ sw ∈ topo.switches, ∃ record ∈ sw.ports, record.status = .neighbor ∧
    port = (sw.dpid, record.portNo)

variable {topo}

theorem fetchSwitch_iff : topo.fetchSwitch dpid = some sw ↔ sw ∈ topo.switches ∧ sw.dpid = dpid :=
  find?_key_iff topo.dpids

theorem switchFromImap_iff :
    topo.switchFromImap node = some sw ↔ sw ∈ topo.switches ∧ sw.aliasId = node :=
  find?_key_iff topo.aliases

theorem eq_of_dpid (one : first ∈ topo.switches) (two : second ∈ topo.switches)
    (same : first.dpid = second.dpid) : first = second :=
  List.inj_on_of_nodup_map topo.dpids one two same

theorem portFind_iff (member : sw ∈ topo.switches) {portNo : PortNo} :
    sw.portFind portNo = some port ↔ port ∈ sw.ports ∧ port.portNo = portNo :=
  find?_key_iff (topo.portNos sw member)

theorem mem_portsTo (member : sw ∈ topo.switches) :
    port ∈ sw.portsTo dpid ↔ port ∈ sw.ports ∧ port.status = .neighbor ∧
      port.neighborDpid = dpid := by
  constructor
  · intro inside
    obtain ⟨entry, found, rfl, listed⟩ := LldpSwitch.exists_of_mem_portsTo inside
    exact topo.connected sw member entry found port listed
  · rintro ⟨present, linked, rfl⟩
    exact topo.listed sw member port present linked

theorem partner_eq (member : sw ∈ topo.switches) (present : port ∈ sw.ports) :
    topo.partner (sw.dpid, port.portNo) = (port.neighborDpid, port.neighborPort) := by
  simp [partner, fetchSwitch_iff.mpr ⟨member, rfl⟩, (portFind_iff member).mpr ⟨present, rfl⟩]

theorem linked_partner {port : PortId} (linked : topo.Linked port) :
    topo.Linked (topo.partner port) ∧ topo.partner (topo.partner port) = port ∧
      topo.partner port ≠ port := by
  obtain ⟨sw, member, record, present, connected, rfl⟩ := linked
  obtain ⟨other, otherMember, back, backPresent, dpid, portNo, status, toDpid, toPort, apart⟩ :=
    topo.symmetric sw member record present connected
  have far : topo.partner (sw.dpid, record.portNo) = (other.dpid, back.portNo) := by
    rw [partner_eq member present, dpid, portNo]
  refine ⟨⟨other, otherMember, back, backPresent, status, far⟩, ?_, ?_⟩
  · rw [far, partner_eq otherMember backPresent, toDpid, toPort]
  · rw [far]
    exact apart

variable (topo)

/-- The discovered links, each seen from its two ports. -/
def links : Multigraph Dpid PortId where
  live := topo.Linked
  tail := Prod.fst
  flip := topo.partner
  flip_live _ linked := (linked_partner linked).1
  flip_flip _ linked := (linked_partner linked).2.1

/-- The discovered links both of whose ports are open. -/
def openLinks (isOpen : PortId → Prop) : Multigraph Dpid PortId where
  live port := topo.Linked port ∧ isOpen port ∧ isOpen (topo.partner port)
  tail := Prod.fst
  flip := topo.partner
  flip_live _ live :=
    ⟨(linked_partner live.1).1, live.2.2, (linked_partner live.1).2.1.symm ▸ live.2.1⟩
  flip_flip _ live := (linked_partner live.1).2.1

end Topology

end OpenMul.Topo
