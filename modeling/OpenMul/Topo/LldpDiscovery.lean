import OpenMul.Topo.LldpInvariant

namespace OpenMul.Topo

open Lib List Function

/-- A statement about a port, the neighbour it has recorded and its `ttl`. -/
abbrev LinkFact := Dpid → PortNo → Dpid → PortNo → Nat → Prop

/-- The ports visited are not due yet, either. -/
abbrev LinkFact.fresh (linked : LinkFact) (now : Nat) (visits : List (Dpid × PortNo)) : LinkFact :=
  fun dpid portNo far farPort ttl => linked dpid portNo far farPort ttl ∧
    ((dpid, portNo) ∈ visits → now < ttl)

/-- What a packet tells its port is a fact. -/
def LldpEvent.Tells (linked : LinkFact) : LldpEvent → Prop
  | .packetIn dpid inport pkt now =>
    linked dpid (inport.setWidth 16) pkt.chassisTlvId pkt.portTlvId (now + pkt.ttlTlvTtl.toNat)
  | _ => True

variable {linked : LinkFact} {hdl : LldpHdl} {dpid : Dpid} {sw : SwitchRec}

namespace SwitchRec

/-- The ports are under their numbers and what the connected ones recorded is a fact. -/
def Links (linked : LinkFact) (dpid : Dpid) (sw : SwitchRec) : Prop :=
  ∀ portNo port, sw.ports portNo = some port → port.portNo = portNo ∧
    (port.status = .neighbor → linked dpid portNo port.neighborDpid port.neighborPort port.ttl)

theorem Links.setPort (links : sw.Links linked dpid) (new : PortRec)
    (fact : new.status = .neighbor →
      linked dpid new.portNo new.neighborDpid new.neighborPort new.ttl)
    (neighbors : Dpid → Option (List Addr)) :
    Links linked dpid { sw.setPort new with neighbors } := by
  intro portNo port present
  rcases update_some_iff.mp present with ⟨rfl, rfl⟩ | ⟨-, old⟩
  · exact ⟨rfl, fact⟩
  · exact links portNo port old

theorem Links.portDisconnect (links : sw.Links linked dpid) (port : PortRec) :
    (sw.portDisconnect port).Links linked dpid := by
  unfold SwitchRec.portDisconnect
  split
  · exact links
  · exact links.setPort { port with status := .init } nofun _

end SwitchRec

namespace LldpHdl

def Links (linked : LinkFact) (hdl : LldpHdl) : Prop :=
  ∀ dpid sw, hdl.switches dpid = some sw → sw.Links linked dpid

section Events

variable (links : Links linked hdl)
include links

theorem Links.setSwitch (new : sw.Links linked dpid) : Links linked (hdl.setSwitch dpid sw) := by
  intro other record found
  rcases update_some_iff.mp found with ⟨rfl, rfl⟩ | ⟨-, old⟩
  · exact new
  · exact links other record old

theorem Links.portDisconnectToNeigh (source : hdl.switches dpid = some sw) (port : PortRec) :
    Links linked (hdl.portDisconnectToNeigh dpid sw port) := by
  unfold LldpHdl.portDisconnectToNeigh
  split
  · exact links
  have torn := links.setSwitch ((links dpid sw source).portDisconnect port)
  dsimp only
  split
  · exact torn
  · rename_i peer target
    split
    · exact torn
    · exact torn.setSwitch ((torn _ peer target).portDisconnect _)

theorem Links.perPortTimer (now : Nat) (visit : Dpid × PortNo) :
    Links linked (hdl.perPortTimer now visit) := by
  unfold LldpHdl.perPortTimer
  repeat' split
  all_goals first | exact links | exact links.portDisconnectToNeigh ‹_› _

theorem Links.handle (event : LldpEvent) (tells : event.Tells linked) :
    Links linked (hdl.handle event) := by
  cases event <;> simp only [LldpHdl.handle, switchAdd, switchDelete, portAdd, portMod, portDelete,
    packetIn, packetHandler, connectNeighPair] <;> repeat' split
  all_goals first | exact links | exact links.portDisconnectToNeigh ‹_› _ | skip
  -- What is left is, event by event, where a table changes.
  · exact links.setSwitch nofun
  · exact fun other sw found => links other sw (update_none_iff.mp found).2
  · exact nofun
  · rename_i dpid portNo addr _ sw source _
    exact links.setSwitch ((links dpid sw source).setPort { portNo, addr } nofun sw.neighbors)
  · rename_i dpid _ _ _ sw source _ port found _
    have torn := links.portDisconnectToNeigh source port
    obtain rfl := (links dpid sw source _ port found).1
    obtain ⟨after, -, target, -⟩ := portDisconnectToNeigh_idle source found
    rw [target]
    exact torn.setSwitch fun _ _ inside => torn dpid after target _ _ (update_none_iff.mp inside).2
  · rename_i dpid _ _ _ _ _ _ sw source _ port found
    have own := links dpid sw source
    have keyed := (own _ port found).1
    apply links.setSwitch
    unfold SwitchRec.portConnectToNeigh
    split
    · rename_i same
      exact own.setPort
        { port with ttl := _ } (fun _ => keyed ▸ same.2.1 ▸ same.2.2 ▸ tells) sw.neighbors
    · exact own.setPort
        { port with status := .neighbor, neighborDpid := _, neighborPort := _, ttl := _ }
        (fun _ => keyed ▸ tells) _
  · exact foldlRecOn _ _ links fun _ links visit _ => links.perPortTimer _ visit

/-- After its visit a port is not due or not connected. -/
theorem Links.visited (now : Nat) (visit : Dpid × PortNo)
    (runs : (hdl.perPortTimer now visit).crashed = false) :
    Links (linked.fresh now [visit]) (hdl.perPortTimer now visit) := by
  intro dpid sw source portNo port found
  obtain ⟨keyed, fact⟩ := links.perPortTimer now visit dpid sw source portNo port found
  refine ⟨keyed, fun connected => ⟨fact connected, fun member => ?_⟩⟩
  cases mem_singleton.mp member
  unfold LldpHdl.perPortTimer at runs source
  have torn := @portDisconnectToNeigh_idle
  unfold Links SwitchRec.Links at links
  grind

theorem Links.updateTimer (now : Nat) (visits : List (Dpid × PortNo))
    (runs : (hdl.updateTimer now visits).crashed = false) :
    Links (linked.fresh now visits) (hdl.updateTimer now visits) := by
  induction visits using reverseRecOn with
  | nil => grind [Links, SwitchRec.Links, LldpHdl.updateTimer]
  | append_singleton rest visit ih =>
    rw [LldpHdl.updateTimer, foldl_append] at runs ⊢
    have before : (hdl.updateTimer now rest).crashed = false := by
      by_contra crashed
      have stuck : (hdl.updateTimer now rest).perPortTimer now visit = hdl.updateTimer now rest :=
        if_pos (Bool.eq_true_of_not_eq_false crashed)
      exact crashed (stuck ▸ runs)
    have visited := (ih before).visited now visit runs
    intro dpid sw source portNo port found
    have facts := visited dpid sw source portNo port found
    grind

theorem Links.execAll (events : List LldpEvent) (tells : ∀ event ∈ events, event.Tells linked) :
    Links linked (lldpMachine.execAll hdl events) :=
  foldlRecOn events _ links fun _ links event member => links.handle event (tells event member)

end Events

end LldpHdl

/-- If ports hear only what the far ends of their cables send, a connected port that the timer has
visited
is cabled to its neighbour and heard it within the last 20 seconds. -/
theorem discovered_links_heard (cable : Dpid → PortNo → Dpid → PortNo → Prop)
    (events : List LldpEvent)
    (genuine : ∀ dpid inport pkt time, .packetIn dpid inport pkt time ∈ events →
      ∃ far farPort, cable far farPort dpid (inport.setWidth 16) ∧ pkt = lldpPktFrom far farPort)
    (runs : (lldpMachine.execAll {} (events ++ [.updateTimer now visits])).crashed = false)
    (found : (lldpMachine.execAll {} (events ++ [.updateTimer now visits])).Port dpid portNo port)
    (connected : port.status = .neighbor) (visited : (dpid, portNo) ∈ visits) :
    cable port.neighborDpid port.neighborPort dpid portNo ∧
      ∃ inport time, inport.setWidth 16 = portNo ∧
      now < time + 20 ∧
        .packetIn dpid inport (lldpPktFrom port.neighborDpid port.neighborPort) time ∈ events := by
  have before : LldpHdl.Links (fun dpid portNo far farPort ttl => cable far farPort dpid portNo ∧
      ∃ inport time, inport.setWidth 16 = portNo ∧ ttl = time + 20 ∧
        .packetIn dpid inport (lldpPktFrom far farPort) time ∈
          events) (lldpMachine.execAll {} events) := by
    refine LldpHdl.Links.execAll (fun _ _ absent => by cases absent) events ?_
    intro event member
    cases event with
    | packetIn dpid inport pkt time =>
      obtain ⟨far, farPort, cabled, rfl⟩ := genuine dpid inport pkt time member
      exact ⟨cabled, inport, time, rfl, rfl, member⟩
    | _ => trivial
  rw [Machine.execAll, foldl_append] at runs found
  obtain ⟨sw, source, present⟩ := found
  obtain ⟨⟨cabled, inport, time, arrived, ttl, sent⟩, fresh⟩ :=
    (before.updateTimer now visits runs dpid sw source portNo port present).2 connected
  exact ⟨cabled, inport, time, arrived, ttl ▸ fresh visited, sent⟩

/-- A port of switch 1 hears switch 2. -/
def linkedEvents : List LldpEvent :=
  [.switchAdd 1 0, .portAdd 1 1 7, .packetIn 1 1 (lldpPktFrom 2 1) 0]

theorem discovered_links_heard_linked :
    ∃ inport time, inport.setWidth 16 = (1 : PortNo) ∧ 5 < time + 20 ∧
    .packetIn 1 inport (lldpPktFrom 2 1) time ∈ linkedEvents := by
  have found : (lldpMachine.execAll {} (linkedEvents ++ [.updateTimer 5 [(1, 1)]])).Port 1 1
      { portNo := 1, addr := 7, status := .neighbor, neighborDpid := 2, neighborPort := 1
        ttl := 20 } :=
    ⟨_, rfl, rfl⟩
  refine (discovered_links_heard (fun far farPort _ _ => far = 2 ∧ farPort = 1) _ ?_ rfl found rfl
    mem_cons_self).2
  intro dpid inport pkt time member
  simp_all [linkedEvents]

end OpenMul.Topo
