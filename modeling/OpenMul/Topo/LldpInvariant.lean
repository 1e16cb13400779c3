import Mathlib.Data.List.Count
import OpenMul.Lib.HashTable
import OpenMul.Topo.Lldp

namespace OpenMul.Topo

open Lib List Function

variable {sw : SwitchRec} {port : PortRec} {portNo : PortNo}

namespace SwitchRec

/-- A port is in the list of a neighbour exactly if it is connected to it, once. -/
structure Consistent (sw : SwitchRec) : Prop where
  connected_iff : ∀ portNo port, sw.ports portNo = some port → ∀ dpid,
    (port.status = .neighbor ∧ port.neighborDpid = dpid ↔ port.addr ∈ sw.portsOf dpid)
  once : ∀ portNo port, sw.ports portNo = some port → ∀ dpid,
    port.addr ∈ sw.portsOf dpid → (sw.portsOf dpid).count port.addr = 1
  elsewhere : ∀ portNo port, sw.ports portNo = some port → ∀ dpid other,
    port.addr ∈ sw.portsOf dpid → other ≠ dpid → port.addr ∉ sw.portsOf other

/-- How often a port is to be in the list of a neighbour. -/
def expected (port : PortRec) (dpid : Dpid) : Nat :=
  if port.status = .neighbor ∧ port.neighborDpid = dpid then 1 else 0

theorem consistent_iff : sw.Consistent ↔ ∀ portNo port, sw.ports portNo = some port → ∀ dpid,
      (sw.portsOf dpid).count port.addr = expected port dpid := by
  constructor
  · intro consistent portNo port found dpid
    unfold expected
    split
    · rename_i connected
      exact consistent.once portNo port found dpid
        ((consistent.connected_iff portNo port found dpid).mp connected)
    · rename_i apart
      exact count_eq_zero.mpr (mt (consistent.connected_iff portNo port found dpid).mpr apart)
  · intro counted
    have iff : ∀ portNo port, sw.ports portNo = some port → ∀ dpid,
        (port.status = .neighbor ∧ port.neighborDpid = dpid ↔ port.addr ∈ sw.portsOf dpid) := by
      intro portNo port found dpid
      rw [← count_pos_iff, counted portNo port found dpid, expected]
      split <;> simp_all
    refine ⟨iff, ?_, ?_⟩
    · intro portNo port found dpid member
      rw [counted portNo port found dpid, expected,
        if_pos ((iff portNo port found dpid).mpr member)]
    · intro portNo port found dpid other member different inside
      have here := ((iff portNo port found dpid).mpr member).2
      have there := ((iff portNo port found other).mpr inside).2
      exact different (there.symm.trans here)

/-- What the handlers keep. -/
structure Sound (sw : SwitchRec) : Prop where
  keyed : ∀ portNo port, sw.ports portNo = some port → port.portNo = portNo
  distinct : ∀ portNo port otherNo other, sw.ports portNo = some port →
    sw.ports otherNo = some other →
    port.addr = other.addr → portNo = otherNo
  live : ∀ dpid addr, addr ∈ sw.portsOf dpid → ∃ portNo port, sw.ports portNo = some port ∧
    port.addr = addr
  counted : ∀ portNo port, sw.ports portNo = some port → ∀ dpid,
    (sw.portsOf dpid).count port.addr = expected port dpid

theorem sound_empty (aliasId : Int) : Sound { aliasId := aliasId } where
  keyed := by simp
  distinct := by simp
  live := by simp [portsOf]
  counted := by simp

/-- Setting one record with the lists that belong to it. No other record has its address. -/
theorem Sound.withPort (sound : sw.Sound) (new : PortRec) (neighbors : Dpid → Option (List Addr))
    (place : ∀ portNo port, sw.ports portNo = some port →
      (port.addr = new.addr ↔ portNo = new.portNo))
    (others : ∀ dpid addr, addr ≠ new.addr →
      ((neighbors dpid).getD []).count addr = (sw.portsOf dpid).count addr)
    (own : ∀ dpid, ((neighbors dpid).getD []).count new.addr = expected new dpid) :
    Sound { sw.setPort new with neighbors := neighbors } := by
  refine ⟨?_, ?_, ?_, ?_⟩
  · intro portNo record present
    rcases update_some_iff.mp present with ⟨rfl, rfl⟩ | ⟨-, old⟩
    · rfl
    · exact sound.keyed portNo record old
  · intro portNo record otherNo other present otherPresent same
    rcases update_some_iff.mp present with ⟨rfl, rfl⟩ | ⟨-, old⟩ <;>
      rcases update_some_iff.mp otherPresent with ⟨rfl, rfl⟩ | ⟨-, otherOld⟩
    · rfl
    · exact ((place _ _ otherOld).mp same.symm).symm
    · exact (place _ _ old).mp same
    · exact sound.distinct _ _ _ _ old otherOld same
  · intro dpid addr member
    by_cases mine : addr = new.addr
    · exact ⟨new.portNo, new, update_self .., mine.symm⟩
    · have earlier : addr ∈ sw.portsOf dpid := by
        rw [← count_pos_iff, ← others dpid addr mine]
        exact count_pos_iff.mpr member
      obtain ⟨portNo, record, present, rfl⟩ := sound.live dpid addr earlier
      exact ⟨portNo, record, (update_of_ne (mt (place _ _ present).mpr mine) ..).trans present, rfl⟩
  · intro portNo record present dpid
    rcases update_some_iff.mp present with ⟨-, rfl⟩ | ⟨different, old⟩
    · exact own dpid
    · exact (others _ _ (mt (place _ _ old).mp different)).trans
        (sound.counted portNo record old dpid)

theorem Sound.place (sound : sw.Sound) (found : sw.ports port.portNo = some port) (otherNo : PortNo)
    (other : PortRec) (present : sw.ports otherNo = some other) :
    other.addr = port.addr ↔ otherNo = port.portNo := by
  refine ⟨sound.distinct _ _ _ _ present found, ?_⟩
  rintro rfl
  exact congrArg PortRec.addr (Option.some_inj.mp (present.symm.trans found))

theorem portsOf_append (sw : SwitchRec) (otherId dpid : Dpid) (addr : Addr) :
    (update sw.neighbors otherId (some (sw.portsOf otherId ++ [addr])) dpid).getD [] =
      if dpid = otherId then sw.portsOf dpid ++ [addr] else sw.portsOf dpid := by
  by_cases here : dpid = otherId
  · subst here
    simp
  · rw [update_of_ne here, if_neg here]
    rfl

/-- A port that moves without having been disconnected. -/
def Moves (port : PortRec) (otherId : Dpid) (otherPortId : PortNo) : Prop :=
  port.status = .neighbor ∧ ¬(port.neighborDpid = otherId ∧ port.neighborPort = otherPortId)

section

variable (sound : sw.Sound) (found : sw.ports port.portNo = some port) {otherId : Dpid}
    {otherPortId : PortNo} (ttl : Nat)
include sound found

theorem Sound.portConnectToNeigh
    (stays : ¬Moves port otherId otherPortId) :
    (sw.portConnectToNeigh port otherId otherPortId ttl).Sound := by
  have place := sound.place found
  unfold SwitchRec.portConnectToNeigh
  split
  · exact sound.withPort { port with ttl := ttl } sw.neighbors place (fun _ _ _ => rfl)
      (sound.counted _ port found)
  · rename_i fresh
    have idle : port.status ≠ .neighbor := fun status =>
      stays ⟨status, fun same => fresh ⟨status, same⟩⟩
    have before : ∀ dpid, (sw.portsOf dpid).count port.addr = 0 := by
      intro dpid
      rw [sound.counted _ port found dpid, expected, if_neg fun connected => idle connected.1]
    refine sound.withPort
      { port with
        status := .neighbor, neighborDpid := otherId, neighborPort := otherPortId, ttl := ttl }
      _ place ?_ ?_
    · intro dpid addr different
      rw [portsOf_append]
      split
      · simp [count_append, different.symm]
      · rfl
    · intro dpid
      rw [portsOf_append, expected]
      by_cases here : dpid = otherId
      · subst here
        simp [count_append, before dpid]
      · simp [here, Ne.symm here, before dpid]

/-- The list of the old neighbour keeps the port, or its list has it twice. -/
theorem Sound.moved_inconsistent (moves : Moves port otherId otherPortId) :
    ¬(sw.portConnectToNeigh port otherId otherPortId ttl).Consistent := by
  intro consistent
  obtain ⟨connected, other⟩ := moves
  unfold SwitchRec.portConnectToNeigh at consistent
  rw [if_neg fun same => other same.2] at consistent
  have once := sound.counted _ port found port.neighborDpid
  rw [expected, if_pos ⟨connected, rfl⟩] at once
  have after : ((update sw.neighbors otherId (some (sw.portsOf otherId ++ [port.addr]))
      port.neighborDpid).getD []).count port.addr = if otherId = port.neighborDpid then 1
        else 0 := by
    have counted :=
      consistent_iff.mp consistent port.portNo _ (by simp [setPort]; rfl) port.neighborDpid
    simpa [expected, portsOf] using counted
  rw [portsOf_append] at after
  by_cases same : port.neighborDpid = otherId
  · rw [if_pos same, if_pos same.symm, count_append, once] at after
    simp at after
  · rw [if_neg same, if_neg (Ne.symm same), once] at after
    cases after

end

theorem portsOf_dropNeighbor (sw : SwitchRec) (port : PortRec) (dpid : Dpid) :
    (sw.dropNeighbor port dpid).getD [] =
      if dpid = port.neighborDpid then (sw.portsOf dpid).erase port.addr else sw.portsOf dpid := by
  unfold dropNeighbor
  cases listed : sw.neighbors port.neighborDpid with
  | none =>
    by_cases here : dpid = port.neighborDpid
    · subst here
      simp [portsOf, listed]
    · rw [if_neg here]
      rfl
  | some addrs =>
    by_cases here : dpid = port.neighborDpid
    · subst here
      simp only [update_self, if_true, portsOf, listed, Option.getD_some]
      split
      · rename_i empty
        rw [Option.getD_none, isEmpty_iff.mp empty]
      · rfl
    · simp only [update_of_ne here, if_neg here]
      rfl

theorem Sound.portDisconnect (sound : sw.Sound)
    (found : sw.ports port.portNo = some port) : (sw.portDisconnect port).Sound := by
  unfold SwitchRec.portDisconnect
  split
  · exact sound
  · rename_i connected
    have status := not_not.mp connected
    have place := sound.place found
    refine sound.withPort { port with status := .init } _ place ?_ ?_
    · intro dpid addr different
      rw [portsOf_dropNeighbor]
      split
      · exact count_erase_of_ne different
      · rfl
    · intro dpid
      have once := sound.counted _ port found dpid
      rw [portsOf_dropNeighbor]
      by_cases here : dpid = port.neighborDpid
      · subst here
        rw [expected, if_pos ⟨status, rfl⟩] at once
        simp [count_erase_self, once, expected]
      · rw [expected, if_neg fun both => here both.2.symm] at once
        simp [here, once, expected]

theorem ports_portDisconnect (sw : SwitchRec) (port : PortRec) (portNo : PortNo) :
    (sw.portDisconnect port).ports portNo =
      if port.status = .neighbor ∧ portNo = port.portNo then some { port with status := .init }
      else sw.ports portNo := by
  unfold SwitchRec.portDisconnect
  by_cases connected : port.status = .neighbor
  · by_cases here : portNo = port.portNo
    · subst here
      simp [connected, setPort]
    · simp [connected, setPort, here]
  · simp [connected]

theorem Sound.addPort (sound : sw.Sound) (free : sw.ports portNo = none)
    (unused : ∀ otherNo other, sw.ports otherNo = some other → other.addr ≠ addr) :
    (sw.setPort { portNo := portNo, addr := addr }).Sound := by
  refine sound.withPort _ sw.neighbors (fun otherNo other present => ?_) (fun _ _ _ => rfl)
    fun dpid => ?_
  · refine iff_of_false (unused otherNo other present) ?_
    rintro rfl
    cases free.symm.trans present
  · -- No list holds the new address, since lists hold records in use.
    refine count_eq_zero.mpr fun member => ?_
    obtain ⟨usedNo, used, usedFound, same⟩ := sound.live dpid addr member
    exact unused usedNo used usedFound same

theorem Sound.removePort (sound : sw.Sound) (found : sw.ports portNo = some port)
    (idle : port.status ≠ .neighbor) : Sound { sw with ports := update sw.ports portNo none } := by
  have kept : ∀ otherNo record, update sw.ports portNo none otherNo = some record →
      sw.ports otherNo = some record := fun _ _ present => (update_none_iff.mp present).2
  refine ⟨fun otherNo record present => sound.keyed _ _ (kept otherNo record present),
    fun _ _ _ _ first second => sound.distinct _ _ _ _ (kept _ _ first) (kept _ _ second), ?_,
    fun otherNo record present => sound.counted _ _ (kept otherNo record present)⟩
  intro dpid addr member
  obtain ⟨otherNo, other, present, rfl⟩ := sound.live dpid addr member
  have different : otherNo ≠ portNo := by
    rintro rfl
    obtain rfl := Option.some_inj.mp (found.symm.trans present)
    have none := sound.counted otherNo port found dpid
    rw [expected, if_neg fun both => idle both.1] at none
    exact count_eq_zero.mp none member
  exact ⟨otherNo, other, update_none_iff.mpr ⟨different, present⟩, rfl⟩

end SwitchRec

variable {dpid : Dpid}

namespace LldpHdl

/-- The neighbour tables of all switches agree with their ports. -/
def Consistent (hdl : LldpHdl) : Prop := ∀ dpid sw, hdl.switches dpid = some sw → sw.Consistent

def Sound (hdl : LldpHdl) : Prop := ∀ dpid sw, hdl.switches dpid = some sw → sw.Sound

theorem Sound.consistent {hdl : LldpHdl} (sound : hdl.Sound) : hdl.Consistent :=
  fun dpid sw found => SwitchRec.consistent_iff.mpr (sound dpid sw found).counted

theorem Sound.setSwitch {hdl : LldpHdl} (sound : hdl.Sound) (new : sw.Sound) :
    (hdl.setSwitch dpid sw).Sound := by
  intro other record found
  rcases update_some_iff.mp found with ⟨-, rfl⟩ | ⟨-, old⟩
  · exact new
  · exact sound other record old

theorem Sound.portDisconnectToNeigh {hdl : LldpHdl} (sound : hdl.Sound)
    (source : hdl.switches dpid = some sw) (found : sw.ports portNo = some port) :
    (hdl.portDisconnectToNeigh dpid sw port).Sound := by
  have near := sound dpid sw source
  have keyed := near.keyed _ _ found
  unfold LldpHdl.portDisconnectToNeigh
  split
  · exact sound
  have torn := @Sound.setSwitch _ dpid _ sound (near.portDisconnect (keyed ▸ found))
  dsimp only
  split
  · exact torn
  · rename_i peer target
    have peerSound := torn _ _ target
    split
    · exact torn
    · rename_i peerPort present
      have keyed := peerSound.keyed _ _ present
      exact torn.setSwitch (peerSound.portDisconnect (keyed ▸ present))

/-- Tearing a link leaves its near end unconnected, also if the far end is on
the same switch. -/
theorem portDisconnectToNeigh_idle {hdl : LldpHdl} (source : hdl.switches dpid = some sw)
    (found : sw.ports port.portNo = some port) :
    ∃ after record, (hdl.portDisconnectToNeigh dpid sw port).switches dpid = some after ∧
      after.ports port.portNo = some record ∧ record.status ≠ .neighbor := by
  unfold LldpHdl.portDisconnectToNeigh
  split
  · rename_i idle
    exact ⟨sw, port, source, found, idle⟩
  rename_i connected
  have status := not_not.mp connected
  have here : (sw.portDisconnect port).ports port.portNo = some { port with status := .init } := by
    rw [SwitchRec.ports_portDisconnect, if_pos ⟨status, rfl⟩]
  have torn : (hdl.setSwitch dpid (sw.portDisconnect port)).switches dpid =
      some (sw.portDisconnect port) := by
    simp [LldpHdl.setSwitch]
  dsimp only
  split
  · exact ⟨_, _, torn, here, by simp⟩
  · rename_i peer target
    split
    · exact ⟨_, _, torn, here, by simp⟩
    · rename_i peerPort _
      by_cases same : port.neighborDpid = dpid
      · rw [same] at target ⊢
        obtain rfl := Option.some_inj.mp (torn.symm.trans target)
        refine ⟨(sw.portDisconnect port).portDisconnect peerPort,
          if peerPort.status = .neighbor ∧ port.portNo = peerPort.portNo then
            { peerPort with status := .init }
          else { port with status := .init },
          by simp [LldpHdl.setSwitch], ?_, ?_⟩
        · rw [SwitchRec.ports_portDisconnect, here]
          split <;> rfl
        · split <;> simp
      · refine ⟨_, _, ?_, here, by simp⟩
        simp [LldpHdl.setSwitch, update_of_ne (Ne.symm same)]

/-- The event is a valid packet on a port that is connected elsewhere. -/
def Moves (hdl : LldpHdl) : LldpEvent → Prop
  | .packetIn dpid inport pkt _ => pkt.ethertype = 0x88cc ∧ pkt.valid = true ∧
      ∃ port, hdl.Port dpid (inport.setWidth 16) port ∧
        SwitchRec.Moves port pkt.chassisTlvId pkt.portTlvId
  | _ => False

section Events

variable {hdl : LldpHdl} (sound : hdl.Sound)
include sound

theorem Sound.switchAdd (dpid : Dpid) (aliasId : Int) : (hdl.switchAdd dpid aliasId).Sound := by
  unfold LldpHdl.switchAdd
  split
  · exact sound
  split
  · exact sound
  · exact sound.setSwitch (SwitchRec.sound_empty aliasId)

theorem Sound.switchDelete (dpid : Dpid) : (hdl.switchDelete dpid).Sound := by
  unfold LldpHdl.switchDelete
  split
  · exact sound
  · exact fun other sw found => sound other sw (update_none_iff.mp found).2

theorem Sound.portAdd (possible : hdl.Possible (.portAdd dpid portNo addr)) :
    (hdl.portAdd dpid portNo addr).Sound := by
  unfold LldpHdl.portAdd
  split
  · exact sound
  · rename_i sw found
    split
    · exact sound
    · rename_i refused
      rw [not_or, Option.not_isSome_iff_eq_none] at refused
      apply sound.setSwitch
      apply (sound dpid sw found).addPort refused.2
      intro otherNo other present
      exact possible dpid otherNo other ⟨sw, found, present⟩

theorem Sound.portMod (dpid : Dpid) (portNo : PortNo) (upDown : Bool) :
    (hdl.portMod dpid portNo upDown).Sound := by
  unfold LldpHdl.portMod
  split
  · exact sound
  split
  · exact sound
  · rename_i sw found
    split
    · exact sound
    · rename_i port present
      split
      · exact sound
      · exact sound.portDisconnectToNeigh found present

theorem Sound.portDelete (dpid : Dpid) (portNo : PortNo) : (hdl.portDelete dpid portNo).Sound := by
  unfold LldpHdl.portDelete
  split
  · exact sound
  split
  · exact sound
  · rename_i sw found
    split
    · exact sound
    · rename_i port present
      obtain rfl := (sound dpid sw found).keyed _ _ present
      have torn := sound.portDisconnectToNeigh found present
      dsimp only
      split
      · exact torn
      · obtain ⟨after, record, target, held, idle⟩ := portDisconnectToNeigh_idle found present
        rw [target]
        exact @Sound.setSwitch _ dpid _ torn ((torn dpid after target).removePort held idle)

theorem Sound.perPortTimer (now : Nat) (visit : Dpid × PortNo) :
    (hdl.perPortTimer now visit).Sound := by
  unfold LldpHdl.perPortTimer
  split
  · exact sound
  split
  · exact sound
  · rename_i sw found
    split
    · exact sound
    · rename_i port present
      split
      · exact sound.portDisconnectToNeigh found present
      · exact sound

theorem Sound.updateTimer (now : Nat) (visits : List (Dpid × PortNo)) :
    (hdl.updateTimer now visits).Sound := by
  apply foldlRecOn visits _ sound
  intro hdl sound visit _
  exact sound.perPortTimer now visit

/-- A packet keeps the tables consistent unless it moves its port. -/
theorem Sound.packetIn (dpid : Dpid) (inport : BitVec 32) (pkt : LldpPkt) (now : Nat) :
    (¬hdl.Moves (.packetIn dpid inport pkt now) → (hdl.packetIn dpid inport pkt now).Sound) ∧
      (hdl.Moves (.packetIn dpid inport pkt now) →
        ¬(hdl.packetIn dpid inport pkt now).Consistent) := by
  unfold LldpHdl.packetIn LldpHdl.packetHandler LldpHdl.connectNeighPair
  by_cases lldp : pkt.ethertype = 0x88cc
  case neg => exact ⟨fun _ => by rwa [if_neg lldp], fun moves => absurd moves.1 lldp⟩
  rw [if_pos lldp]
  by_cases valid : pkt.valid = true
  case neg => exact ⟨fun _ => by rwa [if_neg valid], fun moves => absurd moves.2.1 valid⟩
  rw [if_pos valid]
  cases found : hdl.switches dpid with
  | none =>
    refine ⟨fun _ => sound, fun moves => ?_⟩
    obtain ⟨-, -, port, ⟨sw, other, -⟩, -⟩ := moves
    exact absurd (found.symm.trans other) (by simp)
  | some sw =>
    cases present : sw.ports (inport.setWidth 16) with
    | none =>
      refine ⟨fun _ => by simpa only [present] using sound, fun moves => ?_⟩
      obtain ⟨-, -, port, ⟨other, otherFound, otherPresent⟩, -⟩ := moves
      obtain rfl := Option.some_inj.mp (found.symm.trans otherFound)
      exact absurd (present.symm.trans otherPresent) (by simp)
    | some port =>
      have keyed := (sound dpid sw found).keyed _ _ present
      have own : sw.ports port.portNo = some port := keyed ▸ present
      simp only [present]
      refine ⟨fun stays => ?_, fun moves consistent => ?_⟩
      · apply sound.setSwitch
        apply (sound dpid sw found).portConnectToNeigh own
        exact fun moves => stays ⟨lldp, valid, port, ⟨sw, found, present⟩, moves⟩
      · obtain ⟨-, -, other, ⟨otherSw, otherFound, otherPresent⟩, moves⟩ := moves
        obtain rfl := Option.some_inj.mp (found.symm.trans otherFound)
        obtain rfl := Option.some_inj.mp (present.symm.trans otherPresent)
        apply (sound dpid sw found).moved_inconsistent own (now + pkt.ttlTlvTtl.toNat) moves
        exact consistent dpid _ (by simp [LldpHdl.setSwitch])

/-- One event keeps the tables consistent exactly if it moves no port. -/
theorem Sound.handle_iff (possible : hdl.Possible event) :
    (¬hdl.Moves event → (hdl.handle event).Sound) ∧
      ((hdl.handle event).Consistent ↔ ¬hdl.Moves event) := by
  have still : (hdl.handle event).Sound → ¬hdl.Moves event →
      (¬hdl.Moves event → (hdl.handle event).Sound) ∧
        ((hdl.handle event).Consistent ↔ ¬hdl.Moves event) :=
    fun after stays => ⟨fun _ => after, iff_of_true after.consistent stays⟩
  cases event with
  | switchAdd dpid aliasId => exact still (sound.switchAdd dpid aliasId) id
  | switchDelete dpid => exact still (sound.switchDelete dpid) id
  | cleanallSwitches => exact still (fun _ _ found => by cases found) id
  | portAdd dpid portNo addr => exact still (sound.portAdd possible) id
  | portMod dpid portNo upDown => exact still (sound.portMod dpid portNo upDown) id
  | portDelete dpid portNo => exact still (sound.portDelete dpid portNo) id
  | updateTimer now visits => exact still (sound.updateTimer now visits) id
  | packetIn dpid inport pkt now =>
    obtain ⟨stays, moves⟩ := sound.packetIn dpid inport pkt now
    exact ⟨stays, fun consistent move => moves move consistent, fun no => (stays no).consistent⟩

end Events

end LldpHdl

theorem sound_of_reaches
    (reached : (lldpMachine.restrict fun hdl event => ¬hdl.Moves event).Reaches hdl) :
    hdl.Sound := by
  apply Machine.Reaches.invariant LldpHdl.Sound _ _ reached
  · intro hdl start
    cases start
    exact fun _ _ found => by cases found
  · intro hdl event _ sound admitted
    exact (sound.handle_iff admitted.1.2).1 admitted.2

/-- The tables agree with the ports until a packet arrives on a port connected elsewhere. -/
theorem lldp_tables_consistent {hdl : LldpHdl}
    (reached : (lldpMachine.restrict fun hdl event => ¬hdl.Moves event).Reaches hdl) :
    hdl.Consistent ∧ ∀ event, lldpMachine.admits hdl event →
      ((lldpMachine.exec hdl event).Consistent ↔ ¬hdl.Moves event) := by
  have sound := sound_of_reaches reached
  exact ⟨sound.consistent, fun event admitted => (sound.handle_iff admitted.2).2⟩

/-- The packet that a port of a switch sends. -/
def lldpPktFrom (dpid : Dpid) (portNo : PortNo) : LldpPkt where
  ethertype := 0x88cc
  chassisTlvType := LldpPkt.chassisIdTlv
  chassisTlvSubtype := LldpPkt.locallyAssigned
  chassisTlvId := dpid
  portTlvType := LldpPkt.portIdTlv
  portTlvSubtype := LldpPkt.locallyAssigned
  portTlvId := portNo
  ttlTlvType := LldpPkt.ttlTlv
  ttlTlvTtl := 20
  endOfLldpduTlvType := LldpPkt.endOfLldpduTlv

/-- Switch 1 with a port that has heard nothing yet. -/
def onePortHdl : LldpHdl := (({} : LldpHdl).switchAdd 1 0).portAdd 1 1 7

/-- The port heard switch 2. -/
def linkedHdl : LldpHdl := onePortHdl.packetIn 1 1 (lldpPktFrom 2 1) 0

theorem linkedHdl_reached :
    (lldpMachine.restrict fun hdl event => ¬hdl.Moves event).Reaches linkedHdl := by
  have admitted : (lldpMachine.restrict fun hdl event => ¬hdl.Moves event).AdmitsAll {}
      [.switchAdd 1 0, .portAdd 1 1 7, .packetIn 1 1 (lldpPktFrom 2 1) 0] := by
    refine ⟨⟨⟨rfl, trivial⟩, id⟩, ⟨⟨rfl, ?_⟩, id⟩, ⟨⟨rfl, trivial⟩, ?_⟩, trivial⟩
    · rintro dpid portNo port ⟨sw, found, present⟩
      by_cases here : dpid = 1
      · subst here
        obtain rfl : { aliasId := 0 } = sw := Option.some_inj.mp found
        cases present
      · have absent : (({} : LldpHdl).switchAdd 1 0).switches dpid = none := update_of_ne here ..
        cases absent.symm.trans found
    · rintro ⟨-, -, port, ⟨sw, found, present⟩, connected, -⟩
      obtain rfl := Option.some_inj.mp found
      obtain rfl := Option.some_inj.mp present
      cases connected
  exact (Machine.Reaches.start rfl).execAll admitted

theorem lldp_tables_consistent_linked :
    (lldpMachine.restrict fun hdl event => ¬hdl.Moves event).Reaches linkedHdl ∧
      linkedHdl.Consistent ∧ ∀ event, lldpMachine.admits linkedHdl event →
        ((lldpMachine.exec linkedHdl event).Consistent ↔ ¬linkedHdl.Moves event) :=
  ⟨linkedHdl_reached, lldp_tables_consistent linkedHdl_reached⟩

/-- The port then hears switch 3: it is in both lists. -/
theorem moved_port_in_two_lists : ∃ hdl, lldpMachine.Reaches hdl ∧ ¬hdl.Consistent := by
  have admitted : lldpMachine.AdmitsAll linkedHdl [.packetIn 1 1 (lldpPktFrom 3 1) 0] :=
    ⟨⟨rfl, trivial⟩, trivial⟩
  have moved := linkedHdl_reached.of_restrict.execAll admitted
  refine ⟨_, moved, fun consistent => ?_⟩
  have table := consistent 1 _ rfl
  exact table.elsewhere 1 _ rfl 2 3 (by decide) (by decide) (by decide)

end OpenMul.Topo
