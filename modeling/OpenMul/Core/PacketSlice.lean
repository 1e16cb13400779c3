import OpenMul.Core.OxmVerdict
import OpenMul.Core.PacketIn

namespace OpenMul

open Lib

namespace Extract

/-- Every header looked at lies within the packet. -/
structure InRange (pktLen : Nat) (scan : Extract) : Prop where
  left : scan.remLen ≤ pktLen
  reads : ∀ read ∈ scan.reads, read.1 + read.2 ≤ pktLen

variable {pkt : List Byte} {pktLen : Nat} {scan : Extract}

section

variable (inRange : scan.InRange pktLen)
include inRange

theorem InRange.withFlow (flow : Flow) : InRange pktLen { scan with flow } :=
  ⟨inRange.left, inRange.reads⟩

theorem InRange.past (enough : ¬scan.remLen < size) : (scan.past pktLen size).InRange pktLen := by
  have left := inRange.left
  refine ⟨?_, ?_⟩
  · simp only [Extract.past]
    omega
  · intro read member
    rcases List.mem_cons.mp member with rfl | earlier
    · omega
    · exact inRange.reads read earlier

theorem InRange.vlan
    (passed : scan.vlan pkt pktLen = some next) : next.InRange pktLen := by
  unfold Extract.vlan at passed
  split at passed
  · split at passed
    · cases passed
    · rename_i enough
      cases passed
      exact (inRange.past enough).withFlow _
  · cases passed
    exact inRange

theorem InRange.ports (size : Nat) : (scan.ports pkt pktLen size).InRange pktLen := by
  unfold Extract.ports
  split
  · exact inRange.withFlow _
  · rename_i enough
    exact (inRange.past enough).withFlow _

theorem InRange.ipTransport : (scan.ipTransport pkt pktLen).InRange pktLen := by
  unfold Extract.ipTransport
  split
  · exact inRange.ports _
  split
  · exact inRange.ports _
  split
  · split
    · exact inRange.withFlow _
    · rename_i enough
      exact inRange.past enough
  · exact inRange

theorem InRange.ip : (scan.ip pkt pktLen).2.InRange pktLen := by
  unfold Extract.ip
  split
  · exact inRange
  · rename_i enough
    dsimp only
    split
    · exact (inRange.past enough).withFlow _
    · exact ((inRange.past enough).withFlow _).ipTransport

theorem InRange.arp : (scan.arp pkt pktLen).2.InRange pktLen := by
  unfold Extract.arp
  split
  · exact inRange
  · rename_i enough
    exact (inRange.past enough).withFlow _

theorem InRange.mpls : (scan.mpls pkt pktLen).2.InRange pktLen := by
  unfold Extract.mpls
  split
  · exact inRange
  · rename_i enough
    exact (inRange.past enough).withFlow _

theorem InRange.ipv6 : (scan.ipv6 pkt pktLen).2.InRange pktLen := by
  unfold Extract.ipv6
  split
  · exact inRange
  · rename_i enough
    have after := fun flow => (inRange.past enough).withFlow flow
    dsimp only
    split
    · exact (after _).ports _
    split
    · exact (after _).ports _
    · exact after _

theorem InRange.network : (scan.network pkt pktLen).2.InRange pktLen := by
  unfold Extract.network
  split
  · exact inRange.ip
  split
  · exact inRange.arp
  split
  · exact inRange.mpls
  split
  · exact inRange.ipv6
  · exact inRange

end

end Extract

/-- `of_flow_extract` looks at no header past the length it is given. -/
theorem ofFlowExtract_inRange (pkt : List Byte) (inPort : BitVec 32) (pktLen : Nat)
    (onlyL2 : Bool) : (ofFlowExtract pkt inPort pktLen onlyL2).2.InRange pktLen := by
  have start : Extract.InRange pktLen { flow := { inPort }, remLen := pktLen } :=
    ⟨Nat.le_refl _, fun _ member => absurd member (List.not_mem_nil)⟩
  unfold ofFlowExtract
  dsimp only
  split
  · exact start
  · rename_i enough
    have ethernet := start.past enough
    split
    · exact ethernet
    split
    · exact ethernet
    · rename_i next passed
      have tagged := (ethernet.withFlow _).vlan passed
      split
      · exact tagged.withFlow _
      · exact (tagged.withFlow _).network

theorem extractPacket_inRange (flow : Flow) (data : List Byte) (pktLen : Nat) (onlyL2 : Bool) :
    (extractPacket flow data pktLen onlyL2).2.InRange pktLen := by
  unfold extractPacket
  split
  · refine ⟨Nat.zero_le _, ?_⟩
    intro read member
    cases member
  · exact ofFlowExtract_inRange _ _ _ _

/-- `sizeof` of an OXM match with its padding, by the length in its header. -/
def paddedMatch (message : List Byte) : Nat :=
  cAlign8bLen (wordAt 16 ((message.drop ofp131PacketInMatch).drop 2)).toNat

/-- Where the specification has the packet of a packet-in, if anywhere. -/
def packetPlace : OfpVersion → List Byte → Option Nat
  | .of10, _ => some ofpPacketInData
  | .of131, message =>
    let length := (wordAt 16 ((message.drop ofp131PacketInMatch).drop 2)).toNat
    if length < ofpxMatchHdrSz then none
    else some (ofp131PacketInMatch + ofpxMatchHdrSz + (length - ofpxMatchHdrSz) +
      ((length + 7) / 8 * 8 - length) + 2)

/-- The packet is the rest of the message, and its headers were read inside it. -/
structure PktIn.Sliced (pkt : PktIn) (length : Nat) (place : Option Nat) : Prop where
  inside : pkt.pktOfs ≤ length
  whole : pkt.pktOfs + pkt.pktLen = length
  placed : ∀ ofs, place = some ofs → pkt.pktOfs = ofs
  reads : ∀ read ∈ pkt.reads, read.1 + read.2 ≤ pkt.pktLen

/-- A message has the two bytes behind the match, or is dropped. -/
def RoomForPad : OfpVersion → List Byte → Prop
  | .of10, _ => True
  | .of131, message =>
    message.length < ofp131PacketInSz ∨ message.length < ofp131PacketInMatch + paddedMatch message ∨
      ofp131PacketInMatch + paddedMatch message + 2 ≤ message.length ∨
      (of131OfpxMatchToFlow (message.drop ofp131PacketInMatch)).1 ≠ 0

theorem of10RecvPacketIn_some (handed : of10RecvPacketIn sw mem = some pkt) :
    pkt.pktOfs = ofpPacketInData ∧ pkt.pktLen = sizeT ((ofHdrLength mem : Int) - ofpPacketInData) ∧
      ∀ read ∈ pkt.reads, read.1 + read.2 ≤ pkt.pktLen := by
  unfold of10RecvPacketIn at handed
  dsimp only at handed
  split at handed
  · cases handed
  split at handed
  · cases handed
  split at handed
  · cases handed
  · cases handed
    exact ⟨rfl, rfl, (ofFlowExtract_inRange _ _ _ _).reads⟩

/-- The length of the padded match, less what the record has of it. -/
private theorem matchLen_eq (mem : List Byte) :
    sizeT (ofp131PacketInSz + ((paddedMatch mem : Int) - ofpxMatchSz)) =
      ofp131PacketInMatch + paddedMatch mem ∧
      sizeT (ofp131PacketInSz + ((paddedMatch mem : Int) - ofpxMatchSz) + 2) =
        ofp131PacketInMatch + paddedMatch mem + 2 := by
  have short : paddedMatch mem < 2 ^ 17 := by
    unfold paddedMatch cAlign8bLen
    omega
  have record : (ofp131PacketInSz : Int) = 32 := rfl
  have fixed : ofp131PacketInMatch = 24 := rfl
  have least : (ofpxMatchSz : Int) = 8 := rfl
  refine ⟨sizeT_of_nat ?_ ?_, sizeT_of_nat ?_ ?_⟩ <;> omega

theorem of131RecvPacketIn_some
    (handed : of131RecvPacketIn sw mem = some pkt) :
    ofp131PacketInMatch + paddedMatch mem ≤ ofHdrLength mem ∧
      (of131OfpxMatchToFlow (mem.drop ofp131PacketInMatch)).1 = 0 ∧
      pkt.pktOfs = ofp131PacketInMatch + paddedMatch mem + 2 ∧
      pkt.pktLen = sizeT ((ofHdrLength mem : Int) - pkt.pktOfs) ∧
      (∀ read ∈ pkt.reads, read.1 + read.2 ≤ pkt.pktLen) ∧ pkt.fl.tableId = wordAt 8
    (mem.drop 15) := by
  obtain ⟨least, place⟩ := matchLen_eq mem
  unfold of131RecvPacketIn at handed
  split at handed
  · cases handed
  dsimp only at handed
  rw [show (cAlign8bLen _ : Int) = paddedMatch mem from rfl, least, place] at handed
  split at handed
  · cases handed
  rename_i accepted
  simp only [Bool.or_eq_true, decide_eq_true_eq, not_or, Nat.not_lt, not_not] at accepted
  split at handed
  · cases handed
  split at handed
  · cases handed
  · cases handed
    exact ⟨accepted.1, accepted.2, rfl, rfl, (extractPacket_inRange _ _ _ _).reads, rfl⟩

section Message

variable {message : List Byte} (rest : List Byte)

/-- The header of a whole message does not depend on what follows it. -/
private theorem ofHdrLength_append (header : 4 ≤ message.length) :
    ofHdrLength (message ++ rest) = ofHdrLength message := by
  unfold ofHdrLength
  rw [List.drop_append_of_le_length (by omega), wordAt_append (by rw [List.length_drop]; omega)]

section

variable (record : ofp131PacketInSz ≤ message.length)
include record

private theorem drop_match :
    (message ++ rest).drop ofp131PacketInMatch = message.drop ofp131PacketInMatch ++ rest :=
  List.drop_append_of_le_length (Nat.le_trans (by decide) record)

private theorem paddedMatch_append : paddedMatch (message ++ rest) = paddedMatch message := by
  have room : 8 ≤ (message.drop ofp131PacketInMatch).length := by
    rw [List.length_drop]
    exact Nat.le_sub_of_add_le record
  unfold paddedMatch
  rw [drop_match rest record, List.drop_append_of_le_length (by omega),
    wordAt_append (by rw [List.length_drop]; omega)]

/-- Nor does the verdict about a match that ends within the message. -/
private theorem verdict_append (ends : ofp131PacketInMatch + paddedMatch message ≤ message.length) :
    (of131OfpxMatchToFlow ((message ++ rest).drop ofp131PacketInMatch)).1 =
      (of131OfpxMatchToFlow (message.drop ofp131PacketInMatch)).1 := by
  have fixed : ofp131PacketInMatch = 24 := rfl
  have whole : ofp131PacketInSz = 32 := rfl
  have header : ofpxMatchHdrSz = 4 := rfl
  rw [drop_match rest record]
  apply of131OfpxMatchToFlow_verdict
  · rw [List.length_drop]
    omega
  · rw [List.length_drop]
    unfold paddedMatch cAlign8bLen at ends
    omega

end

end Message

private theorem extractPacket_unknown (flow : Flow)
    (long : ethHeaderLen ≤ pktLen) (type : wordAt 16 (data.drop 12) = 0xffff) :
    (extractPacket flow data pktLen true).1 = 0 := by
  have some : pktLen ≠ 0 := Nat.ne_of_gt (Nat.lt_of_lt_of_le (by decide) long)
  have cutoff : ¬(0xffff : BitVec 16).toNat < ofpDlTypeEth2Cutoff := by decide
  have untagged : ¬(0xffff : BitVec 16) = ethTypeVlan := by decide
  simp only [extractPacket, if_neg some, ofFlowExtract, if_neg (Nat.not_lt.mpr long),
    Extract.nextHdr, Nat.sub_self, List.drop_zero, type, if_neg cutoff, Extract.vlan,
      if_neg untagged, if_true]

/-- A message that passes the checks is handed over if its packet does. -/
private theorem of131RecvPacketIn_handed
    (long : ofp131PacketInMatch + paddedMatch mem ≤ ofHdrLength mem)
    (accepted : (of131OfpxMatchToFlow (mem.drop ofp131PacketInMatch)).1 = 0)
    (cut : sizeT ((ofHdrLength mem : Int) - (ofp131PacketInMatch + paddedMatch mem + 2 : Nat)) =
      length) (packet : ∀ flow,
      (extractPacket flow (mem.drop (ofp131PacketInMatch + paddedMatch mem + 2)) length true).1 =
        0) :
    ∃ pkt, of131RecvPacketIn { onlyL2 := true } mem = some pkt := by
  obtain ⟨least, place⟩ := matchLen_eq mem
  unfold of131RecvPacketIn
  dsimp only
  rw [show (cAlign8bLen _ : Int) = paddedMatch mem from rfl, least, place, cut]
  rw [if_neg (by decide), if_neg (by simp [long, accepted]), if_neg (by decide),
    if_neg (by simp [packet])]
  exact ⟨_, rfl⟩

/-- A message has its header and ends where the header says. -/
structure WholeMessage (message : List Byte) : Prop where
  header : 8 ≤ message.length
  length : ofHdrLength message = message.length

section

variable {message rest : List Byte} {sw : RxState} {pkt : PktIn} (whole : WholeMessage message)
include whole

private theorem of131_sliced (room : RoomForPad .of131 message)
    (handed : switchRecvPacketIn .of131 sw (message ++ rest) = some pkt) :
    pkt.Sliced message.length (packetPlace .of131 message) := by
  have header := whole.header
  have length : ofHdrLength (message ++ rest) = message.length :=
    (ofHdrLength_append rest (by omega)).trans whole.length
  have small : message.length < 2 ^ 16 := whole.length ▸ ofHdrLength_lt message
  simp only [switchRecvPacketIn, length] at handed
  split at handed
  · cases handed
  rename_i long
  have record : ofp131PacketInSz ≤ message.length := Nat.le_of_not_lt long
  obtain ⟨ends, accepted, place, size, reads, _⟩ := of131RecvPacketIn_some handed
  rw [length, paddedMatch_append rest record] at ends
  rw [verdict_append rest record ends] at accepted
  rw [paddedMatch_append rest record] at place
  have padded : ofp131PacketInMatch + paddedMatch message + 2 ≤ message.length := by
    rcases room with short | cut | padded | refused
    · exact absurd short long
    · exact absurd cut (Nat.not_lt.mpr ends)
    · exact padded
    · exact absurd accepted refused
  have rest_length : pkt.pktLen = message.length - pkt.pktOfs := by
    rw [size]
    exact sizeT_of_nat (by omega) (by omega)
  refine ⟨by omega, by omega, ?_, reads⟩
  intro ofs placed
  unfold packetPlace at placed
  dsimp only at placed
  split at placed
  · cases placed
  · rename_i proper
    cases placed
    rw [place]
    unfold paddedMatch cAlign8bLen
    omega

private theorem of10_sliced (handed : switchRecvPacketIn .of10 sw (message ++ rest) = some pkt) :
    pkt.Sliced message.length (packetPlace .of10 message) := by
  have header := whole.header
  have length : ofHdrLength (message ++ rest) = message.length :=
    (ofHdrLength_append rest (by omega)).trans whole.length
  have small : message.length < 2 ^ 16 := whole.length ▸ ofHdrLength_lt message
  have record : ofpPacketInSz = 20 := rfl
  have fixed : ofpPacketInData = 18 := rfl
  simp only [switchRecvPacketIn, length] at handed
  split at handed
  · cases handed
  obtain ⟨place, size, reads⟩ := of10RecvPacketIn_some handed
  have rest_length : pkt.pktLen = message.length - pkt.pktOfs := by
    rw [size]
    exact sizeT_of_nat (by omega) (by omega)
  refine ⟨by omega, by omega, ?_, reads⟩
  intro ofs placed
  cases placed
  exact place

end

/-- Without that room, the packet is taken from behind the message. -/
private theorem cut_handed (whole : WholeMessage message)
    (cut : ¬RoomForPad .of131 message) :
    ∃ rest pkt, switchRecvPacketIn .of131 { onlyL2 := true } (message ++ rest) = some pkt ∧
      pkt.pktOfs = ofp131PacketInMatch + paddedMatch message + 2 := by
  have header := whole.header
  simp only [RoomForPad, not_or, Nat.not_lt, Nat.not_le, not_not] at cut
  obtain ⟨record, ends, missing, accepted⟩ := cut
  let rest : List Byte := List.replicate 16 0xff
  have length : ofHdrLength (message ++ rest) = message.length :=
    (ofHdrLength_append rest (by omega)).trans whole.length
  have padded := paddedMatch_append rest record
  have short : message.length + 1 = ofp131PacketInMatch + paddedMatch message + 2 ∨
      message.length + 2 = ofp131PacketInMatch + paddedMatch message + 2 := by omega
  have type :
      wordAt 16 (((message ++ rest).drop (ofp131PacketInMatch + paddedMatch message + 2)).drop 12) =
      0xffff := by
    rcases short with one | two
    · rw [← one, List.drop_length_add_append]
      decide
    · rw [← two, List.drop_length_add_append]
      decide
  obtain ⟨pkt, handed⟩ := @of131RecvPacketIn_handed (message ++ rest)
    (2 ^ 64 + message.length - (ofp131PacketInMatch + paddedMatch message + 2))
    (by rw [length, padded]; exact ends) ((verdict_append rest record ends).trans accepted)
    (by apply sizeT_wrapped <;> omega)
    (by
      intro flow
      rw [padded]
      have least : ethHeaderLen = 14 := rfl
      exact extractPacket_unknown flow (by omega) type)
  refine ⟨rest, pkt, ?_, ?_⟩
  · simp only [switchRecvPacketIn, length]
    rw [if_neg (Nat.not_lt.mpr record)]
    exact handed
  · rw [(of131RecvPacketIn_some handed).2.2.1, padded]

/-- A packet-in is cut into its packet exactly if there is room for the padding or it is dropped. -/
theorem packetIn_sliced_iff (version : OfpVersion) {message : List Byte}
    (whole : WholeMessage message) :
    (∀ sw rest pkt, switchRecvPacketIn version sw (message ++ rest) = some pkt →
        pkt.Sliced message.length (packetPlace version message)) ↔ RoomForPad version message := by
  cases version with
  | of10 =>
    refine iff_of_true ?_ trivial
    intro sw rest pkt handed
    exact of10_sliced whole handed
  | of131 =>
    refine ⟨?_, fun room sw rest pkt handed => of131_sliced whole room handed⟩
    intro sliced
    apply Classical.byContradiction
    intro cut
    obtain ⟨rest, pkt, handed, place⟩ := cut_handed whole cut
    have inside := (sliced _ _ _ handed).inside
    simp only [RoomForPad, not_or, Nat.not_le] at cut
    omega

/-- An OpenFlow 1.3 packet-in of the given length with an empty match. -/
def packetInHead (length : Byte) : List Byte :=
  [4, 10, 0, length] ++ List.replicate 20 0 ++ [0, 1, 0, 4, 0, 0, 0, 0]

/-- It has an Ethernet header of type 0x88cc. -/
def wholePacketIn : List Byte := packetInHead 48 ++ List.replicate 14 0 ++ [0x88, 0xcc]

theorem wholePacketIn_sliced : WholeMessage wholePacketIn ∧ RoomForPad .of131 wholePacketIn ∧
      ∀ sw rest pkt, switchRecvPacketIn .of131 sw (wholePacketIn ++ rest) = some pkt →
        pkt.Sliced 48 (some 34) := by
  have whole : WholeMessage wholePacketIn := ⟨by decide, by decide⟩
  have room : RoomForPad .of131 wholePacketIn := .inr (.inr (.inl (by decide)))
  exact ⟨whole, room, (packetIn_sliced_iff .of131 whole).mpr room⟩

/-- The packet is said to begin two bytes past the end of the message. -/
theorem endOfMatch_handed : WholeMessage (packetInHead 32) ∧
      (switchRecvPacketIn .of131 {} (packetInHead 32 ++ List.replicate 16 0xff)).map
        (fun pkt => (pkt.pktOfs, pkt.pktLen)) = some (34, 2 ^ 64 - 2) ∧
      ¬∀ sw rest pkt, switchRecvPacketIn .of131 sw (packetInHead 32 ++ rest) = some pkt →
        pkt.Sliced 32 (packetPlace .of131 (packetInHead 32)) := by
  have handed : (switchRecvPacketIn .of131 {} (packetInHead 32 ++ List.replicate 16 0xff)).map
      (fun pkt => (pkt.pktOfs, pkt.pktLen)) = some (34, 2 ^ 64 - 2) := by decide
  refine ⟨⟨by decide, by decide⟩, handed, ?_⟩
  intro sliced
  obtain ⟨pkt, some, places⟩ := Option.map_eq_some_iff.mp handed
  have inside := (sliced _ _ _ some).inside
  rw [(Prod.mk.inj places).1] at inside
  exact absurd inside (by decide)

end OpenMul
