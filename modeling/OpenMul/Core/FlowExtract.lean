import OpenMul.Core.PacketIn

namespace OpenMul

open Lib (wordAt)

/-- What follows the link layer of a packet. -/
inductive NetKind where
  | ipv4 | arp | mpls | ipv6 | other
  deriving DecidableEq, Repr

/-- The transport headers that have ports, or a type and a code. -/
inductive Segment where
  | tcp | udp | icmp | icmpv6
  deriving DecidableEq, Repr

/-- How much of the header there has to be. -/
def Segment.size : Segment → Nat
  | .tcp => 20
  | .udp => 8
  | .icmp => 4
  | .icmpv6 => 4

/-- A packet: its bytes and how many of them count. -/
structure Frame where
  pkt : List Byte
  pktLen : Nat
  deriving DecidableEq, Repr

namespace Frame

variable (frame : Frame)

/-- The field of a header at an offset, in network order. -/
def word (width ofs : Nat) : BitVec width := wordAt width (frame.pkt.drop ofs)

def tagged : Bool := frame.word 16 12 = ethTypeVlan

/-- Where the link layer ends. -/
def linkLen : Nat := if frame.tagged then 18 else 14

/-- The type of what follows the link layer, its last two bytes. -/
def etherType : BitVec 16 := frame.word 16 (if frame.tagged then 16 else 12)

def kind : NetKind :=
  if frame.etherType = ethTypeIp then .ipv4
  else if frame.etherType = ethTypeArp then .arp
  else if frame.etherType = ethTypeMpls || frame.etherType = ethTypeMplsMcast then .mpls
  else if frame.etherType = ethTypeIpv6 then .ipv6
  else .other

/-- A field of the header behind the link layer. -/
def netWord (width ofs : Nat) : BitVec width := frame.word width (frame.linkLen + ofs)

/-- The length of an IPv4 header with its options. -/
def ipLen : Nat := 4 * ((frame.netWord 8 0).extractLsb' 0 4).toNat

def fragment : Bool := (frame.netWord 16 6).extractLsb' 0 14 != 0

/-- The transport header of an IP packet that is no fragment. -/
def segment : Option Segment :=
  match frame.kind with
  | .ipv4 =>
    if frame.fragment then none
    else if frame.netWord 8 9 = 6 then some .tcp
    else if frame.netWord 8 9 = 17 then some .udp
    else if frame.netWord 8 9 = 1 then some .icmp
    else none
  | .ipv6 =>
    if frame.netWord 8 6 = 6 then some .tcp
    else if frame.netWord 8 6 = 17 then some .udp
    else if frame.netWord 8 6 = 58 then some .icmpv6
    else none
  | _ => none

/-- Where the transport header starts. -/
def transportOfs : Nat :=
  frame.linkLen + match frame.kind with
    | .ipv4 => frame.ipLen
    | _ => 40

/-- Whether a transport header is there as a whole. -/
def holds (segment : Segment) : Bool := frame.transportOfs + segment.size ≤ frame.pktLen

/-- The ports, or the type and the code, of a transport header. -/
def endpoints : Segment → BitVec 16 × BitVec 16
  | .tcp | .udp => (frame.word 16 frame.transportOfs, frame.word 16 (frame.transportOfs + 2))
  | .icmp | .icmpv6 =>
    ((frame.word 8 frame.transportOfs).setWidth 16,
      (frame.word 8 (frame.transportOfs + 1)).setWidth 16)

/-- The addresses and the tag. -/
def linkFlow (inPort : BitVec 32) : Flow where
  inPort
  dlDst := frame.word 48 0
  dlSrc := frame.word 48 6
  dlType := frame.etherType
  dlVlan := if frame.tagged then ((frame.word 16 14).extractLsb' 0 12).setWidth 16 else 0
  dlVlanPcp := if frame.tagged then ((frame.word 16 14).extractLsb' 13 3).setWidth 8 else 0

/-- The network header on top of it. Of the type of service the six bits of the
code point count. -/
def netFlow (inPort : BitVec 32) : Flow :=
  let link := frame.linkFlow inPort
  match frame.kind with
  | .ipv4 =>
    (({ link with nwTos := frame.netWord 8 1 &&& 0xfc, nwProto := frame.netWord 8 9 } :
      Flow).setNwSrc (frame.netWord 32 12)).setNwDst (frame.netWord 32 16)
  | .arp =>
    let named : Flow := { link with nwProto := (frame.netWord 16 6).setWidth 8 }
    if frame.netWord 16 2 = arpProIp && frame.netWord 8 5 = ipAddrLen then
      (named.setNwSrc (frame.netWord 32 14)).setNwDst (frame.netWord 32 24)
    else named
  | .mpls =>
    let tag := frame.netWord 32 0
    { link with
      mplsLabel := (tag.extractLsb' 12 20).setWidth 32
      mplsTc := (tag.extractLsb' 9 3).setWidth 8
      mplsBos := (tag.extractLsb' 8 1).setWidth 8 }
  | .ipv6 =>
    { link with
      nwTos := (frame.netWord 32 0).extractLsb' 20 8 &&& 0xfc
      nwProto := frame.netWord 8 6
      nwSrc6 := frame.netWord 128 8
      nwDst6 := frame.netWord 128 24 }
  | .other => link

/-- The reference parse of a packet: each field from its header, and zero without one. -/
def parse (inPort : BitVec 32) : Flow :=
  let flow := frame.netFlow inPort
  match frame.segment with
  | none => flow
  | some segment =>
    if frame.holds segment then
      { flow with tpSrc := (frame.endpoints segment).1, tpDst := (frame.endpoints segment).2 }
    else flow

/-- What is kept of a parse: no type and code, and no protocol without its header. -/
def kept (flow : Flow) : Flow :=
  match frame.segment with
  | none => flow
  | some .icmpv6 => { flow with tpSrc := 0, tpDst := 0 }
  | some .icmp =>
    { flow with tpSrc := 0, tpDst := 0, nwProto := if frame.holds .icmp then flow.nwProto else 0 }
  | some segment => { flow with nwProto := if frame.holds segment then flow.nwProto else 0 }

/-- A record without the fields of an MPLS header, the ARP operation, the IPv6
traffic class, and what comes from a transport header behind IPv4 options. -/
def sansUnsettled (flow : Flow) : Flow :=
  match frame.kind with
  | .ipv4 =>
    if frame.ipLen = 20 || frame.segment.isNone then flow
    else { flow with nwProto := 0, tpSrc := 0, tpDst := 0 }
  | .arp => { flow with nwProto := 0 }
  | .mpls => { flow with mplsLabel := 0, mplsTc := 0, mplsBos := 0 }
  | .ipv6 => { flow with nwTos := 0 }
  | .other => flow

variable (inPort : BitVec 32)

theorem netFlow_sans_ports :
    ({ frame.netFlow inPort with tpSrc := 0, tpDst := 0 } : Flow) = frame.netFlow inPort := by
  unfold netFlow
  dsimp only
  split
  · rfl
  · split <;> rfl
  · rfl
  · rfl
  · rfl

/-- A flow after the step over a transport header at an offset: the ports of a
header that is there, and no protocol for one that is cut off. -/
def carried (flow : Flow) (ofs : Nat) : Segment → Flow
  | .icmpv6 => flow
  | .icmp => if ofs + Segment.icmp.size ≤ frame.pktLen then flow else { flow with nwProto := 0 }
  | segment =>
    if ofs + segment.size ≤ frame.pktLen then
      { flow with tpSrc := frame.word 16 ofs, tpDst := frame.word 16 (ofs + 2) }
    else { flow with nwProto := 0 }

theorem kept_parse : frame.kept (frame.parse inPort) =
    frame.segment.elim (frame.netFlow inPort)
      (frame.carried (frame.netFlow inPort) frame.transportOfs) := by
  have empty := frame.netFlow_sans_ports inPort
  unfold kept parse
  cases frame.segment with
  | none => rfl
  | some segment =>
    simp only [Option.elim_some]
    by_cases whole : frame.transportOfs + segment.size ≤ frame.pktLen
    · cases segment with
      | tcp | udp => simp [holds, whole, endpoints, carried]
      | icmp | icmpv6 => simp only [holds, whole, decide_true, if_true, empty, carried]
    · cases segment with
      | tcp | udp => simp [holds, whole, carried]
      | icmp =>
        simp only [holds, whole, decide_false, Bool.false_eq_true, if_false, carried]
        exact congrArg (fun flow : Flow => { flow with nwProto := 0 }) empty
      | icmpv6 =>
        simp only [holds, whole, decide_false, Bool.false_eq_true, if_false, empty, carried]

theorem carried_sans (flow : Flow) (ofs : Nat) (segment : Segment) :
    ({ frame.carried flow ofs segment with nwProto := 0, tpSrc := 0, tpDst := 0 } : Flow) =
      { flow with nwProto := 0, tpSrc := 0, tpDst := 0 } := by
  cases segment with
  | icmpv6 => rfl
  | tcp | udp | icmp =>
    simp only [carried]
    split <;> rfl

theorem carried_nwTos (flow : Flow) (ofs : Nat) (segment : Segment) :
    ({ frame.carried flow ofs segment with nwTos := 0 } : Flow) =
      frame.carried { flow with nwTos := 0 } ofs segment := by
  cases segment with
  | icmpv6 => rfl
  | tcp | udp | icmp =>
    simp only [carried]
    split <;> rfl

end Frame

private theorem vlanId_eq (tci : BitVec 16) :
    tci &&& 0xfff = (tci.extractLsb' 0 12).setWidth 16 := by
  apply BitVec.eq_of_toNat_eq
  simp only [BitVec.toNat_and, BitVec.toNat_setWidth, BitVec.extractLsb'_toNat, Nat.shiftRight_zero]
  exact (Nat.and_two_pow_sub_one_eq_mod tci.toNat 12).trans (by omega)

private theorem vlanPcp_eq (tci : BitVec 16) :
    ((tci >>> 13) &&& 7).setWidth 8 = (tci.extractLsb' 13 3).setWidth 8 := by
  apply BitVec.eq_of_toNat_eq
  simp only [BitVec.toNat_and, BitVec.toNat_setWidth, BitVec.extractLsb'_toNat,
    BitVec.toNat_ushiftRight]
  exact congrArg (· % 2 ^ 8) (Nat.and_two_pow_sub_one_eq_mod (tci.toNat >>> 13) 3)

private theorem ipIsFragment_eq (fragOff : BitVec 16) :
    ipIsFragment fragOff = (fragOff.extractLsb' 0 14 != 0) := by
  have same : (fragOff &&& 0x3fff).toNat = (fragOff.extractLsb' 0 14).toNat := by
    simp [Nat.and_two_pow_sub_one_eq_mod fragOff.toNat 14]
  rw [ipIsFragment, Bool.eq_iff_iff, bne_iff_ne, bne_iff_ne, ne_eq, ne_eq, ← BitVec.toNat_inj,
    ← BitVec.toNat_inj, same]
  rfl

private theorem elim_ite (holds : Prop) [Decidable holds] (left right : Option Value)
    (absent : Result) (present : Value → Result) :
    (if holds then left else right).elim absent present =
      if holds then left.elim absent present else right.elim absent present :=
  apply_ite (Option.elim · absent present) holds left right

namespace Extract

variable {frame : Frame} {scan : Extract} {ofs : Nat}

/-- The headers up to an offset have been stepped over. -/
def At (frame : Frame) (scan : Extract) (ofs : Nat) : Prop := scan.remLen + ofs = frame.pktLen

theorem At.nextHdr (here : scan.At frame ofs) :
    scan.nextHdr frame.pkt frame.pktLen = frame.pkt.drop ofs := by
  rw [Extract.nextHdr, ← here, Nat.add_sub_cancel_left]

theorem At.netWord (here : scan.At frame frame.linkLen) (width ofs : Nat) :
    wordAt width ((scan.nextHdr frame.pkt frame.pktLen).drop ofs) = frame.netWord width ofs := by
  rw [here.nextHdr, List.drop_drop]
  rfl

section

variable (here : scan.At frame ofs)
include here

theorem At.withFlow (flow : Flow) : At frame { scan with flow } ofs := here

theorem At.past (enough : ¬scan.remLen < size) :
    (scan.past frame.pktLen size).At frame (ofs + size) := by
  rw [At] at here ⊢
  simp only [Extract.past]
  omega

theorem At.short_iff (size : Nat) : scan.remLen < size ↔ ¬ofs + size ≤ frame.pktLen := by
  rw [At] at here
  omega

theorem At.ports_tcp :
    (scan.ports frame.pkt frame.pktLen tcpHeaderLen).flow = frame.carried scan.flow ofs .tcp := by
  simp only [Extract.ports, here.short_iff, here.nextHdr, List.drop_drop, ite_not,
    apply_ite Extract.flow]
  rfl

theorem At.ports_udp :
    (scan.ports frame.pkt frame.pktLen udpHeaderLen).flow = frame.carried scan.flow ofs .udp := by
  simp only [Extract.ports, here.short_iff, here.nextHdr, List.drop_drop, ite_not,
    apply_ite Extract.flow]
  rfl

theorem At.ipTransport_flow (kind : frame.kind = .ipv4)
    (fragment : frame.fragment = false) (proto : scan.flow.nwProto = frame.netWord 8 9) :
    (scan.ipTransport frame.pkt frame.pktLen).flow =
      frame.segment.elim scan.flow (frame.carried scan.flow ofs) := by
  simp only [Extract.ipTransport, Frame.segment, kind, fragment, proto, Bool.false_eq_true,
    if_false, apply_ite Extract.flow, here.ports_tcp, here.ports_udp, here.short_iff, ite_not,
      ipTypeTcp, ipTypeUdp,
    ipTypeIcmp, elim_ite]
  rfl

end

/-- A flow is what is kept of the reference parse. -/
private def Agrees (frame : Frame) (inPort : BitVec 32) (flow : Flow) : Prop :=
  frame.sansUnsettled flow = frame.sansUnsettled (frame.kept (frame.parse inPort))

section Network

variable {inPort : BitVec 32} (here : scan.At frame frame.linkLen)
    (link : scan.flow = frame.linkFlow inPort)
include here link

private theorem ip_parsed (kind : frame.kind = .ipv4)
    (parsed : 0 ≤ (scan.ip frame.pkt frame.pktLen).1) :
    ∃ next : Extract, next.At frame (frame.linkLen + 20) ∧ next.flow = frame.netFlow inPort ∧
      (scan.ip frame.pkt frame.pktLen).2 =
        if frame.fragment then next else next.ipTransport frame.pkt frame.pktLen := by
  unfold Extract.ip at parsed ⊢
  split at parsed
  · cases parsed
  · rename_i enough
    rw [if_neg enough]
    refine ⟨{ scan.past frame.pktLen ipHeaderLen with flow := frame.netFlow inPort },
      here.past enough, rfl, ?_⟩
    simp only [here.netWord, link, ipIsFragment_eq, Frame.netFlow, kind, Frame.fragment,
      apply_ite Prod.snd]

private theorem ip_flow (kind : frame.kind = .ipv4)
    (parsed : 0 ≤ (scan.ip frame.pkt frame.pktLen).1) :
    Agrees frame inPort (scan.ip frame.pkt frame.pktLen).2.flow := by
  obtain ⟨next, after, flow, result⟩ := ip_parsed here link kind parsed
  have proto : (frame.netFlow inPort).nwProto = frame.netWord 8 9 := by
    simp only [Frame.netFlow, kind]
    rfl
  rw [Agrees, result, Frame.kept_parse]
  cases fragment : frame.fragment with
  | true => simp [flow, Frame.segment, kind, fragment]
  | false =>
    rw [if_neg (by decide), after.ipTransport_flow kind fragment (flow ▸ proto), flow]
    cases segment : frame.segment with
    | none => rfl
    | some segment =>
      by_cases plain : frame.ipLen = 20
      · have place : frame.transportOfs = frame.linkLen + 20 := by
          simp [Frame.transportOfs, kind, plain]
        rw [place]
      · simp only [Frame.sansUnsettled, kind, plain, segment, decide_false, Option.isNone_some,
          Bool.or_self, Bool.false_eq_true, if_false, Option.elim_some, Frame.carried_sans]

private theorem arp_flow (kind : frame.kind = .arp)
    (parsed : 0 ≤ (scan.arp frame.pkt frame.pktLen).1) :
    Agrees frame inPort (scan.arp frame.pkt frame.pktLen).2.flow := by
  rw [Agrees, Frame.kept_parse]
  unfold Extract.arp at parsed ⊢
  split at parsed
  · cases parsed
  · rename_i enough
    simp only [if_neg enough, here.netWord, link, Frame.sansUnsettled, Frame.segment, kind,
      Option.elim_none, Frame.netFlow]
    split <;> rfl

omit here in
private theorem mpls_flow (kind : frame.kind = .mpls)
    (parsed : 0 ≤ (scan.mpls frame.pkt frame.pktLen).1) :
    Agrees frame inPort (scan.mpls frame.pkt frame.pktLen).2.flow := by
  rw [Agrees, Frame.kept_parse]
  unfold Extract.mpls at parsed ⊢
  split at parsed
  · cases parsed
  · rename_i enough
    simp [if_neg enough, link, Frame.sansUnsettled, Frame.segment, kind, Frame.netFlow]

private theorem ipv6_parsed (kind : frame.kind = .ipv6)
    (parsed : 0 ≤ (scan.ipv6 frame.pkt frame.pktLen).1) :
    ∃ nwTos : BitVec 8, (scan.ipv6 frame.pkt frame.pktLen).2.flow =
      frame.segment.elim { frame.netFlow inPort with nwTos }
        (frame.carried { frame.netFlow inPort with nwTos } (frame.linkLen + 40)) := by
  unfold Extract.ipv6 at parsed ⊢
  split at parsed
  · cases parsed
  · rename_i enough
    have after := fun flow => (here.past enough).withFlow flow
    refine ⟨((wordAt 32 ((scan.nextHdr frame.pkt frame.pktLen).take 4).reverse >>> 20) &&&
      0xfc).setWidth 8, ?_⟩
    simp only [if_neg enough, apply_ite Prod.snd, apply_ite Extract.flow, (after _).ports_tcp,
      (after _).ports_udp, here.netWord, link, Frame.netFlow, Frame.segment, kind, ipTypeTcp,
        ipTypeUdp,
      elim_ite, Option.elim_some, Option.elim_none, Frame.carried, ite_self]
    rfl

private theorem ipv6_flow (kind : frame.kind = .ipv6)
    (parsed : 0 ≤ (scan.ipv6 frame.pkt frame.pktLen).1) :
    Agrees frame inPort (scan.ipv6 frame.pkt frame.pktLen).2.flow := by
  obtain ⟨nwTos, result⟩ := ipv6_parsed here link kind parsed
  have place : frame.transportOfs = frame.linkLen + 40 := by
    simp [Frame.transportOfs, kind]
  rw [Agrees, Frame.kept_parse, place, result]
  cases frame.segment with
  | none => simp [Frame.sansUnsettled, kind]
  | some segment => simp only [Frame.sansUnsettled, kind, Option.elim_some, Frame.carried_nwTos]

private theorem network_flow (parsed : 0 ≤ (scan.network frame.pkt frame.pktLen).1) :
    Agrees frame inPort (scan.network frame.pkt frame.pktLen).2.flow := by
  have type : scan.flow.dlType = frame.etherType := congrArg Flow.dlType link
  unfold Extract.network at parsed ⊢
  rw [type] at parsed ⊢
  split at parsed
  · rename_i ipv4
    rw [if_pos ipv4]
    exact ip_flow here link (by simp [Frame.kind, ipv4]) parsed
  split at parsed
  · rename_i ipv4 arp
    rw [if_neg ipv4, if_pos arp]
    exact arp_flow here link (by simp [Frame.kind, if_neg ipv4, if_pos arp]) parsed
  split at parsed
  · rename_i ipv4 arp mpls
    rw [if_neg ipv4, if_neg arp, if_pos mpls]
    exact mpls_flow link (by simp only [Frame.kind, if_neg ipv4, if_neg arp, if_pos mpls]) parsed
  split at parsed
  · rename_i ipv4 arp mpls ipv6
    rw [if_neg ipv4, if_neg arp, if_neg mpls, if_pos ipv6]
    exact ipv6_flow here link
      (by simp only [Frame.kind, if_neg ipv4, if_neg arp, if_neg mpls, if_pos ipv6]) parsed
  · rename_i ipv4 arp mpls ipv6
    have kind : frame.kind = .other := by
      simp only [Frame.kind, if_neg ipv4, if_neg arp, if_neg mpls, if_neg ipv6]
    rw [if_neg ipv4, if_neg arp, if_neg mpls, if_neg ipv6, Agrees, Frame.kept_parse]
    simp [link, Frame.segment, Frame.netFlow, kind]

end Network

private theorem vlan_flow (here : scan.At frame 14)
    (flow : scan.flow = { inPort, dlType := frame.word 16 12 })
    (passed : scan.vlan frame.pkt frame.pktLen = some next) :
    next.At frame frame.linkLen ∧
      ({ next.flow with dlDst := frame.word 48 0, dlSrc := frame.word 48 6 } : Flow) =
        frame.linkFlow inPort := by
  have type : scan.flow.dlType = frame.word 16 12 := congrArg Flow.dlType flow
  unfold Extract.vlan at passed
  rw [type] at passed
  split at passed
  · rename_i vlan
    have tagged : frame.tagged = true := decide_eq_true vlan
    split at passed
    · cases passed
    · rename_i enough
      cases passed
      refine ⟨?_, ?_⟩
      · rw [Frame.linkLen, if_pos tagged]
        exact (here.past enough).withFlow _
      · simp only [Frame.linkFlow, Frame.etherType, tagged, if_true, here.nextHdr,
          List.drop_drop, flow, vlanId_eq, vlanPcp_eq, Frame.word]
  · rename_i vlan
    have untagged : frame.tagged = false := decide_eq_false vlan
    cases passed
    refine ⟨?_, ?_⟩
    · rw [Frame.linkLen, untagged]
      exact here
    · simp [Frame.linkFlow, Frame.etherType, untagged, flow]

end Extract

/-- The record of a packet that is taken is what is kept of its reference parse. -/
theorem ofFlowExtract_parse (pkt : List Byte) (inPort : BitVec 32) (pktLen : Nat)
    (parsed : 0 ≤ (ofFlowExtract pkt inPort pktLen false).1) :
    let frame : Frame := { pkt, pktLen }
    frame.sansUnsettled (ofFlowExtract pkt inPort pktLen false).2.flow =
      frame.sansUnsettled (frame.kept (frame.parse inPort)) := by
  intro frame
  have start : Extract.At frame { flow := { inPort }, remLen := pktLen } 0 := rfl
  have eth : Extract.nextHdr pkt pktLen { flow := { inPort }, remLen := pktLen } = pkt :=
    start.nextHdr
  unfold ofFlowExtract at parsed ⊢
  simp only [eth] at parsed ⊢
  split at parsed
  · cases parsed
  rename_i enough
  rw [if_neg enough]
  split at parsed
  · cases parsed
  rename_i ethernet
  rw [if_neg ethernet]
  split at parsed
  · cases parsed
  rename_i next passed
  obtain ⟨here, link⟩ := Extract.vlan_flow ((start.past enough).withFlow _) rfl passed
  exact Extract.network_flow (here.withFlow _) link parsed

/-- A frame between the same two stations, with a tag for VLAN 5 of priority 3. -/
def taggedFrame (type : List Byte) (rest : List Byte) : List Byte :=
  [0, 1, 2, 3, 4, 5, 0, 1, 2, 3, 4, 6, 0x81, 0, 0x60, 5] ++ type ++ rest

/-- An IPv4 header from 10.0.0.1 to 10.0.0.2 for a protocol. -/
def ipHeader (proto : Byte) : List Byte :=
  [0x45, 0, 0, 28, 0, 0, 0, 0, 64, proto, 0, 0, 10, 0, 0, 1, 10, 0, 0, 2]

/-- The ports of a datagram behind a tag. -/
theorem ofFlowExtract_parse_udp :
    let pkt := taggedFrame [8, 0] (ipHeader 17 ++ [0, 53, 4, 1, 0, 8, 0, 0])
    let frame : Frame := { pkt, pktLen := 46 }
    0 ≤ (ofFlowExtract pkt 7 46 false).1 ∧ frame.kind = .ipv4 ∧ frame.ipLen = 20 ∧
      frame.sansUnsettled (ofFlowExtract pkt 7 46 false).2.flow =
        frame.sansUnsettled (frame.kept (frame.parse 7)) ∧
      (frame.parse 7).tpSrc = 53 ∧ (frame.parse 7).dlVlan = 5 ∧ (frame.parse 7).dlVlanPcp = 3 :=
  ⟨by decide, by decide, by decide, ofFlowExtract_parse _ _ _ (by decide),
    by decide, by decide, by decide⟩

/-- Neither the type of an echo request nor the protocol of a cut-off TCP header is recorded. -/
theorem ofFlowExtract_not_parse :
    let echo := taggedFrame [8, 0] (ipHeader 1 ++ [8, 0, 0, 0])
    let short := taggedFrame [8, 0] (ipHeader 6 ++ [0, 80, 4, 1])
    (ofFlowExtract echo 7 42 false).1 = 0 ∧
      (Frame.parse { pkt := echo, pktLen := 42 } 7).tpSrc = 8 ∧
      (ofFlowExtract echo 7 42 false).2.flow.tpSrc = 0 ∧
      (ofFlowExtract short 7 42 false).1 = 0 ∧
      (Frame.parse { pkt := short, pktLen := 42 } 7).nwProto = 6 ∧
      (ofFlowExtract short 7 42 false).2.flow.nwProto = 0 := by
  decide

end OpenMul
