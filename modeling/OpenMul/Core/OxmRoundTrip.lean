import OpenMul.Core.Normalize
import OpenMul.Core.OxmRun

namespace OpenMul

open Lib (toBytes wordAt wordAt_toBytes)

/-- One field of the output is written if it was sent. -/
def OxmOut.putIf (out : OxmOut) (sent : Bool) (field : FlowField)
    (value mask : BitVec field.width) : OxmOut where
  flow := out.flow.put field (if sent then value else out.flow.get field)
  mask := out.mask.put field (if sent then mask else out.mask.get field)

theorem OxmOut.putIf_false (out : OxmOut) (field : FlowField) (value mask : BitVec field.width) :
    out.putIf false field value mask = out := by
  rw [putIf]
  simp [Flow.put_get]

namespace OxmRun

variable {front : List OxmTlv} {out middle : OxmOut} (run : OxmRun front out middle) (sent : Bool)
include run

theorem sendIf (takes : sent = true →
      Takes tlv middle ⟨middle.flow.put target value, middle.mask.put target mask⟩) :
    OxmRun (front ++ fieldIf sent tlv) out (middle.putIf sent target value mask) := by
  apply run.append
  cases sent with
  | false =>
    rw [OxmOut.putIf_false]
    exact .nil middle
  | true => exact .cons (takes rfl) (.nil _)

theorem sendExact (field : MatchField) (notVlan : field ≠ .vlanVid)
    (admitted : sent = true → field.admitted middle.flow = true)
    (value : BitVec field.target.width) :
    OxmRun (front ++ fieldIf sent (.exact field value)) out
      (middle.putIf sent field.target value (BitVec.allOnes _)) :=
  run.sendIf sent fun now => takes_exact notVlan (admitted now) value

theorem sendMasked (field : MatchField) (maskable : field.maskable = true)
    (admitted : sent = true → field.admitted middle.flow = true)
    (value mask : BitVec field.target.width) :
    OxmRun (front ++ fieldIf sent (.masked field value mask)) out
      (middle.putIf sent field.target value mask) :=
  run.sendIf sent fun now => takes_masked maskable (admitted now) value mask

end OxmRun

section

variable (flow mask : Flow)

def sendsMpls : Bool :=
  mask.dlType != 0 && (flow.dlType == ethTypeMpls || flow.dlType == ethTypeMplsMcast)

def sendsIpv4 : Bool := mask.dlType != 0 && (flow.dlType == ethTypeArp || flow.dlType == ethTypeIp)

def sendsIpv6 : Bool := mask.dlType != 0 && flow.dlType == ethTypeIpv6

def sendsIp : Bool := mask.dlType != 0 && (flow.dlType == ethTypeIp || flow.dlType == ethTypeIpv6)

def sendsProto : Bool := sendsIp flow mask && mask.nwProto != 0

def linkRead : OxmOut :=
  OxmOut.putIf {} (mask.inPort != 0) .inPort flow.inPort (.allOnes _)
  |>.putIf (mask.metadata != 0) .metadata flow.metadata mask.metadata
  |>.putIf (mask.dlDst != 0) .dlDst flow.dlDst (.allOnes _)
  |>.putIf (mask.dlSrc != 0) .dlSrc flow.dlSrc (.allOnes _)
  |>.putIf (mask.dlType != 0) .dlType flow.dlType (.allOnes _)
  |>.putIf (mask.dlVlan != 0) .dlVlan (vlanRead (oxmVlan flow.dlVlan)) (.allOnes _)
  |>.putIf (mask.dlVlan != 0 && mask.dlVlanPcp != 0) .dlVlanPcp flow.dlVlanPcp (.allOnes _)

def mplsRead (out : OxmOut) : OxmOut :=
  out.putIf (sendsMpls flow mask && mask.mplsLabel != 0) .mplsLabel flow.mplsLabel (.allOnes _)
  |>.putIf (sendsMpls flow mask && mask.mplsTc != 0) .mplsTc flow.mplsTc (.allOnes _)
  |>.putIf (sendsMpls flow mask && mask.mplsBos != 0) .mplsBos flow.mplsBos (.allOnes _)

def addressRead (out : OxmOut) : OxmOut :=
  out.putIf (sendsIpv4 flow mask && mask.nwSrc != 0) .nwSrc flow.nwSrc mask.nwSrc
  |>.putIf (sendsIpv4 flow mask && mask.nwDst != 0) .nwDst flow.nwDst mask.nwDst
  |>.putIf (sendsIpv6 flow mask && mask.nwSrc6 != 0) .nwSrc6 flow.nwSrc6 mask.nwSrc6
  |>.putIf (sendsIpv6 flow mask && mask.nwDst6 != 0) .nwDst6 flow.nwDst6 mask.nwDst6

def protoRead (out : OxmOut) : OxmOut :=
  out.putIf (sendsIp flow mask && mask.nwTos != 0) .nwTos flow.nwTos (.allOnes _)
  |>.putIf (sendsProto flow mask) .nwProto flow.nwProto (.allOnes _)

def portsRead (out : OxmOut) : OxmOut :=
  let tcp := sendsProto flow mask && flow.nwProto == ipTypeTcp
  let udp := sendsProto flow mask && flow.nwProto == ipTypeUdp
  out.putIf (tcp && mask.tpSrc != 0) .tpSrc flow.tpSrc (.allOnes _)
  |>.putIf (udp && mask.tpSrc != 0) .tpSrc flow.tpSrc (.allOnes _)
  |>.putIf (tcp && mask.tpDst != 0) .tpDst flow.tpDst (.allOnes _)
  |>.putIf (udp && mask.tpDst != 0) .tpDst flow.tpDst (.allOnes _)

def readBack : OxmOut :=
  portsRead flow mask
    (protoRead flow mask (addressRead flow mask (mplsRead flow mask (linkRead flow mask))))

end

section

variable {flow mask : Flow}

/-- The type and the protocol of a flow whose protocol is sent were read. -/
def PortsReady (flow mask : Flow) (out : OxmOut) : Prop :=
  sendsProto flow mask = true → out.flow.dlType = flow.dlType ∧ out.flow.nwProto = flow.nwProto

theorem PortsReady.putIf (ready : PortsReady flow mask out) (sent : Bool) (field : FlowField)
    (notType : field ≠ .dlType) (notProto : field ≠ .nwProto)
    (value ones : BitVec field.width) : PortsReady flow mask (out.putIf sent field value ones) := by
  intro proto
  obtain ⟨type, same⟩ := ready proto
  exact ⟨(Flow.dlType_put _ notType _).trans type, (Flow.nwProto_put _ notProto _).trans same⟩

theorem PortsReady.admitted {out : OxmOut} (ready : PortsReady flow mask out) {field : MatchField}
    (port : field.target = .tpSrc ∨ field.target = .tpDst)
    (either : isProto = true → (flow.nwProto == ipTypeUdp || flow.nwProto == ipTypeTcp) = true)
    (masked : Bool) (sent : (sendsProto flow mask && isProto && masked) = true) :
    field.admitted out.flow = true := by
  simp only [Bool.and_eq_true] at sent
  obtain ⟨type, same⟩ := ready sent.1.1
  have ip := sent.1.1
  simp only [sendsProto, sendsIp, Bool.and_eq_true] at ip
  have both : ((out.flow.dlType == ethTypeIp || out.flow.dlType == ethTypeIpv6) &&
      (out.flow.nwProto == ipTypeUdp || out.flow.nwProto == ipTypeTcp)) = true := by
    rw [type, same, ip.1.2, either sent.1.2]
    rfl
  cases field with
  | tcpSrc | tcpDst | udpSrc | udpDst | tpSrc | tpDst => exact both
  | _ => rcases port with src | dst <;> contradiction

theorem linkRead_run : OxmRun ([] ++ fieldIf (mask.inPort != 0) (.exact .inPort flow.inPort) ++
      fieldIf (mask.metadata != 0) (.masked .metadata flow.metadata mask.metadata) ++
      fieldIf (mask.dlDst != 0) (.exact .ethDst flow.dlDst) ++
      fieldIf (mask.dlSrc != 0) (.exact .ethSrc flow.dlSrc) ++
      fieldIf (mask.dlType != 0) (.exact .ethType flow.dlType) ++
      fieldIf (mask.dlVlan != 0) (.exact .vlanVid (oxmVlan flow.dlVlan)) ++
      fieldIf (mask.dlVlan != 0 && mask.dlVlanPcp != 0) (.exact .vlanPcp flow.dlVlanPcp))
      {} (linkRead flow mask) := by
  have inPort := (OxmRun.nil {}).sendExact (mask.inPort != 0) .inPort (by decide) (fun _ => rfl)
    flow.inPort
  have metadata := inPort.sendMasked (mask.metadata != 0) .metadata rfl (fun _ => rfl)
    flow.metadata mask.metadata
  have dlDst := metadata.sendExact (mask.dlDst != 0) .ethDst (by decide) (fun _ => rfl) flow.dlDst
  have dlSrc := dlDst.sendExact (mask.dlSrc != 0) .ethSrc (by decide) (fun _ => rfl) flow.dlSrc
  have dlType := dlSrc.sendExact (mask.dlType != 0) .ethType (by decide) (fun _ => rfl) flow.dlType
  have dlVlan := dlType.sendIf (mask.dlVlan != 0) fun _ => takes_vlanVid (oxmVlan flow.dlVlan)
  exact dlVlan.sendExact (mask.dlVlan != 0 && mask.dlVlanPcp != 0) .vlanPcp (by decide)
    (fun _ => rfl) flow.dlVlanPcp

variable {front : List OxmTlv} {out middle : OxmOut} (run : OxmRun front out middle)
  (type : (mask.dlType != 0) = true → middle.flow.dlType = flow.dlType)
include run type

theorem mplsRead_run : OxmRun (front ++
      fieldIf (sendsMpls flow mask && mask.mplsLabel != 0) (.exact .mplsLabel flow.mplsLabel) ++
      fieldIf (sendsMpls flow mask && mask.mplsTc != 0) (.exact .mplsTc flow.mplsTc) ++
      fieldIf (sendsMpls flow mask && mask.mplsBos != 0) (.exact .mplsBos flow.mplsBos))
      out (mplsRead flow mask middle) := by
  have admitted (masked : Bool) (sent : (sendsMpls flow mask && masked) = true) :
      (middle.flow.dlType == ethTypeMpls || middle.flow.dlType == ethTypeMplsMcast) = true := by
    simp only [sendsMpls, Bool.and_eq_true] at sent
    rw [type sent.1.1]
    exact sent.1.2
  have label :=
    run.sendExact _ .mplsLabel (by decide) (admitted (mask.mplsLabel != 0)) flow.mplsLabel
  have tc := label.sendExact _ .mplsTc (by decide) (admitted (mask.mplsTc != 0)) flow.mplsTc
  exact tc.sendExact _ .mplsBos (by decide) (admitted (mask.mplsBos != 0)) flow.mplsBos

theorem addressRead_run : OxmRun (front ++
      fieldIf (sendsIpv4 flow mask && mask.nwSrc != 0)
        (.masked (if flow.dlType == ethTypeArp then .arpSpa else .ipv4Src) flow.nwSrc mask.nwSrc) ++
      fieldIf (sendsIpv4 flow mask && mask.nwDst != 0)
        (.masked (if flow.dlType == ethTypeArp then .arpTpa else .ipv4Dst) flow.nwDst mask.nwDst) ++
      fieldIf (sendsIpv6 flow mask && mask.nwSrc6 != 0)
        (.masked .ipv6Src flow.nwSrc6 mask.nwSrc6) ++
      fieldIf (sendsIpv6 flow mask && mask.nwDst6 != 0)
        (.masked .ipv6Dst flow.nwDst6 mask.nwDst6))
      out (addressRead flow mask middle) := by
  have ipv6 (masked : Bool) (sent : (sendsIpv6 flow mask && masked) = true) :
      (middle.flow.dlType == ethTypeIpv6) = true := by
    simp only [sendsIpv6, Bool.and_eq_true] at sent
    rw [type sent.1.1]
    exact sent.1.2
  have ipv4 : OxmRun (front ++
      fieldIf (sendsIpv4 flow mask && mask.nwSrc != 0)
        (.masked (if flow.dlType == ethTypeArp then .arpSpa else .ipv4Src) flow.nwSrc mask.nwSrc) ++
      fieldIf (sendsIpv4 flow mask && mask.nwDst != 0)
        (.masked (if flow.dlType == ethTypeArp then .arpTpa else .ipv4Dst) flow.nwDst mask.nwDst))
      out (middle.putIf (sendsIpv4 flow mask && mask.nwSrc != 0) .nwSrc flow.nwSrc mask.nwSrc
        |>.putIf (sendsIpv4 flow mask && mask.nwDst != 0) .nwDst flow.nwDst mask.nwDst) := by
    cases arp : flow.dlType == ethTypeArp with
    | false =>
      have ip (masked : Bool) (sent : (sendsIpv4 flow mask && masked) = true) :
          (middle.flow.dlType == ethTypeIp) = true := by
        simp only [sendsIpv4, arp, Bool.false_or, Bool.and_eq_true] at sent
        rw [type sent.1.1]
        exact sent.1.2
      have src := run.sendMasked _ .ipv4Src rfl (ip (mask.nwSrc != 0)) flow.nwSrc mask.nwSrc
      exact src.sendMasked _ .ipv4Dst rfl (ip (mask.nwDst != 0)) flow.nwDst mask.nwDst
    | true =>
      have isArp (masked : Bool) (sent : (sendsIpv4 flow mask && masked) = true) :
          (middle.flow.dlType == ethTypeArp) = true := by
        simp only [sendsIpv4, Bool.and_eq_true] at sent
        rw [type sent.1.1]
        exact arp
      have src := run.sendMasked _ .arpSpa rfl (isArp (mask.nwSrc != 0)) flow.nwSrc mask.nwSrc
      exact src.sendMasked _ .arpTpa rfl (isArp (mask.nwDst != 0)) flow.nwDst mask.nwDst
  have src6 := ipv4.sendMasked _ .ipv6Src rfl (ipv6 (mask.nwSrc6 != 0)) flow.nwSrc6 mask.nwSrc6
  exact src6.sendMasked _ .ipv6Dst rfl (ipv6 (mask.nwDst6 != 0)) flow.nwDst6 mask.nwDst6

theorem protoRead_run :
    OxmRun (front ++ fieldIf (sendsIp flow mask && mask.nwTos != 0) (.exact .ipDscp flow.nwTos) ++
      fieldIf (sendsProto flow mask) (.exact .ipProto flow.nwProto)) out
        (protoRead flow mask middle) := by
  have ip (masked : Bool) (sent : (sendsIp flow mask && masked) = true) :
      (middle.flow.dlType == ethTypeIp || middle.flow.dlType == ethTypeIpv6) = true := by
    simp only [sendsIp, Bool.and_eq_true] at sent
    rw [type sent.1.1]
    exact sent.1.2
  have tos := run.sendExact _ .ipDscp (by decide) (ip (mask.nwTos != 0)) flow.nwTos
  exact tos.sendExact _ .ipProto (by decide) (ip (mask.nwProto != 0)) flow.nwProto

omit run in
theorem protoRead_ready : PortsReady flow mask (protoRead flow mask middle) := by
  intro sent
  have matched := sent
  simp only [sendsProto, sendsIp, Bool.and_eq_true] at matched
  exact ⟨type matched.1.1, if_pos sent⟩

omit type in
theorem portsRead_run (ready : PortsReady flow mask middle) :
    OxmRun (front ++ fieldIf (sendsProto flow mask && flow.nwProto == ipTypeTcp && mask.tpSrc != 0)
        (.exact .tcpSrc flow.tpSrc) ++
      fieldIf (sendsProto flow mask && flow.nwProto == ipTypeUdp && mask.tpSrc != 0)
        (.exact .udpSrc flow.tpSrc) ++
      fieldIf (sendsProto flow mask && flow.nwProto == ipTypeTcp && mask.tpDst != 0)
        (.exact .tcpDst flow.tpDst) ++
      fieldIf (sendsProto flow mask && flow.nwProto == ipTypeUdp && mask.tpDst != 0)
        (.exact .udpDst flow.tpDst)) out (portsRead flow mask middle) := by
  have tcp : (flow.nwProto == ipTypeTcp) = true →
      (flow.nwProto == ipTypeUdp || flow.nwProto == ipTypeTcp) = true :=
    fun is => by rw [is, Bool.or_true]
  have udp : (flow.nwProto == ipTypeUdp) = true →
      (flow.nwProto == ipTypeUdp || flow.nwProto == ipTypeTcp) = true :=
    fun is => by rw [is, Bool.true_or]
  have tcpSrc := run.sendExact _ .tcpSrc (by decide)
    (ready.admitted (.inl rfl) tcp (mask.tpSrc != 0)) flow.tpSrc
  have readySrc :=
    ready.putIf (sendsProto flow mask && flow.nwProto == ipTypeTcp && mask.tpSrc != 0)
    .tpSrc (by decide) (by decide) flow.tpSrc (.allOnes _)
  have udpSrc := tcpSrc.sendExact _ .udpSrc (by decide)
    (readySrc.admitted (.inl rfl) udp (mask.tpSrc != 0)) flow.tpSrc
  have readyDst := readySrc.putIf
    (sendsProto flow mask && flow.nwProto == ipTypeUdp && mask.tpSrc != 0)
    .tpSrc (by decide) (by decide) flow.tpSrc (.allOnes _)
  have tcpDst := udpSrc.sendExact _ .tcpDst (by decide)
    (readyDst.admitted (.inr rfl) tcp (mask.tpDst != 0)) flow.tpDst
  have readyLast := readyDst.putIf
    (sendsProto flow mask && flow.nwProto == ipTypeTcp && mask.tpDst != 0)
    .tpDst (by decide) (by decide) flow.tpDst (.allOnes _)
  exact tcpDst.sendExact _ .udpDst (by decide)
    (readyLast.admitted (.inr rfl) udp (mask.tpDst != 0)) flow.tpDst

omit run type

theorem of131AddOxmFields_run (flow mask : Flow) :
    OxmRun (of131AddOxmFields flow mask) {} (readBack flow mask) := by
  have type : (mask.dlType != 0) = true →
      (if mask.dlType != 0 then flow.dlType else 0) = flow.dlType := fun matched => if_pos matched
  have link : OxmRun _ {} (linkRead flow mask) := linkRead_run
  have mpls := mplsRead_run link type
  have address := addressRead_run mpls type
  have proto := protoRead_run address type
  exact portsRead_run proto (protoRead_ready type)

end

private theorem length_fieldIf_le (sent : Bool) (tlv : OxmTlv) : (fieldIf sent tlv).length ≤ 1 := by
  cases sent with
  | false => exact Nat.zero_le 1
  | true => exact Nat.le_refl 1

private theorem length_snoc_fieldIf (bound : front.length ≤ count) (sent : Bool)
    (tlv : OxmTlv) : (front ++ fieldIf sent tlv).length ≤ count + 1 := by
  rw [List.length_append]
  exact Nat.add_le_add bound (length_fieldIf_le sent tlv)

theorem length_of131AddOxmFields (flow mask : Flow) :
    (of131AddOxmFields flow mask).length ≤ 20 := by
  unfold of131AddOxmFields
  iterate 19 refine length_snoc_fieldIf ?_ _ _
  exact length_fieldIf_le _ _

/-- A field takes a header and up to 32 bytes of data, and at least one. -/
theorem OxmRun.length_bounds {tlvs : List OxmTlv} (run : OxmRun tlvs out final) :
    5 * tlvs.length ≤ (tlvs.flatMap OxmTlv.bytes).length ∧
      (tlvs.flatMap OxmTlv.bytes).length ≤ 36 * tlvs.length := by
  induction run with
  | nil => exact ⟨Nat.le_refl 0, Nat.le_refl 0⟩
  | cons takes _ ih =>
    rename_i tlv rest _ _ _ _
    have bounds := tlv.length_bounds
    have size : tlv.bytes.length = 4 + tlv.length := by
      rw [OxmTlv.bytes, List.length_append, takes.length]
      rfl
    rw [List.flatMap_cons, List.length_append, List.length_cons]
    omega

private theorem match_layout {fields : List Byte} (short : ofpxMatchHdrSz + fields.length < 2 ^ 16)
    (pad : List Byte) {ofx : List Byte}
    (bytes : toBytes 2 ofpmtOxm ++ toBytes 2 (ofpxMatchHdrSz + fields.length) ++ fields ++ pad =
      ofx) :
    (wordAt 16 ofx).toNat = ofpmtOxm ∧
      (wordAt 16 (ofx.drop 2)).toNat = ofpxMatchHdrSz + fields.length ∧
      ofx.drop ofpxMatchHdrSz = fields ++ pad := by
  have tail : ofx.drop 2 = toBytes 2 (ofpxMatchHdrSz + fields.length) ++ (fields ++ pad) := by
    rw [← bytes]
    rfl
  refine ⟨?_, ?_, ?_⟩
  · rw [← bytes, List.append_assoc, List.append_assoc, @wordAt_toBytes 16 2 rfl]
    rfl
  · rw [tail, @wordAt_toBytes 16 2 rfl]
    exact Nat.mod_eq_of_lt short
  · rw [← bytes]
    rfl

/-- The decoder accepts what the encoder wrote and reads these fields from it. -/
theorem of131OfpxMatchToFlow_prep (flow mask : Flow) :
    (of131OfpxMatchToFlow (of131PrepOfpxMatch flow mask)).1 = 0 ∧
      (of131OfpxMatchToFlow (of131PrepOfpxMatch flow mask)).2.out = readBack flow mask := by
  have run := of131AddOxmFields_run flow mask
  have few := length_of131AddOxmFields flow mask
  rw [of131PrepOfpxMatch]
  generalize of131AddOxmFields flow mask = tlvs at run few
  have bounds := run.length_bounds
  generalize fieldsAre : tlvs.flatMap OxmTlv.bytes = fields at bounds
  generalize List.replicate _ (0 : Byte) = pad
  generalize ofxIs :
    toBytes 2 ofpmtOxm ++ toBytes 2 (ofpxMatchHdrSz + fields.length) ++ fields ++ pad
    = ofx
  have short : ofpxMatchHdrSz + fields.length < 2 ^ 16 := by
    rw [ofpxMatchHdrSz]
    omega
  obtain ⟨matchType, matchLen, bytes⟩ := match_layout short pad ofxIs
  rw [of131OfpxMatchToFlow, matchLen]
  generalize readBack flow mask = final at run ⊢
  cases run with
  | nil =>
    subst fieldsAre
    exact ⟨rfl, rfl⟩
  | cons takes rest =>
    have long : ¬ofpxMatchHdrSz + fields.length < 8 := by
      rw [ofpxMatchHdrSz]
      rw [List.length_cons] at bounds
      omega
    rw [if_neg long, if_neg (not_not_intro matchType)]
    apply oxmLoop_run (.cons takes rest) (few.trans (by decide)) rfl
    · rw [bytes, fieldsAre]
    · rw [fieldsAre]
      change ((ofpxMatchHdrSz + fields.length : Nat) : Int) - ofpxMatchHdrSz = fields.length
      omega

private theorem eq_present_of_or (only : vid ||| ofpvidPresent = ofpvidPresent) :
    vid = 0 ∨ vid = ofpvidPresent := by
  have power : ofpvidPresent = BitVec.twoPow 16 12 := rfl
  have inside : vid &&& ofpvidPresent = vid := by
    ext index bound
    grind
  rw [power, BitVec.and_twoPow] at inside
  split at inside
  · exact .inr inside.symm
  · exact .inl inside.symm

/-- The encoder adds the tag-present bit and the decoder drops it. -/
theorem vlanRead_oxmVlan (vid : BitVec 16) : vlanRead (oxmVlan vid) = vlanRead vid := by
  by_cases none : vid = 0
  · subst none
    rfl
  by_cases any : vid = 0xfff
  · subst any
    rfl
  have low : (vid ||| ofpvidPresent) &&& 0xfff = vid &&& 0xfff := by
    have dropped : (0xfff : BitVec 16) &&& ofpvidPresent = 0#16 := rfl
    rw [BitVec.and_comm, BitVec.and_or_distrib_left, dropped, BitVec.or_zero, BitVec.and_comm]
  rw [oxmVlan, if_neg none, if_neg any, vlanRead, vlanRead, low]
  by_cases present : vid = ofpvidPresent
  · rw [present]
    rfl
  · have different : ¬vid ||| ofpvidPresent = ofpvidPresent :=
      fun only => (eq_present_of_or only).elim none present
    rw [if_neg different, if_neg present]

namespace FlowField

/-- A VLAN id has twelve bits; the tag-present bit alone is read as any tag. -/
def valueRead : (field : FlowField) → BitVec field.width → BitVec field.width
  | .dlVlan, vid => vlanRead vid
  | _, value => value

/-- Only the metadata and the addresses are sent with their masks. -/
def maskRead (field : FlowField) (mask : BitVec field.width) : BitVec field.width :=
  match field with
  | .metadata | .nwSrc | .nwDst | .nwSrc6 | .nwDst6 => mask
  | _ => BitVec.allOnes _

/-- The encoder writes the field if its mask is set. -/
def sent (flow mask : Flow) : FlowField → Bool
  | .dlVlanPcp => mask.dlVlan != 0
  | .mplsLabel | .mplsTc | .mplsBos => sendsMpls flow mask
  | .nwSrc | .nwDst => sendsIpv4 flow mask || sendsIpv6 flow mask
  | .nwSrc6 | .nwDst6 => sendsIpv6 flow mask
  | .nwTos | .nwProto => sendsIp flow mask
  | .tpSrc | .tpDst =>
    sendsProto flow mask && (flow.nwProto == ipTypeUdp || flow.nwProto == ipTypeTcp)
  | .tunnelId => false
  | _ => true

end FlowField

variable {width : Nat} {field : FlowField}

section

variable (flow mask : Flow)

/-- The three fields of the address union that overlap. -/
def FlowField.overlaps (field : FlowField) : Prop := field = .nwSrc ∨ field = .nwDst ∨
    field = .nwSrc6

private theorem port_read (udp tcp masked proto : Bool) (value : BitVec width) :
    (if proto && udp && masked then value else if proto && tcp && masked then value else 0) =
      if proto && (udp || tcp) && masked then value else 0 := by
  cases udp <;> cases tcp <;> cases masked <;> cases proto <;> rfl

theorem readBack_get (apart : ¬field.overlaps) : (readBack flow mask).flow.get field =
        (if field.sent flow mask && mask.get field != 0 then field.valueRead (flow.get field)
          else 0) ∧
      (readBack flow mask).mask.get field =
        (if field.sent flow mask && mask.get field != 0 then field.maskRead (mask.get field)
          else 0) := by
  cases field with
  | nwSrc => exact absurd (.inl rfl) apart
  | nwDst => exact absurd (.inr (.inl rfl)) apart
  | nwSrc6 => exact absurd (.inr (.inr rfl)) apart
  | dlVlan =>
    refine ⟨?_, rfl⟩
    change (if mask.dlVlan != 0 then vlanRead (oxmVlan flow.dlVlan) else 0) = _
    rw [vlanRead_oxmVlan]
    rfl
  | tpSrc | tpDst => exact ⟨port_read _ _ _ _ _, port_read _ _ _ _ _⟩
  | _ => exact ⟨rfl, rfl⟩

/-- The address union before the IPv6 addresses are read. -/
private def ipv4Read (base addr : Flow) : Flow :=
  let src :=
    base.setNwSrc (if sendsIpv4 flow mask && mask.nwSrc != 0 then addr.nwSrc else base.nwSrc)
  src.setNwDst (if sendsIpv4 flow mask && mask.nwDst != 0 then addr.nwDst else src.nwDst)

private theorem nwSrc_of_zero {addr : Flow} (zero : addr.nwSrc6 = 0) : addr.nwSrc = 0 := by
  rw [Flow.nwSrc, zero]
  rfl

private theorem nwDst_of_zero {addr : Flow} (zero : addr.nwSrc6 = 0) : addr.nwDst = 0 := by
  rw [Flow.nwDst, zero]
  rfl

private theorem nwSrc_ipv4Read (clear : base.nwSrc6 = 0) (addr : Flow) :
    (ipv4Read flow mask base addr).nwSrc =
      if sendsIpv4 flow mask && mask.nwSrc != 0 then addr.nwSrc else 0 := by
  rw [ipv4Read, Flow.nwSrc_setNwDst, Flow.nwSrc_setNwSrc, nwSrc_of_zero clear]

private theorem nwDst_ipv4Read (clear : base.nwSrc6 = 0) (addr : Flow) :
    (ipv4Read flow mask base addr).nwDst =
      if sendsIpv4 flow mask && mask.nwDst != 0 then addr.nwDst else 0 := by
  rw [ipv4Read, Flow.nwDst_setNwDst, Flow.nwDst_setNwSrc, nwDst_of_zero clear]

/-- An IPv6 source is read over the IPv4 addresses. -/
private theorem readBack_union : ∃ base : OxmOut, base.flow.nwSrc6 = 0 ∧ base.mask.nwSrc6 = 0 ∧
      (readBack flow mask).flow.nwSrc6 =
        (if sendsIpv6 flow mask && mask.nwSrc6 != 0 then flow.nwSrc6
          else (ipv4Read flow mask base.flow flow).nwSrc6) ∧ (readBack flow mask).mask.nwSrc6 =
        (if sendsIpv6 flow mask && mask.nwSrc6 != 0 then mask.nwSrc6
          else (ipv4Read flow mask base.mask mask).nwSrc6) :=
  ⟨mplsRead flow mask (linkRead flow mask), rfl, rfl, rfl, rfl⟩

private theorem if_unset (condition : Bool) {part : BitVec width} (none : part = 0)
    (value rest : BitVec width) : (if condition && part != 0 then value else rest) = rest := by
  rw [none, bne_self_eq_false, Bool.and_false]
  rfl

private theorem sent_set {part : BitVec width} (is : condition = true)
    (set : part ≠ 0) : (condition && part != 0) = true := by
  rw [is, bne_iff_ne.mpr set]
  rfl

theorem readBack_wild (zero : mask.get field = 0) : (readBack flow mask).mask.get field = 0 := by
  by_cases overlap : field.overlaps
  · obtain ⟨base, -, clear, -, union⟩ := readBack_union flow mask
    rcases overlap with rfl | rfl | rfl
    · have src : mask.nwSrc = 0 := zero
      change (readBack flow mask).mask.nwSrc6.extractLsb' 96 32 = 0
      rw [union]
      split
      · exact src
      · exact (nwSrc_ipv4Read flow mask clear mask).trans (if_unset _ src _ _)
    · have dst : mask.nwDst = 0 := zero
      change (readBack flow mask).mask.nwSrc6.extractLsb' 64 32 = 0
      rw [union]
      split
      · exact dst
      · exact (nwDst_ipv4Read flow mask clear mask).trans (if_unset _ dst _ _)
    · have src : mask.nwSrc6 = 0 := zero
      change (readBack flow mask).mask.nwSrc6 = 0
      rw [union, if_unset _ src, ipv4Read, if_unset _ (nwSrc_of_zero src),
        if_unset _ (nwDst_of_zero src), Flow.setNwDst_nwDst, Flow.setNwSrc_nwSrc]
      exact clear
  · exact (readBack_get flow mask overlap).2.trans (if_unset _ zero _ _)

/-- Where the IPv6 source is not read, a masked IPv4 address of a known type is. -/
private theorem sendsIpv4_of_not (known : (sendsIpv4 flow mask || sendsIpv6 flow mask) = true)
    (set : mask.nwSrc6 ≠ 0) (other : ¬(sendsIpv6 flow mask && mask.nwSrc6 != 0) = true) :
    sendsIpv4 flow mask = true := by
  cases ipv6 : sendsIpv6 flow mask with
  | false => rwa [ipv6, Bool.or_false] at known
  | true => exact absurd (sent_set ipv6 set) other

theorem readBack_kept (set : mask.get field ≠ 0) (sent : field.sent flow mask = true) :
    (readBack flow mask).flow.get field = field.valueRead (flow.get field) ∧
      (readBack flow mask).mask.get field = field.maskRead (mask.get field) := by
  by_cases overlap : field.overlaps
  · obtain ⟨base, clearFlow, clearMask, unionFlow, unionMask⟩ := readBack_union flow mask
    rcases overlap with rfl | rfl | rfl
    · have src : mask.nwSrc ≠ 0 := set
      have src6 : mask.nwSrc6 ≠ 0 := fun zero => src (nwSrc_of_zero zero)
      change (readBack flow mask).flow.nwSrc6.extractLsb' 96 32 = flow.nwSrc ∧
        (readBack flow mask).mask.nwSrc6.extractLsb' 96 32 = mask.nwSrc
      rw [unionFlow, unionMask]
      split
      · exact ⟨rfl, rfl⟩
      · rename_i other
        have ipv4 := sent_set (sendsIpv4_of_not flow mask sent src6 other) src
        exact ⟨(nwSrc_ipv4Read flow mask clearFlow flow).trans (if_pos ipv4),
          (nwSrc_ipv4Read flow mask clearMask mask).trans (if_pos ipv4)⟩
    · have dst : mask.nwDst ≠ 0 := set
      have src6 : mask.nwSrc6 ≠ 0 := fun zero => dst (nwDst_of_zero zero)
      change (readBack flow mask).flow.nwSrc6.extractLsb' 64 32 = flow.nwDst ∧
        (readBack flow mask).mask.nwSrc6.extractLsb' 64 32 = mask.nwDst
      rw [unionFlow, unionMask]
      split
      · exact ⟨rfl, rfl⟩
      · rename_i other
        have ipv4 := sent_set (sendsIpv4_of_not flow mask sent src6 other) dst
        exact ⟨(nwDst_ipv4Read flow mask clearFlow flow).trans (if_pos ipv4),
          (nwDst_ipv4Read flow mask clearMask mask).trans (if_pos ipv4)⟩
    · have src6 := sent_set sent set
      exact ⟨unionFlow.trans (if_pos src6), unionMask.trans (if_pos src6)⟩
  · obtain ⟨value, back⟩ := readBack_get flow mask overlap
    have now := sent_set sent set
    exact ⟨value.trans (if_pos now), back.trans (if_pos now)⟩

end

/-- Fields the encoder passes over although their mask may be set. -/
def FlowField.passedOver (flow mask : Flow) : FlowField → Bool
  | .tunnelId => true
  | .nwTos => !sendsIp flow mask
  | .tpSrc | .tpDst => flow.nwProto == ipTypeSctp
  | .nwSrc6 | .nwDst6 => !sendsIpv6 flow mask
  | _ => false

section

variable {norm : NormFlow}

private theorem sendsMpls_of_typeIn (typed : norm.typeIn [ethTypeMpls] = true) :
    sendsMpls norm.fl norm.mask = true := by
  simp only [NormFlow.typeIn, List.contains_cons, List.contains_nil, Bool.or_false] at typed
  rw [sendsMpls, Bool.and_or_distrib_left, typed, Bool.true_or]

private theorem sends_of_typeIn (typed : norm.typeIn [ethTypeIp, ethTypeIpv6, ethTypeArp] = true) :
    (sendsIpv4 norm.fl norm.mask || sendsIpv6 norm.fl norm.mask) = true := by
  simp only [NormFlow.typeIn, List.contains_cons, List.contains_nil, Bool.or_false] at typed
  simp only [sendsIpv4, sendsIpv6]
  grind

private theorem sendsIp_of_typeIn (typed : norm.typeIn [ethTypeIp, ethTypeIpv6] = true) :
    sendsIp norm.fl norm.mask = true := by
  simp only [NormFlow.typeIn, List.contains_cons, List.contains_nil, Bool.or_false] at typed
  exact typed

/-- The ports of a normal mask are those of TCP, UDP or SCTP. -/
private theorem ports_sent (normal : norm.Normal)
    (notSctp : (norm.fl.nwProto == ipTypeSctp) = false)
    (set : ¬(norm.mask.tpDst = 0 ∧ norm.mask.tpSrc = 0)) : (sendsProto norm.fl norm.mask &&
      (norm.fl.nwProto == ipTypeUdp || norm.fl.nwProto == ipTypeTcp)) = true := by
  have typed : norm.typeIn [ethTypeIp, ethTypeIpv6] = true := by
    by_contra other
    exact set (normal.ports (.inl (Bool.eq_false_of_not_eq_true other)))
  have ports : norm.hasPorts = true := by
    by_contra other
    exact set (normal.ports (.inr (Bool.eq_false_of_not_eq_true other)))
  simp only [NormFlow.hasPorts, List.contains_cons, List.contains_nil, Bool.or_false, notSctp,
    Bool.false_or, Bool.and_eq_true] at ports
  rw [sendsProto, sendsIp_of_typeIn typed, ports.1, Bool.or_comm, ports.2]
  rfl

theorem sent_of_normal (normal : norm.Normal) (set : norm.mask.get field ≠ 0)
    (covered : field.passedOver norm.fl norm.mask = false) :
    field.sent norm.fl norm.mask = true := by
  have typed {types : List (BitVec 16)} (missing : norm.typeIn types = false →
      norm.mask.get field = 0) :
      norm.typeIn types = true := by
    by_contra other
    exact set (missing (Bool.eq_false_of_not_eq_true other))
  cases field with
  | dlVlanPcp => exact bne_iff_ne.mpr fun zero => set (normal.vlan zero)
  | mplsTc => exact sendsMpls_of_typeIn (typed fun other => (normal.mpls other).1)
  | mplsBos => exact sendsMpls_of_typeIn (typed fun other => (normal.mpls other).2.1)
  | mplsLabel => exact sendsMpls_of_typeIn (typed fun other => (normal.mpls other).2.2)
  | nwSrc => exact sends_of_typeIn (typed fun other => (normal.address other).1)
  | nwDst => exact sends_of_typeIn (typed fun other => (normal.address other).2)
  | nwSrc6 | nwDst6 | nwTos => exact Bool.not_inj covered
  | nwProto => exact sendsIp_of_typeIn (typed normal.proto)
  | tpSrc => exact ports_sent normal covered fun zero => set zero.2
  | tpDst => exact ports_sent normal covered fun zero => set zero.1
  | tunnelId => cases covered
  | _ => rfl

end

/-- A normalized flow and mask are accepted by the decoder and come back field by field. -/
theorem oxm_round_trip (fl mask : Flow) (valid : (of131FlowNormalize fl mask).ret ≠ -1) :
    let norm := of131FlowNormalize fl mask
    let result := of131OfpxMatchToFlow (of131PrepOfpxMatch norm.fl norm.mask)
    result.1 = 0 ∧ ∀ field : FlowField,
      (norm.mask.get field = 0 → result.2.out.mask.get field = 0) ∧
      (norm.mask.get field ≠ 0 → field.passedOver norm.fl norm.mask = false →
        result.2.out.flow.get field = field.valueRead (norm.fl.get field) ∧
        result.2.out.mask.get field = field.maskRead (norm.mask.get field)) := by
  intro norm result
  have normal : norm.Normal := of131FlowNormalize_normal valid
  have back : result.2.out = readBack norm.fl norm.mask :=
    (of131OfpxMatchToFlow_prep norm.fl norm.mask).2
  refine ⟨(of131OfpxMatchToFlow_prep norm.fl norm.mask).1, ?_⟩
  intro field
  rw [back]
  constructor
  · intro zero
    exact readBack_wild norm.fl norm.mask zero
  · intro set covered
    exact readBack_kept norm.fl norm.mask set (sent_of_normal normal set covered)

private def webFlow : Flow :=
  { dlType := ethTypeIp, nwSrc6 := 0x0a000001#32 ++ 0#96, nwProto := ipTypeTcp, tpDst := 80 }

private def webMask : Flow :=
  { dlType := 0xffff, nwSrc6 := 0xffffff00#32 ++ 0#96, nwProto := 0xff, tpDst := 0xffff }

theorem oxm_round_trip_web :
    let norm := of131FlowNormalize webFlow webMask
    norm.ret ≠ -1 ∧ norm.mask.get .nwSrc ≠ 0 ∧
      (of131OfpxMatchToFlow (of131PrepOfpxMatch norm.fl norm.mask)).2.out.mask.get .nwSrc =
        FlowField.nwSrc.maskRead (norm.mask.get .nwSrc) :=
  ⟨by decide, by
    decide, (((oxm_round_trip webFlow webMask (by decide)).2 .nwSrc).2 (by decide) rfl).2⟩

/-- A partly masked Ethernet address comes back exact. -/
theorem partial_ethernet_mask_widened :
    let norm := of131FlowNormalize { dlDst := 0x010203040506 } { dlDst := 0xffffff000000 }
    norm.ret = 0 ∧ norm.mask.get .dlDst ≠ 0 ∧
      (of131OfpxMatchToFlow (of131PrepOfpxMatch norm.fl norm.mask)).2.out.mask.get .dlDst ≠
        norm.mask.get .dlDst := by
  decide

end OpenMul
