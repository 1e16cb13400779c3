import OpenMul.Core.Oxm

namespace OpenMul

open Lib (toBytes wordAt wordAt_toBytes)

namespace OxmTlv

theorem ntoh_hdr (tlv : OxmTlv) (rest : List Byte) :
    OxmHdr.ntoh (tlv.hdr.hton ++ rest) = tlv.hdr := by
  have basic : ofpxmcOpenflowBasic.extractLsb' 8 8 ++ ofpxmcOpenflowBasic.extractLsb' 0 8 =
      ofpxmcOpenflowBasic := rfl
  simp [OxmHdr.ntoh, OxmHdr.hton, hdr, basic]

private def fieldHm (field : MatchField) (hm : Bool) : Byte :=
  ofpOxmShdrField (ofpOxmShdrHm 0 (if hm then 1 else 0)) (BitVec.ofNat 8 field.ofb)

variable (tlv : OxmTlv)

theorem field_hdr : tlv.hdr.field = tlv.field.ofb := by
  have read (field : MatchField) (hm : Bool) :
      (ofpOxmGhdrField (fieldHm field hm)).toNat = field.ofb := by
    cases field <;> cases hm <;> decide
  exact read tlv.field tlv.hasMask

theorem hm_hdr : tlv.hdr.hm = tlv.hasMask := by
  have read (field : MatchField) (hm : Bool) : (ofpOxmGhdrHm (fieldHm field hm) != 0) = hm := by
    cases field <;> cases hm <;> decide
  exact read tlv.field tlv.hasMask

theorem size_bounds : 0 < tlv.size ∧ tlv.size ≤ 16 := by
  have bounds (field : FlowField) : 0 < field.size ∧ field.size ≤ 16 := by
    cases field <;> decide
  exact bounds tlv.field.target

theorem length_bounds : 0 < tlv.length ∧ tlv.length ≤ 32 := by
  have bounds := tlv.size_bounds
  rw [length]
  split <;> omega

theorem length_hdr : tlv.hdr.length.toNat = tlv.length := by
  have bounds := tlv.length_bounds
  exact Nat.mod_eq_of_lt (by omega)

end OxmTlv

/-- The decoder takes the field from its bytes, whatever follows them. -/
structure Takes (tlv : OxmTlv) (out taken : OxmOut) : Prop where
  length : tlv.data.length = tlv.length
  case : ∀ (len : Int) (rest : List Byte), (tlv.length : Int) ≤ len →
    oxmCase tlv.hdr len (tlv.data ++ rest) out = .store tlv.length taken

inductive OxmRun : List OxmTlv → OxmOut → OxmOut → Prop where
  | nil (out : OxmOut) : OxmRun [] out out
  | cons {tlv : OxmTlv} {rest : List OxmTlv} {out middle final : OxmOut} :
      Takes tlv out middle → OxmRun rest middle final → OxmRun (tlv :: rest) out final

theorem OxmRun.append (first : OxmRun front out middle) (second : OxmRun back middle final) :
    OxmRun (front ++ back) out final := by
  induction first with
  | nil => exact second
  | cons taken _ ih => exact .cons taken (ih second)

theorem oxmLoop_store {rest : List Byte} {room : Nat} {scan : OxmScan} {tlv : OxmTlv}
    {taken : OxmOut} (takes : Takes tlv scan.out taken)
    (bytes : ofx.drop scan.oxmPtr = tlv.bytes ++ rest) (len : (tlv.bytes.length : Int) ≤ scan.len) :
    ∃ reach, oxmLoop ofx (room + 1) scan = oxmLoop ofx room
      { len := scan.len - tlv.bytes.length, oxmPtr := scan.oxmPtr + tlv.bytes.length, out := taken,
        reach := reach } := by
  have size : tlv.bytes.length = tlv.length + oxmHdrSz := by
    rw [OxmTlv.bytes, List.length_append, takes.length, Nat.add_comm]
    rfl
  have more : scan.len > oxmHdrSz := by
    have positive := tlv.length_bounds
    omega
  have header : OxmHdr.ntoh (ofx.drop scan.oxmPtr) = tlv.hdr := by
    rw [bytes, OxmTlv.bytes, List.append_assoc, tlv.ntoh_hdr]
  have data : (ofx.drop scan.oxmPtr).drop oxmHdrSz = tlv.data ++ rest := by
    rw [bytes, OxmTlv.bytes]
    rfl
  have stored : oxmCase tlv.hdr (scan.look 0 oxmHdrSz).len (tlv.data ++ rest)
      (scan.look 0 oxmHdrSz).out = .store tlv.length taken :=
    takes.case scan.len rest (by omega)
  rw [oxmLoop, if_pos more]
  dsimp only
  rw [header, data, stored]
  rw [tlv.length_hdr, size]
  exact ⟨_, rfl⟩

/-- A whole run over encoded fields, whatever padding follows them. -/
theorem oxmLoop_run {pad : List Byte} {tlvs : List OxmTlv} {out final : OxmOut}
    (run : OxmRun tlvs out final) {room : Nat} (enough : tlvs.length ≤ room) {scan : OxmScan}
    (start : scan.out = out) (bytes : ofx.drop scan.oxmPtr = tlvs.flatMap OxmTlv.bytes ++ pad)
    (len : scan.len = (tlvs.flatMap OxmTlv.bytes).length) :
    (oxmLoop ofx room scan).1 = 0 ∧ (oxmLoop ofx room scan).2.out = final := by
  induction run generalizing room scan with
  | nil out =>
    have done : ¬scan.len > oxmHdrSz := by
      rw [len]
      decide
    rw [oxmLoop, if_neg done]
    exact ⟨rfl, start⟩
  | cons takes _ ih =>
    rename_i tlv rest out middle final _
    cases room with
    | zero => simp at enough
    | succ room =>
      subst start
      rw [List.flatMap_cons, List.append_assoc] at bytes
      rw [List.flatMap_cons, List.length_append] at len
      obtain ⟨reach, step⟩ := @oxmLoop_store ofx _ room scan tlv middle takes bytes (by omega)
      rw [step]
      apply ih (by simpa using enough) rfl
      · rw [← List.drop_drop, bytes, List.drop_left]
      · simp only [len]
        omega

namespace OxmTlv

variable (field : MatchField) {width : Nat} (value mask : BitVec width)

theorem length_exact : (exact field value).length = field.target.size := rfl

theorem length_masked : (masked field value mask).length = 2 * field.target.size := rfl

/-- An MPLS label is written like any other field: the size the source passes
is never three. -/
theorem data_exact : (exact field value).data = toBytes field.target.size value.toNat := by
  by_cases label : field = .mplsLabel
  · subst label
    have notThree : ofpxmcOpenflowBasic.extractLsb' 8 8 ≠ (3 : Byte) := by decide
    exact if_neg notThree
  · exact if_neg label

variable {field} in
theorem data_masked (other : field ≠ .mplsLabel) : (masked field value mask).data =
    toBytes field.target.size value.toNat ++ toBytes field.target.size mask.toNat :=
  if_neg other

end OxmTlv

namespace MatchField

/-- The field may come with a mask. -/
def maskable : MatchField → Bool
  | metadata | ethDst | ethSrc | arpSpa | arpTpa | ipv4Src | ipv4Dst | ipv6Src | ipv6Dst => true
  | _ => false

/-- The fields it depends on were read before. -/
def admitted (flow : Flow) : MatchField → Bool
  | mplsLabel | mplsTc | mplsBos => flow.dlType == ethTypeMpls || flow.dlType == ethTypeMplsMcast
  | arpSpa | arpTpa => flow.dlType == ethTypeArp
  | ipv4Src | ipv4Dst => flow.dlType == ethTypeIp
  | ipv6Src | ipv6Dst => flow.dlType == ethTypeIpv6
  | ipDscp | ipProto | nwTos => flow.dlType == ethTypeIp || flow.dlType == ethTypeIpv6
  | tcpSrc | tcpDst | udpSrc | udpDst | tpSrc | tpDst =>
    (flow.dlType == ethTypeIp || flow.dlType == ethTypeIpv6) &&
      (flow.nwProto == ipTypeUdp || flow.nwProto == ipTypeTcp)
  | _ => true

/-- The VLAN id and the MPLS label have cases of their own. -/
def plain (field : MatchField) : Prop := field ≠ .vlanVid ∧ field ≠ .mplsLabel

end MatchField

/-- The switch ends like the field's case whenever that case stores the field. -/
theorem oxmCase_store {field : MatchField} {out : OxmOut} (plain : field.plain)
    (admitted : field.admitted out.flow = true) {oxm : OxmHdr} (number : oxm.field = field.ofb)
    (stored : (if field.maskable then oxmMasked else oxmExact) oxm len data out field.target =
      .store reads taken) : oxmCase oxm len data out = .store reads taken := by
  rw [oxmCase, number]
  cases field with
  | vlanVid => exact absurd rfl plain.1
  | mplsLabel => exact absurd rfl plain.2
  | inPort | metadata | ethDst | ethSrc | ethType | vlanPcp => exact stored
  | tcpSrc | udpSrc | tpSrc => exact (if_pos admitted).trans (congrArg OxmCase.lenient stored)
  | _ => exact (if_pos admitted).trans stored

section

variable {field : MatchField} {out : OxmOut}

theorem wordAt_value {field : FlowField} (value : BitVec field.width) (rest : List Byte) :
    wordAt field.width (toBytes field.size value.toNat ++ rest) = value := by
  rw [wordAt_toBytes field.width_eq]
  simp

theorem oxmExact_store {field : FlowField} (noMask : oxm.hm = false)
    (length : oxm.length.toNat = field.size) (room : (field.size : Int) ≤ len)
    (value : BitVec field.width) (rest : List Byte) (out : OxmOut) :
    oxmExact oxm len (toBytes field.size value.toNat ++ rest) out field =
      .store field.size ⟨out.flow.put field value, out.mask.put field (BitVec.allOnes _)⟩ := by
  have passed : ¬(oxm.hm || len < field.size || oxm.length.toNat != field.size) = true := by
    simp [noMask, length, room]
  rw [oxmExact, if_neg passed, wordAt_value]

theorem oxmMasked_store {field : FlowField} (hasMask : oxm.hm = true)
    (length : oxm.length.toNat = 2 * field.size) (room : ((2 * field.size : Nat) : Int) ≤ len)
    (value mask : BitVec field.width) (rest : List Byte) (out : OxmOut) :
    oxmMasked oxm len (toBytes field.size value.toNat ++ (toBytes field.size mask.toNat ++ rest))
        out field = .store (2 * field.size) ⟨out.flow.put field value,
          out.mask.put field mask⟩ := by
  have second : (toBytes field.size value.toNat ++ (toBytes field.size mask.toNat ++ rest)).drop
      field.size = toBytes field.size mask.toNat ++ rest :=
    List.drop_left' (Lib.length_toBytes _ _)
  have passed : ¬(len < (2 * field.size : Nat) || 2 * field.size != 2 * field.size) = true := by
    simpa using room
  simp only [oxmMasked, hasMask, if_true, length, if_neg passed, wordAt_value, second]

theorem oxmMasked_of_exact (noMask : oxm.hm = false) (len : Int) (data : List Byte)
    (out : OxmOut) (field : FlowField) :
    oxmMasked oxm len data out field = oxmExact oxm len data out field := by
  simp [oxmMasked, oxmExact, noMask]

theorem length_data_exact (field : MatchField) (value : BitVec width) :
    (OxmTlv.exact field value).data.length = (OxmTlv.exact field value).length := by
  rw [OxmTlv.data_exact, Lib.length_toBytes, OxmTlv.length_exact]

private theorem takes_mplsLabel (label : BitVec 32)
    (typed : MatchField.mplsLabel.admitted out.flow = true) : Takes (.exact .mplsLabel label) out
      ⟨out.flow.put .mplsLabel label, out.mask.put .mplsLabel (BitVec.allOnes _)⟩ where
  length := length_data_exact _ label
  case len rest room := by
    generalize oxmIs : (OxmTlv.exact .mplsLabel label).hdr = oxm
    have noMask : oxm.hm = false := oxmIs ▸ OxmTlv.hm_hdr _
    have length : oxm.length.toNat = 4 := oxmIs ▸ OxmTlv.length_hdr (.exact .mplsLabel label)
    have number : oxm.field = 34 := oxmIs ▸ OxmTlv.field_hdr _
    have word : wordAt 32 (toBytes 4 label.toNat ++ rest) = label :=
      @wordAt_value .mplsLabel label rest
    have wide : ¬len < 4 := Int.not_lt.mpr room
    rw [OxmTlv.data_exact]
    change oxmCase oxm len (toBytes 4 label.toNat ++ rest) out = _
    rw [oxmCase, number]
    refine (if_pos typed).trans ?_
    simp [oxmMplsLabel, noMask, length, ofGetMplsLabelOxm, word, wide]
    exact ⟨rfl, rfl, rfl⟩

theorem takes_exact (notVlan : field ≠ .vlanVid) (admitted : field.admitted out.flow = true)
    (value : BitVec field.target.width) : Takes (.exact field value) out
      ⟨out.flow.put field.target value, out.mask.put field.target (BitVec.allOnes _)⟩ := by
  by_cases label : field = .mplsLabel
  · subst label
    exact takes_mplsLabel value admitted
  · refine ⟨length_data_exact field value, ?_⟩
    intro len rest room
    have noMask : (OxmTlv.exact field value).hdr.hm = false := OxmTlv.hm_hdr _
    apply oxmCase_store ⟨notVlan, label⟩ admitted (OxmTlv.field_hdr _)
    have stored := oxmExact_store noMask (OxmTlv.length_hdr _) room value rest out
    rw [OxmTlv.data_exact]
    cases field.maskable with
    | false => exact stored
    | true => exact (oxmMasked_of_exact noMask _ _ _ _).trans stored

theorem takes_masked (maskable : field.maskable = true) (admitted : field.admitted out.flow = true)
    (value mask : BitVec field.target.width) : Takes (.masked field value mask) out
      ⟨out.flow.put field.target value, out.mask.put field.target mask⟩ := by
  have plain : field.plain := by
    constructor
    · rintro rfl
      cases maskable
    · rintro rfl
      cases maskable
  constructor
  · rw [OxmTlv.data_masked _ _ plain.2, List.length_append, Lib.length_toBytes, Lib.length_toBytes,
      OxmTlv.length_masked, Nat.two_mul]
  · intro len rest room
    apply oxmCase_store plain admitted (OxmTlv.field_hdr _)
    rw [OxmTlv.data_masked _ _ plain.2, List.append_assoc, maskable]
    exact oxmMasked_store (OxmTlv.hm_hdr _) (OxmTlv.length_hdr _) room value mask rest out

/-- The VLAN id as the decoder reads it. -/
def vlanRead (vid : BitVec 16) : BitVec 16 := if vid = ofpvidPresent then 0xfff else vid &&& 0xfff

theorem takes_vlanVid (vid : BitVec 16) : Takes (.exact .vlanVid vid) out
    ⟨out.flow.put .dlVlan (vlanRead vid), out.mask.put .dlVlan (BitVec.allOnes _)⟩ where
  length := length_data_exact _ vid
  case len rest room := by
    generalize oxmIs : (OxmTlv.exact .vlanVid vid).hdr = oxm
    have noMask : oxm.hm = false := oxmIs ▸ OxmTlv.hm_hdr _
    have length : oxm.length.toNat = 2 := oxmIs ▸ OxmTlv.length_hdr (.exact .vlanVid vid)
    have number : oxm.field = 6 := oxmIs ▸ OxmTlv.field_hdr _
    have word : wordAt 16 (toBytes 2 vid.toNat ++ rest) = vid := @wordAt_value .dlVlan vid rest
    have wide : ¬len < 2 := Int.not_lt.mpr room
    change oxmCase oxm len (toBytes 2 vid.toNat ++ rest) out = _
    simp only [oxmCase, number]
    simp [oxmVlanVid, noMask, length, word, wide, vlanRead]
    exact ⟨rfl, rfl, rfl⟩

end

end OpenMul
