import OpenMul.Core.FlowField
import OpenMul.Core.Message

namespace OpenMul

def makeInetMask (len : Nat) : BitVec 32 := if len = 0 then 0 else ~~~((1 <<< (32 - len)) - 1)

/-- The prefix length in the six bits of a word of wildcards, whose top bit is
`OFPFW_NW_*_ALL`. -/
def wcPrefLen (wildcards : BitVec 32) (shift : Nat) : Nat :=
  if wildcards.getLsbD (shift + 5) then 0 else 32 - ((wildcards >>> shift) &&& 0x3f).toNat

def unlessWild {width : Nat} (wildcards : BitVec 32) (bit : Nat) : BitVec width :=
  if wildcards.getLsbD bit then 0 else BitVec.allOnes width

/-- `of10_wc_to_mask`. -/
def of10WcToMask (wildcards : BitVec 32) : Flow where
  inPort := unlessWild wildcards 0
  dlVlan := unlessWild wildcards 1
  dlSrc := unlessWild wildcards 2
  dlDst := unlessWild wildcards 3
  dlType := unlessWild wildcards 4
  nwProto := unlessWild wildcards 5
  tpSrc := unlessWild wildcards 6
  tpDst := unlessWild wildcards 7
  nwSrc6 := makeInetMask (wcPrefLen wildcards 8) ++ (makeInetMask (wcPrefLen wildcards 14) ++ 0#64)
  dlVlanPcp := unlessWild wildcards 20
  nwTos := unlessWild wildcards 21
  tableId := 0xff
  pad := BitVec.allOnes 48

/-- A wildcard of 32 bits or more is `OFPFW_NW_*_ALL`. -/
def capNw (shift : Nat) (wildcards : BitVec 32) : BitVec 32 :=
  if ((wildcards &&& (0x3f#32 <<< shift)) >>> shift).toNat ≥ 32 then
    (wildcards &&& ~~~(0x3f#32 <<< shift)) ||| (32#32 <<< shift)
  else wildcards

/-- The fields above Ethernet, cleared and wildcarded. -/
def clearNetwork (fl : Flow) (wildcards : BitVec 32) : Flow × BitVec 32 :=
  (({ fl with tpSrc := 0, tpDst := 0, nwTos := 0, nwProto := 0 }.setNwSrc 0).setNwDst 0,
    wildcards ||| 0x2820e0)

/-- The fields above Ethernet, as far as the type of the frame has them. -/
def correctNetwork (fl : Flow) (wildcards : BitVec 32) : Flow × BitVec 32 :=
  if wildcards.getLsbD 4 then clearNetwork fl wildcards
  else if fl.dlType = ethTypeArp then
    ({ fl with nwProto := 0, nwTos := 0, tpSrc := 0, tpDst := 0 }, wildcards ||| 0x2000e0)
  else if fl.dlType = ethTypeIp then
    if wildcards.getLsbD 5 then ({ fl with tpSrc := 0, tpDst := 0 }, wildcards ||| 0xc0)
    else (fl, wildcards)
  else clearNetwork fl wildcards

/-- `of10_flow_correction`; `none` is its error. -/
def of10FlowCorrection (fl mask : Flow) : Option (Flow × Flow) :=
  let wildcards := of10MaskToWc mask
  if !wildcards.getLsbD 0 && fl.inPort == 0 then none
  else
    let corrected := correctNetwork fl (capNw 8 (capNw 14 wildcards))
    some (corrected.1, of10WcToMask corrected.2)

/-- The fields that all decoders copy. None of them reads `nw_tos`. -/
def Ofp10Match.flow (fields : Ofp10Match) (inPort : BitVec 32) : Flow where
  inPort
  dlSrc := fields.dlSrc
  dlDst := fields.dlDst
  dlVlan := fields.dlVlan
  dlType := fields.dlType
  dlVlanPcp := fields.dlVlanPcp
  nwSrc6 := fields.nwSrc ++ (fields.nwDst ++ 0#64)
  nwProto := fields.nwProto
  tpSrc := fields.tpSrc
  tpDst := fields.tpDst

/-- The flow and the mask of `of10_proc_one_flow_stats`. -/
def Ofp10Match.procOneFlowStats (fields : Ofp10Match) : Flow × Flow :=
  (fields.flow (fields.inPort.setWidth 32), of10WcToMask fields.wildcards)

/-- The flow and the mask of `of10_flow_removed`. The port is stored as it came,
in the first two bytes of the field on a little-endian host. -/
def of10FlowRemoved (fields : Ofp10Match) : Flow × Flow :=
  (fields.flow (fields.inPort ++ 0#16), of10WcToMask fields.wildcards)

/-- The flow and the mask of `of10_recv_flow_mod_failed`, which decodes alike. -/
def of10RecvFlowModFailed (fields : Ofp10Match) : Flow × Flow := of10FlowRemoved fields

/-- A decoder gives back the mask, and every matched field. The address union is
looked at in its IPv4 view. -/
structure Restores (fl mask : Flow) (decoded : Flow × Flow) : Prop where
  masks : decoded.2 = mask
  fields : ∀ field, field ≠ .nwSrc6 → field ≠ .nwDst6 → mask.get field ≠ 0 →
    decoded.1.get field = fl.get field

theorem cCountOneBits_makeInetMask : ∀ len ≤ 32, cCountOneBits (makeInetMask len) = len := by
  decide

theorem wcPrefLen_le (wildcards : BitVec 32) (shift : Nat) : wcPrefLen wildcards shift ≤ 32 := by
  unfold wcPrefLen
  split <;> omega

/-- The six bits of a prefix length. -/
def prefBits (mask : BitVec 32) : BitVec 6 := BitVec.ofNat 6 (32 - cCountOneBits mask)

theorem nwWildcard_eq (mask : BitVec 32) : nwWildcard mask = (prefBits mask).setWidth 32 ∧
      (if (prefBits mask).getLsbD 5 then 0 else 32 - (prefBits mask).toNat) =
        cCountOneBits mask := by
  have bound : cCountOneBits mask ≤ 32 := List.length_filter_le _ _
  have table : ∀ count ≤ 32, let six := BitVec.ofNat 6 (32 - count)
      (if count = 0 then 32 else BitVec.ofNat 32 (32 - count) &&& 0x3f) = six.setWidth 32 ∧
        (if six.getLsbD 5 then 0 else 32 - six.toNat) = count := by
    decide
  exact table _ bound

theorem getLsbD_wildcardIf (condition : Bool) (word : BitVec 32) (bit : Nat) :
    (wildcardIf condition word).getLsbD bit = (condition && word.getLsbD bit) := by
  cases condition <;> simp [wildcardIf]

/-- The bits outside the prefix lengths say which fields of the mask are zero. -/
theorem getLsbD_of10MaskToWc (mask : Flow) :
    (of10MaskToWc mask).getLsbD 0 = (mask.inPort == 0) ∧
      (of10MaskToWc mask).getLsbD 1 = (mask.dlVlan == 0) ∧
    (of10MaskToWc mask).getLsbD 2 = (mask.dlSrc == 0) ∧
      (of10MaskToWc mask).getLsbD 3 = (mask.dlDst == 0) ∧
    (of10MaskToWc mask).getLsbD 4 = (mask.dlType == 0) ∧
      (of10MaskToWc mask).getLsbD 5 = (mask.nwProto == 0) ∧
    (of10MaskToWc mask).getLsbD 6 = (mask.tpSrc == 0) ∧
      (of10MaskToWc mask).getLsbD 7 = (mask.tpDst == 0) ∧
    (of10MaskToWc mask).getLsbD 20 = (mask.dlVlanPcp == 0) ∧
    (of10MaskToWc mask).getLsbD 21 = (mask.nwTos == 0) := by
  simp only [of10MaskToWc, BitVec.getLsbD_or, BitVec.getLsbD_shiftLeft, getLsbD_wildcardIf,
    (nwWildcard_eq _).1, BitVec.getLsbD_setWidth]
  simp

theorem wcPrefLen_of_bits {word : BitVec 32}
    (bits : ∀ bit, bit < 6 → word.getLsbD (shift + bit) = (prefBits mask).getLsbD bit) :
    wcPrefLen word shift = cCountOneBits mask := by
  have six : (word >>> shift).setWidth 6 = prefBits mask := by
    apply BitVec.eq_of_getLsbD_eq
    intro bit inside
    simp [inside, bits]
  have low : ((word >>> shift) &&& 0x3f).toNat = (prefBits mask).toNat := by
    rw [← six]
    exact Nat.and_two_pow_sub_one_eq_mod _ 6
  rw [wcPrefLen, bits 5 (by decide), low]
  exact (nwWildcard_eq mask).2

theorem wcPrefLen_of10MaskToWc (mask : Flow) :
    wcPrefLen (of10MaskToWc mask) 8 = cCountOneBits mask.nwSrc ∧
      wcPrefLen (of10MaskToWc mask) 14 = cCountOneBits mask.nwDst := by
  constructor <;> apply wcPrefLen_of_bits <;> intro bit inside <;>
    simp only [of10MaskToWc, BitVec.getLsbD_or, BitVec.getLsbD_shiftLeft, getLsbD_wildcardIf,
      (nwWildcard_eq _).1, BitVec.getLsbD_setWidth] <;>
    obtain rfl | rfl | rfl | rfl | rfl | rfl : bit = 0 ∨ bit = 1 ∨ bit = 2 ∨ bit = 3 ∨ bit = 4 ∨
        bit = 5 := by
      omega
  all_goals simp

theorem unlessWild_eq_zero (wide : 0 < width) (wildcards : BitVec 32) (bit : Nat) :
    ((unlessWild wildcards bit : BitVec width) == 0) = wildcards.getLsbD bit := by
  unfold unlessWild
  cases wildcards.getLsbD bit
  · simp [wide.ne']
  · simp

theorem addresses (src dst : BitVec 32) (rest : BitVec 64) :
    (src ++ (dst ++ rest)).extractLsb' 96 32 = src ∧
      (src ++ (dst ++ rest)).extractLsb' 64 32 = dst := by
  constructor
  · exact BitVec.extractLsb'_append_eq_left
  · rw [BitVec.extractLsb'_append_eq_of_add_le (by decide)]
    exact BitVec.extractLsb'_append_eq_left

/-- A mask made of wildcards is not changed by turning it into wildcards again. -/
theorem of10WcToMask_again (wildcards : BitVec 32) :
    of10WcToMask (of10MaskToWc (of10WcToMask wildcards)) = of10WcToMask wildcards := by
  have flags := getLsbD_of10MaskToWc (of10WcToMask wildcards)
  have prefs := wcPrefLen_of10MaskToWc (of10WcToMask wildcards)
  generalize of10MaskToWc (of10WcToMask wildcards) = word at flags prefs ⊢
  simp only [of10WcToMask, unlessWild_eq_zero, Nat.zero_lt_succ] at flags
  simp only [of10WcToMask, Flow.nwSrc, Flow.nwDst, addresses,
    cCountOneBits_makeInetMask _ (wcPrefLen_le _ _)] at prefs
  simp only [of10WcToMask, unlessWild, flags, prefs]

/-- A decoder restores a corrected match up to the type of service and the port. -/
theorem restores_iff {mask : Flow} (made : mask = of10WcToMask wildcards) (inPort : BitVec 32) :
    Restores fl mask ((of10PrepMatch fl mask).flow inPort,
      of10WcToMask (of10PrepMatch fl mask).wildcards) ↔
      (mask.inPort = 0 ∨ inPort = fl.inPort) ∧ (mask.nwTos = 0 ∨ fl.nwTos = 0) := by
  have again : of10WcToMask (of10PrepMatch fl mask).wildcards = mask := by
    rw [made]
    exact of10WcToMask_again wildcards
  rw [again]
  constructor
  · intro restored
    constructor
    · exact or_iff_not_imp_left.mpr (restored.fields .inPort (by decide) (by decide))
    · refine or_iff_not_imp_left.mpr fun matched => ?_
      exact (restored.fields .nwTos (by decide) (by decide) matched).symm
  · rintro ⟨port, tos⟩
    refine ⟨rfl, ?_⟩
    intro field notSrc notDst matched
    cases field with
    | inPort => exact port.resolve_left matched
    | nwTos => exact (tos.resolve_left matched).symm
    | nwSrc => exact (addresses _ _ _).1
    | nwDst => exact (addresses _ _ _).2
    | nwSrc6 => exact absurd rfl notSrc
    | nwDst6 => exact absurd rfl notDst
    | metadata | mplsLabel | mplsTc | mplsBos | tunnelId => exact absurd (by rw [made]; rfl) matched
    | _ => rfl

/-- What the decoders rebuild from the match that is sent for a corrected flow. -/
theorem of10_match_restored_iff {fl mask flow rewritten : Flow}
    (accepted : of10FlowCorrection fl mask = some (flow, rewritten))
    (expressible : flow.inPort.toNat < 2 ^ 16) :
    (Restores flow rewritten (Ofp10Match.procOneFlowStats (of10PrepMatch flow rewritten)) ∧
      Restores flow rewritten (of10FlowRemoved (of10PrepMatch flow rewritten)) ∧
      Restores flow rewritten (of10RecvFlowModFailed (of10PrepMatch flow rewritten))) ↔
      (rewritten.inPort = 0 ∨ flow.inPort = 0) ∧ (rewritten.nwTos = 0 ∨ flow.nwTos = 0) := by
  obtain ⟨wildcards, made⟩ : ∃ wildcards, rewritten = of10WcToMask wildcards := by
    simp only [of10FlowCorrection] at accepted
    split at accepted
    · cases accepted
    · exact ⟨_, (congrArg Prod.snd (Option.some_inj.mp accepted)).symm⟩
  have whole : (of10PrepMatch flow rewritten).inPort.setWidth 32 = flow.inPort := by
    apply BitVec.eq_of_toNat_eq
    simp [of10PrepMatch]
    omega
  have moved : (of10PrepMatch flow rewritten).inPort ++ 0#16 = flow.inPort ↔ flow.inPort = 0 := by
    rw [← BitVec.toNat_inj, ← BitVec.toNat_inj, BitVec.toNat_append, Nat.shiftLeft_eq]
    simp [of10PrepMatch]
    omega
  simp only [of10RecvFlowModFailed, of10FlowRemoved, Ofp10Match.procOneFlowStats, restores_iff made,
    moved]
  exact ⟨fun all => all.2.1, fun both => ⟨⟨.inr whole, both.2⟩, both, both⟩⟩

/-- A match on an address comes back from all decoders. -/
theorem of10_match_restored_address :
    ∃ flow rewritten, of10FlowCorrection { dlType := 0x800, nwSrc6 := 5 <<< 96 }
        { dlType := 1, nwSrc6 := 0xffffffff <<< 96 } = some (flow, rewritten) ∧ flow.nwSrc = 5 ∧
      Restores flow rewritten (of10FlowRemoved (of10PrepMatch flow rewritten)) :=
  ⟨_, _, rfl, by decide, ((@of10_match_restored_iff { dlType := 0x800, nwSrc6 := 5 <<< 96 }
    { dlType := 1, nwSrc6 := 0xffffffff <<< 96 } _ _ rfl (by decide)).mpr (by decide)).2.1⟩

/-- A match on an input port and a type of service loses both. -/
theorem of10_match_not_restored :
    ∃ flow rewritten, of10FlowCorrection { inPort := 1, dlType := 0x800, nwTos := 8 }
        { inPort := 1, dlType := 1, nwTos := 1 } = some (flow, rewritten) ∧
      (rewritten.inPort ≠ 0 ∧
        (of10FlowRemoved (of10PrepMatch flow rewritten)).1.inPort ≠ flow.inPort) ∧
      rewritten.nwTos ≠ 0 ∧
        (Ofp10Match.procOneFlowStats (of10PrepMatch flow rewritten)).1.nwTos ≠ flow.nwTos :=
  ⟨_, _, rfl, by decide⟩

end OpenMul
