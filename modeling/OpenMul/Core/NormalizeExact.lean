import OpenMul.Core.Normalize

namespace OpenMul

namespace NormFlow

/-- Whether what a field needs is matched. The addresses of both versions share
their bytes, so each of the types they belong to admits them. -/
def admits (norm : NormFlow) : FlowField → Bool
  | .dlVlanPcp => norm.mask.dlVlan != 0
  | .mplsLabel | .mplsTc | .mplsBos => norm.typeIn [ethTypeMpls, ethTypeMplsMcast]
  | .nwSrc | .nwDst | .nwSrc6 | .nwDst6 => norm.typeIn [ethTypeIp, ethTypeIpv6, ethTypeArp]
  | .nwTos | .nwProto => norm.typeIn [ethTypeIp, ethTypeIpv6]
  | .tpSrc | .tpDst => norm.typeIn [ethTypeIp, ethTypeIpv6] && norm.hasPorts
  | _ => true

end NormFlow

/-- What a call that returns no error is to leave: every field that is matched has
what it needs, every field that had it is as before, and a second call has nothing
to do. -/
structure Normalized (fl mask : Flow) (norm : NormFlow) : Prop where
  matched : ∀ field, norm.mask.get field ≠ 0 → norm.admits field = true
  kept : ∀ field, NormFlow.admits { fl, mask } field = true →
    norm.fl.get field = fl.get field ∧ norm.mask.get field = mask.get field
  again : of131FlowNormalize norm.fl norm.mask = { norm with ret := 0 }

def Flow.NormalizesExactly (fl mask : Flow) : Prop :=
  (of131FlowNormalize fl mask).ret ≠ -1 → Normalized fl mask (of131FlowNormalize fl mask)

/-- A flow without matched MPLS fields of a multicast packet, and without a service
class or an address beyond the first eight bytes that no type admits. -/
structure Clearable (fl mask : Flow) : Prop where
  mpls : NormFlow.typeIn { fl, mask } [ethTypeMplsMcast] = true →
    mask.mplsTc = 0 ∧ mask.mplsBos = 0 ∧ mask.mplsLabel = 0
  network : NormFlow.typeIn { fl, mask } [ethTypeIp, ethTypeIpv6, ethTypeArp] = false →
    mask.nwTos = 0 ∧ mask.nwSrc6.extractLsb' 0 64 = 0 ∧ mask.nwDst6 = 0

namespace NormFlow

variable {norm : NormFlow}

/-- Every field that is matched has what it needs, but for the MPLS fields of a
multicast packet. -/
structure Settled (norm : NormFlow) : Prop extends norm.Normal where
  wide : norm.typeIn [ethTypeIp, ethTypeIpv6, ethTypeArp] = false → norm.mask.nwSrc6 = 0 ∧
    norm.mask.nwDst6 = 0
  service : norm.typeIn [ethTypeIp, ethTypeIpv6] = false → norm.mask.nwTos = 0

/-- Then no block runs. -/
theorem normalized_of_settled (settled : norm.Settled) : norm.normalized = norm := by
  have vlan : norm.vlanOut = false := by simpa [vlanOut] using settled.vlan
  have mpls : norm.mplsOut = false := by
    cases typed : norm.typeIn [ethTypeMpls] with
    | true => simp [mplsOut, typeIn_mpls, typed]
    | false => simp [mplsOut, settled.mpls typed]
  have ip : norm.ipOut = false := by
    cases typed : norm.typeIn [ethTypeIp, ethTypeIpv6, ethTypeArp] with
    | true => simp [ipOut, typed]
    | false =>
      obtain ⟨other, -⟩ := Bool.or_eq_false_iff.mp (typeIn_network.symm.trans typed)
      simp [ipOut, settled.wide typed, settled.proto other, settled.ports (.inl other)]
  have arp : norm.arpOut = false := by
    cases typed : norm.typeIn [ethTypeArp] with
    | false => simp [arpOut, typed]
    | true =>
      have other := @typeIn_of_apart norm _ [ethTypeIp, ethTypeIpv6]
        (by simp [ethTypeArp, ethTypeIp, ethTypeIpv6]) typed
      simp [arpOut, settled.service other, settled.proto other, settled.ports (.inl other)]
  have l4 : norm.l4Out = false := by
    cases ports : norm.hasPorts with
    | true => simp [l4Out, ports]
    | false => simp [l4Out, settled.ports (.inr ports)]
  simp [normalized, cleared, vlan, mpls, ip, arp, l4]

theorem matched_of_settled (settled : norm.Settled) (nonzero : norm.mask.get field ≠ 0) :
    norm.admits field = true := by
  by_contra denied
  apply nonzero
  rw [Bool.not_eq_true] at denied
  cases field with
  | dlVlanPcp => exact settled.vlan (by simpa [admits] using denied)
  | mplsLabel | mplsTc | mplsBos =>
    have zero := settled.mpls
      (Bool.or_eq_false_iff.mp
        ((typeIn_append [ethTypeMpls] [ethTypeMplsMcast]).symm.trans denied)).1
    first | exact zero.1 | exact zero.2.1 | exact zero.2.2
  | nwSrc => exact (settled.address denied).1
  | nwDst => exact (settled.address denied).2
  | nwSrc6 => exact (settled.wide denied).1
  | nwDst6 => exact (settled.wide denied).2
  | nwTos => exact settled.service denied
  | nwProto => exact settled.proto denied
  | tpSrc => exact (settled.ports (Bool.and_eq_false_iff.mp denied)).2
  | tpDst => exact (settled.ports (Bool.and_eq_false_iff.mp denied)).1
  | _ => simp [admits] at denied

/-- Without a network type the service class and half of the source address stay. -/
theorem network_normalized (untyped : norm.typeIn [ethTypeIp, ethTypeIpv6, ethTypeArp] = false) :
    norm.normalized.mask.nwTos = norm.mask.nwTos ∧
      (norm.normalized.mask.nwSrc6 = 0 ↔ norm.mask.nwSrc6.extractLsb' 0 64 = 0) := by
  have arp : norm.arpOut = false := by
    simp [arpOut, (Bool.or_eq_false_iff.mp (typeIn_network.symm.trans untyped)).2]
  refine ⟨by simp [normalized, cleared, arp], ?_⟩
  cases out : norm.ipOut with
  | false => simp [normalized, cleared, out, (ip_of_out untyped out).1]
  | true =>
    have half : norm.normalized.mask.nwSrc6 = (0 : BitVec 64) ++ norm.mask.nwSrc6.extractLsb' 0
        64 := if_pos out
    rw [half, ← BitVec.toNat_inj, ← BitVec.toNat_inj, BitVec.toNat_append]
    simp

theorem settled_normalized (clearable : norm.typeIn [ethTypeIp, ethTypeIpv6, ethTypeArp] = false →
    norm.mask.nwTos = 0 ∧ norm.mask.nwSrc6.extractLsb' 0 64 = 0 ∧ norm.mask.nwDst6 = 0) :
    norm.normalized.Settled where
  toNormal := norm.normalized_normal
  wide untyped :=
    ⟨(@network_normalized norm untyped).2.mpr (clearable untyped).2.1, (clearable untyped).2.2⟩
  service other := by
    cases typed : norm.typeIn [ethTypeArp] with
    | true => exact zero_of_out fun out => (arp_of_out typed out).2.1
    | false =>
      have untyped := typeIn_network.trans (Bool.or_eq_false_iff.mpr ⟨other, typed⟩)
      exact (@network_normalized norm untyped).1.trans (clearable untyped).1

theorem normalized_again (accepted : ¬(norm.mask.inPort ≠ 0 ∧ norm.fl.inPort = 0))
    (table : norm.mask.tableId = 0xff) (settled : norm.Settled) :
    of131FlowNormalize norm.fl norm.mask = { norm with ret := 0 } := by
  have same : { norm.mask with tableId := 0xff } = norm.mask := by rw [← table]
  rw [of131FlowNormalize_eq accepted, same]
  exact @normalized_of_settled { norm with ret := 0 } { settled with }

theorem ret_normalized (begins : norm.ret = 0) : norm.normalized.ret ≠ -1 := by
  unfold normalized
  split <;> simp [begins]

theorem get_cleared (admitted : norm.admits field = true)
    (mpls : norm.typeIn [ethTypeMplsMcast] = true → norm.mplsOut = false) (flow : Flow) :
    (norm.cleared flow).get field = flow.get field := by
  have address : norm.typeIn [ethTypeIp, ethTypeIpv6, ethTypeArp] → ¬norm.ipOut := by
    simp +contextual [ipOut]
  have network : norm.typeIn [ethTypeIp, ethTypeIpv6] → ¬(norm.ipOut || norm.arpOut) := by
    intro typed
    have arp :=
      @typeIn_of_apart norm _ [ethTypeArp] (by simp [ethTypeArp, ethTypeIp, ethTypeIpv6]) typed
    simp [address (by simp [typeIn_network, typed]), arpOut, arp]
  cases field with
  | dlVlanPcp =>
    have tagged : norm.mask.dlVlan ≠ 0 := by simpa [admits] using admitted
    exact if_neg fun out => tagged (by simpa using (Bool.and_eq_true_iff.mp out).1)
  | mplsLabel | mplsTc | mplsBos =>
    refine if_neg fun out => ?_
    rcases Bool.or_eq_true_iff.mp
      ((typeIn_append [ethTypeMpls] [ethTypeMplsMcast]).symm.trans admitted) with one | one
    · simp [mplsOut, typeIn_mpls, one] at out
    · simp [mpls one] at out
  | nwSrc6 => exact if_neg (address admitted)
  | nwSrc => exact congrArg (BitVec.extractLsb' 96 32) (if_neg (address admitted))
  | nwDst => exact congrArg (BitVec.extractLsb' 64 32) (if_neg (address admitted))
  | nwTos => exact if_neg fun out => network admitted (by simp [out])
  | nwProto => exact if_neg (network admitted)
  | tpSrc | tpDst =>
    obtain ⟨typed, ports⟩ := Bool.and_eq_true_iff.mp admitted
    refine if_neg fun out => network typed ?_
    simpa [l4Out, ports] using out
  | _ => rfl

end NormFlow

open NormFlow

variable {fl mask : Flow}

theorem normalized_of_clearable (accepted : ¬(mask.inPort ≠ 0 ∧ fl.inPort = 0))
    (clearable : Clearable fl mask) : Normalized fl mask (of131FlowNormalize fl mask) := by
  rw [of131FlowNormalize_eq accepted]
  have settled :=
    @settled_normalized { fl, mask := { mask with tableId := 0xff } } clearable.network
  have multicast (typed : NormFlow.typeIn { fl, mask } [ethTypeMplsMcast] = true) :
      NormFlow.mplsOut { fl, mask } = false := by
    simp [mplsOut, clearable.mpls typed]
  constructor
  · exact fun field => matched_of_settled settled
  · intro field admitted
    refine ⟨get_cleared admitted multicast fl, (get_cleared admitted multicast _).trans ?_⟩
    cases field <;> rfl
  · exact normalized_again accepted rfl settled

theorem normalizesExactly_iff (fl mask : Flow) :
    fl.NormalizesExactly mask ↔ (mask.inPort ≠ 0 ∧ fl.inPort = 0) ∨ Clearable fl mask := by
  by_cases refused : mask.inPort ≠ 0 ∧ fl.inPort = 0
  · exact iff_of_true (fun valid => absurd (congrArg NormFlow.ret (if_pos refused)) valid)
      (.inl refused)
  rw [or_iff_right refused]
  refine ⟨fun leaves => ?_, fun clearable _ => normalized_of_clearable refused clearable⟩
  have valid : (of131FlowNormalize fl mask).ret ≠ -1 := by
    rw [of131FlowNormalize_eq refused]
    exact ret_normalized rfl
  have leaves := leaves valid
  have normal := of131FlowNormalize_normal valid
  rw [of131FlowNormalize_eq refused] at leaves normal
  refine ⟨fun typed => ?_, fun untyped => ?_⟩
  · have zero := normal.mpls (typeIn_of_apart (by simp [ethTypeMpls, ethTypeMplsMcast]) typed)
    have admitted : NormFlow.typeIn { fl, mask } [ethTypeMpls, ethTypeMplsMcast] = true :=
      (typeIn_append [ethTypeMpls] [ethTypeMplsMcast]).trans (Bool.or_eq_true_iff.mpr (.inr typed))
    exact ⟨(leaves.kept .mplsTc admitted).2.symm.trans zero.1,
      (leaves.kept .mplsBos admitted).2.symm.trans zero.2.1,
        (leaves.kept .mplsLabel admitted).2.symm.trans zero.2.2⟩
  · obtain ⟨same, half⟩ := @network_normalized { fl, mask := { mask with tableId := 0xff } } untyped
    have zero {field : FlowField} (denied : admits (normalized _) field = false) :=
      Classical.not_not.mp fun nonzero => Bool.eq_false_iff.mp denied (leaves.matched field nonzero)
    obtain ⟨other, -⟩ := Bool.or_eq_false_iff.mp (typeIn_network.symm.trans untyped)
    exact ⟨same.symm.trans (@zero .nwTos other), half.mp (@zero .nwSrc6 untyped),
      @zero .nwDst6 untyped⟩

/-- A priority without a VLAN and a port without a protocol. -/
theorem normalizesExactly_web :
    let fl : Flow := { dlType := ethTypeIp, dlVlanPcp := 3, nwTos := 8, tpDst := 80 }
    let mask : Flow := { dlType := 0xffff, dlVlanPcp := 7, nwTos := 0xff, tpDst := 0xffff }
    (of131FlowNormalize fl mask).ret = 1 ∧ Normalized fl mask (of131FlowNormalize fl mask) :=
  ⟨by decide, (normalizesExactly_iff _ _).mpr (.inr ⟨by decide, by decide⟩) (by decide)⟩

/-- The label of a multicast packet is cleared; a service class and a destination
stay matched without a type. -/
theorem normalizesExactly_fails :
    ¬Flow.NormalizesExactly { dlType := ethTypeMplsMcast, mplsLabel := 100 }
      { dlType := 0xffff, mplsLabel := 0xfffff } ∧
      ¬Flow.NormalizesExactly { nwTos := 8 } { nwTos := 0xff } ∧
      ¬Flow.NormalizesExactly { nwDst6 := 1 } { nwDst6 := 0xff } := by
  refine ⟨fun exact => ?_, fun exact => ?_, fun exact => ?_⟩
  · exact absurd ((exact (by decide)).kept .mplsLabel (by decide)).2 (by decide)
  · exact absurd ((exact (by decide)).matched .nwTos (by decide)) (by decide)
  · exact absurd (exact (by decide)).again (by decide)

end OpenMul
