import OpenMul.Core.FlowField
import OpenMul.Core.Message

namespace OpenMul

def ipTypeSctp : BitVec 8 := 132

/-- The record the function works on, with the value it is to return. -/
structure NormFlow where
  ret : Int := 0
  fl : Flow
  mask : Flow
  deriving DecidableEq, Repr

namespace NormFlow

/-- The Ethernet type is matched and one of the given ones. -/
def typeIn (norm : NormFlow) (types : List (BitVec 16)) : Bool :=
  norm.mask.dlType != 0 && types.contains norm.fl.dlType

/-- The protocol is matched and has ports. -/
def hasPorts (norm : NormFlow) : Bool :=
  norm.mask.nwProto != 0 && [ipTypeTcp, ipTypeSctp, ipTypeUdp].contains norm.fl.nwProto

/-- One block of the function: under its condition the same fields are cleared
in the flow and in the mask. -/
def pass (norm : NormFlow) (condition : Bool) (cleared : Flow → Flow) : NormFlow :=
  if condition then { ret := 1, fl := cleared norm.fl, mask := cleared norm.mask } else norm

end NormFlow

/-- `memset(&ipv6, 0, sizeof(&ipv6))` clears as many bytes as a pointer has. -/
def clearIpv6 (flow : Flow) : Flow :=
  { flow with nwSrc6 := (0 : BitVec 64) ++ flow.nwSrc6.extractLsb' 0 64 }

def normalizeVlan (norm : NormFlow) : NormFlow :=
  norm.pass (norm.mask.dlVlan == 0 && norm.mask.dlVlanPcp != 0)
    fun flow => { flow with dlVlanPcp := 0 }

/-- The source tests for `ETH_TYPE_MPLS` twice and never for `ETH_TYPE_MPLS_MCAST`. -/
def normalizeMpls (norm : NormFlow) : NormFlow :=
  norm.pass (!norm.typeIn [ethTypeMpls, ethTypeMpls] &&
      (norm.mask.mplsTc != 0 || norm.mask.mplsBos != 0 || norm.mask.mplsLabel != 0))
    fun flow => { flow with mplsTc := 0, mplsBos := 0, mplsLabel := 0 }

def normalizeIp (norm : NormFlow) : NormFlow :=
  norm.pass (!norm.typeIn [ethTypeIp, ethTypeIpv6, ethTypeArp] &&
      (norm.mask.nwSrc6 != 0 || norm.mask.nwDst6 != 0 || norm.mask.nwProto != 0 ||
        norm.mask.tpDst != 0 || norm.mask.tpSrc != 0))
    fun flow => { clearIpv6 flow with nwProto := 0, tpDst := 0, tpSrc := 0 }

def normalizeArp (norm : NormFlow) : NormFlow :=
  norm.pass (norm.typeIn [ethTypeArp] &&
      (norm.mask.nwProto != 0 || norm.mask.nwTos != 0 || norm.mask.tpSrc != 0 ||
        norm.mask.tpDst != 0))
    fun flow => { flow with nwProto := 0, nwTos := 0, tpSrc := 0, tpDst := 0 }

def normalizeL4 (norm : NormFlow) : NormFlow :=
  norm.pass (norm.typeIn [ethTypeIp, ethTypeIpv6] && !norm.hasPorts &&
      (norm.mask.tpDst != 0 || norm.mask.tpSrc != 0))
    fun flow => { flow with tpDst := 0, tpSrc := 0 }

/-- `of131_flow_normalize`. -/
def of131FlowNormalize (fl mask : Flow) : NormFlow :=
  let mask := { mask with tableId := 0xff }
  if mask.inPort ≠ 0 ∧ fl.inPort = 0 then { ret := -1, fl := fl, mask := mask }
  else
    normalizeL4
      (normalizeArp (normalizeIp (normalizeMpls (normalizeVlan { fl := fl, mask := mask }))))

namespace NormFlow

variable (norm : NormFlow)

def vlanOut : Bool := norm.mask.dlVlan == 0 && norm.mask.dlVlanPcp != 0

def mplsOut : Bool :=
  !norm.typeIn [ethTypeMpls, ethTypeMpls] &&
    (norm.mask.mplsTc != 0 || norm.mask.mplsBos != 0 || norm.mask.mplsLabel != 0)

def ipOut : Bool :=
  !norm.typeIn [ethTypeIp, ethTypeIpv6, ethTypeArp] &&
    (norm.mask.nwSrc6 != 0 || norm.mask.nwDst6 != 0 || norm.mask.nwProto != 0 ||
      norm.mask.tpDst != 0 || norm.mask.tpSrc != 0)

def arpOut : Bool :=
  norm.typeIn [ethTypeArp] &&
    (norm.mask.nwProto != 0 || norm.mask.nwTos != 0 || norm.mask.tpSrc != 0 || norm.mask.tpDst != 0)

def l4Out : Bool :=
  norm.typeIn [ethTypeIp, ethTypeIpv6] && !norm.hasPorts &&
    (norm.mask.tpDst != 0 || norm.mask.tpSrc != 0)

/-- What they make of the flow and of the mask. -/
def cleared (flow : Flow) : Flow :=
  { flow with
    dlVlanPcp := if norm.vlanOut then 0 else flow.dlVlanPcp
    mplsTc := if norm.mplsOut then 0 else flow.mplsTc
    mplsBos := if norm.mplsOut then 0 else flow.mplsBos
    mplsLabel := if norm.mplsOut then 0 else flow.mplsLabel
    nwSrc6 := if norm.ipOut then (clearIpv6 flow).nwSrc6 else flow.nwSrc6
    nwTos := if norm.arpOut then 0 else flow.nwTos
    nwProto := if norm.ipOut || norm.arpOut then 0 else flow.nwProto
    tpSrc := if norm.ipOut || norm.arpOut || norm.l4Out then 0 else flow.tpSrc
    tpDst := if norm.ipOut || norm.arpOut || norm.l4Out then 0 else flow.tpDst }

def normalized : NormFlow where
  ret := if norm.vlanOut || norm.mplsOut || norm.ipOut || norm.arpOut || norm.l4Out then 1
    else norm.ret
  fl := norm.cleared norm.fl
  mask := norm.cleared norm.mask

variable {norm}

theorem typeIn_append (some others : List (BitVec 16)) :
    norm.typeIn (some ++ others) = (norm.typeIn some || norm.typeIn others) := by
  simp [typeIn, Bool.and_or_distrib_left]

theorem typeIn_network :
    norm.typeIn [ethTypeIp, ethTypeIpv6, ethTypeArp] =
      (norm.typeIn [ethTypeIp, ethTypeIpv6] || norm.typeIn [ethTypeArp]) :=
  typeIn_append [ethTypeIp, ethTypeIpv6] [ethTypeArp]

theorem typeIn_mpls : norm.typeIn [ethTypeMpls, ethTypeMpls] = norm.typeIn [ethTypeMpls] :=
  (typeIn_append [ethTypeMpls] [ethTypeMpls]).trans (Bool.or_self _)

theorem typeIn_of_apart {some others : List (BitVec 16)} (apart : ∀ type ∈ some, type ∉ others)
    (typed : norm.typeIn some = true) : norm.typeIn others = false := by
  simp only [typeIn, Bool.and_eq_true, Bool.and_eq_false_iff, List.contains_eq_mem,
    decide_eq_true_eq, decide_eq_false_iff_not] at typed ⊢
  exact .inr (apart _ typed.2)

end NormFlow

open NormFlow

section

variable (norm : NormFlow)

private theorem out_normalizeVlan :
    (normalizeVlan norm).mplsOut = norm.mplsOut ∧ (normalizeVlan norm).ipOut = norm.ipOut ∧
      (normalizeVlan norm).arpOut = norm.arpOut ∧ (normalizeVlan norm).l4Out = norm.l4Out := by
  unfold normalizeVlan NormFlow.pass
  split <;> exact ⟨rfl, rfl, rfl, rfl⟩

private theorem out_normalizeMpls :
    (normalizeMpls norm).ipOut = norm.ipOut ∧ (normalizeMpls norm).arpOut = norm.arpOut ∧
      (normalizeMpls norm).l4Out = norm.l4Out := by
  unfold normalizeMpls NormFlow.pass
  split <;> exact ⟨rfl, rfl, rfl⟩

private theorem out_normalizeIp :
    (normalizeIp norm).arpOut = norm.arpOut ∧ (normalizeIp norm).l4Out = norm.l4Out := by
  have types : ∀ types, (normalizeIp norm).typeIn types = norm.typeIn types := by
    unfold normalizeIp NormFlow.pass
    split <;> exact fun _ => rfl
  cases network : norm.typeIn [ethTypeIp, ethTypeIpv6, ethTypeArp] with
  | true =>
    have same : normalizeIp norm = norm := by
      simp [normalizeIp, NormFlow.pass, network]
    rw [same]
    exact ⟨rfl, rfl⟩
  | false =>
    obtain ⟨ip, arp⟩ := Bool.or_eq_false_iff.mp (typeIn_network.symm.trans network)
    simp [arpOut, l4Out, types, arp, ip]

private theorem out_normalizeArp : (normalizeArp norm).l4Out = norm.l4Out := by
  cases arp : norm.typeIn [ethTypeArp] with
  | false => simp [normalizeArp, NormFlow.pass, arp]
  | true =>
    have ip := @typeIn_of_apart _ _ [ethTypeIp,
      ethTypeIpv6] (by simp [ethTypeArp, ethTypeIp, ethTypeIpv6]) arp
    have same : (normalizeArp norm).typeIn [ethTypeIp, ethTypeIpv6] =
        norm.typeIn [ethTypeIp, ethTypeIpv6] := by
      unfold normalizeArp NormFlow.pass
      split <;> rfl
    simp [l4Out, same, ip]

theorem normalize_blocks :
    normalizeL4 (normalizeArp (normalizeIp (normalizeMpls (normalizeVlan norm)))) =
      norm.normalized := by
  obtain ⟨mpls, ip, arp, l4⟩ := out_normalizeVlan norm
  obtain ⟨ipMpls, arpMpls, l4Mpls⟩ := out_normalizeMpls (normalizeVlan norm)
  obtain ⟨arpIp, l4Ip⟩ := out_normalizeIp (normalizeMpls (normalizeVlan norm))
  have l4Arp := out_normalizeArp (normalizeIp (normalizeMpls (normalizeVlan norm)))
  change NormFlow.pass
    (NormFlow.pass (NormFlow.pass (NormFlow.pass (NormFlow.pass _ (vlanOut _) _) (mplsOut _) _)
    (ipOut _) _) (arpOut _) _) (l4Out _) _ = _
  rw [l4Arp, l4Ip, l4Mpls, l4, arpIp, arpMpls, arp, ipMpls, ip, mpls]
  unfold normalized cleared
  cases norm.vlanOut <;> cases norm.mplsOut <;> cases norm.ipOut <;> cases norm.arpOut <;>
    cases norm.l4Out <;> simp [NormFlow.pass, clearIpv6]

end

/-- What the function leaves of a mask: every field it knows the prerequisites
of has them. -/
structure NormFlow.Normal (norm : NormFlow) : Prop where
  vlan : norm.mask.dlVlan = 0 → norm.mask.dlVlanPcp = 0
  mpls : norm.typeIn [ethTypeMpls] = false →
    norm.mask.mplsTc = 0 ∧ norm.mask.mplsBos = 0 ∧ norm.mask.mplsLabel = 0
  address : norm.typeIn [ethTypeIp, ethTypeIpv6, ethTypeArp] = false →
    norm.mask.nwSrc = 0 ∧ norm.mask.nwDst = 0
  proto : norm.typeIn [ethTypeIp, ethTypeIpv6] = false → norm.mask.nwProto = 0
  ports : norm.typeIn [ethTypeIp, ethTypeIpv6] = false ∨ norm.hasPorts = false →
    norm.mask.tpDst = 0 ∧ norm.mask.tpSrc = 0

namespace NormFlow

/-- A field that is zero unless its block runs is zero afterwards. -/
theorem zero_of_out {value : BitVec width} (zero : out = false → value = 0) :
    (if out then 0 else value) = 0 := by
  cases out with
  | false => exact zero rfl
  | true => rfl

variable {norm : NormFlow}

theorem mpls_of_out (untyped : norm.typeIn [ethTypeMpls] = false) (out : norm.mplsOut = false) :
    norm.mask.mplsTc = 0 ∧ norm.mask.mplsBos = 0 ∧ norm.mask.mplsLabel = 0 := by
  simpa [mplsOut, typeIn_mpls, untyped, and_assoc] using out

theorem ip_of_out (untyped : norm.typeIn [ethTypeIp, ethTypeIpv6, ethTypeArp] = false)
    (out : norm.ipOut = false) :
    norm.mask.nwSrc6 = 0 ∧ norm.mask.nwDst6 = 0 ∧ norm.mask.nwProto = 0 ∧ norm.mask.tpDst = 0 ∧
      norm.mask.tpSrc = 0 := by
  simpa [ipOut, untyped, and_assoc] using out

theorem arp_of_out (arp : norm.typeIn [ethTypeArp] = true) (out : norm.arpOut = false) :
    norm.mask.nwProto = 0 ∧ norm.mask.nwTos = 0 ∧ norm.mask.tpSrc = 0 ∧ norm.mask.tpDst = 0 := by
  simpa [arpOut, arp, and_assoc] using out

/-- Without an IP type one of two blocks leaves no protocol and no ports. -/
theorem transport_of_out (other : norm.typeIn [ethTypeIp, ethTypeIpv6] = false)
    (out : (norm.ipOut || norm.arpOut) = false) :
    norm.mask.nwProto = 0 ∧ norm.mask.tpDst = 0 ∧ norm.mask.tpSrc = 0 := by
  obtain ⟨ipOut, arpOut⟩ := Bool.or_eq_false_iff.mp out
  cases network : norm.typeIn [ethTypeIp, ethTypeIpv6, ethTypeArp] with
  | false => exact (ip_of_out network ipOut).2.2
  | true =>
    have arp : norm.typeIn [ethTypeArp] = true := by simpa [typeIn_network, other] using network
    obtain ⟨proto, -, src, dst⟩ := arp_of_out arp arpOut
    exact ⟨proto, dst, src⟩

theorem l4_of_out
    (noPorts : norm.typeIn [ethTypeIp, ethTypeIpv6] = false ∨ norm.normalized.hasPorts = false)
    (out : (norm.ipOut || norm.arpOut || norm.l4Out) = false) :
    norm.mask.tpDst = 0 ∧ norm.mask.tpSrc = 0 := by
  obtain ⟨network, l4⟩ := Bool.or_eq_false_iff.mp out
  cases typed : norm.typeIn [ethTypeIp, ethTypeIpv6] with
  | false => exact (transport_of_out typed network).2
  | true =>
    have same : norm.hasPorts = false := by
      rw [← noPorts.resolve_left (by simp [typed])]
      simp [hasPorts, normalized, cleared, network]
    simpa [l4Out, typed, same] using l4

end NormFlow

private theorem nwSrc_clearIpv6 (flow : Flow) : (clearIpv6 flow).nwSrc = 0 := by
  apply BitVec.eq_of_getLsbD_eq
  intro index bound
  simp [clearIpv6, Flow.nwSrc]
  grind

private theorem nwDst_clearIpv6 (flow : Flow) : (clearIpv6 flow).nwDst = 0 := by
  apply BitVec.eq_of_getLsbD_eq
  intro index bound
  simp [clearIpv6, Flow.nwDst]
  grind

theorem NormFlow.normalized_normal (norm : NormFlow) : norm.normalized.Normal where
  vlan zero := by
    apply zero_of_out
    intro out
    simpa [vlanOut, show norm.mask.dlVlan = 0 from zero] using out
  mpls untyped := by
    have zero := @mpls_of_out norm untyped
    exact ⟨zero_of_out fun out => (zero out).1, zero_of_out fun out => (zero out).2.1,
      zero_of_out fun out => (zero out).2.2⟩
  address untyped := by
    have zero := @ip_of_out norm untyped
    simp only [normalized, cleared, Flow.nwSrc, Flow.nwDst]
    cases out : norm.ipOut with
    | false =>
      simp [(zero out).1]
    | true => exact ⟨nwSrc_clearIpv6 norm.mask, nwDst_clearIpv6 norm.mask⟩
  proto untyped := zero_of_out fun out => (@transport_of_out norm untyped out).1
  ports noPorts := by
    have zero := @l4_of_out norm noPorts
    exact ⟨zero_of_out fun out => (zero out).1, zero_of_out fun out => (zero out).2⟩

theorem of131FlowNormalize_eq {fl mask : Flow} (accepted : ¬(mask.inPort ≠ 0 ∧ fl.inPort = 0)) :
    of131FlowNormalize fl mask = normalized { fl, mask := { mask with tableId := 0xff } } :=
  (if_neg accepted).trans (normalize_blocks _)

theorem of131FlowNormalize_normal {fl mask : Flow} (valid : (of131FlowNormalize fl mask).ret ≠ -1) :
    (of131FlowNormalize fl mask).Normal := by
  by_cases refused : mask.inPort ≠ 0 ∧ fl.inPort = 0
  · exact absurd (congrArg NormFlow.ret (if_pos refused)) valid
  · rw [of131FlowNormalize_eq refused]
    exact normalized_normal _

end OpenMul
