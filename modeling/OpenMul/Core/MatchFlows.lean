import OpenMul.Core.Message

namespace OpenMul

/-- The test all maskable fields share: an empty mask, or equal values. -/
def fieldMatches {width : Nat} (mask first second : BitVec width) : Bool :=
  mask == 0 || first == second

@[simp] theorem fieldMatches_iff (mask first second : BitVec width) :
    fieldMatches mask first second = true ↔ (mask ≠ 0 → first = second) := by
  simp [fieldMatches, or_iff_not_imp_left]

/-- `__of_match_flows_l4`. -/
def ofMatchFlowsL4 (f1 m1 f2 : Flow) : Bool :=
  fieldMatches m1.nwProto f1.nwProto f2.nwProto &&
  fieldMatches m1.nwTos f1.nwTos f2.nwTos &&
  fieldMatches m1.tpDst f1.tpDst f2.tpDst &&
  fieldMatches m1.tpSrc f1.tpSrc f2.tpSrc

/-- `ipv6_addr_mask_equal`. The mask is applied to the first address only. -/
def ipv6AddrMaskEqual (a1 m1 a2 : BitVec 128) : Bool := a1 &&& m1 == a2

/-- `__of_match_flows_ip`. The IPv6 branch compares the first flow with itself. -/
def ofMatchFlowsIp (fl1 mask fl2 : Flow) : Bool :=
  if mask.dlType = 0 then true
  else if fl1.dlType ≠ fl2.dlType then false
  else if fl1.dlType = ethTypeIpv6 then
    ipv6AddrMaskEqual fl1.nwSrc6 mask.nwSrc6 fl1.nwSrc6 &&
    ipv6AddrMaskEqual fl1.nwDst6 mask.nwDst6 fl1.nwDst6
  else if fl1.dlType = ethTypeIp ∨ fl1.dlType = ethTypeArp then
    (fl1.nwDst &&& mask.nwDst == fl2.nwDst) && (fl1.nwSrc &&& mask.nwSrc == fl2.nwSrc)
  else true

/-- `__of_match_flows_mpls`. -/
def ofMatchFlowsMpls (f1 m1 f2 : Flow) : Bool :=
  fieldMatches m1.mplsLabel f1.mplsLabel f2.mplsLabel &&
  fieldMatches m1.mplsTc f1.mplsTc f2.mplsTc &&
  fieldMatches m1.mplsBos f1.mplsBos f2.mplsBos

/-- `0xfff` in the VLAN field stands for any tag. -/
def anyVlan : BitVec 16 := 0xfff

/-- `__of_match_flows_vlan`. The any-tag value is looked for in the first flow. -/
def ofMatchFlowsVlan (f1 m1 f2 : Flow) : Bool :=
  if m1.dlVlan ≠ 0 ∧ f1.dlVlan = anyVlan ∧ f2.dlVlan ≠ 0 then true
  else fieldMatches m1.dlVlan f1.dlVlan f2.dlVlan &&
    fieldMatches m1.dlVlanPcp f1.dlVlanPcp f2.dlVlanPcp

/-- `__of_match_flows_l2`. -/
def ofMatchFlowsL2 (f1 m1 f2 : Flow) : Bool :=
  fieldMatches m1.dlDst f1.dlDst f2.dlDst &&
  fieldMatches m1.dlSrc f1.dlSrc f2.dlSrc &&
  fieldMatches m1.dlType f1.dlType f2.dlType

/-- `__of_match_flows_mdata`. -/
def ofMatchFlowsMdata (f1 m1 f2 : Flow) : Bool :=
  fieldMatches m1.inPort f1.inPort f2.inPort &&
  fieldMatches m1.metadata f1.metadata f2.metadata &&
  fieldMatches m1.tunnelId f1.tunnelId f2.tunnelId

/-- `__of_match_flows`: the packet comes first, then the rule's mask and flow. -/
def ofMatchFlows (f1 m1 f2 : Flow) : Bool :=
  ofMatchFlowsL2 f1 m1 f2 && ofMatchFlowsMpls f1 m1 f2 && ofMatchFlowsVlan f1 m1 f2 &&
  ofMatchFlowsIp f1 m1 f2 && ofMatchFlowsL4 f1 m1 f2 && ofMatchFlowsMdata f1 m1 f2

/-- `of_match_flows_prio`. The masks are compared without their `pad`. -/
def ofMatchFlowsPrio (f1 m1 f2 m2 : Flow) (p1 p2 : BitVec 16) : Bool :=
  p1 == p2 && m1.sansPad == m2.sansPad && ofMatchFlows f1 m1 f2

/-- Two values agree on every bit of the mask. -/
def AgreeOn {width : Nat} (mask first second : BitVec width) : Prop :=
  first &&& mask = second &&& mask

instance {width : Nat} (mask first second : BitVec width) : Decidable (AgreeOn mask first second) :=
  inferInstanceAs (Decidable (_ = _))

/-- The type of a rule, when its mask covers the type. -/
def typeSelects (m r : Flow) (type : BitVec 16) : Prop := m.dlType ≠ 0 ∧ r.dlType = type

instance (m r : Flow) (type : BitVec 16) : Decidable (typeSelects m r type) :=
  inferInstanceAs (Decidable (_ ∧ _))

/-- Bitwise agreement of a packet with a rule on every covered field. -/
structure BitwiseMatch (p m r : Flow) : Prop where
  inPort : AgreeOn m.inPort p.inPort r.inPort
  metadata : AgreeOn m.metadata p.metadata r.metadata
  tunnelId : AgreeOn m.tunnelId p.tunnelId r.tunnelId
  dlDst : AgreeOn m.dlDst p.dlDst r.dlDst
  dlSrc : AgreeOn m.dlSrc p.dlSrc r.dlSrc
  dlType : AgreeOn m.dlType p.dlType r.dlType
  dlVlan : (r.dlVlan = anyVlan ∧ p.dlVlan ≠ 0) ∨ AgreeOn m.dlVlan p.dlVlan r.dlVlan
  dlVlanPcp : AgreeOn m.dlVlanPcp p.dlVlanPcp r.dlVlanPcp
  mplsLabel : AgreeOn m.mplsLabel p.mplsLabel r.mplsLabel
  mplsTc : AgreeOn m.mplsTc p.mplsTc r.mplsTc
  mplsBos : AgreeOn m.mplsBos p.mplsBos r.mplsBos
  ipv4 : typeSelects m r ethTypeIp ∨ typeSelects m r ethTypeArp →
    AgreeOn m.nwSrc p.nwSrc r.nwSrc ∧ AgreeOn m.nwDst p.nwDst r.nwDst
  ipv6 : typeSelects m r ethTypeIpv6 →
    AgreeOn m.nwSrc6 p.nwSrc6 r.nwSrc6 ∧ AgreeOn m.nwDst6 p.nwDst6 r.nwDst6
  nwProto : AgreeOn m.nwProto p.nwProto r.nwProto
  nwTos : AgreeOn m.nwTos p.nwTos r.nwTos
  tpSrc : AgreeOn m.tpSrc p.tpSrc r.tpSrc
  tpDst : AgreeOn m.tpDst p.tpDst r.tpDst

/-- A mask is not applied to fields other than IPv4 addresses. -/
theorem partial_mask_not_bitwise :
    let p : Flow := { inPort := 1 }
    let m : Flow := { inPort := 1 }
    let r : Flow := { inPort := 3 }
    BitwiseMatch p m r ∧ ofMatchFlows p m r = false := by
  refine ⟨?_, by decide⟩
  constructor <;> decide

/-- A masked field is compared as a whole, an IPv4 address of the packet under its mask. -/
structure FieldwiseMatch (p m r : Flow) : Prop where
  inPort : m.inPort ≠ 0 → p.inPort = r.inPort
  metadata : m.metadata ≠ 0 → p.metadata = r.metadata
  tunnelId : m.tunnelId ≠ 0 → p.tunnelId = r.tunnelId
  dlDst : m.dlDst ≠ 0 → p.dlDst = r.dlDst
  dlSrc : m.dlSrc ≠ 0 → p.dlSrc = r.dlSrc
  dlType : m.dlType ≠ 0 → p.dlType = r.dlType
  dlVlan : m.dlVlan ≠ 0 → p.dlVlan = r.dlVlan
  dlVlanPcp : m.dlVlanPcp ≠ 0 → p.dlVlanPcp = r.dlVlanPcp
  mplsLabel : m.mplsLabel ≠ 0 → p.mplsLabel = r.mplsLabel
  mplsTc : m.mplsTc ≠ 0 → p.mplsTc = r.mplsTc
  mplsBos : m.mplsBos ≠ 0 → p.mplsBos = r.mplsBos
  ipv4 : typeSelects m r ethTypeIp ∨ typeSelects m r ethTypeArp →
    p.nwSrc &&& m.nwSrc = r.nwSrc ∧ p.nwDst &&& m.nwDst = r.nwDst
  nwProto : m.nwProto ≠ 0 → p.nwProto = r.nwProto
  nwTos : m.nwTos ≠ 0 → p.nwTos = r.nwTos
  tpSrc : m.tpSrc ≠ 0 → p.tpSrc = r.tpSrc
  tpDst : m.tpDst ≠ 0 → p.tpDst = r.tpDst

private theorem ofMatchFlowsIp_iff {p m r : Flow} (notIpv6 : ¬ typeSelects m r ethTypeIpv6) :
    ofMatchFlowsIp p m r = true ↔ (m.dlType ≠ 0 → p.dlType = r.dlType) ∧
        (typeSelects m r ethTypeIp ∨ typeSelects m r ethTypeArp →
          p.nwSrc &&& m.nwSrc = r.nwSrc ∧ p.nwDst &&& m.nwDst = r.nwDst) := by
  unfold ofMatchFlowsIp
  by_cases untyped : m.dlType = 0
  · rw [if_pos untyped]
    refine iff_of_true rfl ⟨fun covered => absurd untyped covered, ?_⟩
    rintro (selected | selected) <;> exact absurd untyped selected.1
  rw [if_neg untyped]
  by_cases types : p.dlType = r.dlType
  · have other : r.dlType ≠ ethTypeIpv6 := fun same => notIpv6 ⟨untyped, same⟩
    have selects : typeSelects m r ethTypeIp ∨ typeSelects m r ethTypeArp ↔
        r.dlType = ethTypeIp ∨ r.dlType = ethTypeArp :=
      or_congr (and_iff_right untyped) (and_iff_right untyped)
    rw [selects, types, if_neg other]
    by_cases ip : r.dlType = ethTypeIp ∨ r.dlType = ethTypeArp <;> simp [ip, and_comm]
  · rw [if_pos types]
    exact iff_of_false Bool.false_ne_true fun same => types (same.1 untyped)

private theorem ofMatchFlowsVlan_iff {p m r : Flow} (tagged : m.dlVlan = 0 ∨ p.dlVlan ≠ anyVlan) :
    ofMatchFlowsVlan p m r = true ↔
      (m.dlVlan ≠ 0 → p.dlVlan = r.dlVlan) ∧ (m.dlVlanPcp ≠ 0 → p.dlVlanPcp = r.dlVlanPcp) := by
  have plain : ¬ (m.dlVlan ≠ 0 ∧ p.dlVlan = anyVlan ∧ r.dlVlan ≠ 0) := by
    rintro ⟨covered, any, -⟩
    rcases tagged with empty | other
    · exact covered empty
    · exact other any
  rw [ofMatchFlowsVlan, if_neg plain, Bool.and_eq_true, fieldMatches_iff, fieldMatches_iff]

/-- For other masks, the packet matches exactly when it matches field by field. -/
theorem ofMatchFlows_iff_fieldwise (p m r : Flow)
    (plainVlan : m.dlVlan = 0 ∨ p.dlVlan ≠ anyVlan ∧ r.dlVlan ≠ anyVlan)
    (notIpv6 : ¬ typeSelects m r ethTypeIpv6) :
    ofMatchFlows p m r = true ↔ FieldwiseMatch p m r := by
  have vlan := @ofMatchFlowsVlan_iff p m r (plainVlan.imp_right And.left)
  have ip := @ofMatchFlowsIp_iff p m r notIpv6
  simp only [ofMatchFlows, Bool.and_eq_true, vlan, ip, ofMatchFlowsL2, ofMatchFlowsMpls,
    ofMatchFlowsL4, ofMatchFlowsMdata, fieldMatches_iff]
  constructor
  · rintro ⟨⟨⟨⟨⟨⟨⟨dst, src⟩, type⟩, ⟨label, tc⟩, bos⟩, vid, pcp⟩, -, ipv4⟩, ⟨⟨proto, tos⟩, tpDst⟩,
      tpSrc⟩, ⟨port, metadata⟩, tunnel⟩
    exact ⟨port, metadata, tunnel, dst, src, type, vid, pcp, label, tc, bos, ipv4, proto, tos,
      tpSrc, tpDst⟩
  · intro whole
    exact ⟨⟨⟨⟨⟨⟨⟨whole.dlDst, whole.dlSrc⟩, whole.dlType⟩, ⟨whole.mplsLabel, whole.mplsTc⟩,
      whole.mplsBos⟩, whole.dlVlan, whole.dlVlanPcp⟩, whole.dlType, whole.ipv4⟩,
      ⟨⟨whole.nwProto, whole.nwTos⟩, whole.tpDst⟩, whole.tpSrc⟩,
      ⟨whole.inPort, whole.metadata⟩, whole.tunnelId⟩

/-- A rule for a /24 network on VLAN 5 and a packet from that network. -/
theorem ofMatchFlows_iff_fieldwise_network :
    let p : Flow := { dlVlan := 5, dlType := ethTypeIp, nwSrc6 := 0x0a000007 <<< 96 }
    let m : Flow := { dlVlan := 0xffff, dlType := 0xffff, nwSrc6 := 0xffffff00 <<< 96 }
    let r : Flow := { dlVlan := 5, dlType := ethTypeIp, nwSrc6 := 0x0a000000 <<< 96 }
    ofMatchFlows p m r = true ∧ FieldwiseMatch p m r := by
  intro p m r
  have matched : ofMatchFlows p m r = true := by decide
  exact ⟨matched, (ofMatchFlows_iff_fieldwise p m r (.inr (by decide)) (by decide)).mp matched⟩

end OpenMul
