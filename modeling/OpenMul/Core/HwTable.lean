import OpenMul.Core.Message

namespace OpenMul

/-- One condition of a match: the field under the mask has the value. -/
structure MatchTerm where
  field : MatchField
  value : Nat
  mask : Nat
  deriving DecidableEq, Repr

def MatchTerm.of (field : MatchField) (value mask : Nat) : MatchTerm :=
  ⟨field, value &&& mask, mask⟩

/-- Packets that meet `specific` meet `general`, both about one field. -/
def MatchTerm.implies (specific general : MatchTerm) : Bool :=
  specific.field == general.field && (specific.mask &&& general.mask) == general.mask &&
    (specific.value &&& general.mask) == (general.value &&& general.mask)

theorem MatchTerm.implies_refl (term : MatchTerm) : term.implies term = true := by
  simp [implies]

/-- The conditions of an OpenFlow 1.0 match: the fields its wildcards leave. -/
def Ofp10Match.terms (fields : Ofp10Match) : List MatchTerm :=
  let exact (bit : BitVec 32) (field : MatchField) (width value : Nat) : List MatchTerm :=
    if fields.wildcards &&& bit = 0 then [.of field value (2 ^ width - 1)] else []
  let leading (shift : Nat) (field : MatchField) (value : Nat) : List MatchTerm :=
    let ignored := (fields.wildcards >>> shift).toNat % 64
    if ignored < 32 then [.of field value (2 ^ 32 - 2 ^ ignored)] else []
  exact 0x1 .inPort 16 fields.inPort.toNat ++ exact 0x8 .ethDst 48 fields.dlDst.toNat ++
    exact 0x4 .ethSrc 48 fields.dlSrc.toNat ++ exact 0x10 .ethType 16 fields.dlType.toNat ++
    exact 0x2 .vlanVid 16 fields.dlVlan.toNat ++ exact 0x100000 .vlanPcp 8 fields.dlVlanPcp.toNat ++
    leading 8 .ipv4Src fields.nwSrc.toNat ++ leading 14 .ipv4Dst fields.nwDst.toNat ++
    exact 0x200000 .nwTos 8 fields.nwTos.toNat ++ exact 0x20 .ipProto 8 fields.nwProto.toNat ++
    exact 0x40 .tpSrc 16 fields.tpSrc.toNat ++ exact 0x80 .tpDst 16 fields.tpDst.toNat

def OfpMatch.terms : OfpMatch → List MatchTerm
  | .of10 fields => fields.terms
  | .oxm fields => fields.map fun tlv => .of tlv.field tlv.value tlv.mask

/-- What tells two entries of a switch apart. -/
structure WireKey where
  tableId : BitVec 8
  terms : List MatchTerm
  priority : BitVec 16
  deriving DecidableEq, Repr

def OfpFlowMod.key (message : OfpFlowMod) : WireKey :=
  ⟨message.tableId, message.pattern.terms, message.priority⟩

def ofpttAll : BitVec 8 := 0xff

/-- A non-strict delete of `general` takes `specific` with it, whatever the
priorities. -/
def WireKey.covers (general specific : WireKey) : Bool :=
  (general.tableId == ofpttAll || general.tableId == specific.tableId) &&
    general.terms.all fun term => specific.terms.any fun other => other.implies term

theorem WireKey.covers_refl (key : WireKey) : key.covers key = true := by
  simp only [covers, BEq.rfl, Bool.or_true, Bool.true_and, List.all_eq_true, List.any_eq_true]
  intro term member
  exact ⟨term, member, term.implies_refl⟩

/-- The switch executes one flow-mod. -/
def hwApply (hw : List WireKey) (message : OfpFlowMod) : List WireKey :=
  match message.command with
  | .add | .modifyStrict => if message.key ∈ hw then hw else message.key :: hw
  | .deleteStrict => hw.filter fun key => key != message.key
  | .delete => hw.filter fun key => !message.key.covers key

/-- The entries of a switch that started empty, accepted every message and let
nothing time out. -/
def hwTable (messages : List OfpMsg) : List WireKey :=
  (messages.filterMap OfpMsg.flowMod?).foldl hwApply []

theorem hwTable_append (earlier later : List OfpMsg) :
    hwTable (earlier ++ later) = (later.filterMap OfpMsg.flowMod?).foldl hwApply
      (hwTable earlier) := by
  simp [hwTable]

theorem hwTable_snoc (earlier : List OfpMsg) (message : OfpFlowMod) :
    hwTable (earlier ++ [.flowMod message]) = hwApply (hwTable earlier) message := by
  rw [hwTable_append]
  rfl

theorem hwTable_append_quiet (earlier : List OfpMsg)
    (quiet : later.filterMap OfpMsg.flowMod? = []) :
    hwTable (earlier ++ later) = hwTable earlier := by
  rw [hwTable_append, quiet, List.foldl_nil]

variable {hw : List WireKey} {message : OfpFlowMod}

theorem mem_hwApply_write (writes : message.command = .add ∨ message.command = .modifyStrict)
    (key : WireKey) : key ∈ hwApply hw message ↔ key = message.key ∨ key ∈ hw := by
  have eq : hwApply hw message = if message.key ∈ hw then hw else message.key :: hw := by
    rcases writes with command | command <;> simp only [hwApply, command]
  rw [eq]
  by_cases present : message.key ∈ hw
  · rw [if_pos present]
    constructor
    · exact .inr
    · rintro (rfl | member)
      · exact present
      · exact member
  · rw [if_neg present, List.mem_cons]

theorem mem_hwApply_deleteStrict (deletes : message.command = .deleteStrict) (key : WireKey) :
    key ∈ hwApply hw message ↔ key ∈ hw ∧ key ≠ message.key := by
  simp [hwApply, deletes]

theorem mem_hwApply_delete (deletes : message.command = .delete) (key : WireKey) :
    key ∈ hwApply hw message ↔ key ∈ hw ∧ message.key.covers key = false := by
  simp [hwApply, deletes]

end OpenMul
