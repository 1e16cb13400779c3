import OpenMul.Core.Flow

namespace OpenMul

/-- The fields of `struct flow` a match can name. `table_id` and `pad` are no
match fields; the address union has its IPv4 and its IPv6 fields here. -/
inductive FlowField where
  | inPort | metadata | dlDst | dlSrc | dlType | dlVlan | dlVlanPcp
  | mplsLabel | mplsTc | mplsBos | nwSrc | nwDst | nwSrc6 | nwDst6
  | nwTos | nwProto | tpSrc | tpDst | tunnelId
  deriving DecidableEq, Repr

namespace FlowField

def width : FlowField → Nat
  | inPort | mplsLabel | nwSrc | nwDst => 32
  | metadata | tunnelId => 64
  | dlDst | dlSrc => 48
  | dlType | dlVlan | tpSrc | tpDst => 16
  | dlVlanPcp | mplsTc | mplsBos | nwTos | nwProto => 8
  | nwSrc6 | nwDst6 => 128

/-- The `OFPXMT_OFB_*_SZ` constants. -/
def size : FlowField → Nat
  | inPort | mplsLabel | nwSrc | nwDst => 4
  | metadata | tunnelId => 8
  | dlDst | dlSrc => 6
  | dlType | dlVlan | tpSrc | tpDst => 2
  | dlVlanPcp | mplsTc | mplsBos | nwTos | nwProto => 1
  | nwSrc6 | nwDst6 => 16

theorem width_eq (field : FlowField) : field.width = 8 * field.size := by
  cases field <;> rfl

end FlowField

namespace Flow

/-- A write to `ip.nw_src`, the first word of the address union. -/
def setNwSrc (flow : Flow) (addr : BitVec 32) : Flow :=
  { flow with nwSrc6 := addr ++ flow.nwSrc6.extractLsb' 0 96 }

/-- A write to `ip.nw_dst`, the second word of the address union. -/
def setNwDst (flow : Flow) (addr : BitVec 32) : Flow :=
  { flow with nwSrc6 := flow.nwSrc ++ (addr ++ flow.nwSrc6.extractLsb' 0 64) }

def get (flow : Flow) : (field : FlowField) → BitVec field.width
  | .inPort => flow.inPort
  | .metadata => flow.metadata
  | .dlDst => flow.dlDst
  | .dlSrc => flow.dlSrc
  | .dlType => flow.dlType
  | .dlVlan => flow.dlVlan
  | .dlVlanPcp => flow.dlVlanPcp
  | .mplsLabel => flow.mplsLabel
  | .mplsTc => flow.mplsTc
  | .mplsBos => flow.mplsBos
  | .nwSrc => flow.nwSrc
  | .nwDst => flow.nwDst
  | .nwSrc6 => flow.nwSrc6
  | .nwDst6 => flow.nwDst6
  | .nwTos => flow.nwTos
  | .nwProto => flow.nwProto
  | .tpSrc => flow.tpSrc
  | .tpDst => flow.tpDst
  | .tunnelId => flow.tunnelId

def put (flow : Flow) : (field : FlowField) → BitVec field.width → Flow
  | .inPort, value => { flow with inPort := value }
  | .metadata, value => { flow with metadata := value }
  | .dlDst, value => { flow with dlDst := value }
  | .dlSrc, value => { flow with dlSrc := value }
  | .dlType, value => { flow with dlType := value }
  | .dlVlan, value => { flow with dlVlan := value }
  | .dlVlanPcp, value => { flow with dlVlanPcp := value }
  | .mplsLabel, value => { flow with mplsLabel := value }
  | .mplsTc, value => { flow with mplsTc := value }
  | .mplsBos, value => { flow with mplsBos := value }
  | .nwSrc, value => flow.setNwSrc value
  | .nwDst, value => flow.setNwDst value
  | .nwSrc6, value => { flow with nwSrc6 := value }
  | .nwDst6, value => { flow with nwDst6 := value }
  | .nwTos, value => { flow with nwTos := value }
  | .nwProto, value => { flow with nwProto := value }
  | .tpSrc, value => { flow with tpSrc := value }
  | .tpDst, value => { flow with tpDst := value }
  | .tunnelId, value => { flow with tunnelId := value }

variable (flow : Flow) (addr : BitVec 32)

@[simp] theorem nwSrc_setNwSrc : (flow.setNwSrc addr).nwSrc = addr :=
  BitVec.extractLsb'_append_eq_left

@[simp] theorem nwDst_setNwSrc : (flow.setNwSrc addr).nwDst = flow.nwDst := by
  apply BitVec.eq_of_getLsbD_eq
  intro index bound
  simp [setNwSrc, nwDst]
  grind

@[simp] theorem nwDst_setNwDst : (flow.setNwDst addr).nwDst = addr := by
  apply BitVec.eq_of_getLsbD_eq
  intro index bound
  simp [setNwDst, nwDst]
  grind

@[simp] theorem nwSrc_setNwDst : (flow.setNwDst addr).nwSrc = flow.nwSrc :=
  BitVec.extractLsb'_append_eq_left

theorem setNwSrc_nwSrc : flow.setNwSrc flow.nwSrc = flow := by
  have same : flow.nwSrc ++ flow.nwSrc6.extractLsb' 0 96 = flow.nwSrc6 := by
    apply BitVec.eq_of_getLsbD_eq
    intro index bound
    simp [nwSrc]
    grind
  rw [setNwSrc, same]

theorem setNwDst_nwDst : flow.setNwDst flow.nwDst = flow := by
  have same : flow.nwSrc ++ (flow.nwDst ++ flow.nwSrc6.extractLsb' 0 64) = flow.nwSrc6 := by
    apply BitVec.eq_of_getLsbD_eq
    intro index bound
    simp [nwSrc, nwDst]
    grind
  rw [setNwDst, same]

theorem put_get (field : FlowField) : flow.put field (flow.get field) = flow := by
  cases field with
  | nwSrc => exact flow.setNwSrc_nwSrc
  | nwDst => exact flow.setNwDst_nwDst
  | _ => rfl

theorem dlType_put (other : field ≠ .dlType)
    (value : BitVec field.width) : (flow.put field value).dlType = flow.dlType := by
  cases field with
  | dlType => exact absurd rfl other
  | _ => rfl

theorem nwProto_put (other : field ≠ .nwProto)
    (value : BitVec field.width) : (flow.put field value).nwProto = flow.nwProto := by
  cases field with
  | nwProto => exact absurd rfl other
  | _ => rfl

end Flow

end OpenMul
