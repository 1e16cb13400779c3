import OpenMul.Core.Flow

namespace OpenMul

/-- The constructor tables with flow messages; the others serve a connection
whose version is not negotiated yet. -/
inductive OfpCtors where
  | of10
  | of131
  | of140
  deriving DecidableEq, Repr

inductive MatchField where
  | inPort | metadata | ethDst | ethSrc | ethType | vlanVid | vlanPcp
  | mplsLabel | mplsTc | mplsBos | arpSpa | arpTpa | ipv4Src | ipv4Dst
  | ipv6Src | ipv6Dst | ipDscp | ipProto | tcpSrc | tcpDst | udpSrc | udpDst
  | nwTos | tpSrc | tpDst
  deriving DecidableEq, Repr

/-- One OXM field. Values and masks are the network-order numbers; a field sent
without a mask has all bits set here. -/
structure OxmTlv where
  field : MatchField
  hasMask : Bool
  value : Nat
  mask : Nat
  deriving DecidableEq, Repr

def OxmTlv.exact (field : MatchField) {width : Nat} (value : BitVec width) : OxmTlv :=
  ⟨field, false, value.toNat, 2 ^ width - 1⟩

def OxmTlv.masked (field : MatchField) {width : Nat} (value mask : BitVec width) : OxmTlv :=
  ⟨field, true, value.toNat, mask.toNat⟩

def ethTypeIp : BitVec 16 := 0x0800
def ethTypeIpv6 : BitVec 16 := 0x86dd
def ethTypeArp : BitVec 16 := 0x0806
def ethTypeVlan : BitVec 16 := 0x8100
def ethTypeMpls : BitVec 16 := 0x8847
def ethTypeMplsMcast : BitVec 16 := 0x8848
def ipTypeTcp : BitVec 8 := 6
def ipTypeUdp : BitVec 8 := 17
def ofpvidPresent : BitVec 16 := 0x1000

def fieldIf (condition : Bool) (field : OxmTlv) : List OxmTlv :=
  if condition then [field] else []

/-- The VLAN field: `0xfff` asks for any tag, a zero VLAN for no tag. -/
def oxmVlan (vlan : BitVec 16) : BitVec 16 :=
  if vlan = 0 then 0 else (if vlan = 0xfff then 0 else vlan) ||| ofpvidPresent

/-- `of131_add_oxm_fields`. -/
def of131AddOxmFields (flow mask : Flow) : List OxmTlv :=
  let typed := mask.dlType != 0
  let isArp := flow.dlType == ethTypeArp
  let isIp := flow.dlType == ethTypeIp
  let isIpv6 := flow.dlType == ethTypeIpv6
  let isMpls := flow.dlType == ethTypeMpls || flow.dlType == ethTypeMplsMcast
  let hasProto := typed && (isIp || isIpv6) && mask.nwProto != 0
  let tcp := hasProto && flow.nwProto == ipTypeTcp
  let udp := hasProto && flow.nwProto == ipTypeUdp
  fieldIf (mask.inPort != 0) (.exact .inPort flow.inPort) ++
  fieldIf (mask.metadata != 0) (.masked .metadata flow.metadata mask.metadata) ++
  fieldIf (mask.dlDst != 0) (.exact .ethDst flow.dlDst) ++
  fieldIf (mask.dlSrc != 0) (.exact .ethSrc flow.dlSrc) ++
  fieldIf typed (.exact .ethType flow.dlType) ++
  fieldIf (mask.dlVlan != 0) (.exact .vlanVid (oxmVlan flow.dlVlan)) ++
  fieldIf (mask.dlVlan != 0 && mask.dlVlanPcp != 0) (.exact .vlanPcp flow.dlVlanPcp) ++
  fieldIf (typed && isMpls && mask.mplsLabel != 0) (.exact .mplsLabel flow.mplsLabel) ++
  fieldIf (typed && isMpls && mask.mplsTc != 0) (.exact .mplsTc flow.mplsTc) ++
  fieldIf (typed && isMpls && mask.mplsBos != 0) (.exact .mplsBos flow.mplsBos) ++
  fieldIf (typed && (isArp || isIp) && mask.nwSrc != 0)
    (.masked (if isArp then .arpSpa else .ipv4Src) flow.nwSrc mask.nwSrc) ++
  fieldIf (typed && (isArp || isIp) && mask.nwDst != 0)
    (.masked (if isArp then .arpTpa else .ipv4Dst) flow.nwDst mask.nwDst) ++
  fieldIf (typed && isIpv6 && mask.nwSrc6 != 0) (.masked .ipv6Src flow.nwSrc6 mask.nwSrc6) ++
  fieldIf (typed && isIpv6 && mask.nwDst6 != 0) (.masked .ipv6Dst flow.nwDst6 mask.nwDst6) ++
  fieldIf (typed && (isIp || isIpv6) && mask.nwTos != 0) (.exact .ipDscp flow.nwTos) ++
  fieldIf hasProto (.exact .ipProto flow.nwProto) ++
  fieldIf (tcp && mask.tpSrc != 0) (.exact .tcpSrc flow.tpSrc) ++
  fieldIf (udp && mask.tpSrc != 0) (.exact .udpSrc flow.tpSrc) ++
  fieldIf (tcp && mask.tpDst != 0) (.exact .tcpDst flow.tpDst) ++
  fieldIf (udp && mask.tpDst != 0) (.exact .udpDst flow.tpDst)

/-- `struct ofp_match` of OpenFlow 1.0. -/
structure Ofp10Match where
  wildcards : BitVec 32
  inPort : BitVec 16
  dlSrc : BitVec 48
  dlDst : BitVec 48
  dlVlan : BitVec 16
  dlVlanPcp : BitVec 8
  dlType : BitVec 16
  nwTos : BitVec 8
  nwProto : BitVec 8
  nwSrc : BitVec 32
  nwDst : BitVec 32
  tpSrc : BitVec 16
  tpDst : BitVec 16
  deriving DecidableEq, Repr

def cCountOneBits (word : BitVec 32) : Nat :=
  ((List.range 32).filter word.getLsbD).length

def wildcardIf (condition : Bool) (bit : BitVec 32) : BitVec 32 :=
  if condition then bit else 0

/-- The six-bit IPv4 wildcard: the number of ignored low bits, 32 for all. -/
def nwWildcard (mask : BitVec 32) : BitVec 32 :=
  let prefLen := cCountOneBits mask
  if prefLen = 0 then 32 else BitVec.ofNat 32 (32 - prefLen) &&& 0x3f

/-- `of10_mask_to_wc`. -/
def of10MaskToWc (mask : Flow) : BitVec 32 :=
  (nwWildcard mask.nwDst <<< 14) ||| (nwWildcard mask.nwSrc <<< 8) |||
  wildcardIf (mask.inPort == 0) 0x1 ||| wildcardIf (mask.dlVlan == 0) 0x2 |||
  wildcardIf (mask.dlVlanPcp == 0) 0x100000 ||| wildcardIf (mask.dlType == 0) 0x10 |||
  wildcardIf (mask.tpSrc == 0) 0x40 ||| wildcardIf (mask.tpDst == 0) 0x80 |||
  wildcardIf (mask.nwTos == 0) 0x200000 ||| wildcardIf (mask.nwProto == 0) 0x20 |||
  wildcardIf (mask.dlDst == 0) 0x8 ||| wildcardIf (mask.dlSrc == 0) 0x4

/-- The match part of `of_prep_flow_mod`. The source never fills `nw_tos`. -/
def of10PrepMatch (flow mask : Flow) : Ofp10Match where
  wildcards := of10MaskToWc mask
  inPort := flow.inPort.truncate 16
  dlSrc := flow.dlSrc
  dlDst := flow.dlDst
  dlVlan := flow.dlVlan
  dlVlanPcp := flow.dlVlanPcp
  dlType := flow.dlType
  nwTos := 0
  nwProto := flow.nwProto
  nwSrc := flow.nwSrc
  nwDst := flow.nwDst
  tpSrc := flow.tpSrc
  tpDst := flow.tpDst

inductive OfpMatch where
  | of10 (fields : Ofp10Match)
  | oxm (fields : List OxmTlv)
  deriving DecidableEq, Repr

inductive FlowModCommand where
  | add
  | modifyStrict
  | delete
  | deleteStrict
  deriving DecidableEq, Repr

/-- A flow-mod as the switch receives it. OpenFlow 1.0 has no table field. -/
structure OfpFlowMod where
  command : FlowModCommand
  pattern : OfpMatch
  tableId : BitVec 8
  priority : BitVec 16
  idleTimeout : BitVec 16 := 0
  hardTimeout : BitVec 16 := 0
  cookie : BitVec 64 := 0
  cookieMask : BitVec 64 := 0
  bufferId : BitVec 32 := 0
  outPort : BitVec 32 := 0
  outGroup : BitVec 32 := 0
  actions : List Byte := []
  deriving DecidableEq, Repr

/-- Group and meter bodies: a bucket with its watch fields, a band as bytes. -/
structure ActVecElem where
  weight : BitVec 16
  ffPort : BitVec 32
  ffGroup : BitVec 32
  actions : List Byte
  deriving DecidableEq, Repr

inductive OfpMsg where
  | flowMod (message : OfpFlowMod)
  | barrierRequest
  | groupMod (modify : Bool) (group : BitVec 32) (type : Byte) (buckets : List ActVecElem)
  | groupDel (group : BitVec 32)
  | meterMod (modify : Bool) (meter : BitVec 32) (flags : BitVec 16) (bands : List (List Byte))
  | meterDel (meter : BitVec 32)
  deriving DecidableEq, Repr

/-- The flow-mods among the messages of a connection. -/
def OfpMsg.flowMod? : OfpMsg → Option OfpFlowMod
  | .flowMod message => some message
  | _ => none

namespace OfpCtors

def prepMatch : OfpCtors → Flow → Flow → OfpMatch
  | .of10, flow, mask => .of10 (of10PrepMatch flow mask)
  | .of131, flow, mask | .of140, flow, mask => .oxm (of131AddOxmFields flow mask)

def tableOf : OfpCtors → Flow → BitVec 8
  | .of10, _ => 0
  | .of131, flow | .of140, flow => flow.tableId

/-- `flow_add`: `of_prep_flow_add_msg` or `of13_14_prep_flow_add_msg`. -/
def flowAdd (ctors : OfpCtors) (flow mask : Flow) (bufferId : BitVec 32) (actions : List Byte)
    (itimeo htimeo prio : BitVec 16) (cookie : BitVec 64) (modify : Bool) : OfpFlowMod where
  command := if modify then .modifyStrict else .add
  pattern := ctors.prepMatch flow mask
  tableId := ctors.tableOf flow
  priority := prio
  idleTimeout := itimeo
  hardTimeout := htimeo
  cookie := cookie
  cookieMask := if ctors = .of10 then 0 else 0xffffffffffffffff
  bufferId := bufferId
  actions := actions

/-- `flow_del`: `of_prep_flow_del_msg` or `of13_14_prep_flow_del_msg`. A zero
port stands for any port; OpenFlow 1.0 keeps the low half of the port only. -/
def flowDel (ctors : OfpCtors) (flow mask : Flow) (oport : BitVec 32) (strict : Bool)
    (prio : BitVec 16) (group : BitVec 32) : OfpFlowMod where
  command := if strict then .deleteStrict else .delete
  pattern := ctors.prepMatch flow mask
  tableId := ctors.tableOf flow
  priority := prio
  outPort :=
    let port := if oport = 0 then (if ctors = .of10 then 0xffff else 0xffffffff) else oport
    if ctors = .of10 then port &&& 0xffff else port
  outGroup := if ctors = .of10 then 0 else group

/-- Only the OpenFlow 1.3 and 1.4 tables have `multi_table_support`; it accepts
every table. The same tables have the group, meter and barrier constructors. -/
def multiTableSupport : OfpCtors → Bool
  | .of10 => false
  | .of131 | .of140 => true

end OfpCtors

end OpenMul
