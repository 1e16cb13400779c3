import OpenMul.Core.Instruction
import OpenMul.Core.Oxm

namespace OpenMul

open Lib (toBytes wordAt)

def mulActBufSz : Nat := 4096

/-- A pointer into the buffer: which of the allocations it was, and where. -/
structure ActPtr where
  gen : Nat
  off : Nat
  deriving DecidableEq, Repr

/-- `struct mul_act_mdata`. The buffer is zeroed behind the write pointer, so its
bytes up to there are all of it. `gen` counts the allocations; `fault` is set by
a write through a pointer into an earlier one. The two words of `setf_bm` are one. -/
structure ActMdata where
  bytes : List Byte := []
  bufLen : Nat := mulActBufSz
  gen : Nat := 0
  actInstWrPtr : Option ActPtr := none
  actInstAppPtr : Option ActPtr := none
  onlyActs : Bool := false
  actInstType : Option InstType := none
  instBm : BitVec 32 := 0
  actBm : BitVec 32 := 0
  setfBm : BitVec 64 := 0
  fault : Bool := false
  deriving DecidableEq, Repr

/-- `of_mact_alloc`. -/
def ofMactAlloc : ActMdata := {}

namespace ActMdata

/-- `of_mact_buf_room`. -/
def room (mdata : ActMdata) : Nat := mdata.bufLen - mdata.bytes.length

/-- `of_check_realloc_act`. The new buffer gets as many of the old bytes as the old
one had room left, and the write pointer is set behind them. -/
def checkRealloc (mdata : ActMdata) (len : Nat) : ActMdata :=
  if mdata.room < len then
    { mdata with
      bytes := (mdata.bytes ++ List.replicate mdata.room 0).take mdata.room
      bufLen := mdata.room + len
      gen := mdata.gen + 1 }
  else mdata

/-- Make room, write and advance. -/
def put (mdata : ActMdata) (data : List Byte) : ActMdata :=
  let grown := mdata.checkRealloc data.length
  { grown with bytes := grown.bytes ++ data }

def instPtr (mdata : ActMdata) : InstType → Option ActPtr
  | .writeActions => mdata.actInstWrPtr
  | .applyActions => mdata.actInstAppPtr
  | _ => none

def setInstPtr (mdata : ActMdata) (type : InstType) (ptr : ActPtr) : ActMdata :=
  match type with
  | .writeActions => { mdata with actInstWrPtr := some ptr }
  | .applyActions => { mdata with actInstAppPtr := some ptr }
  | _ => mdata

end ActMdata

/-- The length field at an offset of a buffer, overwritten. -/
def patchLen (bytes : List Byte) (off len : Nat) : List Byte :=
  bytes.take (off + 2) ++ toBytes 2 len ++ bytes.drop (off + 4)

/-- `of131_set_inst_action_type`, which refuses a type that has been started. -/
def of131SetInstActionType (mdata : ActMdata) (type : InstType) : ActMdata × Int :=
  if (mdata.instPtr type).isSome then (mdata, -1)
  else ({ mdata with actInstType := some type }, 0)

/-- The header and the padding of an instruction with no actions yet. -/
def instActionsHdr (type : InstType) : List Byte :=
  toBytes 2 type.num.toNat ++ toBytes 2 8 ++ List.replicate 4 0

/-- `of131_make_inst_actions`. -/
def of131MakeInstActions (mdata : ActMdata) (type : InstType) : ActMdata × Nat :=
  if mdata.onlyActs || (mdata.instPtr type).isSome then (mdata, 0)
  else
    let grown := mdata.checkRealloc 8
    let started := grown.setInstPtr type { gen := grown.gen, off := grown.bytes.length }
    ({ started with bytes := started.bytes ++ instActionsHdr type }, 8)

/-- The type an action goes to; an unset one becomes the apply instruction. -/
def actType (mdata : ActMdata) : InstType := mdata.actInstType.getD .applyActions

/-- `__of131_make_inst_actions`. -/
def makeCurInstActions (mdata : ActMdata) : ActMdata :=
  (of131MakeInstActions { mdata with actInstType := some (actType mdata) } (actType mdata)).1

/-- `of131_fini_inst_actions`: the length runs to the write pointer. -/
def of131FiniInstActions (mdata : ActMdata) : ActMdata :=
  match (if mdata.onlyActs then none else mdata.actInstType.bind mdata.instPtr) with
  | none => mdata
  | some ptr =>
    if ptr.gen = mdata.gen then
      { mdata with bytes := patchLen mdata.bytes ptr.off (mdata.bytes.length - ptr.off) }
    else { mdata with fault := true }

/-- An instruction that may be made once. -/
def makeInstOnce (mdata : ActMdata) (type : InstType) (body : List Byte) : ActMdata × Nat :=
  if mdata.instBm.getLsbD type.num.toNat then (mdata, 0)
  else
    let len := 4 + body.length
    let noted := { mdata with instBm := mdata.instBm ||| BitVec.twoPow 32 type.num.toNat }
    (noted.put (toBytes 2 type.num.toNat ++ toBytes 2 len ++ body), len)

def of131MakeInstGoto (mdata : ActMdata) (tableId : Byte) : ActMdata × Nat :=
  makeInstOnce mdata .gotoTable (tableId :: List.replicate 3 0)

def of131MakeInstMeter (mdata : ActMdata) (meter : BitVec 32) : ActMdata × Nat :=
  makeInstOnce mdata .meter (toBytes 4 meter.toNat)

def of131MakeInstWrMeta (mdata : ActMdata) (metadata metadataMask : BitVec 64) : ActMdata × Nat :=
  makeInstOnce mdata .writeMetadata
    (List.replicate 4 0 ++ toBytes 8 metadata.toNat ++ toBytes 8 metadataMask.toNat)

def of131MakeInstClearAct (mdata : ActMdata) : ActMdata × Nat :=
  makeInstOnce mdata .clearActions (List.replicate 4 0)

/-- What an action leaves in the marks of a write instruction. Both directions of
the TTL copy leave the same: `1 << in ? a : b` is `a` whatever `in` is. -/
inductive ActMark where
  | act (type : ActType)
  | cpTtl
  | setf (field : Fin 64)
  deriving DecidableEq, Repr

namespace ActMdata

def marked (mdata : ActMdata) : ActMark → Bool
  | .act type => mdata.actBm.getLsbD type.num.toNat
  | .cpTtl => mdata.actBm.getLsbD 2 || mdata.actBm.getLsbD 3
  | .setf field => mdata.setfBm.getLsbD field

def mark (mdata : ActMdata) : ActMark → ActMdata
  | .act type => { mdata with actBm := mdata.actBm ||| BitVec.twoPow 32 type.num.toNat }
  | .cpTtl => { mdata with actBm := mdata.actBm ||| 12 }
  | .setf field => { mdata with setfBm := mdata.setfBm ||| BitVec.twoPow 64 field }

end ActMdata

/-- An action on the wire: its type, and what follows its type and length. -/
structure WireAct where
  type : ActType
  body : List Byte
  deriving DecidableEq, Repr

namespace WireAct

def size (act : WireAct) : Nat := 4 + act.body.length

def bytes (act : WireAct) : List Byte :=
  toBytes 2 act.type.num.toNat ++ toBytes 2 act.size ++ act.body

end WireAct

/-- What the action builders share. Only a write instruction refuses an action it
has already, after its own header has been made. -/
def makeAction (mdata : ActMdata) (mark : ActMark) (act : WireAct) : ActMdata × Nat :=
  let started := makeCurInstActions mdata
  if started.actInstType = some .writeActions then
    if started.marked mark then (started, 0)
    else (of131FiniInstActions ((started.mark mark).put act.bytes), act.size)
  else (of131FiniInstActions (started.put act.bytes), act.size)

def ofpcmlNoBuffer : Nat := 0xffff
def ofMaxMissSendLen : Nat := 1518

def ethTypeSvlan : BitVec 16 := 0x88a8
def ethTypePbb : BitVec 16 := 0x88e7

/-- An action that is only a header. -/
def headerAct (type : ActType) : WireAct := ⟨type, List.replicate 4 0⟩

def of131MakeActionOutput (mdata : ActMdata) (oport : BitVec 32) : ActMdata × Nat :=
  let oport := if oport = 0 then ofpp131Controller else oport
  let maxLen := if oport = ofpp131Controller then ofpcmlNoBuffer else ofMaxMissSendLen
  makeAction mdata (.act .output)
    ⟨.output, toBytes 4 oport.toNat ++ toBytes 2 maxLen ++ List.replicate 6 0⟩

/-- The push action for an Ethernet type, if there is one. -/
def pushType (ethType : BitVec 16) : Option ActType :=
  if ethType = ethTypeVlan ∨ ethType = ethTypeSvlan then some .pushVlan
  else if ethType = ethTypeMpls ∨ ethType = ethTypeMplsMcast then some .pushMpls
  else if ethType = ethTypePbb then some .pushPbb
  else none

def of131MakeActionPush (mdata : ActMdata) (ethType : BitVec 16) : ActMdata × Nat :=
  match pushType ethType with
  | none => (mdata, 0)
  | some type => makeAction mdata (.act type) ⟨type, toBytes 2 ethType.toNat ++ [0, 0]⟩

def of131MakeActionStripMpls (mdata : ActMdata) (ethType : BitVec 16) : ActMdata × Nat :=
  makeAction mdata (.act .popMpls) ⟨.popMpls, toBytes 2 ethType.toNat ++ [0, 0]⟩

def of131MakeActionSetMplsTtl (mdata : ActMdata) (ttl : Byte) : ActMdata × Nat :=
  makeAction mdata (.act .mplsTtl) ⟨.mplsTtl, [ttl, 0, 0, 0]⟩

def of131MakeActionDecMplsTtl (mdata : ActMdata) : ActMdata × Nat :=
  makeAction mdata (.act .decMplsTtl) (headerAct .decMplsTtl)

def of131MakeActionSetIpTtl (mdata : ActMdata) (ttl : Byte) : ActMdata × Nat :=
  makeAction mdata (.act .setNwTtl) ⟨.setNwTtl, [ttl, 0, 0, 0]⟩

def of131MakeActionDecIpTtl (mdata : ActMdata) : ActMdata × Nat :=
  makeAction mdata (.act .decNwTtl) (headerAct .decNwTtl)

def of131MakeActionCpTtl (mdata : ActMdata) (inwards : Bool) : ActMdata × Nat :=
  makeAction mdata .cpTtl (headerAct (if inwards then .copyTtlIn else .copyTtlOut))

def of131MakeActionStripPbb (mdata : ActMdata) : ActMdata × Nat :=
  makeAction mdata (.act .popPbb) (headerAct .popPbb)

def of131MakeActionStripVlan (mdata : ActMdata) : ActMdata × Nat :=
  makeAction mdata (.act .popVlan) (headerAct .popVlan)

def of131MakeActionGroup (mdata : ActMdata) (group : BitVec 32) : ActMdata × Nat :=
  makeAction mdata (.act .group) ⟨.group, toBytes 4 group.toNat⟩

def of131MakeActionSetQueue (mdata : ActMdata) (queue : BitVec 32) : ActMdata × Nat :=
  makeAction mdata (.act .setQueue) ⟨.setQueue, toBytes 4 queue.toNat⟩

def ofpActSetfHdrSz : Nat := 4

/-- The set-field action with one field and its data. -/
def setfAct (field : Nat) (data : List Byte) : WireAct :=
  let hdr : OxmHdr :=
    { length := BitVec.ofNat 8 data.length
      oxmFieldHm := ofpOxmShdrField (ofpOxmShdrHm 0 0) (BitVec.ofNat 8 field)
      oxmClass := ofpxmcOpenflowBasic }
  let used := ofpActSetfHdrSz + oxmHdrSz + data.length
  ⟨.setField, hdr.hton ++ data ++ List.replicate (cAlign8bLen used - used) 0⟩

def makeSetField (mdata : ActMdata) (field : Fin 64) (data : List Byte) : ActMdata × Nat :=
  makeAction mdata (.setf field) (setfAct field data)

def of131MakeActionSetVid (mdata : ActMdata) (vid : BitVec 16) : ActMdata × Nat :=
  makeSetField mdata ⟨ofbVlanVid, by decide⟩ (toBytes 2 ((vid &&& 0xfff) ||| ofpvidPresent).toNat)

/-- The size of the label is read from the header after it has been swapped. -/
def of131MakeActionSetMplsLabel (mdata : ActMdata) (label : BitVec 32) : ActMdata × Nat :=
  makeSetField mdata ⟨ofbMplsLabel, by decide⟩ (ofPutMplsLabelOxm label.toNat 0x80)

def of131MakeActionSetMplsTc (mdata : ActMdata) (tc : Byte) : ActMdata × Nat :=
  makeSetField mdata ⟨ofbMplsTc, by decide⟩ [tc]

def of131MakeActionSetMplsBos (mdata : ActMdata) (bos : Byte) : ActMdata × Nat :=
  makeSetField mdata ⟨ofbMplsBos, by decide⟩ [if bos = 0 then 0 else 1]

def of131MakeActionSetVlanPcp (mdata : ActMdata) (vlanPcp : Byte) : ActMdata × Nat :=
  makeSetField mdata ⟨ofbVlanPcp, by decide⟩ [vlanPcp]

def of131MakeActionSetDmac (mdata : ActMdata) (dmac : BitVec 48) : ActMdata × Nat :=
  makeSetField mdata ⟨ofbEthDst, by decide⟩ (toBytes 6 dmac.toNat)

def of131MakeActionSetSmac (mdata : ActMdata) (smac : BitVec 48) : ActMdata × Nat :=
  makeSetField mdata ⟨ofbEthSrc, by decide⟩ (toBytes 6 smac.toNat)

def of131MakeActionSetEthType (mdata : ActMdata) (ethType : BitVec 16) : ActMdata × Nat :=
  makeSetField mdata ⟨ofbEthType, by decide⟩ (toBytes 2 ethType.toNat)

def of131MakeActionSetIpv4Src (mdata : ActMdata) (nwSaddr : BitVec 32) : ActMdata × Nat :=
  makeSetField mdata ⟨ofbIpv4Src, by decide⟩ (toBytes 4 nwSaddr.toNat)

def of131MakeActionSetIpv4Dst (mdata : ActMdata) (nwDaddr : BitVec 32) : ActMdata × Nat :=
  makeSetField mdata ⟨ofbIpv4Dst, by decide⟩ (toBytes 4 nwDaddr.toNat)

def of131MakeActionSetIpv6Src (mdata : ActMdata) (nwSaddr : BitVec 128) : ActMdata × Nat :=
  makeSetField mdata ⟨ofbIpv6Src, by decide⟩ (toBytes 16 nwSaddr.toNat)

def of131MakeActionSetIpv6Dst (mdata : ActMdata) (nwDaddr : BitVec 128) : ActMdata × Nat :=
  makeSetField mdata ⟨ofbIpv6Dst, by decide⟩ (toBytes 16 nwDaddr.toNat)

def of131MakeActionSetNwTos (mdata : ActMdata) (tos : Byte) : ActMdata × Nat :=
  makeSetField mdata ⟨ofbIpDscp, by decide⟩ [tos &&& 0x7f]

/-- The field of a transport port, for the two protocols that have one. -/
def portType (ipProto : Byte) (isSrc : Bool) : Option (Fin 64) :=
  if ipProto = ipTypeTcp then
    some (if isSrc then ⟨ofbTcpSrc, by decide⟩ else ⟨ofbTcpDst, by decide⟩)
  else if ipProto = ipTypeUdp then
    some (if isSrc then ⟨ofbUdpSrc, by decide⟩ else ⟨ofbUdpDst, by decide⟩)
  else none

def of131MakeActionSetTpPort (mdata : ActMdata) (ipProto : Byte) (isSrc : Bool) (port : BitVec 16) :
    ActMdata × Nat :=
  match portType ipProto isSrc with
  | none => (mdata, 0)
  | some field => makeSetField mdata field (toBytes 2 port.toNat)

def of131MakeActionSetTpUdpSport (mdata : ActMdata) (port : BitVec 16) : ActMdata × Nat :=
  of131MakeActionSetTpPort mdata ipTypeUdp true port

def of131MakeActionSetTpUdpDport (mdata : ActMdata) (port : BitVec 16) : ActMdata × Nat :=
  of131MakeActionSetTpPort mdata ipTypeUdp false port

def of131MakeActionSetTpTcpSport (mdata : ActMdata) (port : BitVec 16) : ActMdata × Nat :=
  of131MakeActionSetTpPort mdata ipTypeTcp true port

def of131MakeActionSetTpTcpDport (mdata : ActMdata) (port : BitVec 16) : ActMdata × Nat :=
  of131MakeActionSetTpPort mdata ipTypeTcp false port

def of131MakeActionSetTunnelId (mdata : ActMdata) (tunnelId : BitVec 64) : ActMdata × Nat :=
  makeSetField mdata ⟨ofbTunnelId, by decide⟩ (toBytes 8 tunnelId.toNat)

/-- A call of one of the action builders. -/
inductive ActReq where
  | output (oport : BitVec 32)
  | push (ethType : BitVec 16)
  | stripMpls (ethType : BitVec 16)
  | setMplsTtl (ttl : Byte)
  | decMplsTtl
  | setIpTtl (ttl : Byte)
  | decIpTtl
  | cpTtl (inwards : Bool)
  | stripPbb
  | stripVlan
  | group (groupId : BitVec 32)
  | setQueue (queue : BitVec 32)
  | setVid (vid : BitVec 16)
  | setMplsLabel (label : BitVec 32)
  | setMplsTc (tc : Byte)
  | setMplsBos (bos : Byte)
  | setVlanPcp (vlanPcp : Byte)
  | setDmac (dmac : BitVec 48)
  | setSmac (smac : BitVec 48)
  | setEthType (ethType : BitVec 16)
  | setIpv4Src (nwSaddr : BitVec 32)
  | setIpv4Dst (nwDaddr : BitVec 32)
  | setIpv6Src (nwSaddr : BitVec 128)
  | setIpv6Dst (nwDaddr : BitVec 128)
  | setNwTos (tos : Byte)
  | setTpUdpSport (port : BitVec 16)
  | setTpUdpDport (port : BitVec 16)
  | setTpTcpSport (port : BitVec 16)
  | setTpTcpDport (port : BitVec 16)
  | setTunnelId (tunnelId : BitVec 64)
  deriving DecidableEq, Repr

def ActReq.run (mdata : ActMdata) : ActReq → ActMdata × Nat
  | .output oport => of131MakeActionOutput mdata oport
  | .push ethType => of131MakeActionPush mdata ethType
  | .stripMpls ethType => of131MakeActionStripMpls mdata ethType
  | .setMplsTtl ttl => of131MakeActionSetMplsTtl mdata ttl
  | .decMplsTtl => of131MakeActionDecMplsTtl mdata
  | .setIpTtl ttl => of131MakeActionSetIpTtl mdata ttl
  | .decIpTtl => of131MakeActionDecIpTtl mdata
  | .cpTtl inwards => of131MakeActionCpTtl mdata inwards
  | .stripPbb => of131MakeActionStripPbb mdata
  | .stripVlan => of131MakeActionStripVlan mdata
  | .group groupId => of131MakeActionGroup mdata groupId
  | .setQueue queue => of131MakeActionSetQueue mdata queue
  | .setVid vid => of131MakeActionSetVid mdata vid
  | .setMplsLabel label => of131MakeActionSetMplsLabel mdata label
  | .setMplsTc tc => of131MakeActionSetMplsTc mdata tc
  | .setMplsBos bos => of131MakeActionSetMplsBos mdata bos
  | .setVlanPcp vlanPcp => of131MakeActionSetVlanPcp mdata vlanPcp
  | .setDmac dmac => of131MakeActionSetDmac mdata dmac
  | .setSmac smac => of131MakeActionSetSmac mdata smac
  | .setEthType ethType => of131MakeActionSetEthType mdata ethType
  | .setIpv4Src nwSaddr => of131MakeActionSetIpv4Src mdata nwSaddr
  | .setIpv4Dst nwDaddr => of131MakeActionSetIpv4Dst mdata nwDaddr
  | .setIpv6Src nwSaddr => of131MakeActionSetIpv6Src mdata nwSaddr
  | .setIpv6Dst nwDaddr => of131MakeActionSetIpv6Dst mdata nwDaddr
  | .setNwTos tos => of131MakeActionSetNwTos mdata tos
  | .setTpUdpSport port => of131MakeActionSetTpUdpSport mdata port
  | .setTpUdpDport port => of131MakeActionSetTpUdpDport mdata port
  | .setTpTcpSport port => of131MakeActionSetTpTcpSport mdata port
  | .setTpTcpDport port => of131MakeActionSetTpTcpDport mdata port
  | .setTunnelId tunnelId => of131MakeActionSetTunnelId mdata tunnelId

/-- The mark and the wire form of an action; `none` if the builder knows no such
action. -/
def ActReq.wire : ActReq → Option (ActMark × WireAct)
  | .output oport =>
    let oport := if oport = 0 then ofpp131Controller else oport
    let maxLen := if oport = ofpp131Controller then ofpcmlNoBuffer else ofMaxMissSendLen
    some (.act .output, ⟨.output, toBytes 4 oport.toNat ++ toBytes 2 maxLen ++ List.replicate 6 0⟩)
  | .push ethType =>
    (pushType ethType).map fun type => (.act type, ⟨type, toBytes 2 ethType.toNat ++ [0, 0]⟩)
  | .stripMpls ethType => some (.act .popMpls, ⟨.popMpls, toBytes 2 ethType.toNat ++ [0, 0]⟩)
  | .setMplsTtl ttl => some (.act .mplsTtl, ⟨.mplsTtl, [ttl, 0, 0, 0]⟩)
  | .decMplsTtl => some (.act .decMplsTtl, headerAct .decMplsTtl)
  | .setIpTtl ttl => some (.act .setNwTtl, ⟨.setNwTtl, [ttl, 0, 0, 0]⟩)
  | .decIpTtl => some (.act .decNwTtl, headerAct .decNwTtl)
  | .cpTtl inwards => some (.cpTtl, headerAct (if inwards then .copyTtlIn else .copyTtlOut))
  | .stripPbb => some (.act .popPbb, headerAct .popPbb)
  | .stripVlan => some (.act .popVlan, headerAct .popVlan)
  | .group groupId => some (.act .group, ⟨.group, toBytes 4 groupId.toNat⟩)
  | .setQueue queue => some (.act .setQueue, ⟨.setQueue, toBytes 4 queue.toNat⟩)
  | .setVid vid =>
    setf ⟨ofbVlanVid, by decide⟩ (toBytes 2 ((vid &&& 0xfff) ||| ofpvidPresent).toNat)
  | .setMplsLabel label => setf ⟨ofbMplsLabel, by decide⟩ (ofPutMplsLabelOxm label.toNat 0x80)
  | .setMplsTc tc => setf ⟨ofbMplsTc, by decide⟩ [tc]
  | .setMplsBos bos => setf ⟨ofbMplsBos, by decide⟩ [if bos = 0 then 0 else 1]
  | .setVlanPcp vlanPcp => setf ⟨ofbVlanPcp, by decide⟩ [vlanPcp]
  | .setDmac dmac => setf ⟨ofbEthDst, by decide⟩ (toBytes 6 dmac.toNat)
  | .setSmac smac => setf ⟨ofbEthSrc, by decide⟩ (toBytes 6 smac.toNat)
  | .setEthType ethType => setf ⟨ofbEthType, by decide⟩ (toBytes 2 ethType.toNat)
  | .setIpv4Src nwSaddr => setf ⟨ofbIpv4Src, by decide⟩ (toBytes 4 nwSaddr.toNat)
  | .setIpv4Dst nwDaddr => setf ⟨ofbIpv4Dst, by decide⟩ (toBytes 4 nwDaddr.toNat)
  | .setIpv6Src nwSaddr => setf ⟨ofbIpv6Src, by decide⟩ (toBytes 16 nwSaddr.toNat)
  | .setIpv6Dst nwDaddr => setf ⟨ofbIpv6Dst, by decide⟩ (toBytes 16 nwDaddr.toNat)
  | .setNwTos tos => setf ⟨ofbIpDscp, by decide⟩ [tos &&& 0x7f]
  | .setTpUdpSport port => setf ⟨ofbUdpSrc, by decide⟩ (toBytes 2 port.toNat)
  | .setTpUdpDport port => setf ⟨ofbUdpDst, by decide⟩ (toBytes 2 port.toNat)
  | .setTpTcpSport port => setf ⟨ofbTcpSrc, by decide⟩ (toBytes 2 port.toNat)
  | .setTpTcpDport port => setf ⟨ofbTcpDst, by decide⟩ (toBytes 2 port.toNat)
  | .setTunnelId tunnelId => setf ⟨ofbTunnelId, by decide⟩ (toBytes 8 tunnelId.toNat)
where
  setf (field : Fin 64) (data : List Byte) : Option (ActMark × WireAct) :=
    some (.setf field, setfAct field data)

end OpenMul
