import OpenMul.Core.AppObject
import OpenMul.Core.PacketIn
import OpenMul.Lib.BigEndian

namespace OpenMul

open Lib List

def ofHeaderSz : Nat := 8
def cInlineBufSz : Nat := 96
def ofptPacketOut : Byte := 13

/-- `OFPP_NONE`. -/
def ofppNone : BitVec 32 := 0xffff

namespace OfpVersion

def byte : OfpVersion → Byte
  | .of10 => 1
  | .of131 => 4

/-- `sizeof(struct ofp_packet_out)` and `sizeof(struct ofp131_packet_out)`. -/
def packetOutSz : OfpVersion → Nat
  | .of10 => 16
  | .of131 => 24

/-- The size of their `in_port`. -/
def portSz : OfpVersion → Nat
  | .of10 => 2
  | .of131 => 4

/-- The bytes between `actions_len` and `actions`. -/
def padSz : OfpVersion → Nat
  | .of10 => 0
  | .of131 => 6

end OfpVersion

/-- The fields of a message header, in network order but for the transaction id, which is
stored in host order. -/
def storeHeader (version type : Byte) (len : Nat) (xid : BitVec 32) (mem : List Byte) : List Byte :=
  let mem := store mem 0 [version]
  let mem := store mem 1 [type]
  let mem := store mem 2 (toBytes 2 len)
  store mem 4 (toBytes 4 xid.toNat).reverse

/-- `of_prep_msg_on_stack`. -/
def ofPrepMsgOnStack (mem : List Byte) (len : Nat) (type : Byte) (xid : BitVec 32)
    (version : Byte) : List Byte :=
  storeHeader version type len xid mem

/-- `of_prep_msg_common`: `fresh` is what `of_alloc_xid` returns and `mem` what
`alloc_cbuf` does. -/
def ofPrepMsgCommon (mem : List Byte) (version : Byte) (len : Nat) (type : Byte)
    (xid fresh : BitVec 32) : List Byte :=
  let mem := storeHeader version type len (if xid ≠ 0 then xid else fresh) mem
  store mem ofHeaderSz (List.replicate (len - ofHeaderSz) 0)

namespace PktOutParams

variable (parms : PktOutParams)

def totLen (version : OfpVersion) : Nat :=
  version.packetOutSz + parms.actionList.length + parms.data.length

/-- What both ways of building a message store behind its header. -/
def storeBody (version : OfpVersion) (inPort : BitVec 32) (mem : List Byte) : List Byte :=
  let mem := store mem ofHeaderSz (toBytes 4 parms.bufferId.toNat)
  let mem := store mem 12 (toBytes version.portSz inPort.toNat)
  let mem := store mem (12 + version.portSz) (toBytes 2 parms.actionList.length)
  let mem := store mem version.packetOutSz parms.actionList
  store mem (version.packetOutSz + parms.actionList.length) parms.data

/-- The body of the two constructors. `xid` is the address of the data. -/
def prep (version : OfpVersion) (inPort : BitVec 32) (mem : List Byte) (xid fresh : BitVec 32) :
    List Byte :=
  parms.storeBody version inPort
    (ofPrepMsgCommon mem version.byte (parms.totLen version) ofptPacketOut xid fresh)

end PktOutParams

/-- `of_prep_pkt_out_msg`. -/
def ofPrepPktOutMsg (parms : PktOutParams) (mem : List Byte) (xid fresh : BitVec 32) : List Byte :=
  parms.prep .of10 (if parms.inPort ≠ 0 then parms.inPort else ofppNone) mem xid fresh

/-- `of131_prep_pkt_out_msg`. -/
def of131PrepPktOutMsg (parms : PktOutParams) (mem : List Byte) (xid fresh : BitVec 32) :
    List Byte :=
  parms.prep .of131 (if parms.inPort ≠ 0 then parms.inPort else ofpp131Controller) mem xid fresh

/-- `ofp_ctors->pkt_out` of a switch. -/
def ofpCtorsPktOut : OfpVersion → PktOutParams → List Byte → BitVec 32 → BitVec 32 → List Byte
  | .of10 => ofPrepPktOutMsg
  | .of131 => of131PrepPktOutMsg

/-- What the senders look at of the switch: its version, whether its rate limit
is on and reached, and whether this controller is its master. -/
structure TxSwitch where
  version : OfpVersion
  limited : Bool := false
  master : Bool := true
  deriving DecidableEq, Repr

/-- The buffer on the stack, with what is there before. -/
structure InlineBuf where
  bytes : List Byte
  size : bytes.length = cInlineBufSz

/-- What a constructor is given: the address of the data, the result of
`of_alloc_xid`, and the memory of `alloc_cbuf`. -/
structure CtorEnv where
  xid : BitVec 32
  fresh : BitVec 32
  alloc : Nat → List Byte
  size : ∀ len, (alloc len).length = len

/-- The message of the constructor. -/
def generalPktOut (version : OfpVersion) (parms : PktOutParams) (env : CtorEnv) : List Byte :=
  ofpCtorsPktOut version parms (env.alloc (parms.totLen version)) env.xid env.fresh

/-- `of_send_pkt_out`: the bytes given to `c_switch_tx`. -/
def ofSendPktOut (sw : TxSwitch) (parms : PktOutParams) (env : CtorEnv) : Option (List Byte) :=
  if !sw.master then none else some (generalPktOut sw.version parms env)

/-- The body of the two inline senders, for the record of a version. -/
def sendPktOutInline (version : OfpVersion) (sw : TxSwitch) (parms : PktOutParams)
    (stack : InlineBuf) (env : CtorEnv) : Option (List Byte) :=
  if sw.limited then none
  else if !sw.master then none
  else
    let totLen := parms.totLen version
    if cInlineBufSz < totLen then ofSendPktOut sw parms env
    else
      let mem := ofPrepMsgOnStack stack.bytes totLen ofptPacketOut env.xid sw.version.byte
      some ((parms.storeBody version parms.inPort mem).take totLen)

/-- `of_send_pkt_out_inline`. -/
def ofSendPktOutInline : TxSwitch → PktOutParams → InlineBuf → CtorEnv → Option (List Byte) :=
  sendPktOutInline .of10

/-- `of131_send_pkt_out_inline`. -/
def of131SendPktOutInline : TxSwitch → PktOutParams → InlineBuf → CtorEnv → Option (List Byte) :=
  sendPktOutInline .of131

/-- `ofp_ctors->pkt_out_fast` of a switch. -/
def ofpCtorsPktOutFast (sw : TxSwitch) : PktOutParams → InlineBuf → CtorEnv → Option (List Byte) :=
  match sw.version with
  | .of10 => ofSendPktOutInline sw
  | .of131 => of131SendPktOutInline sw

/-- A header with some transaction id. -/
def headerBytes (version type : Byte) (len : Nat) (xid : BitVec 32) : List Byte :=
  [version, type] ++ toBytes 2 len ++ (toBytes 4 xid.toNat).reverse

variable (version type : Byte) (len : Nat) (xid : BitVec 32)

theorem length_headerBytes : (headerBytes version type len xid).length = ofHeaderSz := by
  simp [headerBytes, ofHeaderSz]

theorem storeHeader_eq (mem : List Byte) :
    storeHeader version type len xid mem = headerBytes version type len xid ++
      mem.drop ofHeaderSz := by
  have first : store mem 0 [version] = [version] ++ mem.drop 1 := rfl
  have second : [version, type].length = 2 := rfl
  have third : ([version, type] ++ toBytes 2 len).length = 4 := by simp
  simp only [storeHeader, first]
  rw [store_next (show [version].length = 1 from rfl), singleton_append, store_next second,
    store_next third]
  simp [headerBytes, ofHeaderSz]

/-- A message with some input port and padding. -/
def PktOutParams.wire (parms : PktOutParams) (version : OfpVersion) (xid inPort : BitVec 32)
    (pad : List Byte) : List Byte :=
  headerBytes version.byte ofptPacketOut (parms.totLen version) xid ++
    toBytes 4 parms.bufferId.toNat ++
    toBytes version.portSz inPort.toNat ++ toBytes 2 parms.actionList.length ++ pad ++
      parms.actionList ++ parms.data

section

variable (parms : PktOutParams) (version : OfpVersion)

/-- The stores behind a header keep the padding that is there. -/
theorem PktOutParams.storeBody_eq (xid inPort : BitVec 32)
    {rest : List Byte} (room : version.packetOutSz ≤ ofHeaderSz + rest.length) :
    parms.storeBody version inPort
        (headerBytes version.byte ofptPacketOut (parms.totLen version) xid ++ rest) =
      parms.wire version xid inPort ((rest.drop (4 + version.portSz + 2)).take version.padSz) ++
        rest.drop (parms.totLen version - ofHeaderSz) := by
  have header := length_headerBytes version.byte ofptPacketOut (parms.totLen version) xid
  unfold wire
  generalize headerBytes version.byte ofptPacketOut (parms.totLen version) xid = front at header
  have sizes : 12 + version.portSz + 2 + version.padSz = version.packetOutSz := by
    cases version <;> rfl
  have pad : ((rest.drop (4 + version.portSz + 2)).take version.padSz).length = version.padSz := by
    simp only [ofHeaderSz] at room
    simp only [length_take, length_drop]
    omega
  have port : (front ++ toBytes 4 parms.bufferId.toNat).length = 12 := by
    simp [header, ofHeaderSz]
  have count :
      (front ++ toBytes 4 parms.bufferId.toNat ++ toBytes version.portSz inPort.toNat).length =
      12 + version.portSz := by
    rw [length_append, port, length_toBytes]
  have actions : (front ++ toBytes 4 parms.bufferId.toNat ++ toBytes version.portSz inPort.toNat ++
      toBytes 2 parms.actionList.length).length + version.padSz = version.packetOutSz := by
    rw [length_append, count, length_toBytes, sizes]
  simp only [storeBody]
  rw [store_next header, store_next port, store_next count, store_behind version.padSz actions]
  simp only [drop_drop, length_toBytes]
  have data : (front ++ toBytes 4 parms.bufferId.toNat ++ toBytes version.portSz inPort.toNat ++
      toBytes 2 parms.actionList.length ++ (rest.drop (4 + version.portSz + 2)).take
        version.padSz ++
      parms.actionList).length = version.packetOutSz + parms.actionList.length := by
    rw [length_append, length_append, pad, actions]
  have ends :
      4 + version.portSz + 2 + (version.padSz + parms.actionList.length) + parms.data.length =
      parms.totLen version - ofHeaderSz := by
    simp only [totLen, ofHeaderSz]
    omega
  rw [store_next data, drop_drop, ends]

theorem PktOutParams.header_le_totLen :
    ofHeaderSz ≤ parms.totLen version ∧ version.packetOutSz ≤ parms.totLen version := by
  cases version <;> simp only [totLen, OfpVersion.packetOutSz, ofHeaderSz] <;> omega

/-- The constructors clear the padding. -/
theorem PktOutParams.prep_eq (xid fresh inPort : BitVec 32)
    {mem : List Byte} (size : mem.length = parms.totLen version) :
    parms.prep version inPort mem xid fresh =
      parms.wire version (if xid ≠ 0 then xid else fresh) inPort (replicate version.padSz 0) := by
  obtain ⟨header, whole⟩ := parms.header_le_totLen version
  have behind : (mem.drop ofHeaderSz).drop (parms.totLen version - ofHeaderSz) = [] := by
    rw [drop_drop]
    exact drop_eq_nil_of_le (by omega)
  have room : version.packetOutSz ≤
      ofHeaderSz + (replicate (parms.totLen version - ofHeaderSz) (0 : Byte)).length := by
    rw [length_replicate]
    omega
  have sizes : ofHeaderSz + (4 + version.portSz + 2) + version.padSz = version.packetOutSz := by
    cases version <;> rfl
  rw [prep, ofPrepMsgCommon, storeHeader_eq, store_next (length_headerBytes _ _ _ _),
    length_replicate, behind, append_nil, parms.storeBody_eq version _ inPort room, drop_replicate,
    take_replicate, drop_replicate, Nat.sub_self, replicate_zero, append_nil]
  congr 2
  omega

end

/-- The padding of a message on the stack is what was there before. -/
def InlineBuf.pad (stack : InlineBuf) (version : OfpVersion) : List Byte :=
  (stack.bytes.drop (12 + version.portSz + 2)).take version.padSz

theorem InlineBuf.length_pad (stack : InlineBuf) (version : OfpVersion) :
    (stack.pad version).length = version.padSz := by
  have size := stack.size
  simp only [cInlineBufSz] at size
  cases version <;> simp [InlineBuf.pad, OfpVersion.padSz, OfpVersion.portSz, size]

theorem PktOutParams.length_wire (parms : PktOutParams) (version : OfpVersion)
    (xid inPort : BitVec 32) {pad : List Byte} (size : pad.length = version.padSz) :
    (parms.wire version xid inPort pad).length = parms.totLen version := by
  simp only [wire, length_append, length_headerBytes, length_toBytes, size, totLen, ofHeaderSz]
  cases version <;> simp only [OfpVersion.portSz, OfpVersion.padSz, OfpVersion.packetOutSz]

theorem sendPktOutInline_eq (sw : TxSwitch) (parms : PktOutParams) (stack : InlineBuf)
    (env : CtorEnv) (passes : sw.limited = false) (master : sw.master = true) :
    sendPktOutInline sw.version sw parms stack env =
      if cInlineBufSz < parms.totLen sw.version then some (generalPktOut sw.version parms env)
      else some (parms.wire sw.version env.xid parms.inPort (stack.pad sw.version)) := by
  have size := stack.size
  have room : sw.version.packetOutSz ≤ ofHeaderSz + (stack.bytes.drop ofHeaderSz).length := by
    rw [length_drop, size]
    cases sw.version <;> decide
  have pad :
      ((stack.bytes.drop ofHeaderSz).drop (4 + sw.version.portSz + 2)).take sw.version.padSz =
      stack.pad sw.version := by
    rw [drop_drop]
    congr 2
    simp only [ofHeaderSz]
    omega
  unfold sendPktOutInline
  rw [if_neg (by simp [passes]), if_neg (by simp [master])]
  dsimp only
  split
  · rw [ofSendPktOut, if_neg (by simp [master])]
  · rw [ofPrepMsgOnStack, storeHeader_eq, parms.storeBody_eq sw.version env.xid parms.inPort room,
      pad, take_left' (parms.length_wire sw.version env.xid parms.inPort (stack.length_pad _))]

/-- A message without its transaction id. -/
def sansXid (message : List Byte) : List Byte := message.take 4 ++ message.drop ofHeaderSz

theorem PktOutParams.sansXid_wire (parms : PktOutParams) (version : OfpVersion)
    (xid inPort : BitVec 32) (pad : List Byte) : sansXid (parms.wire version xid inPort pad) =
      [version.byte, ofptPacketOut] ++ toBytes 2
    (parms.totLen version) ++ toBytes 4 parms.bufferId.toNat ++
        (toBytes version.portSz inPort.toNat ++ (toBytes 2 parms.actionList.length ++
          (pad ++ (parms.actionList ++ parms.data)))) := by
  have front : ([version.byte, ofptPacketOut] ++ toBytes 2 (parms.totLen version)).length = 4 := by
    simp
  have header := length_headerBytes version.byte ofptPacketOut (parms.totLen version) xid
  have four : (parms.wire version xid inPort pad).take 4 =
      [version.byte, ofptPacketOut] ++ toBytes 2 (parms.totLen version) := by
    simp only [wire, headerBytes, append_assoc]
    exact take_left' front
  rw [sansXid, four]
  simp only [wire, append_assoc]
  rw [drop_left' header]

/-- The input port and the padding decide whether two messages agree. -/
theorem PktOutParams.sansXid_wire_eq_iff (parms : PktOutParams) (version : OfpVersion)
    {xid xid' inPort inPort' : BitVec 32} {pad pad' : List Byte} (same : pad.length = pad'.length) :
    sansXid (parms.wire version xid inPort pad) = sansXid (parms.wire version xid' inPort' pad') ↔
      toBytes version.portSz inPort.toNat = toBytes version.portSz inPort'.toNat ∧ pad = pad' := by
  rw [sansXid_wire, sansXid_wire, append_cancel_left_eq]
  constructor
  · intro equal
    obtain ⟨port, rest⟩ := append_inj equal (by simp)
    rw [append_cancel_left_eq] at rest
    exact ⟨port, (append_inj rest same).1⟩
  · rintro ⟨port, rfl⟩
    rw [port]

/-- The input port that a constructor writes. -/
def PktOutParams.namedPort (parms : PktOutParams) : OfpVersion → BitVec 32
  | .of10 => if parms.inPort ≠ 0 then parms.inPort else ofppNone
  | .of131 => if parms.inPort ≠ 0 then parms.inPort else ofpp131Controller

/-- It is the one of the parameters unless that is zero. -/
theorem PktOutParams.namedPort_iff (parms : PktOutParams) (version : OfpVersion) :
    toBytes version.portSz parms.inPort.toNat =
      toBytes version.portSz (parms.namedPort version).toNat ↔
      parms.inPort ≠ 0 := by
  by_cases none : parms.inPort = 0
  · cases version <;> simp only [namedPort, none] <;> decide
  · cases version <;> simp only [namedPort, ne_eq, none, not_false_eq_true, if_true]

theorem generalPktOut_eq (version : OfpVersion) (parms : PktOutParams) (env : CtorEnv) :
    generalPktOut version parms env =
      parms.wire version (if env.xid ≠ 0 then env.xid else env.fresh) (parms.namedPort version)
        (replicate version.padSz 0) := by
  have size := env.size (parms.totLen version)
  cases version with
  | of10 => exact parms.prep_eq .of10 env.xid env.fresh _ size
  | of131 => exact parms.prep_eq .of131 env.xid env.fresh _ size

/-- The inline sender agrees with the constructor exactly if the packet is long, or
has an input port and zeros for padding. -/
theorem pktOutFast_agrees_iff (sw : TxSwitch) (parms : PktOutParams) (stack : InlineBuf)
    (env env' : CtorEnv) (passes : sw.limited = false) (master : sw.master = true) :
    (ofpCtorsPktOutFast sw parms stack env).map sansXid = some
    (sansXid (generalPktOut sw.version parms env')) ↔
      cInlineBufSz < parms.totLen sw.version ∨
        parms.inPort ≠ 0 ∧ stack.pad sw.version = List.replicate sw.version.padSz 0 := by
  have fast : ofpCtorsPktOutFast sw parms stack env =
      sendPktOutInline sw.version sw parms stack env := by
    unfold ofpCtorsPktOutFast
    cases sw.version <;> rfl
  have pads : (stack.pad sw.version).length = (replicate sw.version.padSz (0 : Byte)).length := by
    rw [stack.length_pad, length_replicate]
  rw [fast, sendPktOutInline_eq sw parms stack env passes master, generalPktOut_eq,
    generalPktOut_eq]
  split
  · rename_i long
    rw [Option.map_some, Option.some.injEq, parms.sansXid_wire_eq_iff sw.version rfl]
    exact ⟨fun _ => Or.inl long, fun _ => ⟨rfl, rfl⟩⟩
  · rename_i short
    rw [Option.map_some, Option.some.injEq, parms.sansXid_wire_eq_iff sw.version pads,
      parms.namedPort_iff]
    exact ⟨Or.inr, fun either => either.resolve_left short⟩

/-- A buffer and an environment filled with one byte. -/
def filledBuf (byte : Byte) : InlineBuf := ⟨List.replicate cInlineBufSz byte, List.length_replicate⟩

def filledEnv (byte : Byte) : CtorEnv :=
  ⟨0x1234, 7, fun len => List.replicate len byte, fun _ => List.length_replicate⟩

/-- Port 3 and a clear stack. -/
theorem pktOutFast_agrees_clear :
    (ofpCtorsPktOutFast { version := .of131 } ⟨0xffffffff, 3, [0, 0, 0, 16], [1, 2]⟩ (filledBuf 0)
        (filledEnv 9)).map sansXid =
      some (sansXid (generalPktOut .of131 ⟨0xffffffff, 3, [0, 0, 0, 16], [1, 2]⟩ (filledEnv 8))) :=
  (pktOutFast_agrees_iff { version := .of131 } ⟨0xffffffff, 3, [0, 0, 0, 16], [1, 2]⟩ (filledBuf 0)
    (filledEnv 9) (filledEnv 8) rfl rfl).mpr (Or.inr ⟨by decide, by decide⟩)

/-- Without an input port, or with a dirty stack, the inline senders send something else. -/
theorem pktOutFast_disagrees :
    let none : PktOutParams := ⟨0xffffffff, 0, [], [1, 2]⟩
    let three : PktOutParams := ⟨0xffffffff, 3, [], [1, 2]⟩
    (ofpCtorsPktOutFast { version := .of10 } none (filledBuf 0) (filledEnv 9)).map sansXid =
        some [1, 13, 0, 18, 255, 255, 255, 255, 0, 0, 0, 0, 1, 2] ∧
      sansXid (generalPktOut .of10 none (filledEnv 9)) =
        [1, 13, 0, 18, 255, 255, 255, 255, 255, 255, 0, 0, 1, 2] ∧
      (ofpCtorsPktOutFast { version := .of131 } three (filledBuf 0xaa) (filledEnv 9)).map sansXid =
        some [4, 13, 0, 26, 255, 255, 255, 255, 0, 0, 0, 3, 0, 0, 0xaa, 0xaa, 0xaa, 0xaa, 0xaa,
          0xaa, 1, 2] ∧
      sansXid (generalPktOut .of131 three (filledEnv 9)) =
        [4, 13, 0, 26, 255, 255, 255, 255, 0, 0, 0, 3, 0, 0, 0, 0, 0, 0, 0, 0, 1, 2] := by
  decide

end OpenMul
