import OpenMul.Core.FlowField
import OpenMul.Core.Message
import OpenMul.Lib.BigEndian

namespace OpenMul

open Lib (toBytes wordAt)

@[match_pattern] def ofbInPort : Nat := 0
@[match_pattern] def ofbMetadata : Nat := 2
@[match_pattern] def ofbEthDst : Nat := 3
@[match_pattern] def ofbEthSrc : Nat := 4
@[match_pattern] def ofbEthType : Nat := 5
@[match_pattern] def ofbVlanVid : Nat := 6
@[match_pattern] def ofbVlanPcp : Nat := 7
@[match_pattern] def ofbIpDscp : Nat := 8
@[match_pattern] def ofbIpProto : Nat := 10
@[match_pattern] def ofbIpv4Src : Nat := 11
@[match_pattern] def ofbIpv4Dst : Nat := 12
@[match_pattern] def ofbTcpSrc : Nat := 13
@[match_pattern] def ofbTcpDst : Nat := 14
@[match_pattern] def ofbUdpSrc : Nat := 15
@[match_pattern] def ofbUdpDst : Nat := 16
@[match_pattern] def ofbArpSpa : Nat := 22
@[match_pattern] def ofbArpTpa : Nat := 23
@[match_pattern] def ofbIpv6Src : Nat := 26
@[match_pattern] def ofbIpv6Dst : Nat := 27
@[match_pattern] def ofbMplsLabel : Nat := 34
@[match_pattern] def ofbMplsTc : Nat := 35
@[match_pattern] def ofbMplsBos : Nat := 36
@[match_pattern] def ofbTunnelId : Nat := 38

namespace MatchField

/-- The three OpenFlow 1.0 fields are never sent as OXM fields; they get the
number of the field they stand for. -/
def ofb : MatchField → Nat
  | inPort => ofbInPort
  | metadata => ofbMetadata
  | ethDst => ofbEthDst
  | ethSrc => ofbEthSrc
  | ethType => ofbEthType
  | vlanVid => ofbVlanVid
  | vlanPcp => ofbVlanPcp
  | mplsLabel => ofbMplsLabel
  | mplsTc => ofbMplsTc
  | mplsBos => ofbMplsBos
  | arpSpa => ofbArpSpa
  | arpTpa => ofbArpTpa
  | ipv4Src => ofbIpv4Src
  | ipv4Dst => ofbIpv4Dst
  | ipv6Src => ofbIpv6Src
  | ipv6Dst => ofbIpv6Dst
  | ipDscp | nwTos => ofbIpDscp
  | ipProto => ofbIpProto
  | tcpSrc | tpSrc => ofbTcpSrc
  | tcpDst | tpDst => ofbTcpDst
  | udpSrc => ofbUdpSrc
  | udpDst => ofbUdpDst

/-- The field of `struct flow` an OXM field is about. -/
def target : MatchField → FlowField
  | inPort => .inPort
  | metadata => .metadata
  | ethDst => .dlDst
  | ethSrc => .dlSrc
  | ethType => .dlType
  | vlanVid => .dlVlan
  | vlanPcp => .dlVlanPcp
  | mplsLabel => .mplsLabel
  | mplsTc => .mplsTc
  | mplsBos => .mplsBos
  | arpSpa | ipv4Src => .nwSrc
  | arpTpa | ipv4Dst => .nwDst
  | ipv6Src => .nwSrc6
  | ipv6Dst => .nwDst6
  | ipDscp | nwTos => .nwTos
  | ipProto => .nwProto
  | tcpSrc | udpSrc | tpSrc => .tpSrc
  | tcpDst | udpDst | tpDst => .tpDst

end MatchField

def ofpxmcOpenflowBasic : BitVec 16 := 0x8000
def ofpmtOxm : Nat := 1
def ofpMaxOxmTlvs : Nat := 32
def ofpxMatchHdrSz : Nat := 4

/-- `sizeof(struct ofp_oxm_header)`. -/
def oxmHdrSz : Nat := 4

def ofpOxmGhdrField (fieldHm : Byte) : Byte := (fieldHm >>> 1) &&& 0xff
def ofpOxmGhdrHm (fieldHm : Byte) : Byte := fieldHm &&& 1
def ofpOxmShdrHm (fieldHm hm : Byte) : Byte := (hm &&& 1) ||| ofpOxmGhdrField fieldHm
def ofpOxmShdrField (fieldHm field : Byte) : Byte :=
  ((field &&& 0x7f) <<< 1) ||| ofpOxmGhdrHm fieldHm

/-- `struct ofp_oxm_header` in host order. -/
structure OxmHdr where
  length : Byte
  oxmFieldHm : Byte
  oxmClass : BitVec 16
  deriving DecidableEq, Repr

namespace OxmHdr

def field (oxm : OxmHdr) : Nat := (ofpOxmGhdrField oxm.oxmFieldHm).toNat

def hm (oxm : OxmHdr) : Bool := ofpOxmGhdrHm oxm.oxmFieldHm != 0

/-- `HTON_OXM_HDR` swaps the header as one word of a little-endian host. -/
def hton (oxm : OxmHdr) : List Byte :=
  [oxm.oxmClass.extractLsb' 8 8, oxm.oxmClass.extractLsb' 0 8, oxm.oxmFieldHm, oxm.length]

/-- `ASSIGN_OXM_HDR` and `NTOH_OXM_HDR`. -/
def ntoh (bytes : List Byte) : OxmHdr where
  length := bytes.getD 3 0
  oxmFieldHm := bytes.getD 2 0
  oxmClass := bytes.getD 0 0 ++ bytes.getD 1 0

end OxmHdr

/-- `of_put_mpls_label_oxm` into four zeroed bytes. -/
def ofPutMplsLabelOxm (label : Nat) (sz : Byte) : List Byte :=
  if sz = 3 then (toBytes 4 label).drop 1 ++ [0] else toBytes 4 label

/-- `of_get_mpls_label_oxm`. -/
def ofGetMplsLabelOxm (data : List Byte) (sz : Nat) : BitVec 32 :=
  if sz = 3 then wordAt 32 (0 :: data) else wordAt 32 data

namespace OxmTlv

def size (tlv : OxmTlv) : Nat := tlv.field.target.size

def length (tlv : OxmTlv) : Nat := if tlv.hasMask then 2 * tlv.size else tlv.size

/-- The buffer is zeroed, so the macros start from a zero byte. -/
def hdr (tlv : OxmTlv) : OxmHdr where
  length := BitVec.ofNat 8 tlv.length
  oxmFieldHm :=
    ofpOxmShdrField (ofpOxmShdrHm 0 (if tlv.hasMask then 1 else 0)) (BitVec.ofNat 8 tlv.field.ofb)
  oxmClass := ofpxmcOpenflowBasic

/-- The source takes the size of an MPLS label from the header it has already
swapped, where the first byte is one of the class. -/
def data (tlv : OxmTlv) : List Byte :=
  if tlv.field = .mplsLabel then ofPutMplsLabelOxm tlv.value (tlv.hdr.hton.getD 0 0)
  else if tlv.hasMask then toBytes tlv.size tlv.value ++ toBytes tlv.size tlv.mask
  else toBytes tlv.size tlv.value

def bytes (tlv : OxmTlv) : List Byte := tlv.hdr.hton ++ tlv.data

end OxmTlv

/-- `C_ALIGN_8B_LEN`. -/
def cAlign8bLen (len : Nat) : Nat := (len + 7) / 8 * 8

/-- `of131_prep_ofpx_match` into a zeroed buffer, as far as the length it returns. -/
def of131PrepOfpxMatch (flow mask : Flow) : List Byte :=
  let fields := (of131AddOxmFields flow mask).flatMap OxmTlv.bytes
  let matchLen := ofpxMatchHdrSz + fields.length
  toBytes 2 ofpmtOxm ++ toBytes 2 matchLen ++ fields ++
    List.replicate (cAlign8bLen matchLen - matchLen) 0

/-- The flow and the mask a match is read into. -/
structure OxmOut where
  flow : Flow := {}
  mask : Flow := {}
  deriving DecidableEq, Repr

/-- How a case of the switch over the field number ends: `return -1`, `break`
before anything is stored, or `break` with the field stored. The source reads
the field's data, `reads` bytes of it, only to store it. -/
inductive OxmCase where
  | fail
  | skip
  | store (reads : Nat) (out : OxmOut)
  deriving DecidableEq, Repr

namespace OxmCase

/-- A case behind a test that breaks when it fails. -/
def given (admitted : Bool) (inner : OxmCase) : OxmCase := if admitted then inner else .skip

/-- A case whose own checks break where the others return an error. -/
def lenient : OxmCase → OxmCase
  | .fail => .skip
  | other => other

end OxmCase

section Cases

variable (oxm : OxmHdr) (len : Int) (data : List Byte) (out : OxmOut)

/-- The cases of a field that must come without a mask. -/
def oxmExact (field : FlowField) : OxmCase :=
  if oxm.hm || len < field.size || oxm.length.toNat != field.size then .fail
  else .store field.size
    ⟨out.flow.put field (wordAt _ data), out.mask.put field (BitVec.allOnes _)⟩

/-- The cases of a field that may come with a mask. -/
def oxmMasked (field : FlowField) : OxmCase :=
  let minTlvLen := if oxm.hm then 2 * field.size else field.size
  if len < minTlvLen || oxm.length.toNat != minTlvLen then .fail
  else .store minTlvLen
    ⟨out.flow.put field (wordAt _ data),
      out.mask.put field (if oxm.hm then wordAt _ (data.drop field.size) else BitVec.allOnes _)⟩

/-- `OFPXMT_OFB_VLAN_VID`: the tag-present bit alone stands for any tag. -/
def oxmVlanVid : OxmCase :=
  let minTlvLen : Nat := if oxm.hm then 4 else 2
  if len < minTlvLen || oxm.length.toNat != minTlvLen then .fail
  else
    let vid : BitVec 16 := wordAt 16 data
    .store minTlvLen
      ⟨{ out.flow with dlVlan := if vid = ofpvidPresent then 0xfff else vid &&& 0xfff },
        { out.mask with dlVlan := if oxm.hm then wordAt 16 (data.drop 2) else 0xffff }⟩

/-- `OFPXMT_OFB_MPLS_LABEL`: three or more bytes will do. -/
def oxmMplsLabel : OxmCase :=
  if oxm.hm || len < 4 || oxm.length.toNat < 3 then .fail
  else .store (if oxm.length.toNat = 3 then 3 else 4)
    ⟨{ out.flow with mplsLabel := ofGetMplsLabelOxm data oxm.length.toNat },
      { out.mask with mplsLabel := 0xffffffff }⟩

/-- The switch over `OFP_OXM_GHDR_FIELD`. A source port without its
prerequisites is an error and one of a wrong length is passed over; it is the
other way round for a destination port. -/
def oxmCase : OxmCase :=
  let isMpls := out.flow.dlType == ethTypeMpls || out.flow.dlType == ethTypeMplsMcast
  let isArp := out.flow.dlType == ethTypeArp
  let isIp := out.flow.dlType == ethTypeIp
  let isIpv6 := out.flow.dlType == ethTypeIpv6
  let isL4 := (isIp || isIpv6) && (out.flow.nwProto == ipTypeUdp || out.flow.nwProto == ipTypeTcp)
  match oxm.field with
  | ofbInPort => oxmExact oxm len data out .inPort
  | ofbEthDst => oxmMasked oxm len data out .dlDst
  | ofbEthSrc => oxmMasked oxm len data out .dlSrc
  | ofbVlanVid => oxmVlanVid oxm len data out
  | ofbVlanPcp => oxmExact oxm len data out .dlVlanPcp
  | ofbEthType => oxmExact oxm len data out .dlType
  | ofbMplsLabel => .given isMpls (oxmMplsLabel oxm len data out)
  | ofbMplsTc => .given isMpls (oxmExact oxm len data out .mplsTc)
  | ofbMplsBos => .given isMpls (oxmExact oxm len data out .mplsBos)
  | ofbArpSpa => .given isArp (oxmMasked oxm len data out .nwSrc)
  | ofbArpTpa => .given isArp (oxmMasked oxm len data out .nwDst)
  | ofbIpv4Src => .given isIp (oxmMasked oxm len data out .nwSrc)
  | ofbIpv4Dst => .given isIp (oxmMasked oxm len data out .nwDst)
  | ofbIpv6Dst => .given isIpv6 (oxmMasked oxm len data out .nwDst6)
  | ofbIpv6Src => .given isIpv6 (oxmMasked oxm len data out .nwSrc6)
  | ofbIpDscp => .given (isIp || isIpv6) (oxmExact oxm len data out .nwTos)
  | ofbIpProto => .given (isIp || isIpv6) (oxmExact oxm len data out .nwProto)
  | ofbTcpSrc | ofbUdpSrc => if isL4 then (oxmExact oxm len data out .tpSrc).lenient else .fail
  | ofbTcpDst | ofbUdpDst => .given isL4 (oxmExact oxm len data out .tpDst)
  | ofbTunnelId => oxmMasked oxm len data out .tunnelId
  | ofbMetadata => oxmMasked oxm len data out .metadata
  | _ => .skip

end Cases

/-- The loop's variables: the remaining length, the offset of the next field,
the output, and how many bytes of the match were looked at so far. -/
structure OxmScan where
  len : Int
  oxmPtr : Nat
  out : OxmOut := {}
  reach : Nat
  deriving DecidableEq, Repr

namespace OxmScan

/-- A look at `count` bytes, `skip` bytes into the next field. -/
def look (scan : OxmScan) (skip count : Nat) : OxmScan :=
  { scan with reach := max scan.reach (scan.oxmPtr + skip + count) }

/-- The step over a field of the given data length. -/
def advance (scan : OxmScan) (length : Nat) : OxmScan :=
  { scan with
    len := scan.len - (length + oxmHdrSz : Nat)
    oxmPtr := scan.oxmPtr + (length + oxmHdrSz) }

end OxmScan

/-- The loop of `of131_ofpx_match_to_flow`. `room` is what `n_tlvs` leaves of
`OFP_MAX_OXM_TLVS`. -/
def oxmLoop (ofx : List Byte) : Nat → OxmScan → Int × OxmScan
  | room, scan =>
    if scan.len > oxmHdrSz then
      let bytes := ofx.drop scan.oxmPtr
      let oxm := OxmHdr.ntoh bytes
      let scan := scan.look 0 oxmHdrSz
      match room with
      | 0 => (-1, scan)
      | room + 1 =>
        if oxm.oxmClass ≠ ofpxmcOpenflowBasic then (-1, scan)
        else
          match oxmCase oxm scan.len (bytes.drop oxmHdrSz) scan.out with
          | .fail => (-1, scan)
          | .skip => oxmLoop ofx room (scan.advance oxm.length.toNat)
          | .store reads out =>
            oxmLoop ofx room
              ({ scan.look oxmHdrSz reads with out := out }.advance oxm.length.toNat)
    else (0, scan)

/-- `of131_ofpx_match_to_flow`: the value it returns and the scan it ends with. -/
def of131OfpxMatchToFlow (ofx : List Byte) : Int × OxmScan :=
  let len := (wordAt 16 (ofx.drop 2)).toNat
  let start : OxmScan := { len := len, oxmPtr := ofpxMatchHdrSz, reach := ofpxMatchHdrSz }
  if len < 8 then (0, start)
  else if (wordAt 16 ofx).toNat ≠ ofpmtOxm then (-1, start)
  else oxmLoop ofx ofpMaxOxmTlvs { start with len := (len : Int) - ofpxMatchHdrSz }

end OpenMul
