import OpenMul.Core.Oxm

namespace OpenMul

open Lib (wordAt)

/-- A difference stored in a `size_t`. -/
def sizeT (value : Int) : Nat := (value % 2 ^ 64).toNat

theorem sizeT_of_nat {value : Int} {length : Nat} (same : value = length)
    (small : length < 2 ^ 64) : sizeT value = length := by
  rw [sizeT, same, Int.emod_eq_of_lt (by omega) (by omega)]
  rfl

theorem sizeT_wrapped {length : Nat} (same : value = (length : Int) - 2 ^ 64)
    (small : length < 2 ^ 64) : sizeT value = length := by
  rw [sizeT, same, Int.sub_emod_right, Int.emod_eq_of_lt (by omega) (by omega)]
  rfl

/-- `ntohs(header.length)` of an OpenFlow message. -/
def ofHdrLength (mem : List Byte) : Nat := (wordAt 16 (mem.drop 2)).toNat

theorem ofHdrLength_lt (mem : List Byte) : ofHdrLength mem < 2 ^ 16 := (wordAt 16 (mem.drop 2)).isLt

def ethHeaderLen : Nat := 14
def vlanHeaderLen : Nat := 4
def ipHeaderLen : Nat := 20
def ipv6HeaderLen : Nat := 40
def arpEthHeaderLen : Nat := 28
def mplsHeaderLen : Nat := 4
def tcpHeaderLen : Nat := 20
def udpHeaderLen : Nat := 8
def icmpHeaderLen : Nat := 4

def ofpDlTypeEth2Cutoff : Nat := 0x600
def ipTypeIcmp : BitVec 8 := 1
def arpProIp : BitVec 16 := 0x800
def ipAddrLen : Byte := 4

/-- `IP_IS_FRAGMENT`. -/
def ipIsFragment (fragOff : BitVec 16) : Bool := (fragOff &&& 0x3fff) != 0

/-- The locals of `of_flow_extract`. `reads` collects the headers it looks at, by
offset and size. -/
structure Extract where
  flow : Flow
  remLen : Nat
  reads : List (Nat × Nat) := []
  deriving DecidableEq, Repr

namespace Extract

variable (pkt : List Byte) (pktLen : Nat) (scan : Extract)

/-- `OF_PKT_NEXT_HDR`. -/
def nextHdr : List Byte := pkt.drop (pktLen - scan.remLen)

/-- The step over a header that is looked at. -/
def past (size : Nat) : Extract :=
  { scan with remLen := scan.remLen - size, reads := (pktLen - scan.remLen, size) :: scan.reads }

/-- A VLAN tag, if there is one; `none` if it is cut off. -/
def vlan : Option Extract :=
  if scan.flow.dlType = ethTypeVlan then
    if scan.remLen < vlanHeaderLen then none
    else
      let vh := scan.nextHdr pkt pktLen
      let tci := wordAt 16 vh
      some { scan.past pktLen vlanHeaderLen with
        flow := { scan.flow with
          dlType := wordAt 16 (vh.drop 2)
          dlVlan := tci &&& 0xfff
          dlVlanPcp := ((tci >>> 13) &&& 7).setWidth 8 } }
  else some scan

/-- The ports of a transport header, or no protocol if the header is cut off. -/
def ports (size : Nat) : Extract :=
  if scan.remLen < size then { scan with flow := { scan.flow with nwProto := 0 } }
  else
    let hdr := scan.nextHdr pkt pktLen
    { scan.past pktLen size with
      flow := { scan.flow with tpSrc := wordAt 16 hdr, tpDst := wordAt 16 (hdr.drop 2) } }

/-- The transport header behind an IPv4 header. -/
def ipTransport : Extract :=
  if scan.flow.nwProto = ipTypeTcp then scan.ports pkt pktLen tcpHeaderLen
  else if scan.flow.nwProto = ipTypeUdp then scan.ports pkt pktLen udpHeaderLen
  else if scan.flow.nwProto = ipTypeIcmp then
    if scan.remLen < icmpHeaderLen then { scan with flow := { scan.flow with nwProto := 0 } }
    else scan.past pktLen icmpHeaderLen
  else scan

def ip : Int × Extract :=
  if scan.remLen < ipHeaderLen then (-1, scan)
  else
    let nh := scan.nextHdr pkt pktLen
    let flow :=
      { scan.flow with nwTos := wordAt 8 (nh.drop 1) &&& 0xfc, nwProto := wordAt 8 (nh.drop 9) }
    let scan := { scan.past pktLen ipHeaderLen with
      flow := (flow.setNwSrc (wordAt 32 (nh.drop 12))).setNwDst (wordAt 32 (nh.drop 16)) }
    if ipIsFragment (wordAt 16 (nh.drop 6)) then (1, scan) else (0, scan.ipTransport pkt pktLen)

/-- The operation is stored as the truth value of `ntohs(ar_op) && 0xff`. -/
def arp : Int × Extract :=
  if scan.remLen < arpEthHeaderLen then (-1, scan)
  else
    let hdr := scan.nextHdr pkt pktLen
    let flow :=
      if wordAt 16 (hdr.drop 2) = arpProIp && wordAt 8 (hdr.drop 5) = ipAddrLen then
        (scan.flow.setNwSrc (wordAt 32 (hdr.drop 14))).setNwDst (wordAt 32 (hdr.drop 24))
      else scan.flow
    (0, { scan.past pktLen arpEthHeaderLen with
      flow := { flow with nwProto := if wordAt 16 (hdr.drop 6) = 0 then 0 else 1 } })

def mpls : Int × Extract :=
  if scan.remLen < mplsHeaderLen then (-1, scan)
  else
    let tag := wordAt 32 (scan.nextHdr pkt pktLen)
    (0, { scan.past pktLen mplsHeaderLen with
      flow := { scan.flow with
        mplsLabel := tag &&& 0xfffff
        mplsTc := ((tag >>> 20) &&& 0xf).setWidth 8
        mplsBos := ((tag >>> 23) &&& 1).setWidth 8 } })

/-- The first word is not converted to host order, which is little-endian here. -/
def ipv6 : Int × Extract :=
  if scan.remLen < ipv6HeaderLen then (-1, scan)
  else
    let ip6 := scan.nextHdr pkt pktLen
    let verTcLabel := wordAt 32 (ip6.take 4).reverse
    let scan := { scan.past pktLen ipv6HeaderLen with
      flow := { scan.flow with
        nwTos := ((verTcLabel >>> 20) &&& 0xfc).setWidth 8
        nwProto := wordAt 8 (ip6.drop 6)
        nwSrc6 := wordAt 128 (ip6.drop 8)
        nwDst6 := wordAt 128 (ip6.drop 24) } }
    if scan.flow.nwProto = ipTypeTcp then (0, scan.ports pkt pktLen tcpHeaderLen)
    else if scan.flow.nwProto = ipTypeUdp then (0, scan.ports pkt pktLen udpHeaderLen)
    else (0, scan)

/-- What follows the link layer. -/
def network : Int × Extract :=
  if scan.flow.dlType = ethTypeIp then scan.ip pkt pktLen
  else if scan.flow.dlType = ethTypeArp then scan.arp pkt pktLen
  else if scan.flow.dlType = ethTypeMpls || scan.flow.dlType = ethTypeMplsMcast
    then scan.mpls pkt pktLen
  else if scan.flow.dlType = ethTypeIpv6 then scan.ipv6 pkt pktLen
  else (0, scan)

end Extract

/-- `of_flow_extract`: the value it returns and its locals then. -/
def ofFlowExtract (pkt : List Byte) (inPort : BitVec 32) (pktLen : Nat) (onlyL2 : Bool) :
    Int × Extract :=
  let start : Extract := { flow := { inPort }, remLen := pktLen }
  if start.remLen < ethHeaderLen then (-1, start)
  else
    let eth := start.nextHdr pkt pktLen
    let ethType := wordAt 16 (eth.drop 12)
    let scan := start.past pktLen ethHeaderLen
    if ethType.toNat < ofpDlTypeEth2Cutoff then (-1, scan)
    else
      match { scan with flow := { scan.flow with dlType := ethType } }.vlan pkt pktLen with
      | none => (-1, scan)
      | some scan =>
        let scan := { scan with
          flow := { scan.flow with dlDst := wordAt 48 eth, dlSrc := wordAt 48 (eth.drop 6) } }
        if onlyL2 then (0, scan) else scan.network pkt pktLen

/-- What a packet-in handler looks at of the switch: its rate limit, whether it
has a forwarding function, and whether that is `c_l2_lrn_fwd`. -/
structure RxState where
  limited : Bool := false
  fpFwd : Bool := true
  onlyL2 : Bool := false
  deriving DecidableEq, Repr

/-- What the forwarding function is called with, and the headers of the packet
that were looked at. -/
structure PktIn where
  fl : Flow
  pktOfs : Nat
  pktLen : Nat
  bufferId : BitVec 32
  inPort : BitVec 32
  reads : List (Nat × Nat)
  deriving DecidableEq, Repr

def ofpPacketInSz : Nat := 20
def ofpPacketInData : Nat := 18
def ofp131PacketInSz : Nat := 32
def ofp131PacketInMatch : Nat := 24
def ofpxMatchSz : Nat := 8

def ofprInvalidTtl : Byte := 2

/-- `of10_recv_packet_in`. -/
def of10RecvPacketIn (sw : RxState) (mem : List Byte) : Option PktIn :=
  let inPort : BitVec 32 := (wordAt 16 (mem.drop 14)).setWidth 32
  if sw.limited then none
  else
    let pktLen := sizeT ((ofHdrLength mem : Int) - ofpPacketInData)
    if !sw.fpFwd then none
    else
      let (ret, scan) := ofFlowExtract (mem.drop ofpPacketInData) inPort pktLen sw.onlyL2
      if ret < 0 then none
      else some
        { fl := scan.flow, pktOfs := ofpPacketInData, pktLen
          bufferId := wordAt 32 (mem.drop 8), inPort
          reads := scan.reads }

/-- The flow of a packet-in whose match was read into a flow; an empty packet is
not looked at. -/
def extractPacket (flow : Flow) (data : List Byte) (pktLen : Nat) (onlyL2 : Bool) : Int × Extract :=
  if pktLen = 0 then (0, { flow, remLen := 0 })
  else ofFlowExtract data flow.inPort pktLen onlyL2

/-- `of131_recv_packet_in`. -/
def of131RecvPacketIn (sw : RxState) (mem : List Byte) : Option PktIn :=
  if sw.limited then none
  else
    let ofx := mem.drop ofp131PacketInMatch
    let matchLen : Int := (cAlign8bLen (wordAt 16 (ofx.drop 2)).toNat : Int) - ofpxMatchSz
    let parsed := of131OfpxMatchToFlow ofx
    if ofHdrLength mem < sizeT (ofp131PacketInSz + matchLen) || parsed.1 ≠ 0 then none
    else
      let pktOfs := sizeT (ofp131PacketInSz + matchLen + 2)
      let pktLen := sizeT ((ofHdrLength mem : Int) - pktOfs)
      if !sw.fpFwd then none
      else
        let (ret, scan) := extractPacket parsed.2.out.flow (mem.drop pktOfs) pktLen sw.onlyL2
        if ret < 0 then none
        else some
          { fl := { scan.flow with tableId := wordAt 8 (mem.drop 15) }
            pktOfs, pktLen
            bufferId :=
              if wordAt 8 (mem.drop 14) ≠ ofprInvalidTtl then 0xffffffff else wordAt 32 (mem.drop 8)
            inPort := scan.flow.inPort
            reads := scan.reads }

/-- The protocol versions a switch is served in. -/
inductive OfpVersion where
  | of10 | of131
  deriving DecidableEq, Repr

/-- `c_switch_recv_msg` for a packet-in; a shorter message is dropped. -/
def switchRecvPacketIn (version : OfpVersion) (sw : RxState) (mem : List Byte) : Option PktIn :=
  match version with
  | .of10 => if ofHdrLength mem < ofpPacketInSz then none else of10RecvPacketIn sw mem
  | .of131 => if ofHdrLength mem < ofp131PacketInSz then none else of131RecvPacketIn sw mem

end OpenMul
