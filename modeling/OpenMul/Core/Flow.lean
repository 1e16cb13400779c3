import OpenMul.Lib.Flags

namespace OpenMul

/-- Addresses of application records and counted objects. `NULL` is `0`. -/
abbrev App := Nat

abbrev Byte := BitVec 8

/-- `struct flow`. Multi-byte fields hold the network-order value. The record
has no implicit padding, so `memcmp` over it is equality of these fields. The
address union is kept in its IPv6 view. -/
structure Flow where
  inPort : BitVec 32 := 0
  dlVlan : BitVec 16 := 0
  dlType : BitVec 16 := 0
  dlDst : BitVec 48 := 0
  dlSrc : BitVec 48 := 0
  dlVlanPcp : BitVec 8 := 0
  tableId : BitVec 8 := 0
  nwTos : BitVec 8 := 0
  nwProto : BitVec 8 := 0
  mplsLabel : BitVec 32 := 0
  tpSrc : BitVec 16 := 0
  tpDst : BitVec 16 := 0
  nwSrc6 : BitVec 128 := 0
  nwDst6 : BitVec 128 := 0
  tunnelId : BitVec 64 := 0
  metadata : BitVec 64 := 0
  mplsBos : BitVec 8 := 0
  mplsTc : BitVec 8 := 0
  pad : BitVec 48 := 0
  deriving DecidableEq, Repr

namespace Flow

/-- `ip.nw_src` and `ip.nw_dst` alias the first eight bytes of `ipv6.nw_src`. -/
def nwSrc (flow : Flow) : BitVec 32 := flow.nwSrc6.extractLsb' 96 32

def nwDst (flow : Flow) : BitVec 32 := flow.nwSrc6.extractLsb' 64 32

/-- The record less its trailing `pad` bytes. -/
def sansPad (flow : Flow) : Flow := { flow with pad := 0 }

end Flow

def flEntStatic : BitVec 64 := 0x1
def flEntClone : BitVec 64 := 0x2
def flEntLocal : BitVec 64 := 0x4
def flEntNocache : BitVec 64 := 0x8
def flEntNosync : BitVec 64 := 0x10
def flEntBarrier : BitVec 64 := 0x80
def flEntResidual : BitVec 64 := 0x100
def flEntStale : BitVec 64 := 0x200
def flNoAck : BitVec 64 := 0x400
def flEntResStale : BitVec 64 := 0x2000

/-- `C_FL_RES_STALE_FLAG`, a bit of the cookie. -/
def flResStaleFlag : BitVec 64 := 0x8000000000000000

/-- `struct of_flow_mod_params`, as far as the rule table reads it. -/
structure FlowModParams where
  appOwner : App := 0
  flow : Flow := {}
  mask : Flow := {}
  actions : List Byte := []
  bufferId : BitVec 32 := 0xffffffff
  prio : BitVec 16 := 0
  itimeo : BitVec 16 := 0
  htimeo : BitVec 16 := 0
  flags : BitVec 64 := 0
  cookie : BitVec 32 := 0
  seqCookie : BitVec 32 := 0
  meterDep : List (BitVec 32) := []
  grpDep : List (BitVec 32) := []
  deriving DecidableEq, Repr

def eperm : Int := 1
def eexist : Int := 17
def einval : Int := 22

end OpenMul
