import OpenMul.Core.Cbuf
import OpenMul.Lib.Loop

namespace OpenMul

open Lib

/-- A connection between two calls: the buffer it keeps, the bytes that are still
to be read from its socket and the messages passed to the handler so far. -/
structure Conn where
  cbuf : Option Cbuf := none
  sock : List Byte
  out : List (List Byte) := []

/-- How a call ends: no data, a refused header, or a failed assertion. -/
inductive CallEnd where
  | idle (conn : Conn)
  | corrupt (conn : Conn)
  | assertion

/-- The locals of a call. `arrived` lists how much data each read finds in the
socket; `inner` tells the message loop from the read loop. The socket loop has
no use for `rdSz` and `procSz`. -/
structure ReadCall where
  b : Cbuf
  sock : List Byte
  arrived : List Nat
  loopCnt : Nat := 0
  inner : Bool := false
  rdSz : Nat := 0
  procSz : Nat := 0
  out : List (List Byte)

/-- The bytes one read returns; an empty read stands for `EAGAIN`. -/
def recv (arrived : List Nat) (room : Nat) (sock : List Byte) : List Byte :=
  sock.take (min (arrived.headD 0) room)

/-- The buffer a call starts with. -/
def startCall (rcvBufSz : Nat) (conn : Conn) (arrived : List Nat) : ReadCall where
  b := conn.cbuf.getD (Cbuf.alloc rcvBufSz)
  sock := conn.sock
  arrived := arrived
  out := conn.out

namespace ReadCall

/-- The locals after a chunk was read into a buffer. -/
def afterRead (c : ReadCall) (b : Cbuf) (chunk : List Byte) : ReadCall :=
  { c with
    b, sock := c.sock.drop chunk.length, arrived := c.arrived.tail, loopCnt := c.loopCnt + 1
    inner := true, rdSz := chunk.length }

/-- One read into a buffer and `cbuf_put`, or the return without data. -/
def readInto (c : ReadCall) (b : Cbuf) (limited : Bool) : Step ReadCall CallEnd :=
  let chunk := if limited then [] else recv c.arrived b.tailroom c.sock
  if chunk = [] then .done (.idle { cbuf := some b, sock := c.sock, out := c.out })
  else
    match b.put chunk with
    | none => .done .assertion
    | some b => .next (c.afterRead b chunk)

/-- The locals after a message was passed on and pulled from the buffer. -/
def afterMessage (c : ReadCall) (b : Cbuf) (size : Nat) : ReadCall :=
  { c with b, procSz := c.procSz + size, out := c.out ++ [c.b.bytes.take size] }

/-- `proc_msg` and `cbuf_pull`. -/
def passMessage (c : ReadCall) (size : Nat) (enough : size ≤ c.b.len) : Step ReadCall CallEnd :=
  match c.b.pull size enough with
  | none => .done .assertion
  | some b => .next (c.afterMessage b size)

/-- `++loop_cnt < 100` fails. -/
def limitReached (c : ReadCall) : Bool := !decide (c.loopCnt + 1 < 100)

/-- A read finds no data, or moves a part of the socket to the end of the buffer. -/
theorem readInto_cases (c : ReadCall) (b : Cbuf) (limited : Bool) :
    (c.readInto b limited = .done (.idle { cbuf := some b, sock := c.sock, out := c.out }) ∧
        (limited = false → b.tailroom = 0 ∨ c.arrived.headD 0 = 0 ∨ c.sock = [])) ∨
      ∃ chunk after, c.readInto b limited = .next (c.afterRead after chunk) ∧ chunk ≠ [] ∧
        chunk ++ c.sock.drop chunk.length = c.sock ∧ after.bytes = b.bytes ++ chunk := by
  cases limited with
  | true => exact .inl ⟨rfl, fun limited => by cases limited⟩
  | false =>
    by_cases empty : recv c.arrived b.tailroom c.sock = []
    · refine .inl ⟨if_pos empty, fun _ => ?_⟩
      rw [recv, List.take_eq_nil_iff, Nat.min_eq_zero_iff] at empty
      tauto
    · have room : (recv c.arrived b.tailroom c.sock).length ≤ b.tailroom := by
        rw [recv, List.length_take]
        omega
      obtain ⟨after, put, bytes⟩ := Cbuf.put_eq_some room
      refine .inr ⟨_, after, ?_, empty, ?_, bytes⟩
      · refine (if_neg empty).trans ?_
        simp [put]
      · exact List.prefix_iff_eq_append.mp (List.take_prefix _ c.sock)

theorem passMessage_spec (c : ReadCall) (size : Nat) (enough : size ≤ c.b.len) :
    ∃ after, c.passMessage size enough = .next (c.afterMessage after size) ∧
      after.bytes = c.b.bytes.drop size ∧ after.mem = c.b.mem ∧ after.data = c.b.data + size := by
  obtain ⟨after, pulled, bytes, mem, data⟩ := Cbuf.pull_eq_some c.b enough
  exact ⟨after, by simp [passMessage, pulled], bytes, mem, data⟩

end ReadCall

/-- Its arguments. The callbacks read a header; a length is what the comparison
with a `size_t` makes of it. `isSock` is `C_CONN_TYPE_SOCK`. -/
structure SocketParms where
  rcvBufSz : Nat
  hdrSz : Nat
  getDataLen : List Byte → Nat
  validateHdr : List Byte → Bool
  isSock : Bool := true

def socketMsgStep (p : SocketParms) (c : ReadCall) : Step ReadCall CallEnd :=
  let hdr := c.b.bytes.take p.hdrSz
  if complete : c.b.len ≥ p.hdrSz ∧ c.b.len ≥ p.getDataLen hdr then
    if p.validateHdr hdr then c.passMessage (p.getDataLen hdr) complete.2
    else .done (.corrupt { cbuf := some c.b, sock := c.sock, out := c.out })
  else .next { c with inner := false }

def socketReadStep (p : SocketParms) (c : ReadCall) : Step ReadCall CallEnd :=
  c.readInto (if c.b.tailroom = 0 then c.b.reallocTailroom p.rcvBufSz else c.b)
    (p.isSock && c.limitReached)

def socketStep (p : SocketParms) (c : ReadCall) : Step ReadCall CallEnd :=
  if c.inner then socketMsgStep p c else socketReadStep p c

/-- One call ends so. -/
def SocketCall (p : SocketParms) (conn : Conn) (arrived : List Nat) (result : CallEnd) : Prop :=
  Step.Returns (socketStep p) (startCall p.rcvBufSz conn arrived) result

/-- `sizeof(struct ofp_header)`. -/
def ofpHeaderSz : Nat := 8

/-- `of_get_data_len`. -/
def ofGetDataLen (hdr : List Byte) : Nat := (hdr.getD 2 0).toNat * 256 + (hdr.getD 3 0).toNat

def ofpMaxPayload : Nat := 65536
def ofpMaxType : Byte := 255
def ofpVersion : Byte := 1
def ofpVersion131 : Byte := 4
def ofpVersion140 : Byte := 5

/-- `__of_hdr_valid`. -/
def ofHdrValidLen (hdr : List Byte) (len : Nat) : Bool :=
  let version := hdr.getD 0 0
  decide (len ≤ ofpMaxPayload) &&
    (version == ofpVersion || version == ofpVersion131 || version == ofpVersion140) &&
    decide (hdr.getD 1 0 < ofpMaxType)

/-- `of_hdr_valid`. -/
def ofHdrValid (hdr : List Byte) : Bool := ofHdrValidLen hdr (ofGetDataLen hdr)

/-- `c_socket_drain_nonblock`: what it leaves in the socket. -/
def socketDrain : List Nat → List Byte → List Byte
  | [], sock => sock
  | arrived :: rest, sock =>
    let chunk := recv [arrived] 2048 sock
    if chunk = [] then sock else socketDrain rest (sock.drop chunk.length)

/-- The end of the message loop: where the messages passed on are exactly as long
as the read was, the source moves `data` and `tail` back by that much. -/
def ReadCall.leaveMessages (c : ReadCall) : ReadCall :=
  { c with
    inner := false
    procSz := 0
    b := if c.procSz = c.rdSz then c.b.rewind c.rdSz else c.b }

def switchMsgStep (c : ReadCall) : Step ReadCall CallEnd :=
  if c.b.len < ofpHeaderSz then .next c.leaveMessages
  else
    let hdr := c.b.bytes.take ofpHeaderSz
    let size := ofGetDataLen hdr
    if ofHdrValidLen hdr size then
      if short : c.b.len < size then .next c.leaveMessages
      else c.passMessage size (Nat.le_of_not_lt short)
    else .done (.corrupt { cbuf := none, sock := socketDrain c.arrived c.sock, out := c.out })

def switchReadStep (rcvBufSz : Nat) (c : ReadCall) : Step ReadCall CallEnd :=
  c.readInto (if c.b.tailroom < ofpHeaderSz then c.b.reallocTailroom rcvBufSz else c.b)
    c.limitReached

def switchStep (rcvBufSz : Nat) (c : ReadCall) : Step ReadCall CallEnd :=
  if c.inner then switchMsgStep c else switchReadStep rcvBufSz c

def SwitchCall (rcvBufSz : Nat) (conn : Conn) (arrived : List Nat) (result : CallEnd) : Prop :=
  Step.Returns (switchStep rcvBufSz) (startCall rcvBufSz conn arrived) result

/-- The connection after a sequence of calls that all return without a failed
assertion. `reopened` tells whether reading goes on after a refused header. -/
inductive Calls (reopened : Bool) (call : Conn → List Nat → CallEnd → Prop) :
    Conn → List (List Nat) → Conn → Prop where
  | none (conn : Conn) : Calls reopened call conn [] conn
  | idle {conn middle last : Conn} {arrived : List Nat} {rest : List (List Nat)}
      (first : call conn arrived (.idle middle)) (others : Calls reopened call middle rest last) :
      Calls reopened call conn (arrived :: rest) last
  | corrupt {conn middle last : Conn} {arrived : List Nat} {rest : List (List Nat)}
      (again : reopened = true) (first : call conn arrived (.corrupt middle))
      (others : Calls reopened call middle rest last) :
      Calls reopened call conn (arrived :: rest) last

/-- Calls of `c_socket_read_nonblock_loop`; after a refused header the socket is closed. -/
def SocketCalls (p : SocketParms) : Conn → List (List Nat) → Conn → Prop :=
  Calls false (SocketCall p)

def SwitchCalls (rcvBufSz : Nat) : Conn → List (List Nat) → Conn → Prop :=
  Calls true (SwitchCall rcvBufSz)

end OpenMul
