import OpenMul.Core.Flow
import OpenMul.Lib.Machine

namespace OpenMul

open Lib

/-- `struct cbuf` in a transmit queue: the bytes between `data` and `tail`, and
whether the storage belongs to a caller. -/
structure TxBuf where
  data : List Byte
  nofree : Bool := false
deriving DecidableEq, Repr

namespace TxBuf

/-- `cbuf_pull`. -/
def pull (buf : TxBuf) (len : Nat) : TxBuf :=
  { buf with data := buf.data.drop len }

/-- `cbuf_realloc_headroom` without room: a copy on the heap. -/
def reallocHeadroom (buf : TxBuf) : TxBuf where
  data := buf.data

end TxBuf

/-- `struct cbuf_head`: the list and the field that counts it. -/
structure TxQ where
  bufs : List TxBuf := []
  len : Nat := 0
deriving DecidableEq, Repr

namespace TxQ

/-- `cbuf_list_queue_tail`. -/
def queueTail (q : TxQ) (buf : TxBuf) : TxQ := ⟨q.bufs ++ [buf], q.len + 1⟩

/-- `cbuf_list_queue`, which puts the buffer at the head. -/
def queue (q : TxQ) (buf : TxBuf) : TxQ := ⟨buf :: q.bufs, q.len + 1⟩

/-- `cbuf_list_dequeue`. -/
def dequeue (q : TxQ) : Option (TxBuf × TxQ) :=
  match q.bufs with
  | [] => none
  | buf :: rest => some (buf, ⟨rest, q.len - 1⟩)

/-- `cbuf_list_rm_inline_bufs`, which also counts the list again. -/
def rmInlineBufs (q : TxQ) : TxQ where
  bufs := q.bufs.map fun buf => if buf.nofree then buf.reallocHeadroom else buf
  len := q.bufs.length

/-- `cbuf_list_purge`. -/
def purge (q : TxQ) : TxQ := ⟨[], q.len - q.bufs.length⟩

/-- The bytes still to be sent. -/
def bytes (q : TxQ) : List Byte := q.bufs.flatMap TxBuf.data

end TxQ

/-- `c_conn_t`, the part that transmission uses. `wire` are the bytes that the
socket has taken, `scheds` and `rdActive` count the calls of `sched_tx` and of
`event_active`. -/
structure TxConn where
  ssl : Bool := false
  dead : Bool := false
  wrBlkOnRd : Bool := false
  rdBlkOnWr : Bool := false
  txQ : TxQ := {}
  txPkts : BitVec 32 := 0
  txErr : BitVec 32 := 0
  wire : List Byte := []
  scheds : Nat := 0
  rdActive : Nat := 0

/-- What `send`, `write` or `writev` returns: a size, or -1 with `errno` equal to
`EAGAIN` or not. -/
inductive SockResult where
  | sent (size : Nat)
  | failed (again : Bool)
deriving DecidableEq, Repr

/-- `SSL_get_error`. -/
inductive SslError where
  | wantWrite
  | wantRead
  | zeroReturn
  | other
deriving DecidableEq, Repr

/-- What `SSL_write` returns, the reason if that is not positive, and whether
`errno` is `EAGAIN` then. -/
structure TlsResult where
  size : Nat
  sslErr : SslError
  again : Bool
deriving DecidableEq, Repr

/-- The results of the writes of one call, by their number. -/
structure TxEnv where
  sock : Nat → SockResult
  tls : Nat → TlsResult

namespace TxConn

/-- The socket takes a number of the offered bytes. -/
def hand (conn : TxConn) (offered : List Byte) (size : Nat) : TxConn :=
  { conn with wire := conn.wire ++ offered.take size }

/-- How one write ends: `sent_sz` bytes taken, nothing taken, or a TLS
connection that its peer has closed. -/
inductive Wrote where
  | taken (sentSz : Nat)
  | refused (again : Bool)
  | closed
deriving DecidableEq, Repr

/-- One `SSL_write`, `send` or `write` of a buffer. -/
def writeBuf (conn : TxConn) (env : TxEnv) (turn : Nat) (buf : TxBuf) : TxConn × Wrote :=
  if conn.ssl then
    let result := env.tls turn
    let sentSz := min result.size buf.data.length
    if sentSz = 0 then
      match result.sslErr with
      | .wantWrite => (conn, .refused true)
      | .wantRead => ({ conn with wrBlkOnRd := true }, .refused result.again)
      | .zeroReturn => (conn, .closed)
      | .other => (conn, .refused result.again)
    else (conn.hand buf.data sentSz, .taken sentSz)
  else
    match env.sock turn with
    | .sent size =>
      let sentSz := min size buf.data.length
      -- A size of 0 is handled like `EAGAIN`.
      if sentSz = 0 then (conn, .refused true) else (conn.hand buf.data sentSz, .taken sentSz)
    | .failed again => (conn, .refused again)

/-- The label `out`. -/
def out (conn : TxConn) (err : Int) : TxConn × Int :=
  if conn.txQ.len ≠ 0 then ({ conn with txQ := conn.txQ.rmInlineBufs }, err) else (conn, err)

/-- The label `sched_tx_event`. -/
def schedTxEvent (conn : TxConn) (err : Int) : TxConn × Int :=
  ({ conn with txQ := conn.txQ.rmInlineBufs, scheds := conn.scheds + 1 }, err)

/-- A read that waited for this write is woken up. -/
def wakeRead (conn : TxConn) : TxConn :=
  if conn.rdBlkOnWr then { conn with rdBlkOnWr := false, rdActive := conn.rdActive + 1 } else conn

/-- The `while` of `c_socket_write_nonblock_loop`, with a bound on its turns. -/
def writeTurns (env : TxEnv) : (left turn : Nat) → TxConn → TxConn × Int
  | 0, _, conn => (conn, 0)
  | left + 1, turn, conn =>
    match conn.txQ.dequeue with
    | none => conn.out 0
    | some (buf, rest) =>
      match { conn with txQ := rest }.writeBuf env turn buf with
      | (conn, .closed) => { conn with dead := true }.out (-1)
      | (conn, .refused again) =>
        let conn := { conn with txQ := conn.txQ.queue buf }
        if conn.wrBlkOnRd then conn.out 0
        else if again then { conn with txErr := conn.txErr + 1 }.schedTxEvent 0
        else { conn with dead := true }.out (-1)
      | (conn, .taken sentSz) =>
        let conn := conn.wakeRead
        if sentSz < buf.data.length then
          { conn with txQ := conn.txQ.queue (buf.pull sentSz) }.schedTxEvent 0
        else
          writeTurns env left (turn + 1) { conn with txPkts := conn.txPkts + 1 }

/-- `c_socket_write_nonblock_loop`. -/
def socketWriteNonblockLoop (conn : TxConn) (env : TxEnv) : TxConn × Int :=
  if conn.dead then { conn with txQ := conn.txQ.purge }.out (-1)
  else if conn.wrBlkOnRd then conn.out 0
  else writeTurns env (conn.txQ.bufs.length + 1) 0 conn

/-- `C_TX_BUF_SZ`. -/
def cTxBufSz : Nat := 1024

/-- The second `while` of `c_socket_write_nonblock_sg_loop`, with a bound on its
turns: whole buffers leave the queue, the rest of a partly sent one returns to
its head. -/
def sgTurns : (left sentSz : Nat) → TxConn → TxConn × Int
  | 0, _, conn => (conn, 0)
  | left + 1, sentSz, conn =>
    if sentSz = 0 then conn.out 0
    else
      match conn.txQ.dequeue with
      | none => conn.out 0
      | some (buf, rest) =>
        if buf.data.length ≤ sentSz then
          sgTurns left (sentSz - buf.data.length)
            { conn with txQ := rest, txPkts := conn.txPkts + 1 }
        else { conn with txQ := rest.queue (buf.pull sentSz) }.schedTxEvent 0

/-- The bytes that one `writev` is offered. -/
def iov (conn : TxConn) : List Byte := (conn.txQ.bufs.take cTxBufSz).flatMap TxBuf.data

/-- `c_socket_write_nonblock_sg_loop`. -/
def socketWriteNonblockSgLoop (conn : TxConn) (result : SockResult) : TxConn × Int :=
  if conn.txQ.len = 0 then (conn, 0)
  else if conn.dead then { conn with txQ := conn.txQ.purge }.out (-1)
  else
    match result with
    | .failed false => { conn with dead := true }.out (-1)
    | .failed true => { conn with txErr := conn.txErr + 1 }.schedTxEvent 0
    | .sent size =>
      let sentSz := min size conn.iov.length
      if sentSz = 0 then { conn with txErr := conn.txErr + 1 }.schedTxEvent 0
      else sgTurns (conn.txQ.bufs.length + 1) sentSz (conn.hand conn.iov sentSz)

/-- Once a call has returned, the storage of inline buffers is used again for
something else. -/
def reuseInline (conn : TxConn) (reuse : TxBuf → List Byte) : TxConn :=
  { conn with txQ := { conn.txQ with
    bufs := conn.txQ.bufs.map fun buf =>
      if buf.nofree then { buf with data := reuse buf } else buf } }

end TxConn

/-- A connection with everything that was ever queued on it. -/
structure TxRun where
  conn : TxConn
  enqueued : List TxBuf := []

/-- What happens to a connection: a buffer is queued, one of the loops runs, or
the reader changes the flags of a TLS connection. -/
inductive TxOp where
  | enqueue (buf : TxBuf)
  | write (env : TxEnv) (reuse : TxBuf → List Byte)
  | writeSg (result : SockResult) (reuse : TxBuf → List Byte)
  | setBlk (wrBlkOnRd rdBlkOnWr : Bool)

def TxOp.exec (run : TxRun) : TxOp → TxRun
  | .enqueue buf =>
    ⟨{ run.conn with txQ := run.conn.txQ.queueTail buf }, run.enqueued ++ [buf]⟩
  | .write env reuse =>
    { run with conn := (run.conn.socketWriteNonblockLoop env).1.reuseInline reuse }
  | .writeSg result reuse =>
    { run with conn := (run.conn.socketWriteNonblockSgLoop result).1.reuseInline reuse }
  | .setBlk wrBlkOnRd rdBlkOnWr => { run with conn := { run.conn with wrBlkOnRd, rdBlkOnWr } }

def txMachine : Machine TxRun TxOp where
  start run := run.conn.txQ = {} ∧ run.conn.wire = [] ∧ run.enqueued = []
  admits _ _ := True
  exec := TxOp.exec

end OpenMul
