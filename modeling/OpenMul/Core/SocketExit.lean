import OpenMul.Core.SocketWrite

namespace OpenMul

open List

/-- The length field of a queue is the number of its buffers. -/
def TxQ.Counted (q : TxQ) : Prop := q.len = q.bufs.length

namespace TxQ

variable {q : TxQ} {buf : TxBuf}

theorem Counted.queueTail (counted : q.Counted) (buf : TxBuf) : (q.queueTail buf).Counted := by
  simpa [TxQ.Counted, TxQ.queueTail] using counted

theorem Counted.queue (counted : q.Counted) (buf : TxBuf) : (q.queue buf).Counted := by
  simpa [TxQ.Counted, TxQ.queue] using counted

theorem dequeue_none (none : q.dequeue = none) : q.bufs = [] := by
  unfold TxQ.dequeue at none
  split at none
  · assumption
  · cases none

theorem dequeue_some (some : q.dequeue = some (buf, rest)) :
    q.bufs = buf :: rest.bufs ∧ rest.len = q.len - 1 := by
  unfold TxQ.dequeue at some
  split at some
  · cases some
  · rename_i first others shape
    cases some
    exact ⟨shape, rfl⟩

theorem Counted.dequeue (counted : q.Counted) (some : q.dequeue = some (buf, rest)) :
    rest.Counted ∧ q.bytes = buf.data ++ rest.bytes := by
  obtain ⟨shape, fewer⟩ := dequeue_some some
  constructor
  · rw [TxQ.Counted, fewer, counted, shape]
    rfl
  · rw [TxQ.bytes, shape]
    rfl

@[simp] theorem bytes_queueTail (q : TxQ) (buf : TxBuf) :
    (q.queueTail buf).bytes = q.bytes ++ buf.data := by
  simp [TxQ.bytes, TxQ.queueTail]

@[simp] theorem bytes_queue (q : TxQ) (buf : TxBuf) :
    (q.queue buf).bytes = buf.data ++ q.bytes := by
  simp [TxQ.bytes, TxQ.queue]

theorem rmInlineBufs_counted (q : TxQ) : q.rmInlineBufs.Counted := by
  simp [TxQ.Counted, TxQ.rmInlineBufs]

theorem rmInlineBufs_owned (q : TxQ) : ∀ buf ∈ q.rmInlineBufs.bufs, buf.nofree = false := by
  intro buf member
  obtain ⟨old, -, rfl⟩ := mem_map.mp member
  cases inline : old.nofree <;> simp [inline, TxBuf.reallocHeadroom]

@[simp] theorem bytes_rmInlineBufs (q : TxQ) : q.rmInlineBufs.bytes = q.bytes := by
  simp only [TxQ.bytes, TxQ.rmInlineBufs, flatMap_map]
  congr 1
  funext buf
  split <;> rfl

@[simp] theorem rmInlineBufs_eq_nil (q : TxQ) : q.rmInlineBufs.bufs = [] ↔ q.bufs = [] := by
  simp [TxQ.rmInlineBufs]

end TxQ

namespace TxConn

/-- Everything that one write can do. -/
inductive WroteBuf (conn : TxConn) (buf : TxBuf) : TxConn × Wrote → Prop where
  | taken {sentSz : Nat} (some : 0 < sentSz) (within : sentSz ≤ buf.data.length) :
      WroteBuf conn buf (conn.hand buf.data sentSz, .taken sentSz)
  | refused {again : Bool} : WroteBuf conn buf (conn, .refused again)
  | blocked {again : Bool} : WroteBuf conn buf ({ conn with wrBlkOnRd := true }, .refused again)
  | closed : WroteBuf conn buf (conn, .closed)

theorem wroteBuf (conn : TxConn) (env : TxEnv) (turn : Nat) (buf : TxBuf) :
    WroteBuf conn buf (conn.writeBuf env turn buf) := by
  unfold TxConn.writeBuf
  split
  · dsimp only
    split
    · split
      · exact .refused
      · exact .blocked
      · exact .closed
      · exact .refused
    · rename_i taken
      exact .taken (Nat.pos_of_ne_zero taken) (Nat.min_le_right ..)
  · split
    · dsimp only
      split
      · exact .refused
      · rename_i taken
        exact .taken (Nat.pos_of_ne_zero taken) (Nat.min_le_right ..)
    · exact .refused

theorem txQ_wakeRead (conn : TxConn) : conn.wakeRead.txQ = conn.txQ := by
  unfold TxConn.wakeRead
  split <;> rfl

theorem wire_wakeRead (conn : TxConn) : conn.wakeRead.wire = conn.wire := by
  unfold TxConn.wakeRead
  split <;> rfl

theorem scheds_wakeRead (conn : TxConn) : conn.wakeRead.scheds = conn.scheds := by
  unfold TxConn.wakeRead
  split <;> rfl

variable {before conn : TxConn}

/-- A connection on the way through a call: nothing is lost so far. -/
structure Progress (before conn : TxConn) : Prop where
  counted : conn.txQ.Counted
  conserved : conn.wire ++ conn.txQ.bytes = before.wire ++ before.txQ.bytes
  scheds : conn.scheds = before.scheds

/-- The ways the first loop ends. -/
inductive Exit (before : TxConn) : TxConn × Int → Prop where
  | drained {conn : TxConn} (progress : Progress before conn) (empty : conn.txQ.bufs = []) :
      Exit before (conn.out 0)
  | waiting {conn : TxConn} (progress : Progress before conn) (blocked : conn.wrBlkOnRd = true) :
      Exit before (conn.out 0)
  | asked {conn : TxConn} (progress : Progress before conn) : Exit before (conn.schedTxEvent 0)
  | died {conn : TxConn} (counted : conn.txQ.Counted) (dead : conn.dead = true) :
      Exit before (conn.out (-1))

theorem exit_writeTurns (env : TxEnv) (turn : Nat) (enough : conn.txQ.bufs.length < left)
    (progress : Progress before conn) : Exit before (writeTurns env left turn conn) := by
  induction left generalizing turn conn with
  | zero => exact absurd enough (Nat.not_lt_zero _)
  | succ left ih =>
    simp only [TxConn.writeTurns]
    cases next : conn.txQ.dequeue with
    | none => exact .drained progress (TxQ.dequeue_none next)
    | some taken =>
      obtain ⟨buf, rest⟩ := taken
      obtain ⟨counted, bytes⟩ := progress.counted.dequeue next
      obtain ⟨shape, -⟩ := TxQ.dequeue_some next
      have conserved := progress.conserved
      rw [bytes] at conserved
      dsimp only
      generalize wrote : TxConn.writeBuf _ env turn buf = result
      have written := wrote ▸ TxConn.wroteBuf _ env turn buf
      cases written with
      | closed => exact .died counted rfl
      | refused =>
        dsimp only
        split
        · rename_i blocked
          exact .waiting ⟨counted.queue buf, by simpa using conserved, progress.scheds⟩ blocked
        · split
          · exact .asked ⟨counted.queue buf, by simpa using conserved, progress.scheds⟩
          · exact .died (counted.queue buf) rfl
      | blocked =>
        dsimp only
        rw [if_pos rfl]
        exact .waiting ⟨counted.queue buf, by simpa using conserved, progress.scheds⟩ rfl
      | @taken sentSz some within =>
        dsimp only
        split
        · refine .asked ⟨?_, ?_, (scheds_wakeRead _).trans progress.scheds⟩
          · rw [txQ_wakeRead]
            exact counted.queue _
          · rw [TxQ.bytes_queue, txQ_wakeRead, wire_wakeRead, ← conserved]
            simp only [TxConn.hand, TxBuf.pull, append_assoc]
            rw [← append_assoc (buf.data.take sentSz), take_append_drop]
        · rename_i whole
          have all : buf.data.take sentSz = buf.data := take_of_length_le (Nat.le_of_not_lt whole)
          apply ih
          · rw [txQ_wakeRead]
            rw [shape] at enough
            exact Nat.lt_of_succ_lt_succ enough
          · refine ⟨?_, ?_, (scheds_wakeRead _).trans progress.scheds⟩
            · rw [txQ_wakeRead]
              exact counted
            · rw [txQ_wakeRead, wire_wakeRead, ← conserved]
              simp [TxConn.hand, all]

theorem exit_socketWriteNonblockLoop (counted : conn.txQ.Counted) (env : TxEnv) :
    Exit conn (conn.socketWriteNonblockLoop env) := by
  unfold TxConn.socketWriteNonblockLoop
  split
  · rename_i dead
    exact .died (by simp [TxQ.Counted, TxQ.purge, counted.symm]) dead
  · split
    · rename_i blocked
      exact .waiting ⟨counted, rfl, rfl⟩ blocked
    · exact exit_writeTurns env 0 (Nat.lt_succ_self _) ⟨counted, rfl, rfl⟩

/-- Total length of the first buffers of a list. -/
def lenOfFirst (bufs : List TxBuf) (count : Nat) : Nat :=
  ((bufs.take count).map fun buf => buf.data.length).sum

/-- The ways the second loop ends. -/
inductive SgExit (before conn : TxConn) (sentSz : Nat) : TxConn × Int → Prop where
  | whole {after : TxConn} {count : Nat} (progress : Progress before after)
      (inside : count ≤ conn.txQ.bufs.length) (sum : sentSz = lenOfFirst conn.txQ.bufs count)
      (least : ∀ fewer < count, sentSz ≠ lenOfFirst conn.txQ.bufs fewer)
      (left : after.txQ.bufs = conn.txQ.bufs.drop count) (dead : after.dead = conn.dead)
      (blocked : after.wrBlkOnRd = conn.wrBlkOnRd) : SgExit before conn sentSz (after.out 0)
  | cut {after : TxConn} (progress : Progress before after)
      (never : ∀ count, sentSz ≠ lenOfFirst conn.txQ.bufs count) :
      SgExit before conn sentSz (after.schedTxEvent 0)

@[simp] theorem lenOfFirst_zero (bufs : List TxBuf) : lenOfFirst bufs 0 = 0 := rfl

@[simp] theorem lenOfFirst_cons_succ (buf : TxBuf) (bufs : List TxBuf) (count : Nat) :
    lenOfFirst (buf :: bufs) (count + 1) = buf.data.length + lenOfFirst bufs count := rfl

theorem SgExit.cons {sentSz : Nat} {result : TxConn × Int}
    (exit : SgExit before rested (sentSz - buf.data.length) result)
    (shape : conn.txQ.bufs = buf :: rested.txQ.bufs) (some : sentSz ≠ 0)
    (fits : buf.data.length ≤ sentSz) (dead : rested.dead = conn.dead)
    (blocked : rested.wrBlkOnRd = conn.wrBlkOnRd) : SgExit before conn sentSz result := by
  have shift : ∀ count, sentSz = lenOfFirst conn.txQ.bufs (count + 1) ↔
      sentSz - buf.data.length = lenOfFirst rested.txQ.bufs count := by
    intro count
    rw [shape, lenOfFirst_cons_succ, Nat.sub_eq_iff_eq_add' fits]
  cases exit with
  | @whole after count progress inside sum least left dead' blocked' =>
    refine @SgExit.whole before conn sentSz after (count + 1) progress ?_
      ((shift count).mpr sum) ?_ ?_ (dead'.trans dead) (blocked'.trans blocked)
    · simpa [shape] using inside
    · intro fewer below
      cases fewer with
      | zero => exact some
      | succ fewer => exact (shift fewer).not.mpr (least fewer (Nat.lt_of_succ_lt_succ below))
    · rw [left, shape, drop_succ_cons]
  | cut progress never =>
    refine .cut progress fun count => ?_
    cases count with
    | zero => exact some
    | succ count => exact (shift count).not.mpr (never count)

/-- The first bytes of the queue are sent already; buffers leave until those are
used up. -/
theorem exit_sgTurns (enough : conn.txQ.bufs.length < left) (counted : conn.txQ.Counted)
    (scheds : conn.scheds = before.scheds) (within : sentSz ≤ conn.txQ.bytes.length)
    (conserved : conn.wire ++ conn.txQ.bytes.drop sentSz = before.wire ++ before.txQ.bytes) :
    SgExit before conn sentSz (sgTurns left sentSz conn) := by
  induction left generalizing sentSz conn with
  | zero => exact absurd enough (Nat.not_lt_zero _)
  | succ left ih =>
    simp only [TxConn.sgTurns]
    split
    · rename_i none
      subst none
      exact @SgExit.whole before conn 0 conn 0 ⟨counted, by simpa using conserved, scheds⟩
        (Nat.zero_le _) rfl (by simp) rfl rfl rfl
    · rename_i some
      cases next : conn.txQ.dequeue with
      | none =>
        have empty := TxQ.dequeue_none next
        exact absurd within (by simpa [TxQ.bytes, empty] using some)
      | some taken =>
        obtain ⟨buf, rest⟩ := taken
        obtain ⟨restCounted, bytes⟩ := counted.dequeue next
        obtain ⟨shape, -⟩ := TxQ.dequeue_some next
        rw [bytes] at conserved within
        rw [length_append] at within
        dsimp only
        split
        · rename_i fits
          refine SgExit.cons (ih ?_ restCounted scheds ?_ ?_) shape some fits rfl rfl
          · rw [shape] at enough
            exact Nat.lt_of_succ_lt_succ enough
          · exact Nat.sub_le_iff_le_add'.mpr within
          · rwa [drop_append, drop_of_length_le fits] at conserved
        · rename_i cut
          refine .cut ⟨restCounted.queue _, ?_, scheds⟩ fun count => ?_
          · rw [drop_append_of_le_length (Nat.le_of_not_le cut)] at conserved
            simpa [TxBuf.pull] using conserved
          · cases count with
            | zero => exact some
            | succ count =>
              rw [shape, lenOfFirst_cons_succ]
              omega

/-- One `writev` is offered the first bytes of the queue. -/
theorem iov_isPrefix (conn : TxConn) : conn.iov <+: conn.txQ.bytes := by
  refine ⟨(conn.txQ.bufs.drop cTxBufSz).flatMap TxBuf.data, ?_⟩
  rw [TxConn.iov, ← flatMap_append, take_append_drop]
  rfl

/-- The bytes that a `writev` with this result takes. -/
def takenBy (conn : TxConn) : SockResult → Nat
  | .sent size => min size conn.iov.length
  | .failed _ => 0

/-- The ways a call of the second loop ends. -/
inductive SgCall (conn : TxConn) (result : SockResult) : TxConn × Int → Prop where
  | idle (empty : conn.txQ.bufs = []) : SgCall conn result (conn, 0)
  | asked {after : TxConn} (progress : Progress conn after) (none : conn.takenBy result = 0) :
      SgCall conn result (after.schedTxEvent 0)
  | died {after : TxConn} (counted : after.txQ.Counted) (dead : after.dead = true)
      (none : conn.dead = true ∨ conn.takenBy result = 0) : SgCall conn result (after.out (-1))
  | took {handed : TxConn} {ended : TxConn × Int} (alive : conn.dead = false)
      (some : 0 < conn.takenBy result) (exit : SgExit conn handed (conn.takenBy result) ended)
      (sameQ : handed.txQ = conn.txQ) (sameDead : handed.dead = conn.dead)
      (sameBlk : handed.wrBlkOnRd = conn.wrBlkOnRd) : SgCall conn result ended

theorem sgCall (counted : conn.txQ.Counted) (result : SockResult) :
    SgCall conn result (conn.socketWriteNonblockSgLoop result) := by
  unfold TxConn.socketWriteNonblockSgLoop
  split
  · rename_i empty
    exact .idle (eq_nil_of_length_eq_zero (counted.symm.trans empty))
  · split
    · rename_i dead
      exact .died (by simp [TxQ.Counted, TxQ.purge, counted.symm]) dead (.inl dead)
    · rename_i alive
      split
      · exact .died counted rfl (.inr rfl)
      · exact .asked ⟨counted, rfl, rfl⟩ rfl
      · rename_i size
        dsimp only
        split
        · rename_i none
          exact .asked ⟨counted, rfl, rfl⟩ none
        · rename_i some
          obtain ⟨later, split⟩ := conn.iov_isPrefix
          have offered : min size conn.iov.length ≤ conn.iov.length := Nat.min_le_right ..
          have exit : SgExit conn (conn.hand conn.iov (min size conn.iov.length))
              (min size conn.iov.length) (sgTurns (conn.txQ.bufs.length + 1)
                (min size conn.iov.length) (conn.hand conn.iov (min size conn.iov.length))) := by
            apply exit_sgTurns
            · exact Nat.lt_succ_self _
            · exact counted
            · rfl
            · exact Nat.le_trans offered conn.iov_isPrefix.length_le
            · simp only [TxConn.hand, ← split, append_assoc]
              rw [drop_append_of_le_length offered, ← append_assoc (conn.iov.take _),
                take_append_drop]
          exact .took (Bool.eq_false_of_not_eq_true alive) (Nat.pos_of_ne_zero some) exit rfl
            rfl rfl

end TxConn

end OpenMul
