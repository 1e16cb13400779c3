import OpenMul.Core.SocketExit

namespace OpenMul

open Lib

namespace TxConn

/-- What the socket took and what is queued are what they were, unless the connection died. -/
structure Settled (before after : TxConn) : Prop where
  counted : after.txQ.Counted
  owned : ∀ buf ∈ after.txQ.bufs, buf.nofree = false
  conserved : after.dead = false →
    after.wire ++ after.txQ.bytes = before.wire ++ before.txQ.bytes

variable {before conn : TxConn}

theorem settled_out (counted : conn.txQ.Counted)
    (conserved : conn.dead = false → conn.wire ++ conn.txQ.bytes = before.wire ++ before.txQ.bytes)
    (err : Int) : Settled before (conn.out err).1 := by
  unfold TxConn.out
  split
  · exact ⟨conn.txQ.rmInlineBufs_counted, conn.txQ.rmInlineBufs_owned, by simpa using conserved⟩
  · rename_i empty
    have none : conn.txQ.bufs = [] := by
      rw [counted, not_not] at empty
      exact List.eq_nil_of_length_eq_zero empty
    exact ⟨counted, by simp [none], conserved⟩

theorem settled_schedTxEvent
    (conserved : conn.dead = false → conn.wire ++ conn.txQ.bytes = before.wire ++ before.txQ.bytes)
    (err : Int) : Settled before (conn.schedTxEvent err).1 :=
  ⟨conn.txQ.rmInlineBufs_counted, conn.txQ.rmInlineBufs_owned,
    by simpa [TxConn.schedTxEvent] using conserved⟩

theorem Progress.settled_out (progress : Progress before conn) (err : Int) :
    Settled before (conn.out err).1 :=
  TxConn.settled_out progress.counted (fun _ => progress.conserved) err

theorem Progress.settled_schedTxEvent (progress : Progress before conn) (err : Int) :
    Settled before (conn.schedTxEvent err).1 :=
  TxConn.settled_schedTxEvent (fun _ => progress.conserved) err

theorem settled_out_of_dead (counted : conn.txQ.Counted) (dead : conn.dead = true) (err : Int) :
    Settled before (conn.out err).1 :=
  TxConn.settled_out counted (fun alive => by simp [dead] at alive) err

theorem Exit.settled (exit : Exit before ended) : Settled before ended.1 := by
  cases exit with
  | drained progress _ | waiting progress _ => exact progress.settled_out 0
  | asked progress => exact progress.settled_schedTxEvent 0
  | died counted dead => exact settled_out_of_dead counted dead (-1)

theorem SgCall.settled (call : SgCall conn result ended) (counted : conn.txQ.Counted) :
    Settled conn ended.1 := by
  cases call with
  | idle empty => exact ⟨counted, by simp [empty], fun _ => rfl⟩
  | asked progress none => exact progress.settled_schedTxEvent 0
  | died counted dead none => exact settled_out_of_dead counted dead (-1)
  | took alive some exit sameQ sameDead sameBlk =>
    cases exit with
    | whole progress inside sum least left dead blocked => exact progress.settled_out 0
    | cut progress never => exact progress.settled_schedTxEvent 0

theorem dead_out (conn : TxConn) (err : Int) : (conn.out err).1.dead = conn.dead := by
  unfold TxConn.out
  split <;> rfl

theorem dead_socketWriteNonblockLoop (dead : conn.dead = true) (env : TxEnv) :
    (conn.socketWriteNonblockLoop env).1.dead = true := by
  rw [TxConn.socketWriteNonblockLoop, if_pos dead, dead_out]
  exact dead

theorem dead_socketWriteNonblockSgLoop (dead : conn.dead = true) (result : SockResult) :
    (conn.socketWriteNonblockSgLoop result).1.dead = true := by
  unfold TxConn.socketWriteNonblockSgLoop
  split
  · exact dead
  · rw [dead_out]
    exact dead

/-- No inline buffer is left in the queue, so that does not matter. -/
theorem Settled.reuseInline (settled : Settled before conn) (reuse : TxBuf → List Byte) :
    conn.reuseInline reuse = conn := by
  have same : ∀ buf ∈ conn.txQ.bufs,
      (if buf.nofree then { buf with data := reuse buf } else buf) = buf := by
    intro buf member
    simp [settled.owned buf member]
  rw [TxConn.reuseInline, List.map_congr_left same, List.map_id']

end TxConn

/-- What the socket took followed by what is queued is all that was enqueued. -/
structure TxRun.Intact (run : TxRun) : Prop where
  counted : run.conn.txQ.Counted
  conserved : run.conn.dead = false →
    run.conn.wire ++ run.conn.txQ.bytes = run.enqueued.flatMap TxBuf.data

theorem TxRun.Intact.settle {run : TxRun} (intact : run.Intact) {after : TxConn}
    (settled : TxConn.Settled run.conn after)
    (stays : run.conn.dead = true → after.dead = true) (reuse : TxBuf → List Byte) :
    TxRun.Intact { run with conn := after.reuseInline reuse } := by
  rw [settled.reuseInline]
  refine ⟨settled.counted, fun alive => ?_⟩
  have wasAlive : run.conn.dead = false := by
    by_contra dead
    rw [stays (Bool.eq_true_of_not_eq_false dead)] at alive
    cases alive
  exact (settled.conserved alive).trans (intact.conserved wasAlive)

theorem TxRun.Intact.exec (intact : run.Intact) (op : TxOp) : (txMachine.exec run op).Intact := by
  cases op with
  | enqueue buf =>
    refine ⟨intact.counted.queueTail buf, fun alive => ?_⟩
    have := intact.conserved alive
    simp [txMachine, TxOp.exec, ← this]
  | write env reuse =>
    exact intact.settle (TxConn.exit_socketWriteNonblockLoop intact.counted env).settled
      (fun dead => TxConn.dead_socketWriteNonblockLoop dead env) reuse
  | writeSg result reuse =>
    exact intact.settle ((TxConn.sgCall intact.counted result).settled intact.counted)
      (fun dead => TxConn.dead_socketWriteNonblockSgLoop dead result) reuse
  | setBlk wrBlkOnRd rdBlkOnWr => exact ⟨intact.counted, intact.conserved⟩

/-- Nothing that was enqueued is lost, repeated or reordered while the connection lives. -/
theorem transmit_intact {run : TxRun} (reached : txMachine.Reaches run)
    (alive : run.conn.dead = false) :
    run.conn.wire ++ run.conn.txQ.bytes = run.enqueued.flatMap TxBuf.data ∧
      run.conn.txQ.len = run.conn.txQ.bufs.length := by
  have intact : run.Intact := by
    apply Machine.Reaches.invariant TxRun.Intact _ _ reached
    · rintro ⟨conn, enqueued⟩ ⟨empty, quiet, none⟩
      simp only at empty quiet none
      exact ⟨by simp [TxQ.Counted, empty], fun _ => by simp [empty, quiet, none, TxQ.bytes]⟩
    · intro run op _ intact _
      exact intact.exec op
  exact ⟨intact.conserved alive, intact.counted⟩

/-- Two buffers, one of them inline; a partial write, then `EAGAIN`, then all. -/
def partialOps : List TxOp :=
  [.enqueue ⟨[1, 2, 3], true⟩, .enqueue ⟨[4, 5], false⟩,
    .write ⟨fun _ => .sent 2, fun _ => ⟨0, .other, false⟩⟩ (fun _ => [9]),
    .writeSg (.failed true) (fun _ => [9]),
    .writeSg (.sent 2) (fun _ => [9])]

theorem transmit_intact_partial :
    (txMachine.execAll { conn := {} } partialOps).conn.wire = [1, 2, 3, 4] ∧
    [1, 2, 3, 4] ++ (txMachine.execAll { conn := {} } partialOps).conn.txQ.bytes =
      [1, 2, 3, 4, 5] := by
  have sent : (txMachine.execAll { conn := {} } partialOps).conn.wire = [1, 2, 3, 4] := by
    decide
  have reached : txMachine.Reaches (txMachine.execAll { conn := {} } partialOps) :=
    .execAll (.start ⟨rfl, rfl, rfl⟩) ⟨trivial, trivial, trivial, trivial, trivial, trivial⟩
  have intact := (transmit_intact reached (by decide)).1
  exact ⟨sent, intact.trans (by decide)⟩

end OpenMul
