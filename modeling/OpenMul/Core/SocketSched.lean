import OpenMul.Core.SocketExit

namespace OpenMul

namespace TxConn

/-- A call that leaves something to send on a live connection has called `sched_tx`. -/
def Scheduled (before after : TxConn) : Prop :=
  after.dead = false → after.wrBlkOnRd = false → after.txQ.bufs ≠ [] → before.scheds < after.scheds

variable {before conn : TxConn}

theorem out_spec (conn : TxConn) (err : Int) :
    (conn.out err).1.dead = conn.dead ∧ (conn.out err).1.wrBlkOnRd = conn.wrBlkOnRd ∧
      (conn.out err).1.scheds = conn.scheds ∧
        ((conn.out err).1.txQ.bufs = [] ↔ conn.txQ.bufs = []) := by
  unfold TxConn.out
  split
  · exact ⟨rfl, rfl, rfl, conn.txQ.rmInlineBufs_eq_nil⟩
  · exact ⟨rfl, rfl, rfl, Iff.rfl⟩

theorem scheduled_out_iff (none : conn.scheds = before.scheds) (err : Int) :
    Scheduled before (conn.out err).1 ↔
      conn.dead = true ∨ conn.wrBlkOnRd = true ∨ conn.txQ.bufs = [] := by
  obtain ⟨dead, blocked, scheds, bufs⟩ := conn.out_spec err
  simp only [Scheduled, dead, blocked, scheds, none, Nat.lt_irrefl, ne_eq, bufs]
  cases conn.dead <;> cases conn.wrBlkOnRd <;> simp

theorem scheduled_of_dead (dead : conn.dead = true) (err : Int) :
    Scheduled before (conn.out err).1 := by
  intro alive
  rw [(conn.out_spec err).1, dead] at alive
  cases alive

theorem Progress.scheduled_schedTxEvent (progress : Progress before conn) (err : Int) :
    Scheduled before (conn.schedTxEvent err).1 :=
  fun _ _ _ => Nat.lt_succ_of_le (Nat.le_of_eq progress.scheds.symm)

/-- The first loop always schedules what it leaves. -/
theorem Exit.scheduled (exit : Exit before ended) : Scheduled before ended.1 := by
  cases exit with
  | drained progress empty => exact (scheduled_out_iff progress.scheds 0).mpr (.inr (.inr empty))
  | waiting progress blocked =>
    exact (scheduled_out_iff progress.scheds 0).mpr (.inr (.inl blocked))
  | asked progress => exact progress.scheduled_schedTxEvent 0
  | died _ dead => exact scheduled_of_dead dead (-1)

/-- `writev` took exactly some whole buffers, and more are queued. -/
def EndsBetween (conn : TxConn) (result : SockResult) : Prop :=
  conn.dead = false ∧ conn.wrBlkOnRd = false ∧ 0 < conn.takenBy result ∧
    ∃ count < conn.txQ.bufs.length, conn.takenBy result = lenOfFirst conn.txQ.bufs count

theorem SgExit.scheduled_iff {handed : TxConn} (exit : SgExit before handed sentSz ended) :
    Scheduled before ended.1 ↔ ¬(handed.dead = false ∧ handed.wrBlkOnRd = false ∧
      ∃ count < handed.txQ.bufs.length, sentSz = lenOfFirst handed.txQ.bufs count) := by
  cases exit with
  | @whole after count progress inside sum least left dead blocked =>
    rw [scheduled_out_iff progress.scheds, dead, blocked, left]
    have fewest : (∃ other < handed.txQ.bufs.length, sentSz = lenOfFirst handed.txQ.bufs other) ↔
        count < handed.txQ.bufs.length := by
      refine ⟨fun ⟨other, below, same⟩ => ?_, fun below => ⟨count, below, sum⟩⟩
      exact Nat.lt_of_le_of_lt (Nat.le_of_not_lt fun fewer => least other fewer same) below
    rw [fewest]
    cases handed.dead <;> cases handed.wrBlkOnRd <;> simp
  | cut progress never =>
    refine iff_of_true (progress.scheduled_schedTxEvent 0) ?_
    rintro ⟨-, -, count, -, same⟩
    exact never count same

theorem SgCall.scheduled_iff (call : SgCall conn result ended) :
    Scheduled conn ended.1 ↔ ¬EndsBetween conn result := by
  cases call with
  | idle empty =>
    refine iff_of_true (fun _ _ some => absurd empty some) ?_
    rintro ⟨-, -, -, count, below, -⟩
    simp [empty] at below
  | asked progress none =>
    refine iff_of_true (progress.scheduled_schedTxEvent 0) ?_
    rintro ⟨-, -, some, -⟩
    simp [none] at some
  | died _ dead none =>
    refine iff_of_true (scheduled_of_dead dead (-1)) ?_
    rintro ⟨alive, -, some, -⟩
    rcases none with dead | none
    · simp [dead] at alive
    · simp [none] at some
  | took alive some exit sameQ sameDead sameBlk =>
    rw [exit.scheduled_iff, sameQ, sameDead, sameBlk]
    simp [EndsBetween, some]

/-- Nothing is stranded exactly when no `writev` ends between two queued buffers. -/
theorem nothing_stranded_iff (counted : conn.txQ.Counted) (env : TxEnv) (result : SockResult) :
    Scheduled conn (conn.socketWriteNonblockLoop env).1 ∧
      Scheduled conn (conn.socketWriteNonblockSgLoop result).1 ↔ ¬EndsBetween conn result := by
  rw [(sgCall counted result).scheduled_iff]
  exact and_iff_right (exit_socketWriteNonblockLoop counted env).scheduled

/-- Two buffers of three and two bytes. -/
def twoQueued : TxConn := { txQ := ⟨[⟨[1, 2, 3], false⟩, ⟨[4, 5], false⟩], 2⟩ }

/-- A `writev` that takes four of their bytes is followed up. -/
theorem nothing_stranded_inside : Scheduled twoQueued (twoQueued.socketWriteNonblockLoop
        ⟨fun _ => .failed true, fun _ => ⟨0, .other, false⟩⟩).1 ∧
      Scheduled twoQueued (twoQueued.socketWriteNonblockSgLoop (.sent 4)).1 := by
  have counted : twoQueued.txQ.Counted := rfl
  apply (nothing_stranded_iff counted _ _).mpr
  have apart : ∀ count < 2, twoQueued.takenBy (.sent 4) ≠ lenOfFirst twoQueued.txQ.bufs count := by
    decide
  rintro ⟨-, -, -, count, below, same⟩
  exact apart count below same

/-- One that takes just the first buffer leaves the second one waiting. -/
theorem second_buffer_stranded :
    twoQueued.txQ.Counted ∧ ¬Scheduled twoQueued (twoQueued.socketWriteNonblockSgLoop (.sent 3)).1 ∧
      (twoQueued.socketWriteNonblockSgLoop (.sent 3)).1.txQ.bufs = [⟨[4, 5], false⟩] := by
  refine ⟨rfl, fun scheduled => ?_, rfl⟩
  exact absurd (scheduled rfl rfl (by decide)) (by decide)

end TxConn

end OpenMul
