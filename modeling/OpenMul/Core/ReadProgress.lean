import OpenMul.Core.ReadLoop

namespace OpenMul

open Lib

/-- The callbacks of every OpenFlow connection read by the socket loop. -/
def ofParms (rcvBufSz : Nat) (isSock : Bool) : SocketParms where
  rcvBufSz := rcvBufSz
  hdrSz := ofpHeaderSz
  getDataLen := ofGetDataLen
  validateHdr := ofHdrValid
  isSock := isSock

variable {c : ReadCall} {b after : Cbuf} {size : Nat}

namespace ReadCall

/-- The message loop is at a whole, valid header with a zero length field. -/
def ZeroLength (c : ReadCall) : Prop :=
  let hdr := c.b.bytes.take ofpHeaderSz
  c.inner = true ∧ ofpHeaderSz ≤ c.b.len ∧ ofHdrValid hdr = true ∧ ofGetDataLen hdr = 0

/-- An iteration of the message loop shortens the buffer or leaves the loop. -/
def Progresses (step : ReadCall → Step ReadCall CallEnd) (c : ReadCall) : Prop :=
  ∀ next, step c = .next next → next.inner = true → next.b.len < c.b.len

/-- What is left to do: bytes to read count twice, bytes to cut once. -/
def work (c : ReadCall) : Nat :=
  4 * c.sock.length + 2 * c.b.len + c.inner.toNat

theorem work_afterRead (some : chunk ≠ [])
    (split : chunk ++ c.sock.drop chunk.length = c.sock) (bytes : after.bytes = b.bytes ++ chunk)
    (same : b.bytes = c.b.bytes) : (c.afterRead after chunk).work < c.work := by
  have length := congrArg List.length bytes
  have total := congrArg List.length split
  have before := congrArg List.length same
  have positive := List.length_pos_of_ne_nil some
  simp only [List.length_append, Cbuf.length_bytes, List.length_drop] at length total before
  simp only [work, afterRead, List.length_drop, Bool.toNat_true]
  omega

private theorem len_pulled (bytes : after.bytes = b.bytes.drop size) :
    after.len = b.len - size := by
  have length := congrArg List.length bytes
  simpa using length

theorem work_afterMessage (enough : size ≤ c.b.len) (positive : 0 < size)
    (bytes : after.bytes = c.b.bytes.drop size) : (c.afterMessage after size).work < c.work := by
  have length := len_pulled bytes
  simp only [work, afterMessage]
  omega

theorem work_leaveMessages (inner : c.inner = true) : c.leaveMessages.work < c.work := by
  simp only [work, leaveMessages, inner, Bool.toNat_true, Bool.toNat_false]
  split <;> simp

theorem work_readInto (same : b.bytes = c.b.bytes)
    (reads : c.readInto b limited = .next next) : next.work < c.work := by
  rcases c.readInto_cases b limited with ⟨idle, -⟩ | ⟨chunk, after, stepped, some, split, bytes⟩
  · rw [idle] at reads
    cases reads
  · rw [stepped] at reads
    cases reads
    exact work_afterRead some split bytes same

/-- A message of positive length shortens the buffer, an empty one changes nothing. -/
theorem passMessage_progress (enough : size ≤ c.b.len) :
    ∃ next, c.passMessage size enough = .next next ∧ next.inner = c.inner ∧
      next.b.bytes = c.b.bytes.drop size ∧ next.b.len = c.b.len - size ∧
        (0 < size → next.work < c.work) := by
  obtain ⟨after, passed, bytes, -, -⟩ := c.passMessage_spec size enough
  exact ⟨_, passed, rfl, bytes, len_pulled bytes,
    fun positive => work_afterMessage enough positive bytes⟩

/-- What one iteration of a message loop may do. -/
inductive MessageStep (c : ReadCall) : Step ReadCall CallEnd → Prop where
  | left (next : ReadCall) (moves : ¬ c.ZeroLength) (out : next.inner = false)
      (less : next.work < c.work) : MessageStep c (.next next)
  | returned (result : CallEnd) (moves : ¬ c.ZeroLength) : MessageStep c (.done result)
  | message (next : ReadCall) (moves : ¬ c.ZeroLength) (shorter : next.b.len < c.b.len)
      (less : next.work < c.work) : MessageStep c (.next next)
  | stuck (next : ReadCall) (zero : c.ZeroLength) (still : next.ZeroLength)
      (same : next.b.len = c.b.len) : MessageStep c (.next next)

theorem messageStep_pass (inner : c.inner = true)
    (enough : ofGetDataLen (c.b.bytes.take ofpHeaderSz) ≤ c.b.len) (whole : ofpHeaderSz ≤ c.b.len)
    (valid : ofHdrValid (c.b.bytes.take ofpHeaderSz) = true) :
    MessageStep c (c.passMessage (ofGetDataLen (c.b.bytes.take ofpHeaderSz)) enough) := by
  obtain ⟨next, passed, same, bytes, length, less⟩ := passMessage_progress enough
  rw [passed]
  rcases Nat.eq_zero_or_pos (ofGetDataLen (c.b.bytes.take ofpHeaderSz)) with zero | positive
  · rw [zero] at length
    rw [zero] at bytes
    refine .stuck next ⟨inner, whole, valid, zero⟩ ⟨same.trans inner, length ▸ whole, ?_, ?_⟩ length
    · rwa [bytes]
    · rwa [bytes]
  · refine .message next (fun stuck => ?_) (by omega) (less positive)
    exact Nat.ne_of_gt positive stuck.2.2.2

end ReadCall

open ReadCall

theorem switchMsgStep_cases (inner : c.inner = true) : MessageStep c (switchMsgStep c) := by
  have less := work_leaveMessages inner
  simp only [switchMsgStep]
  split
  · rename_i short
    refine .left _ (fun stuck => ?_) rfl less
    exact Nat.not_le_of_lt short stuck.2.1
  · rename_i whole
    split
    · rename_i valid
      split
      · rename_i short
        refine .left _ (fun stuck => ?_) rfl less
        rw [stuck.2.2.2] at short
        exact Nat.not_lt_zero _ short
      · rename_i enough
        exact messageStep_pass inner (Nat.le_of_not_lt enough) (Nat.le_of_not_lt whole) valid
    · rename_i invalid
      exact .returned _ fun stuck => invalid stuck.2.2.1

theorem socketMsgStep_cases (rcvBufSz : Nat) (isSock : Bool) (inner : c.inner = true) :
    MessageStep c (socketMsgStep (ofParms rcvBufSz isSock) c) := by
  simp only [socketMsgStep]
  split
  · rename_i complete
    split
    · rename_i valid
      exact messageStep_pass inner complete.2 complete.1 valid
    · rename_i invalid
      exact .returned _ fun stuck => invalid stuck.2.2.1
  · rename_i incomplete
    refine .left _ (fun stuck => ?_) rfl (by simp [work, inner])
    exact incomplete ⟨stuck.2.1, stuck.2.2.2.trans_le (Nat.zero_le _)⟩

section Progress

variable {step : ReadCall → Step ReadCall CallEnd}

theorem ReadCall.MessageStep.progresses_iff (messages : MessageStep c (step c)) :
    Progresses step c ↔ ¬ c.ZeroLength := by
  unfold Progresses
  generalize step c = stepped at messages
  cases messages with
  | left next moves out less =>
    refine iff_of_true ?_ moves
    intro next same inner
    cases same
    rw [out] at inner
    cases inner
  | returned result moves =>
    refine iff_of_true ?_ moves
    intro next same
    cases same
  | message next moves shorter less =>
    refine iff_of_true ?_ moves
    intro next same _
    cases same
    exact shorter
  | stuck next zero still same =>
    refine iff_of_false (fun progress => ?_) (not_not_intro zero)
    have shorter := progress next rfl still.1
    omega

variable (messages : ∀ c, c.inner = true → MessageStep c (step c))
  (reads : ∀ c next, c.inner = false → step c = .next next → next.work < c.work)

include messages reads in
/-- A loop built from such iterations returns unless it meets a zero length. -/
theorem returns_iff_never_zero (start : ReadCall) : (∃ result, Step.Returns step start result) ↔
      ∀ c, Step.Visits step start c → ¬ c.ZeroLength := by
  apply Step.exists_returns_iff work ZeroLength
  · intro c next moves stepped
    cases inner : c.inner with
    | false => exact reads c next inner stepped
    | true =>
      have cases := messages c inner
      rw [stepped] at cases
      cases cases with
      | left _ _ _ less | message _ _ _ less => exact less
      | stuck _ zero _ _ => exact absurd zero moves
  · intro c zero
    have cases := messages c zero.1
    generalize step c = stepped at cases
    cases cases with
    | left _ moves _ _ | returned _ moves | message _ moves _ _ => exact absurd zero moves
    | stuck next _ still _ => exact ⟨next, rfl, still⟩

/-- The call returns, and every iteration of its message loop makes progress. -/
def Progressive (step : ReadCall → Step ReadCall CallEnd) (start : ReadCall) : Prop :=
  (∃ result, Step.Returns step start result) ∧
    ∀ c, Step.Visits step start c → c.inner = true → Progresses step c

include messages reads in
theorem progressive_iff (start : ReadCall) :
    Progressive step start ↔ ∀ c, Step.Visits step start c → ¬ c.ZeroLength := by
  unfold Progressive
  rw [returns_iff_never_zero messages reads]
  refine and_iff_left_of_imp fun never c visited inner => ?_
  exact (messages c inner).progresses_iff.mpr (never c visited)

end Progress

theorem switchStep_messages (rcvBufSz : Nat) (c : ReadCall) (inner : c.inner = true) :
    MessageStep c (switchStep rcvBufSz c) := by
  rw [switchStep, if_pos inner]
  exact switchMsgStep_cases inner

theorem switchStep_reads (rcvBufSz : Nat) (c next : ReadCall) (outer : c.inner = false)
    (stepped : switchStep rcvBufSz c = .next next) : next.work < c.work := by
  rw [switchStep, if_neg (by rw [outer]; exact Bool.false_ne_true)] at stepped
  refine work_readInto ?_ stepped
  split
  · exact Cbuf.bytes_reallocTailroom c.b rcvBufSz
  · rfl

theorem socketStep_messages (rcvBufSz : Nat) (isSock : Bool) (c : ReadCall)
    (inner : c.inner = true) : MessageStep c (socketStep (ofParms rcvBufSz isSock) c) := by
  rw [socketStep, if_pos inner]
  exact socketMsgStep_cases rcvBufSz isSock inner

theorem socketStep_reads (p : SocketParms) (c next : ReadCall) (outer : c.inner = false)
    (stepped : socketStep p c = .next next) : next.work < c.work := by
  rw [socketStep, if_neg (by rw [outer]; exact Bool.false_ne_true)] at stepped
  refine work_readInto ?_ stepped
  split
  · exact Cbuf.bytes_reallocTailroom c.b p.rcvBufSz
  · rfl

/-- A call of either loop returns with progress exactly when no iteration starts at
a valid header whose length field is zero. -/
theorem read_loops_progress_iff (rcvBufSz : Nat) (isSock : Bool) (conn : Conn)
    (arrived : List Nat) :
    let start := startCall rcvBufSz conn arrived
    (Progressive (switchStep rcvBufSz) start ↔
      ∀ c, Step.Visits (switchStep rcvBufSz) start c → ¬ c.ZeroLength) ∧
    (Progressive (socketStep (ofParms rcvBufSz isSock)) start ↔
      ∀ c, Step.Visits (socketStep (ofParms rcvBufSz isSock)) start c → ¬ c.ZeroLength) := by
  intro start
  constructor
  · exact progressive_iff (switchStep_messages rcvBufSz) (switchStep_reads rcvBufSz) start
  · exact progressive_iff (socketStep_messages rcvBufSz isSock) (socketStep_reads _) start

/-- Eight bytes with a known version and a zero length field hold both loops. -/
theorem zero_length_never_returns :
    let start := startCall 4096 { sock := [1, 0, 0, 0, 0, 0, 0, 0] } [8]
    ¬ (∃ result, Step.Returns (switchStep 4096) start result) ∧
      ¬ (∃ result, Step.Returns (socketStep (ofParms 4096 true)) start result) := by
  intro start
  constructor
  · rw [returns_iff_never_zero (switchStep_messages 4096) (switchStep_reads 4096)]
    intro never
    refine never _ (.later rfl (.here _)) ?_
    exact ⟨rfl, by decide, by decide, by decide⟩
  · rw [returns_iff_never_zero (socketStep_messages 4096 true) (socketStep_reads _)]
    intro never
    refine never _ (.later rfl (.here _)) ?_
    exact ⟨rfl, by decide, by decide, by decide⟩

end OpenMul
