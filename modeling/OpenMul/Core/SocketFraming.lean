import OpenMul.Core.ReadProgress
import OpenMul.Lib.Framing

namespace OpenMul

open Lib List

/-- The bytes a connection keeps between two calls. -/
def Conn.held (conn : Conn) : List Byte := (conn.cbuf.map Cbuf.bytes).getD []

theorem bytes_startCall (rcvBufSz : Nat) (conn : Conn) (arrived : List Nat) :
    (startCall rcvBufSz conn arrived).b.bytes = conn.held := by
  cases kept : conn.cbuf <;> simp [startCall, Conn.held, kept, Cbuf.bytes_alloc]

section Socket

variable (p : SocketParms) (msgs : List (List Byte))

/-- What is held and what the socket has are the messages not passed on yet. -/
structure ConnInv (conn : Conn) : Prop where
  pending : Pending msgs conn.out conn.held conn.sock
  incomplete : Incomplete p.hdrSz p.getDataLen conn.held

/-- The same within a call that leaves at most so much in the socket. -/
structure CallInv (bound : Nat) (c : ReadCall) : Prop where
  pending : Pending msgs c.out c.b.bytes c.sock
  incomplete : c.inner = false → Incomplete p.hdrSz p.getDataLen c.b.bytes
  bounded : c.sock.length ≤ bound

variable {p msgs} {bound : Nat} {c : ReadCall} {conn : Conn}

theorem CallInv.afterRead {b after : Cbuf} {chunk : List Byte} (inv : CallInv p msgs bound c)
    (same : b.bytes = c.b.bytes) (split : chunk ++ c.sock.drop chunk.length = c.sock)
    (bytes : after.bytes = b.bytes ++ chunk) : CallInv p msgs bound (c.afterRead after chunk) := by
  refine ⟨?_, (fun outer => by cases outer), ?_⟩
  · have pending := inv.pending
    rw [← split] at pending
    have received := pending.receive
    rwa [← same, ← bytes] at received
  · have bounded := inv.bounded
    simp only [ReadCall.afterRead, length_drop]
    omega

theorem CallInv.read (inv : CallInv p msgs bound c) (outer : c.inner = false) :
    (∀ next, socketReadStep p c = .next next → CallInv p msgs bound next) ∧
      ∀ result, socketReadStep p c = .done result →
        ∃ conn, result = .idle conn ∧ ConnInv p msgs conn ∧ conn.sock.length ≤ bound := by
  have same : (if c.b.tailroom = 0 then c.b.reallocTailroom p.rcvBufSz else c.b).bytes =
      c.b.bytes := by
    split
    · exact Cbuf.bytes_reallocTailroom c.b p.rcvBufSz
    · rfl
  unfold socketReadStep
  rcases c.readInto_cases (if c.b.tailroom = 0 then c.b.reallocTailroom p.rcvBufSz else c.b)
    (p.isSock && c.limitReached) with ⟨idle, -⟩ | ⟨chunk, after, stepped, -, split, bytes⟩
  · apply Step.done_only idle
    refine ⟨_, rfl, ⟨?_, ?_⟩, inv.bounded⟩
    · simpa [Conn.held, same] using inv.pending
    · simpa [Conn.held, same] using inv.incomplete outer
  · exact Step.next_only stepped (inv.afterRead same split bytes)

variable (positive : 0 < p.hdrSz)
  (framed : ∀ m ∈ msgs, Framed p.hdrSz p.getDataLen p.validateHdr m)

include positive framed in
/-- An iteration passes on the next message or leaves the loop. -/
theorem CallInv.message (inv : CallInv p msgs bound c) (inner : c.inner = true) :
    ∃ next, socketMsgStep p c = .next next ∧ CallInv p msgs bound next ∧ next.work < c.work := by
  simp only [socketMsgStep]
  split
  · rename_i complete
    obtain ⟨whole, enough⟩ := complete
    rw [ge_iff_le, ← Cbuf.length_bytes] at whole
    obtain ⟨frame, more, split, bytes, size, valid, nonempty⟩ :=
      inv.pending.header positive framed whole
    rw [if_pos valid]
    obtain ⟨after, passed, left, -, -⟩ := c.passMessage_spec _ enough
    refine ⟨_, passed, ⟨?_, ?_, inv.bounded⟩, ReadCall.work_afterMessage enough (by omega) left⟩
    · have held : frame.length ≤ c.b.bytes.length := by
        rw [← size, Cbuf.length_bytes]
        exact enough
      obtain ⟨cut, pending⟩ := Pending.cut split bytes held
      simp only [ReadCall.afterMessage, left, size, cut]
      exact pending
    · intro outer
      rw [ReadCall.afterMessage, inner] at outer
      cases outer
  · rename_i incomplete
    refine ⟨_, rfl, ⟨inv.pending, fun _ whole => ?_, inv.bounded⟩, by simp [ReadCall.work, inner]⟩
    rw [Cbuf.length_bytes] at whole ⊢
    exact Nat.lt_of_not_le fun enough => incomplete ⟨whole, enough⟩

include positive framed in
theorem CallInv.returns (inv : CallInv p msgs bound c) :
    ∃ conn, Step.Returns (socketStep p) c (.idle conn) ∧ ConnInv p msgs conn ∧
      conn.sock.length ≤ bound := by
  have step : ∀ c, CallInv p msgs bound c →
      (∀ next, socketStep p c = .next next → CallInv p msgs bound next ∧ next.work < c.work) ∧
        ∀ result, socketStep p c = .done result →
          ∃ conn, result = .idle conn ∧ ConnInv p msgs conn ∧ conn.sock.length ≤ bound := by
    intro c inv
    cases inner : c.inner with
    | false =>
      obtain ⟨continues, returns⟩ := inv.read inner
      have outer : socketStep p c = socketReadStep p c := by simp [socketStep, inner]
      rw [outer]
      refine ⟨fun next stepped => ⟨continues next stepped, ?_⟩, returns⟩
      exact socketStep_reads p c next inner (outer.trans stepped)
    | true =>
      obtain ⟨next, stepped, inv, less⟩ := inv.message positive framed inner
      have inside : socketStep p c = .next next := by rw [socketStep, if_pos inner, stepped]
      exact Step.next_only inside ⟨inv, less⟩
  obtain ⟨result, returned⟩ := Step.exists_returns (CallInv p msgs bound) ReadCall.work
    (fun c next inv stepped => (step c inv).1 next stepped) inv
  obtain ⟨conn, idle, rest⟩ := returned.of_invariant (CallInv p msgs bound)
    (fun c next inv stepped => ((step c inv).1 next stepped).1)
    (fun c result inv ends => (step c inv).2 result ends) inv
  exact ⟨conn, idle ▸ returned, rest⟩

theorem ConnInv.start (inv : ConnInv p msgs conn) (arrived : List Nat) :
    CallInv p msgs conn.sock.length (startCall p.rcvBufSz conn arrived) := by
  refine ⟨?_, fun _ => ?_, Nat.le_refl _⟩
  · rw [bytes_startCall]
    exact inv.pending
  · rw [bytes_startCall]
    exact inv.incomplete

theorem startCall_reads (buffer : 0 < p.rcvBufSz) {arrived : List Nat}
    (ready : 0 < arrived.headD 0) (some : conn.sock ≠ []) :
    ∃ next, socketStep p (startCall p.rcvBufSz conn arrived) = .next next ∧
      next.sock.length < conn.sock.length := by
  generalize call : startCall p.rcvBufSz conn arrived = c
  have outer : socketStep p c = socketReadStep p c := by rw [← call]; rfl
  have sock : c.sock = conn.sock := by rw [← call]; rfl
  have sizes : c.arrived = arrived := by rw [← call]; rfl
  have unlimited : (p.isSock && c.limitReached) = false := by
    rw [← call]
    cases p.isSock <;> rfl
  rw [outer, socketReadStep, unlimited]
  rcases c.readInto_cases (if c.b.tailroom = 0 then c.b.reallocTailroom p.rcvBufSz else c.b) false
    with
    ⟨-, empty⟩ | ⟨chunk, after, stepped, nonempty, split, -⟩
  · exfalso
    rcases empty rfl with full | none | drained
    · have room := Cbuf.le_tailroom_reallocTailroom c.b p.rcvBufSz
      split at full <;> omega
    · rw [sizes] at none
      omega
    · exact some (sock ▸ drained)
  · refine ⟨_, stepped, ?_⟩
    have lengths := congrArg length split
    have taken := length_pos_of_ne_nil nonempty
    rw [length_append] at lengths
    simp only [ReadCall.afterRead]
    rw [← sock]
    omega

include positive framed in
theorem ConnInv.call (buffer : 0 < p.rcvBufSz) (inv : ConnInv p msgs conn) (arrived : List Nat) :
    ∃ after, SocketCall p conn arrived (.idle after) ∧ ConnInv p msgs after ∧
      after.sock.length ≤ conn.sock.length ∧
      (0 < arrived.headD 0 → conn.sock ≠ [] → after.sock.length < conn.sock.length) := by
  by_cases reads : 0 < arrived.headD 0 ∧ conn.sock ≠ []
  · obtain ⟨next, stepped, less⟩ := @startCall_reads p conn buffer arrived reads.1 reads.2
    have inside := ((inv.start arrived).read rfl).1 next stepped
    have tight : CallInv p msgs next.sock.length next :=
      ⟨inside.pending, inside.incomplete, Nat.le_refl _⟩
    obtain ⟨after, returned, kept, bounded⟩ := tight.returns positive framed
    refine ⟨after, (Step.returns_next stepped).mpr returned, kept, by omega, fun _ _ => by omega⟩
  · obtain ⟨after, returned, kept, bounded⟩ := (inv.start arrived).returns positive framed
    exact ⟨after, returned, kept, bounded, fun ready some => absurd ⟨ready, some⟩ reads⟩

include positive framed in
theorem ConnInv.calls (buffer : 0 < p.rcvBufSz) (inv : ConnInv p msgs conn)
    (calls : List (List Nat)) :
    ∃ last, SocketCalls p conn calls last ∧ ConnInv p msgs last ∧
      ((∀ arrived ∈ calls, 0 < arrived.headD 0) → conn.sock.length ≤ calls.length →
        last.sock = []) := by
  induction calls generalizing conn with
  | nil =>
    refine ⟨conn, .none conn, inv, fun _ short => ?_⟩
    exact length_eq_zero_iff.mp (Nat.le_zero.mp short)
  | cons arrived rest ih =>
    obtain ⟨middle, first, kept, bounded, reads⟩ := inv.call positive framed buffer arrived
    obtain ⟨last, others, done, drained⟩ := ih kept
    refine ⟨last, .idle first others, done, fun ready short => ?_⟩
    apply drained fun arrived member => ready arrived (mem_cons_of_mem _ member)
    rw [length_cons] at short
    by_cases empty : conn.sock = []
    · rw [empty, length_nil] at bounded
      omega
    · have less := reads (ready arrived mem_cons_self) empty
      omega

end Socket

/-- Every call returns and passes on an initial part of the messages, all of them
once the socket is drained. -/
theorem socket_calls_deliver (p : SocketParms) (buffer : 0 < p.rcvBufSz) (positive : 0 < p.hdrSz)
    (msgs : List (List Byte))
    (framed : ∀ m ∈ msgs, Framed p.hdrSz p.getDataLen p.validateHdr m) (calls : List (List Nat)) :
    ∃ conn, SocketCalls p { sock := msgs.flatten } calls conn ∧ conn.out <+: msgs ∧
      (conn.sock = [] → conn.out = msgs) ∧
      ((∀ arrived ∈ calls, 0 < arrived.headD 0) → msgs.flatten.length ≤ calls.length →
        conn.sock = []) := by
  have start : ConnInv p msgs { sock := msgs.flatten } := ⟨.start msgs, incomplete_nil positive⟩
  obtain ⟨conn, called, inv, drained⟩ := start.calls positive framed buffer calls
  refine ⟨conn, called, inv.pending.out_prefix, fun empty => ?_, drained⟩
  have pending := inv.pending
  rw [empty] at pending
  exact pending.finished framed inv.incomplete

/-- Two hello messages read three bytes at a time into one-byte buffers. -/
theorem socket_calls_deliver_hellos :
    let hello : List Byte := [1, 0, 0, 8, 0, 0, 0, 7]
    ∃ conn, SocketCalls (ofParms 1 true) { sock := hello ++ hello } (replicate 16 [3, 3]) conn ∧
      conn.out = [hello, hello] := by
  intro hello
  have framed : ∀ m ∈ [hello, hello],
      Framed (ofParms 1 true).hdrSz (ofParms 1 true).getDataLen (ofParms 1 true).validateHdr m := by
    intro m member
    have same : m = hello := by simpa using member
    rw [same]
    exact ⟨by decide, by decide, by decide⟩
  obtain ⟨conn, called, -, delivered, drained⟩ := socket_calls_deliver (ofParms 1 true) (by decide)
    (by decide) [hello, hello] framed (replicate 16 [3, 3])
  refine ⟨conn, called, delivered (drained ?_ (by decide))⟩
  intro arrived member
  rw [eq_of_mem_replicate member]
  decide

end OpenMul
