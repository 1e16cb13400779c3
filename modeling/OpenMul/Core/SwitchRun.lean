import OpenMul.Core.SwitchFraming

namespace OpenMul

open Lib

section Calls

variable {msgs : List (List Byte)} {rcvBufSz : Nat} {conn last : Conn}

theorem SpoiledConn.start (spoiled : SpoiledConn msgs conn) (arrived : List Nat) :
    Spoiled msgs (startCall rcvBufSz conn arrived) := by
  rw [Spoiled, bytes_startCall]
  exact spoiled.imp_left fun differs => ⟨differs, rfl, fun inner => by cases inner⟩

theorem ConnInv.intact (inv : ConnInv (ofParms rcvBufSz true) msgs conn) (arrived : List Nat) :
    Intact msgs (startCall rcvBufSz conn arrived) := by
  refine ⟨?_, fun _ => ⟨?_, rfl⟩, (fun inner => by cases inner)⟩
  · rw [bytes_startCall]
    exact inv.pending
  · rw [bytes_startCall]
    exact inv.incomplete

theorem Doomed.returns (messages : ∀ m ∈ msgs, OfMessage m) (doomed : Doomed msgs c)
    (returned : Step.Returns (switchStep rcvBufSz) c result) :
    ∃ conn, (result = .idle conn ∨ result = .corrupt conn) ∧ SpoiledConn msgs conn := by
  apply returned.of_invariant (Doomed msgs) _ _ doomed
  · intro c next doomed stepped
    exact (doomed.step messages).1 next stepped
  · intro c result doomed ends
    exact (doomed.step messages).2 result ends

theorem unsafe_call_spoils (messages : ∀ m ∈ msgs, OfMessage m)
    (inv : ConnInv (ofParms rcvBufSz true) msgs conn)
    (unsafeCall : ¬ SafeFrom rcvBufSz (startCall rcvBufSz conn arrived))
    (returned : SwitchCall rcvBufSz conn arrived result) :
    ∃ after, (result = .idle after ∨ result = .corrupt after) ∧ SpoiledConn msgs after := by
  unfold SafeFrom at unsafeCall
  push Not at unsafeCall
  obtain ⟨c, next, chunk, visited, outer, stepped, bytes, unsafeRead⟩ := unsafeCall
  have reached : Intact msgs c ∨ Spoiled msgs c := by
    apply visited.invariant (fun c => Intact msgs c ∨ Spoiled msgs c) _ (.inl (inv.intact arrived))
    intro c next either stepped
    rcases either with intact | spoiled
    · exact (intact.step messages).1 next stepped
    · exact .inr ((spoiled.step rcvBufSz).1 next stepped)
  have doomed : Doomed msgs next := by
    rcases reached with intact | spoiled
    · rw [switchStep_outer rcvBufSz outer] at stepped
      obtain ⟨kept, inner, other, same, cutting⟩ := (intact.read rcvBufSz outer).1 next stepped
      have chunks : chunk = other := List.append_cancel_left (bytes.symm.trans same)
      subst chunks
      exact .inr ⟨kept, inner, _, chunk, cutting, unsafeRead⟩
    · exact .inl ((spoiled.step rcvBufSz).1 next stepped)
  exact doomed.returns messages ((Step.returns_next stepped).mp (visited.returns returned))

theorem ConnInv.safeCall (messages : ∀ m ∈ msgs, OfMessage m)
    (inv : ConnInv (ofParms rcvBufSz true) msgs conn)
    (safe : SafeFrom rcvBufSz (startCall rcvBufSz conn arrived)) :
    ∃ after, SwitchCall rcvBufSz conn arrived (.idle after) ∧
      ConnInv (ofParms rcvBufSz true) msgs after := by
  have start : Careful msgs rcvBufSz (startCall rcvBufSz conn arrived) :=
    ⟨inv.intact arrived, safe, fun inner => by cases inner⟩
  obtain ⟨result, returned⟩ := Step.exists_returns (Careful msgs rcvBufSz) ReadCall.work
    (fun c next careful stepped => careful.step messages next stepped) start
  obtain ⟨after, idle, kept⟩ := returned.of_invariant (Careful msgs rcvBufSz)
    (fun c next careful stepped => (careful.step messages next stepped).1)
    (fun c result careful ends => (careful.intact.step messages).2 result ends) start
  exact ⟨after, idle ▸ returned, kept⟩

theorem ConnInv.safeCalls {calls : List (List Nat)} (messages : ∀ m ∈ msgs, OfMessage m)
    (inv : ConnInv (ofParms rcvBufSz true) msgs conn) (safe : SafeCalls rcvBufSz conn calls) :
    ∃ last, SwitchCalls rcvBufSz conn calls last ∧ ConnInv (ofParms rcvBufSz true) msgs last := by
  induction calls generalizing conn with
  | nil => exact ⟨conn, .none conn, inv⟩
  | cons arrived rest ih =>
    obtain ⟨middle, first, kept⟩ := inv.safeCall messages safe.1
    obtain ⟨last, others, done⟩ := ih kept (safe.2 middle (.inl first))
    exact ⟨last, .idle first others, done⟩

theorem SpoiledConn.calls {calls : List (List Nat)} (messages : ∀ m ∈ msgs, OfMessage m)
    (called : SwitchCalls rcvBufSz conn calls last) (spoiled : SpoiledConn msgs conn) :
    SpoiledConn msgs last := by
  induction called with
  | none => exact spoiled
  | idle first _ ih =>
    obtain ⟨after, ends, kept⟩ := Doomed.returns messages (.inl (spoiled.start _)) first
    rcases ends with same | same
    · cases same
      exact ih kept
    · cases same
  | corrupt _ first _ ih =>
    obtain ⟨after, ends, kept⟩ := Doomed.returns messages (.inl (spoiled.start _)) first
    rcases ends with same | same
    · cases same
    · cases same
      exact ih kept

/-- Calls from a whole stream are all safe, or end spoiled. -/
theorem ConnInv.calls_safe_or_spoiled {calls : List (List Nat)} (messages : ∀ m ∈ msgs, OfMessage m)
    (called : SwitchCalls rcvBufSz conn calls last)
    (inv : ConnInv (ofParms rcvBufSz true) msgs conn) :
    SafeCalls rcvBufSz conn calls ∨ SpoiledConn msgs last := by
  induction called with
  | none => exact .inl trivial
  | @idle conn middle last arrived rest first others ih =>
    by_cases safe : SafeFrom rcvBufSz (startCall rcvBufSz conn arrived)
    · obtain ⟨after, same, kept⟩ := inv.safeCall messages safe
      cases first.unique same
      rcases ih kept with safeRest | spoiled
      · refine .inl ⟨safe, fun other ends => ?_⟩
        rcases ends with idle | corrupt
        · cases first.unique idle
          exact safeRest
        · cases first.unique corrupt
      · exact .inr spoiled
    · obtain ⟨after, ends, kept⟩ := unsafe_call_spoils messages inv safe first
      rcases ends with same | same
      · cases same
        exact .inr (kept.calls messages others)
      · cases same
  | @corrupt conn middle last arrived rest _ first others _ =>
    by_cases safe : SafeFrom rcvBufSz (startCall rcvBufSz conn arrived)
    · obtain ⟨after, same, kept⟩ := inv.safeCall messages safe
      cases first.unique same
    · obtain ⟨after, ends, kept⟩ := unsafe_call_spoils messages inv safe first
      rcases ends with same | same
      · cases same
      · cases same
        exact .inr (kept.calls messages others)

end Calls

/-- The calls pass on exactly the messages of the stream if and only if every read is safe. -/
theorem switch_calls_deliver_iff (rcvBufSz : Nat) (msgs : List (List Byte))
    (messages : ∀ m ∈ msgs, OfMessage m) (calls : List (List Nat))
    (drains : ∀ conn, SwitchCalls rcvBufSz { sock := msgs.flatten } calls conn → conn.sock = []) :
    (∃ conn, SwitchCalls rcvBufSz { sock := msgs.flatten } calls conn ∧ conn.out = msgs) ↔
      SafeCalls rcvBufSz { sock := msgs.flatten } calls := by
  have start : ConnInv (ofParms rcvBufSz true) msgs { sock := msgs.flatten } :=
    ⟨.start msgs, incomplete_nil (show 0 < ofpHeaderSz by decide)⟩
  constructor
  · intro ⟨conn, called, delivered⟩
    rcases start.calls_safe_or_spoiled messages called with safe | spoiled
    · exact safe
    · exact absurd delivered spoiled.not_delivered
  · intro safe
    obtain ⟨conn, called, inv⟩ := start.safeCalls messages safe
    refine ⟨conn, called, ?_⟩
    have pending := inv.pending
    rw [drains conn called] at pending
    exact pending.finished messages inv.incomplete

/-- The socket and the messages after a run that ended without data. -/
private def idleState : Option CallEnd → Option (List Byte × List (List Byte))
  | some (.idle conn) => some (conn.sock, conn.out)
  | _ => none

private theorem switchCall_of_run
    (ran : idleState (Step.run (switchStep rcvBufSz) fuel (startCall rcvBufSz conn arrived)) =
      some (sock, out)) :
    ∃ after, SwitchCall rcvBufSz conn arrived (.idle after) ∧ after.sock = sock ∧
      after.out = out := by
  cases result : Step.run (switchStep rcvBufSz) fuel (startCall rcvBufSz conn arrived) with
  | none =>
    rw [result] at ran
    cases ran
  | some ended =>
    rw [result] at ran
    cases ended with
    | idle after =>
      cases ran
      exact ⟨after, ⟨fuel, result⟩, rfl, rfl⟩
    | corrupt after | assertion => cases ran

/-- Two messages, the first of them in two halves: both arrive, and all reads
are safe. -/
theorem switch_calls_deliver_halves :
    let hello : List Byte := [1, 0, 0, 8, 0, 0, 0, 1]
    let echo : List Byte := [1, 2, 0, 8, 0, 0, 0, 2]
    (∃ conn, SwitchCalls 4096 { sock := [hello, echo].flatten } [[4, 4, 8]] conn ∧
        conn.out = [hello, echo]) ∧
      SafeCalls 4096 { sock := [hello, echo].flatten } [[4, 4, 8]] := by
  intro hello echo
  obtain ⟨after, returned, drained, out⟩ : ∃ after,
      SwitchCall 4096 { sock := [hello, echo].flatten } [4, 4, 8] (.idle after) ∧ after.sock = [] ∧
        after.out = [hello, echo] := @switchCall_of_run 4096 9 _ _ _ _ (by decide)
  have called : SwitchCalls 4096 { sock := [hello, echo].flatten } [[4, 4, 8]] after :=
    .idle returned (.none after)
  have messages : ∀ m ∈ [hello, echo], OfMessage m := by
    intro m member
    rcases List.mem_cons.mp member with same | same
    · exact same ▸ ⟨by decide, by decide, by decide⟩
    · exact List.mem_singleton.mp same ▸ ⟨by decide, by decide, by decide⟩
  refine ⟨⟨after, called, out⟩, ?_⟩
  apply (switch_calls_deliver_iff 4096 [hello, echo] messages [[4, 4, 8]] ?_).mp ⟨after,
    called, out⟩
  intro conn other
  cases other with
  | idle first others =>
    cases others
    cases first.unique returned
    exact drained
  | corrupt _ first others => cases first.unique returned

/-- The rewind puts half a message in front of the next one, which arrives as another hello. -/
theorem split_header_spoils_message :
    let hello : List Byte := [1, 0, 0, 8, 0, 0, 0, 1]
    let echo : List Byte := [1, 2, 0, 8, 0, 0, 0, 2]
    OfMessage hello ∧ OfMessage echo ∧
      ∃ conn, SwitchCalls 4096 { sock := [hello, echo].flatten } [[4, 8, 4]] conn ∧ conn.sock = [] ∧
        conn.out = [hello, [1, 0, 0, 8, 0, 0, 0, 2]] ∧ conn.out ≠ [hello, echo] := by
  intro hello echo
  refine ⟨⟨by decide, by decide, by decide⟩, ⟨by decide, by decide, by decide⟩, ?_⟩
  obtain ⟨after, returned, drained, out⟩ : ∃ after,
      SwitchCall 4096 { sock := [hello, echo].flatten } [4, 8, 4] (.idle after) ∧ after.sock = [] ∧
        after.out = [hello, [1, 0, 0, 8, 0, 0, 0, 2]] :=
    @switchCall_of_run 4096 9 _ _ _ _ (by decide)
  exact ⟨after, .idle returned (.none after), drained, out, out ▸ by decide⟩

end OpenMul
