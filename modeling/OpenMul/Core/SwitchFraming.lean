import OpenMul.Core.SocketFraming

namespace OpenMul

open Lib
open List hiding after length

/-- A valid OpenFlow message: known version and type, and its length in the header. -/
def OfMessage (m : List Byte) : Prop := Framed ofpHeaderSz ofGetDataLen ofHdrValid m

/-- No whole OpenFlow message is in front. -/
def OfIncomplete (held : List Byte) : Prop := Incomplete ofpHeaderSz ofGetDataLen held

/-- A read after which the rewind, if any, exposes exactly what was held. -/
def SafeRead (held chunk : List Byte) : Prop :=
  ∀ (cut : List (List Byte)) (rest : List Byte), (∀ m ∈ cut, OfMessage m) → OfIncomplete rest →
    held ++ chunk = cut.flatten ++ rest → cut.flatten.length = chunk.length → rest = held

/-- Every read of a call is safe, from some iteration on. -/
def SafeFrom (rcvBufSz : Nat) (start : ReadCall) : Prop :=
  ∀ c next chunk, Step.Visits (switchStep rcvBufSz) start c → c.inner = false →
    switchStep rcvBufSz c = .next next → next.b.bytes = c.b.bytes ++ chunk →
      SafeRead c.b.bytes chunk

/-- Every read of a sequence of calls is safe. -/
def SafeCalls (rcvBufSz : Nat) : Conn → List (List Nat) → Prop
  | _, [] => True
  | conn, arrived :: rest =>
    SafeFrom rcvBufSz (startCall rcvBufSz conn arrived) ∧
      ∀ middle, SwitchCall rcvBufSz conn arrived (.idle middle) ∨
        SwitchCall rcvBufSz conn arrived (.corrupt middle) → SafeCalls rcvBufSz middle rest

theorem switchMsgStep_outcome (c : ReadCall) :
    let hdr := c.b.bytes.take ofpHeaderSz
    (OfIncomplete c.b.bytes ∧ switchMsgStep c = .next c.leaveMessages) ∨
    (ofpHeaderSz ≤ c.b.len ∧ ofHdrValid hdr = false ∧ switchMsgStep c =
      .done (.corrupt { cbuf := none, sock := socketDrain c.arrived c.sock, out := c.out })) ∨
    (ofpHeaderSz ≤ c.b.len ∧ ofGetDataLen hdr ≤ c.b.len ∧ ∃ after,
      switchMsgStep c = .next (c.afterMessage after (ofGetDataLen hdr)) ∧
      after.bytes = c.b.bytes.drop (ofGetDataLen hdr) ∧ after.mem = c.b.mem ∧
      after.data = c.b.data + ofGetDataLen hdr) := by
  intro hdr
  simp only [switchMsgStep]
  split
  · rename_i short
    refine .inl ⟨fun whole => ?_, rfl⟩
    rw [Cbuf.length_bytes] at whole
    exact absurd short (Nat.not_lt_of_le whole)
  · rename_i whole
    split
    · split
      · refine .inl ⟨fun _ => ?_, rfl⟩
        rwa [Cbuf.length_bytes]
      · rename_i enough
        exact .inr (.inr ⟨Nat.le_of_not_lt whole, Nat.le_of_not_lt enough,
          c.passMessage_spec _ (Nat.le_of_not_lt enough)⟩)
    · rename_i invalid
      exact .inr (.inl ⟨Nat.le_of_not_lt whole, Bool.eq_false_of_not_eq_true invalid, rfl⟩)

theorem switchReadStep_outcome (rcvBufSz : Nat) (c : ReadCall) : (∃ b, b.bytes = c.b.bytes ∧
      switchReadStep rcvBufSz c = .done (.idle { cbuf := some b, sock := c.sock, out := c.out })) ∨
    ∃ chunk after, switchReadStep rcvBufSz c = .next (c.afterRead after chunk) ∧ chunk ≠ [] ∧
      chunk ++ c.sock.drop chunk.length = c.sock ∧ after.bytes = c.b.bytes ++ chunk := by
  have same : (if c.b.tailroom < ofpHeaderSz then c.b.reallocTailroom rcvBufSz else c.b).bytes =
      c.b.bytes := by
    split
    · exact Cbuf.bytes_reallocTailroom c.b rcvBufSz
    · rfl
  rcases c.readInto_cases (if c.b.tailroom < ofpHeaderSz then c.b.reallocTailroom rcvBufSz else c.b)
    c.limitReached with ⟨idle, -⟩ | ⟨chunk, after, stepped, some, split, bytes⟩
  · exact .inl ⟨_, same, idle⟩
  · exact .inr ⟨chunk, after, stepped, some, split, same ▸ bytes⟩

theorem switchStep_inner (rcvBufSz : Nat) {c : ReadCall} (inner : c.inner = true) :
    switchStep rcvBufSz c = switchMsgStep c := by
  rw [switchStep, if_pos inner]

theorem switchStep_outer (rcvBufSz : Nat) {c : ReadCall} (outer : c.inner = false) :
    switchStep rcvBufSz c = switchReadStep rcvBufSz c := by
  simp [switchStep, outer]

/-- Whole messages were cut off, and the block still has all of it before `data`. -/
structure Cutting (held chunk : List Byte) (c : ReadCall) : Prop where
  rdSz : c.rdSz = chunk.length
  cut : ∃ cut : List (List Byte), (∀ m ∈ cut, OfMessage m) ∧
    held ++ chunk = cut.flatten ++ c.b.bytes ∧
    c.procSz = cut.flatten.length
  behind : c.procSz ≤ c.b.data
  mem : (c.b.mem.drop (c.b.data - c.procSz)).take (held ++ chunk).length = held ++ chunk

theorem Cutting.start {c : ReadCall} {after : Cbuf} (fresh : c.procSz = 0)
    (bytes : after.bytes = c.b.bytes ++ chunk) :
    Cutting c.b.bytes chunk (c.afterRead after chunk) := by
  refine ⟨rfl, ⟨[], by simp, by simp [ReadCall.afterRead, bytes], fresh⟩, ?_, ?_⟩
  · exact fresh.trans_le (Nat.zero_le _)
  · have length := congrArg List.length bytes
    rw [Cbuf.length_bytes] at length
    simp only [ReadCall.afterRead, fresh, Nat.sub_zero]
    rw [← length, ← bytes, Cbuf.bytes]

theorem Cutting.message {m : List Byte} (cutting : Cutting held chunk c)
    (whole : OfMessage m) (front : c.b.bytes.take m.length = m)
    (bytes : after.bytes = c.b.bytes.drop m.length) (mem : after.mem = c.b.mem)
    (data : after.data = c.b.data + m.length) :
    Cutting held chunk (c.afterMessage after m.length) := by
  obtain ⟨cut, messages, split, length⟩ := cutting.cut
  refine ⟨cutting.rdSz, ⟨cut ++ [m], ?_, ?_, ?_⟩, ?_, ?_⟩
  · intro other member
    rcases mem_append.mp member with earlier | last
    · exact messages other earlier
    · rwa [mem_singleton.mp last]
  · have joined : m ++ c.b.bytes.drop m.length = c.b.bytes := by
      have parts := take_append_drop m.length c.b.bytes
      rwa [front] at parts
    simp [ReadCall.afterMessage, bytes, joined, split]
  · simp [ReadCall.afterMessage, length]
  · have behind := cutting.behind
    simp only [ReadCall.afterMessage, data]
    omega
  · have same : c.b.data + m.length - (c.procSz + m.length) = c.b.data - c.procSz := by omega
    simp only [ReadCall.afterMessage, mem, data, same]
    exact cutting.mem

theorem Cutting.rewind (cutting : Cutting held chunk c)
    (equal : c.procSz = c.rdSz) : (c.b.rewind c.rdSz).bytes = held ∧ held.length = c.b.len := by
  obtain ⟨cut, -, split, length⟩ := cutting.cut
  have lengths := congrArg List.length split
  have rdSz := cutting.rdSz
  simp only [length_append, Cbuf.length_bytes] at lengths
  have same : held.length = c.b.len := by omega
  refine ⟨?_, same⟩
  have mem := congrArg (take held.length) cutting.mem
  rw [take_take, take_left, length_append, Nat.min_eq_left (Nat.le_add_right _ _)] at mem
  rw [Cbuf.bytes_rewind, ← equal, ← same]
  exact mem

section Switch

variable (msgs : List (List Byte))

/-- Nothing is lost or changed so far. -/
structure Intact (c : ReadCall) : Prop where
  pending : Pending msgs c.out c.b.bytes c.sock
  outer : c.inner = false → OfIncomplete c.b.bytes ∧ c.procSz = 0
  inner : c.inner = true → ∃ held chunk, Cutting held chunk c

/-- The held bytes differ from the message they should be the beginning of. -/
def Differs (out : List (List Byte)) (held sock : List Byte) : Prop :=
  ∃ frame more index, msgs = out ++ frame :: more ∧ index < held.length ∧ index < frame.length ∧
    held[index]? ≠ frame[index]? ∧
    out.flatten.length + held.length + sock.length ≤ msgs.flatten.length

/-- Something else than the messages was passed on, or bytes were dropped. -/
def Beyond (out : List (List Byte)) (held sock : List Byte) : Prop :=
  ¬ out <+: msgs ∨ out.flatten.length + held.length + sock.length < msgs.flatten.length

/-- In a call: without a message passed on since the last read there is no rewind. -/
def Spoiled (c : ReadCall) : Prop :=
  (Differs msgs c.out c.b.bytes c.sock ∧ c.procSz = 0 ∧ (c.inner = true → 0 < c.rdSz)) ∨
    Beyond msgs c.out c.b.bytes c.sock

def SpoiledConn (conn : Conn) : Prop :=
  Differs msgs conn.out conn.held conn.sock ∨ Beyond msgs conn.out conn.held conn.sock

variable {msgs} {c : ReadCall} {conn : Conn} {out : List (List Byte)} {held sock : List Byte}

theorem SpoiledConn.not_delivered (spoiled : SpoiledConn msgs conn) : conn.out ≠ msgs := by
  intro same
  rcases spoiled with ⟨frame, more, -, split, -⟩ | wrong | lost
  · have lengths := congrArg List.length split
    rw [same, length_append, length_cons] at lengths
    omega
  · exact wrong (same ▸ prefix_refl _)
  · rw [same] at lost
    omega

theorem Beyond.mono (beyond : Beyond msgs out held sock)
    (longer : out <+: out') (less : out'.flatten.length + held'.length + sock'.length ≤
      out.flatten.length + held.length + sock.length) : Beyond msgs out' held' sock' := by
  rcases beyond with wrong | lost
  · exact .inl fun right => wrong (longer.trans right)
  · exact .inr (Nat.lt_of_le_of_lt less lost)

theorem Differs.receive (differs : Differs msgs out held (chunk ++ sock)) :
    Differs msgs out (held ++ chunk) sock := by
  obtain ⟨frame, more, index, split, inHeld, inFrame, differ, total⟩ := differs
  refine ⟨frame, more, index, split, ?_, inFrame, ?_, ?_⟩
  · rw [length_append]
    omega
  · rwa [getElem?_append_left inHeld]
  · simp only [length_append] at total ⊢
    omega

theorem Differs.message (differs : Differs msgs out held sock) (size : Nat) :
    ¬ out ++ [held.take size] <+: msgs := by
  obtain ⟨frame, more, index, split, inHeld, inFrame, differ, -⟩ := differs
  intro right
  rw [split, prefix_append_right_inj, cons_prefix_cons] at right
  apply differ
  rw [← right.1] at inFrame ⊢
  rw [length_take] at inFrame
  rw [getElem?_take_of_lt (by omega)]

theorem differs_of_ne (pending : Pending msgs out held sock)
    (messages : ∀ m ∈ msgs, OfMessage m) (incomplete : OfIncomplete held)
    (same : wrong.length = held.length) (differ : wrong ≠ held) : Differs msgs out wrong sock := by
  obtain ⟨rest, split, bytes⟩ := pending
  obtain ⟨index, unlike⟩ : ∃ index : Nat, wrong[index]? ≠ held[index]? := by
    by_contra alike
    exact differ (ext_getElem? fun index => not_not.mp fun unlike => alike ⟨index, unlike⟩)
  have inHeld : index < held.length := by
    by_contra outside
    apply unlike
    rw [getElem?_eq_none (by omega), getElem?_eq_none (by omega)]
  cases rest with
  | nil =>
    have lengths := congrArg List.length bytes
    simp only [length_append, flatten_nil, length_nil] at lengths
    omega
  | cons frame more =>
    have next : OfMessage frame := messages frame (by simp [split])
    have short : held.length < frame.length := by
      by_contra long
      have header := incomplete (by have := next.header; omega)
      have front := congrArg (take ofpHeaderSz) bytes
      rw [flatten_cons, take_append_of_le_length (by have := next.header; omega),
        take_append_of_le_length next.header] at front
      rw [front, next.size] at header
      omega
    refine ⟨frame, more, index, split, by omega, by omega, ?_, ?_⟩
    · have position := congrArg (fun list => list[index]?) bytes
      simp only [flatten_cons] at position
      rw [getElem?_append_left inHeld, getElem?_append_left (by omega)] at position
      rwa [← position]
    · have lengths := congrArg List.length bytes
      rw [length_append] at lengths
      rw [split, flatten_append, length_append]
      omega

private theorem length_socketDrain (arrived : List Nat) (sock : List Byte) :
    (socketDrain arrived sock).length ≤ sock.length := by
  induction arrived generalizing sock with
  | nil => exact Nat.le_refl _
  | cons first rest ih =>
    simp only [socketDrain]
    split
    · exact Nat.le_refl _
    · refine Nat.le_trans (ih _) ?_
      rw [length_drop]
      omega

theorem Spoiled.read (rcvBufSz : Nat) (spoiled : Spoiled msgs c) :
    (∀ next, switchReadStep rcvBufSz c = .next next → Spoiled msgs next) ∧
      ∀ result, switchReadStep rcvBufSz c = .done result →
        ∃ conn, result = .idle conn ∧ SpoiledConn msgs conn := by
  rcases switchReadStep_outcome rcvBufSz c with
    ⟨b, bytes, idle⟩ | ⟨chunk, after, stepped, some, split, bytes⟩
  · apply Step.done_only idle
    refine ⟨_, rfl, ?_⟩
    have held : Conn.held { cbuf := .some b, sock := c.sock, out := c.out } = c.b.bytes := bytes
    rw [SpoiledConn, held]
    exact spoiled.imp_left And.left
  · apply Step.next_only stepped
    rcases spoiled with ⟨differs, fresh, -⟩ | beyond
    · left
      refine ⟨?_, fresh, fun _ => length_pos_of_ne_nil some⟩
      rw [← split] at differs
      have received := differs.receive
      rwa [← bytes] at received
    · right
      refine beyond.mono (prefix_refl _) ?_
      have lengths := congrArg List.length split
      simp only [ReadCall.afterRead, bytes, length_append] at lengths ⊢
      omega

theorem Spoiled.left (spoiled : Spoiled msgs c) (inner : c.inner = true) :
    Spoiled msgs c.leaveMessages := by
  rcases spoiled with ⟨differs, fresh, read⟩ | beyond
  · left
    have kept : c.leaveMessages.b = c.b := by
      have positive := read inner
      rw [ReadCall.leaveMessages, if_neg (by omega)]
    refine ⟨?_, rfl, fun outer => by cases outer⟩
    rw [kept]
    exact differs
  · right
    refine beyond.mono (prefix_refl _) ?_
    have length : c.leaveMessages.b.len = c.b.len := by
      simp only [ReadCall.leaveMessages]
      split <;> rfl
    simp only [Cbuf.length_bytes, length]
    exact Nat.le_refl _

theorem Spoiled.message (spoiled : Spoiled msgs c) (bytes : after.bytes = c.b.bytes.drop size) :
    Spoiled msgs (c.afterMessage after size) := by
  right
  rcases spoiled with ⟨differs, -, -⟩ | beyond
  · exact .inl (differs.message size)
  · refine beyond.mono (prefix_append _ _) ?_
    simp only [ReadCall.afterMessage, bytes, flatten_append, flatten_singleton,
      length_append, length_take, length_drop]
    omega

theorem Spoiled.corrupt (spoiled : Spoiled msgs c) (whole : ofpHeaderSz ≤ c.b.len) :
    SpoiledConn msgs { cbuf := none, sock := socketDrain c.arrived c.sock, out := c.out } := by
  right
  have drained := length_socketDrain c.arrived c.sock
  rcases spoiled with ⟨⟨_, _, _, _, _, _, _, total⟩, -, -⟩ | beyond
  · right
    simp only [Conn.held, Option.map_none, Option.getD_none, length_nil, Cbuf.length_bytes]
      at total ⊢
    unfold ofpHeaderSz at whole
    omega
  · refine beyond.mono (prefix_refl _) ?_
    simp only [Conn.held, Option.map_none, Option.getD_none, length_nil]
    omega

theorem Spoiled.step (rcvBufSz : Nat) (spoiled : Spoiled msgs c) :
    (∀ next, switchStep rcvBufSz c = .next next → Spoiled msgs next) ∧
      ∀ result, switchStep rcvBufSz c = .done result →
        ∃ conn, (result = .idle conn ∨ result = .corrupt conn) ∧ SpoiledConn msgs conn := by
  cases inner : c.inner with
  | false =>
    obtain ⟨continues, returns⟩ := spoiled.read rcvBufSz
    rw [switchStep_outer rcvBufSz inner]
    refine ⟨continues, fun result ends => ?_⟩
    obtain ⟨conn, idle, rest⟩ := returns result ends
    exact ⟨conn, .inl idle, rest⟩
  | true =>
    rw [switchStep_inner rcvBufSz inner]
    rcases switchMsgStep_outcome c with
      ⟨-, left⟩ | ⟨whole, -, corrupt⟩ | ⟨-, -, after, passed, bytes, -, -⟩
    · exact Step.next_only left (spoiled.left inner)
    · exact Step.done_only corrupt ⟨_, .inr rfl, spoiled.corrupt whole⟩
    · exact Step.next_only passed (spoiled.message bytes)

theorem Intact.read (rcvBufSz : Nat) (intact : Intact msgs c) (outer : c.inner = false) :
    (∀ next, switchReadStep rcvBufSz c = .next next → Intact msgs next ∧ next.inner = true ∧
      ∃ chunk, next.b.bytes = c.b.bytes ++ chunk ∧ Cutting c.b.bytes chunk next) ∧
      ∀ result, switchReadStep rcvBufSz c = .done result →
        ∃ conn, result = .idle conn ∧ ConnInv (ofParms rcvBufSz true) msgs conn := by
  obtain ⟨incomplete, fresh⟩ := intact.outer outer
  rcases switchReadStep_outcome rcvBufSz c with
    ⟨b, bytes, idle⟩ | ⟨chunk, after, stepped, some, split, bytes⟩
  · apply Step.done_only idle
    refine ⟨_, rfl, ?_⟩
    have held : Conn.held { cbuf := .some b, sock := c.sock, out := c.out } = c.b.bytes := bytes
    constructor
    · rw [held]
      exact intact.pending
    · rw [held]
      exact incomplete
  · apply Step.next_only stepped
    have cutting := Cutting.start fresh bytes
    refine ⟨⟨?_, (fun outer => by cases outer), fun _ => ⟨_, chunk, cutting⟩⟩, rfl, chunk, bytes,
      cutting⟩
    have pending := intact.pending
    rw [← split] at pending
    have received := pending.receive
    rwa [← bytes] at received

variable {rcvBufSz : Nat} {chunk : List Byte}

section Messages

variable (messages : ∀ m ∈ msgs, OfMessage m)

include messages in
/-- The next message is passed on, or no whole message is left. -/
theorem Intact.inside (intact : Intact msgs c) (inner : c.inner = true)
    (cutting : Cutting held chunk c) :
    (∃ next, switchMsgStep c = .next next ∧ next.inner = true ∧ Intact msgs next ∧
      Cutting held chunk next ∧ next.work < c.work) ∨
      (switchMsgStep c = .next c.leaveMessages ∧ OfIncomplete c.b.bytes) := by
  have header (whole : ofpHeaderSz ≤ c.b.len) :=
    intact.pending.header (by decide) messages (Cbuf.length_bytes c.b ▸ whole)
  rcases switchMsgStep_outcome c with ⟨incomplete, left⟩ | ⟨whole, invalid, -⟩ |
    ⟨whole, enough, after, passed, bytes, mem, data⟩
  · exact .inr ⟨left, incomplete⟩
  · obtain ⟨frame, more, split, stream, size, valid, -⟩ := header whole
    rw [invalid] at valid
    cases valid
  · obtain ⟨frame, more, split, stream, size, valid, nonempty⟩ := header whole
    rw [size] at passed bytes data enough
    obtain ⟨front, pending⟩ := Pending.cut split stream (Cbuf.length_bytes c.b ▸ enough)
    have message : OfMessage frame := messages frame (by simp [split])
    have cutting := cutting.message message front bytes mem data
    refine .inl ⟨_, passed, inner, ⟨?_, ?_, fun _ => ⟨held, chunk, cutting⟩⟩, cutting,
      ReadCall.work_afterMessage enough nonempty bytes⟩
    · simp only [ReadCall.afterMessage, bytes, front]
      exact pending
    · intro outer
      rw [ReadCall.afterMessage, inner] at outer
      cases outer

include messages in
/-- A safe read keeps the stream whole and an unsafe one spoils it. -/
theorem Intact.left (intact : Intact msgs c) (incomplete : OfIncomplete c.b.bytes)
    (cutting : Cutting held chunk c) : (SafeRead held chunk → Intact msgs c.leaveMessages) ∧
      (¬ SafeRead held chunk → Spoiled msgs c.leaveMessages) := by
  obtain ⟨cut, cutMessages, split, length⟩ := cutting.cut
  have rdSz := cutting.rdSz
  constructor
  · intro safe
    have kept : c.leaveMessages.b.bytes = c.b.bytes := by
      simp only [ReadCall.leaveMessages]
      split
      · rename_i equal
        rw [(cutting.rewind equal).1]
        exact (safe cut c.b.bytes cutMessages incomplete split (by omega)).symm
      · rfl
    refine ⟨?_, fun _ => ⟨?_, rfl⟩, (fun inner => by cases inner)⟩
    · rw [kept]
      exact intact.pending
    · rw [kept]
      exact incomplete
  · intro unsafeRead
    left
    unfold SafeRead at unsafeRead
    push Not at unsafeRead
    obtain ⟨other, rest, otherMessages, short, equal, lengths, differ⟩ := unsafeRead
    rw [split] at equal
    obtain ⟨same, rests⟩ := cut_unique cutMessages otherMessages incomplete short equal
    subst same rests
    have procSz : c.procSz = c.rdSz := by omega
    obtain ⟨exposed, heldLength⟩ := cutting.rewind procSz
    have bytes : c.leaveMessages.b.bytes = held := by
      simp only [ReadCall.leaveMessages, if_pos procSz]
      exact exposed
    refine ⟨?_, rfl, (fun inner => by cases inner)⟩
    rw [bytes]
    apply differs_of_ne intact.pending messages incomplete _ differ.symm
    rw [heldLength, Cbuf.length_bytes]

include messages in
theorem Intact.step (intact : Intact msgs c) :
    (∀ next, switchStep rcvBufSz c = .next next → Intact msgs next ∨ Spoiled msgs next) ∧
      ∀ result, switchStep rcvBufSz c = .done result →
        ∃ conn, result = .idle conn ∧ ConnInv (ofParms rcvBufSz true) msgs conn := by
  cases inner : c.inner with
  | false =>
    obtain ⟨continues, returns⟩ := intact.read rcvBufSz inner
    rw [switchStep_outer rcvBufSz inner]
    exact ⟨fun next stepped => .inl (continues next stepped).1, returns⟩
  | true =>
    obtain ⟨held, chunk, cutting⟩ := intact.inner inner
    rw [switchStep_inner rcvBufSz inner]
    rcases intact.inside messages inner cutting with
      ⟨next, passed, -, kept, -, -⟩ | ⟨left, incomplete⟩
    · exact Step.next_only passed (.inl kept)
    · apply Step.next_only left
      obtain ⟨safe, unsafeRead⟩ := intact.left messages incomplete cutting
      by_cases holds : SafeRead held chunk
      · exact .inl (safe holds)
      · exact .inr (unsafeRead holds)

variable (msgs) in
/-- Spoiled, or about to be: the read before this message loop was unsafe. -/
def Doomed (c : ReadCall) : Prop :=
  Spoiled msgs c ∨ Intact msgs c ∧ c.inner = true ∧
    ∃ held chunk, Cutting held chunk c ∧ ¬ SafeRead held chunk

include messages in
theorem Doomed.step (doomed : Doomed msgs c) :
    (∀ next, switchStep rcvBufSz c = .next next → Doomed msgs next) ∧
      ∀ result, switchStep rcvBufSz c = .done result →
        ∃ conn, (result = .idle conn ∨ result = .corrupt conn) ∧ SpoiledConn msgs conn := by
  rcases doomed with spoiled | ⟨intact, inner, held, chunk, cutting, unsafeRead⟩
  · obtain ⟨continues, returns⟩ := spoiled.step rcvBufSz
    exact ⟨fun next stepped => .inl (continues next stepped), returns⟩
  · rw [switchStep_inner rcvBufSz inner]
    rcases intact.inside messages inner cutting with ⟨next, passed, stays, kept, cutting, -⟩ |
      ⟨left, incomplete⟩
    · exact Step.next_only passed (.inr ⟨kept, stays, held, chunk, cutting, unsafeRead⟩)
    · exact Step.next_only left (.inl ((intact.left messages incomplete cutting).2 unsafeRead))

variable (msgs rcvBufSz) in
/-- Whole so far, and every read from here on is safe. -/
structure Careful (c : ReadCall) : Prop where
  intact : Intact msgs c
  safe : SafeFrom rcvBufSz c
  inner : c.inner = true → ∃ held chunk, Cutting held chunk c ∧ SafeRead held chunk

include messages in
theorem Careful.step (careful : Careful msgs rcvBufSz c) (next : ReadCall)
    (stepped : switchStep rcvBufSz c = .next next) :
    Careful msgs rcvBufSz next ∧ next.work < c.work := by
  have safe : SafeFrom rcvBufSz next := fun last after chunk visited =>
    careful.safe last after chunk (.later stepped visited)
  cases inner : c.inner with
  | false =>
    have reads := stepped
    rw [switchStep_outer rcvBufSz inner] at reads
    obtain ⟨kept, -, chunk, bytes, cutting⟩ := (careful.intact.read rcvBufSz inner).1 next reads
    refine ⟨⟨kept, safe, fun _ => ⟨_, chunk, cutting, ?_⟩⟩,
      switchStep_reads rcvBufSz c next inner stepped⟩
    exact careful.safe c next chunk (.here c) inner stepped bytes
  | true =>
    obtain ⟨held, chunk, cutting, holds⟩ := careful.inner inner
    rw [switchStep_inner rcvBufSz inner] at stepped
    rcases careful.intact.inside messages inner cutting with
      ⟨after, passed, -, kept, cutting, less⟩ | ⟨left, incomplete⟩
    · rw [passed] at stepped
      cases stepped
      exact ⟨⟨kept, safe, fun _ => ⟨held, chunk, cutting, holds⟩⟩, less⟩
    · rw [left] at stepped
      cases stepped
      refine ⟨⟨(careful.intact.left messages incomplete cutting).1 holds, safe, ?_⟩,
        ReadCall.work_leaveMessages inner⟩
      exact fun inner => by cases inner

end Messages

end Switch

end OpenMul
