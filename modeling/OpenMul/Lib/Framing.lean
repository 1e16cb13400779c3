import Mathlib.Data.List.Basic

namespace OpenMul.Lib

open List hiding count

universe u

variable {Symbol : Type u} (hdrSz : Nat) (size : List Symbol → Nat) (valid : List Symbol → Bool)

/-- A frame whose header announces its length and is accepted. -/
structure Framed (frame : List Symbol) : Prop where
  header : hdrSz ≤ frame.length
  size : size (frame.take hdrSz) = frame.length
  valid : valid (frame.take hdrSz) = true

/-- The held part of a stream starts with no whole frame. -/
def Incomplete (held : List Symbol) : Prop :=
  hdrSz ≤ held.length → held.length < size (held.take hdrSz)

/-- Some frames were delivered; what is held and what is still coming are the
rest of them. -/
def Pending (frames out : List (List Symbol)) (held coming : List Symbol) : Prop :=
  ∃ rest, frames = out ++ rest ∧ held ++ coming = rest.flatten

variable {hdrSz size valid} {frames out : List (List Symbol)} {held coming : List Symbol}

theorem incomplete_nil (positive : 0 < hdrSz) : Incomplete hdrSz size ([] : List Symbol) :=
  fun header => absurd header (Nat.not_le_of_lt positive)

theorem Pending.start (frames : List (List Symbol)) : Pending frames [] [] frames.flatten :=
  ⟨frames, rfl, rfl⟩

theorem Pending.out_prefix (pending : Pending frames out held coming) : out <+: frames := by
  obtain ⟨rest, split, -⟩ := pending
  exact ⟨rest, split.symm⟩

/-- Symbols move from the coming to the held part. -/
theorem Pending.receive (pending : Pending frames out held (chunk ++ coming)) :
    Pending frames out (held ++ chunk) coming := by
  obtain ⟨rest, split, bytes⟩ := pending
  exact ⟨rest, split, by rw [append_assoc, bytes]⟩

private theorem take_of_append {left right frame more : List Symbol}
    (equal : left ++ right = frame ++ more) (inLeft : count ≤ left.length)
    (inFrame : count ≤ frame.length) : left.take count = frame.take count := by
  have taken := congrArg (take count) equal
  rwa [take_append_of_le_length inLeft, take_append_of_le_length inFrame] at taken

/-- A whole header in front belongs to the next frame. -/
theorem Pending.header (pending : Pending frames out held coming) (positive : 0 < hdrSz)
    (framed : ∀ frame ∈ frames, Framed hdrSz size valid frame) (whole : hdrSz ≤ held.length) :
    ∃ frame more, frames = out ++ frame :: more ∧ held ++ coming = frame ++ more.flatten ∧
      size (held.take hdrSz) = frame.length ∧ valid (held.take hdrSz) = true ∧
        0 < frame.length := by
  obtain ⟨rest, split, bytes⟩ := pending
  cases rest with
  | nil =>
    have lengths := congrArg length bytes
    simp only [length_append, flatten_nil, length_nil] at lengths
    omega
  | cons frame more =>
    have next : Framed hdrSz size valid frame := framed frame (by simp [split])
    have header := take_of_append bytes whole next.header
    refine ⟨frame, more, split, bytes, ?_, ?_, Nat.lt_of_lt_of_le positive next.header⟩
    · rw [header]
      exact next.size
    · rw [header]
      exact next.valid

/-- A whole frame in front is the next frame, and cutting it off keeps the rest. -/
theorem Pending.cut
    (split : frames = out ++ frame :: more) (bytes : held ++ coming = frame ++ more.flatten)
    (whole : frame.length ≤ held.length) :
    held.take frame.length = frame ∧
      Pending frames (out ++ [frame]) (held.drop frame.length) coming := by
  have taken := take_of_append bytes whole (Nat.le_refl _)
  rw [take_length] at taken
  refine ⟨taken, more, by simp [split], ?_⟩
  have dropped := congrArg (drop frame.length) bytes
  rwa [drop_append_of_le_length whole, drop_left] at dropped

/-- Without a whole frame held and with nothing coming, all was delivered. -/
theorem Pending.finished (pending : Pending frames out held [])
    (framed : ∀ frame ∈ frames, Framed hdrSz size valid frame)
    (incomplete : Incomplete hdrSz size held) : out = frames := by
  obtain ⟨rest, split, bytes⟩ := pending
  cases rest with
  | nil => rw [split, append_nil]
  | cons frame more =>
    have next : Framed hdrSz size valid frame := framed frame (by simp [split])
    rw [flatten_cons] at bytes
    have lengths := congrArg length bytes
    simp only [length_append, length_nil] at lengths
    have header := take_of_append bytes (by have := next.header; omega) next.header
    have short := incomplete (by have := next.header; omega)
    rw [header, next.size] at short
    omega

/-- Of a stream that starts with a frame the frame is the first to be cut off. -/
private theorem not_incomplete (framed : Framed hdrSz size valid frame) :
    ¬ Incomplete hdrSz size (frame ++ rest) := by
  intro incomplete
  have long : frame.length ≤ (frame ++ rest).length := by simp
  have short := incomplete (Nat.le_trans framed.header long)
  rw [take_append_of_le_length framed.header, framed.size] at short
  exact Nat.not_lt_of_le long short

/-- There is one way to cut a stream into frames and an incomplete rest. -/
theorem cut_unique {first second : List (List Symbol)}
    (framedFirst : ∀ frame ∈ first, Framed hdrSz size valid frame)
    (framedSecond : ∀ frame ∈ second, Framed hdrSz size valid frame)
    (incompleteLeft : Incomplete hdrSz size left) (incompleteRight : Incomplete hdrSz size right)
    (equal : first.flatten ++ left = second.flatten ++ right) : first = second ∧ left = right := by
  induction first generalizing second with
  | nil =>
    cases second with
    | nil => exact ⟨rfl, equal⟩
    | cons frame more =>
      rw [flatten_nil, nil_append, flatten_cons, append_assoc] at equal
      rw [equal] at incompleteLeft
      exact absurd incompleteLeft (not_incomplete (framedSecond frame mem_cons_self))
  | cons frame more ih =>
    cases second with
    | nil =>
      rw [flatten_nil, nil_append, flatten_cons, append_assoc] at equal
      rw [← equal] at incompleteRight
      exact absurd incompleteRight (not_incomplete (framedFirst frame mem_cons_self))
    | cons other others =>
      have one := framedFirst frame mem_cons_self
      have two := framedSecond other mem_cons_self
      simp only [flatten_cons, append_assoc] at equal
      have header : frame.take hdrSz = other.take hdrSz :=
        take_of_append equal one.header two.header
      have length : frame.length = other.length := by rw [← one.size, ← two.size, header]
      obtain ⟨same, rest⟩ := append_inj equal length
      obtain ⟨tails, ends⟩ := ih (fun frame member => framedFirst frame (mem_cons_of_mem _ member))
        (fun frame member => framedSecond frame (mem_cons_of_mem _ member)) rest
      exact ⟨by rw [same, tails], ends⟩

end OpenMul.Lib
