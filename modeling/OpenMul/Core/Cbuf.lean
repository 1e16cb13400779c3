import OpenMul.Core.Flow
import Mathlib.Data.List.Basic

namespace OpenMul

/-- `struct cbuf`. Positions count from the first data byte of the block; `mem` is
what was written to the block so far, `cap` stands for `end`, and `tail` is
`data + len`, as every operation keeps it. -/
structure Cbuf where
  mem : List Byte
  cap : Nat
  data : Nat
  len : Nat
  written : data + len ≤ mem.length
  inside : mem.length ≤ cap

namespace Cbuf

/-- `CBUF_SZ`. -/
def cbufSz : Nat := 64

/-- `CBUF_ALIGN_SZ`. -/
def alignSz (len : Nat) : Nat := (len + 63) / 64 * 64

/-- `alloc_cbuf`. -/
def alloc (len : Nat) : Cbuf where
  mem := []
  cap := alignSz (len + cbufSz) - cbufSz
  data := 0
  len := 0
  written := Nat.le_refl 0
  inside := Nat.zero_le _

/-- The bytes between `data` and `tail`. -/
def bytes (b : Cbuf) : List Byte := (b.mem.drop b.data).take b.len

/-- `cbuf_tailroom`. -/
def tailroom (b : Cbuf) : Nat := b.cap - (b.data + b.len)

/-- `recv` into the tail followed by `cbuf_put`; `none` is its failed assertion. -/
def put (b : Cbuf) (chunk : List Byte) : Option Cbuf :=
  if room : b.data + b.len + chunk.length ≤ b.cap then
    some {
      mem := b.mem.take (b.data + b.len) ++ chunk ++ b.mem.drop (b.data + b.len + chunk.length)
      cap := b.cap
      data := b.data
      len := b.len + chunk.length
      written := by
        have := b.written
        simp only [List.length_append, List.length_take, List.length_drop]
        omega
      inside := by
        have := b.inside
        simp only [List.length_append, List.length_take, List.length_drop]
        omega }
  else none

/-- `cbuf_pull` of bytes the buffer has; `none` is its failed assertion. -/
def pull (b : Cbuf) (count : Nat) (enough : count ≤ b.len) : Option Cbuf :=
  if b.data + count ≤ b.cap then
    some { b with
      data := b.data + count
      len := b.len - count
      written := by have := b.written; omega }
  else none

/-- `cbuf_realloc_tailroom`. -/
def reallocTailroom (b : Cbuf) (room : Nat) : Cbuf :=
  if room > b.tailroom then
    { mem := b.bytes
      cap := (alloc (b.len + room)).cap
      data := 0
      len := b.len
      written := by
        have := b.written
        simp only [bytes, List.length_take, List.length_drop]
        omega
      inside := by
        simp only [bytes, List.length_take, alloc, alignSz, cbufSz]
        omega }
  else b

/-- `b->data -= count` together with `b->tail -= count`. -/
def rewind (b : Cbuf) (count : Nat) : Cbuf :=
  { b with data := b.data - count, written := by have := b.written; omega }

@[simp] theorem length_bytes (b : Cbuf) : b.bytes.length = b.len := by
  have := b.written
  simp only [bytes, List.length_take, List.length_drop]
  omega

theorem le_cap (b : Cbuf) : b.data + b.len ≤ b.cap := b.written.trans b.inside

theorem bytes_alloc (len : Nat) : (alloc len).bytes = [] := rfl

theorem put_eq_some {b : Cbuf} {chunk : List Byte} (room : chunk.length ≤ b.tailroom) :
    ∃ after, b.put chunk = some after ∧ after.bytes = b.bytes ++ chunk := by
  have within : b.data + b.len + chunk.length ≤ b.cap := by
    have := b.le_cap
    unfold tailroom at room
    omega
  refine ⟨_, dif_pos within, ?_⟩
  have written := b.written
  have front : (b.mem.take (b.data + b.len)).drop b.data = b.bytes := by
    rw [bytes, List.drop_take, Nat.add_sub_cancel_left]
  have start : b.data ≤ (b.mem.take (b.data + b.len)).length := by
    rw [List.length_take]
    omega
  simp only [bytes, List.append_assoc] at front ⊢
  rw [List.drop_append_of_le_length start, front, ← bytes, ← List.append_assoc]
  apply List.take_left'
  simp

variable (b : Cbuf)

theorem pull_eq_some (enough : count ≤ b.len) :
    ∃ after, b.pull count enough = some after ∧ after.bytes = b.bytes.drop count ∧
      after.mem = b.mem ∧ after.data = b.data + count := by
  have within : b.data + count ≤ b.cap := by
    have := b.le_cap
    omega
  refine ⟨_, if_pos within, ?_, rfl, rfl⟩
  simp only [bytes]
  rw [List.drop_take, List.drop_drop]

theorem bytes_reallocTailroom (room : Nat) : (b.reallocTailroom room).bytes = b.bytes := by
  unfold reallocTailroom
  split
  · simp [bytes]
  · rfl

theorem le_tailroom_reallocTailroom (room : Nat) : room ≤ (b.reallocTailroom room).tailroom := by
  unfold reallocTailroom
  split
  · simp only [tailroom, alloc, alignSz, cbufSz]
    omega
  · omega

@[simp] theorem len_rewind (count : Nat) : (b.rewind count).len = b.len := rfl

theorem bytes_rewind (count : Nat) :
    (b.rewind count).bytes = (b.mem.drop (b.data - count)).take b.len := rfl

end Cbuf

end OpenMul
