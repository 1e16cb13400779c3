import OpenMul.Core.Cbuf
import OpenMul.Lib.Machine

namespace OpenMul

open Lib Cbuf

/-- `struct cbuf` with its pointers, which count from the header, and the memory around it. -/
structure CbufPtrs where
  data : Int
  tail : Int
  endPtr : BitVec 64
  len : Nat
  mem : Int → Byte

namespace CbufPtrs

/-- `alloc_cbuf`; the sizes are `size_t`. -/
def alloc (mem : Int → Byte) (len : Nat) : CbufPtrs where
  data := cbufSz
  tail := cbufSz
  endPtr := .ofNat 64 (alignSz (len + cbufSz))
  len := 0
  mem := mem

variable (b : CbufPtrs)

/-- `cbuf_put`; `none` is a failed assertion. -/
def put (len : Nat) : Option CbufPtrs :=
  if b.tail + len ≤ b.endPtr.toNat then
    some { b with tail := b.tail + len, len := (b.len + len) % 2 ^ 64 } else none

/-- `cbuf_pull`. -/
def pull (len : Nat) : Option CbufPtrs :=
  if b.data + len ≤ b.endPtr.toNat then
    some { b with data := b.data + len, len := ((b.len - len : Int) % 2 ^ 64).toNat }
  else none

/-- `cbuf_headroom`: the header is added to the distance, not taken from it. -/
def headroom : Nat := (BitVec.ofInt 32 (b.data + cbufSz)).toInt.toNat

/-- `cbuf_push`. -/
def push (len : Nat) : Option CbufPtrs :=
  if len ≤ b.headroom then some { b with data := b.data - len, len := (b.len + len) % 2 ^ 64 }
  else none

/-- The `memcpy` of the data of another buffer. -/
def copy (old : CbufPtrs) : CbufPtrs :=
  { b with
    mem := fun pos =>
      if b.data ≤ pos ∧ pos < b.data + old.len then old.mem (old.data + (pos - b.data))
      else b.mem pos }

/-- `cbuf_realloc_tailroom`, into a block with some contents. -/
def reallocTailroom (mem : Int → Byte) (room : Nat) : Option CbufPtrs :=
  if room > (b.endPtr.toNat - b.tail) % 2 ^ 64 then
    ((alloc mem ((b.len + room) % 2 ^ 64)).copy b).put b.len
  else some b

/-- `cbuf_realloc_headroom`. -/
def reallocHeadroom (mem : Int → Byte) (room : Nat) : Option CbufPtrs :=
  let len := (b.len + room) % 2 ^ 64
  (((alloc mem len).put len).bind (·.pull room)).map (·.copy b)

end CbufPtrs

inductive CbufCall where
  | put (len : Nat)
  | pull (len : Nat)
  | push (len : Nat)
  | reallocTailroom (mem : Int → Byte) (room : Nat)
  | reallocHeadroom (mem : Int → Byte) (room : Nat)

def CbufCall.Moves : CbufCall → Prop
  | .reallocTailroom _ _ | .reallocHeadroom _ _ => True
  | _ => False

namespace CbufPtrs

def exec (b : CbufPtrs) : CbufCall → Option CbufPtrs
  | .put len => b.put len
  | .pull len => b.pull len
  | .push len => b.push len
  | .reallocTailroom mem room => b.reallocTailroom mem room
  | .reallocHeadroom mem room => b.reallocHeadroom mem room

/-- The calls whose assertions hold, on a buffer whose size does not wrap. -/
def runs : Machine CbufPtrs CbufCall where
  start b := ∃ mem len, len + 127 < 2 ^ 64 ∧ b = alloc mem len
  admits b call := (b.exec call).isSome
  exec b call := (b.exec call).getD b

structure Good (b : CbufPtrs) : Prop where
  start : cbufSz ≤ b.data
  data : b.data + b.len = b.tail
  room : b.tail ≤ b.endPtr.toNat

/-- Nothing is pulled that is not there and nothing is pushed into the header. -/
def Clean (b : CbufPtrs) : CbufCall → Prop
  | .pull len => len ≤ b.len
  | .push len => cbufSz ≤ b.data - len
  | .reallocHeadroom _ room => b.len + room < 2 ^ 64
  | _ => True

def bytes (b : CbufPtrs) : List Byte := (List.range b.len).map fun pos : Nat => b.mem (b.data + pos)

variable {b after : CbufPtrs}

theorem bytes_copy (same : b.len = old.len) : (b.copy old).bytes = old.bytes := by
  change (List.range b.len).map _ = _
  rw [same]
  apply List.map_congr_left
  intro pos inside
  simp [copy, List.mem_range.mp inside]

theorem Good.reallocTailroom (good : b.Good) (done : b.reallocTailroom block space = some after) :
    after.Good ∧ after.bytes = b.bytes := by
  obtain ⟨start, data, inside⟩ := good
  simp only [CbufPtrs.reallocTailroom] at done
  split at done
  · simp only [put, Option.ite_none_right_eq_some, Option.some.injEq] at done
    obtain ⟨fits, rfl⟩ := done
    have len : (0 + b.len) % 2 ^ 64 = b.len := by omega
    refine ⟨⟨le_rfl, ?_, fits⟩, @bytes_copy { alloc block _ with tail := _, len := _ } b len⟩
    simp [copy, alloc]
    omega
  · cases done
    exact ⟨⟨start, data, inside⟩, rfl⟩

theorem Good.reallocHeadroom (good : b.Good) (done : b.reallocHeadroom block space = some after) :
    (after.Good ↔ b.len + space < 2 ^ 64) ∧ (b.len + space < 2 ^ 64 → after.bytes = b.bytes) := by
  obtain ⟨start, data, inside⟩ := good
  simp only [CbufPtrs.reallocHeadroom, put, pull, Option.map_eq_some_iff, Option.bind_eq_some_iff,
    Option.ite_none_right_eq_some, Option.some.injEq] at done
  obtain ⟨_, ⟨_, ⟨fits, rfl⟩, shifted, rfl⟩, rfl⟩ := done
  refine ⟨⟨fun ⟨_, data, _⟩ => ?_, fun clean => ⟨?_, ?_, fits⟩⟩, fun clean => bytes_copy ?_⟩ <;>
    simp only [copy, alloc] at * <;> omega

theorem Good.exec_iff (good : b.Good) (done : b.exec call = some after) :
    after.Good ↔ b.Clean call := by
  obtain ⟨start, data, inside⟩ := id good
  cases call with
  | put len =>
    simp only [exec, put, Option.ite_none_right_eq_some, Option.some.injEq] at done
    obtain ⟨fits, rfl⟩ := done
    exact iff_of_true ⟨start, by dsimp only; omega, fits⟩ trivial
  | pull len =>
    simp only [exec, pull, Option.ite_none_right_eq_some, Option.some.injEq] at done
    obtain ⟨fits, rfl⟩ := done
    refine ⟨fun ⟨_, data, _⟩ => ?_, fun clean => ⟨?_, ?_, inside⟩⟩ <;> dsimp only [Clean]
      at * <;> omega
  | push len =>
    simp only [exec, push, Option.ite_none_right_eq_some, Option.some.injEq] at done
    obtain ⟨fits, rfl⟩ := done
    refine ⟨Good.start, fun clean => ⟨clean, ?_, inside⟩⟩
    dsimp only [Clean, cbufSz] at *
    omega
  | reallocTailroom => exact iff_of_true (good.reallocTailroom done).1 trivial
  | reallocHeadroom => exact (good.reallocHeadroom done).1

theorem Good.bytes_moved (good : b.Good) (clean : b.Clean call) (moves : call.Moves)
    (done : b.exec call = some after) : after.bytes = b.bytes := by
  cases call with
  | put | pull | push => exact moves.elim
  | reallocTailroom => exact (good.reallocTailroom done).2
  | reallocHeadroom => exact (good.reallocHeadroom done).2 clean

theorem good_of_reaches (reached : (runs.restrict Clean).Reaches b) : b.Good := by
  induction reached with
  | start initial =>
    obtain ⟨mem, len, small, rfl⟩ := initial
    refine ⟨le_rfl, rfl, ?_⟩
    simp [alloc, alignSz, cbufSz]
    omega
  | @step b call _ admitted ih =>
    obtain ⟨after, done⟩ := Option.isSome_iff_exists.mp admitted.1
    have next : runs.exec b call = after := by simp [runs, done]
    exact next ▸ (ih.exec_iff done).mpr admitted.2

/-- As long as the calls are clean the pointers are in order, and moving a buffer keeps its bytes.
-/
theorem cbuf_ordered (reached : (runs.restrict Clean).Reaches b) (done : b.exec call = some after) :
    b.Good ∧ (after.Good ↔ b.Clean call) ∧ (call.Moves → b.Clean call → after.bytes = b.bytes) := by
  have good := good_of_reaches reached
  exact ⟨good, good.exec_iff done, fun moves clean => good.bytes_moved clean moves done⟩

/-- Eight bytes are put, three are pulled, two of them pushed back, and the buffer is moved. -/
def movedBuf : CbufPtrs := runs.execAll (alloc (fun pos => .ofInt 8 pos) 8)
  [.put 8, .pull 3, .push 2, .reallocHeadroom (fun _ => 0) 4]

theorem cbuf_ordered_moved : (runs.restrict Clean).Reaches movedBuf ∧
    movedBuf.bytes = [65, 66, 67, 68, 69, 70, 71] ∧ movedBuf.data = cbufSz + 4 ∧
    ∃ after, movedBuf.exec (.reallocTailroom (fun _ => 0) 1000) = some after ∧ after.Good ∧
      after.bytes = movedBuf.bytes := by
  have reached : (runs.restrict Clean).Reaches movedBuf := by
    refine .execAll (.start ⟨_, 8, by decide, rfl⟩) ⟨⟨rfl, trivial⟩, ⟨rfl, ?_⟩, ⟨rfl, ?_⟩,
      ⟨rfl, ?_⟩, trivial⟩
    · change 3 ≤ 8
      decide
    · change (cbufSz : Int) ≤ cbufSz + 3 - 2
      decide
    · change 7 + 4 < 2 ^ 64
      decide
  have done : movedBuf.exec (.reallocTailroom (fun _ => 0) 1000) = some _ := rfl
  obtain ⟨-, ordered, moved⟩ := cbuf_ordered reached done
  exact ⟨reached, by decide, by decide, _, done, ordered.mpr trivial, moved trivial trivial⟩

/-- A push into the header, and a pull of more than there is. -/
theorem cbuf_disordered :
    ((alloc (fun _ => 0) 8).exec (.push 1)).map (·.data) = some (cbufSz - 1 : Int) ∧
    ((alloc (fun _ => 0) 8).exec (.pull 1)).map (fun b => (b.data, b.tail, b.len)) = some
    (65, 64, 2 ^ 64 - 1) := by
  decide

end CbufPtrs

end OpenMul
