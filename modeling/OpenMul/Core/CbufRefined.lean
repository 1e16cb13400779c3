import OpenMul.Core.CbufPtrs

namespace OpenMul.CbufPtrs

open Cbuf List

/-- A read into the tail and `cbuf_put` of what it returned. -/
def recv (p : CbufPtrs) (chunk : List Byte) : Option CbufPtrs :=
  put
    { p with
      mem := fun pos =>
        (if p.tail ≤ pos then chunk[(pos - p.tail).toNat]? else none).getD (p.mem pos) }
    chunk.length

/-- `b->data -= rd_sz` and `b->tail -= rd_sz`. -/
def rewind (p : CbufPtrs) (size : Nat) : CbufPtrs :=
  { p with data := p.data - size, tail := p.tail - size }

/-- The pointers are at the positions and the bytes written are in memory. -/
structure Refines (p : CbufPtrs) (b : Cbuf) : Prop where
  data : p.data = cbufSz + b.data
  tail : p.tail = cbufSz + (b.data + b.len)
  len : p.len = b.len
  endPtr : p.endPtr.toNat = cbufSz + b.cap
  mem : ∀ pos : Nat, pos < b.data + b.len → b.mem[pos]? = some (p.mem (cbufSz + pos))

theorem refines_alloc (mem : Int → Byte) (small : size + 127 < 2 ^ 64) :
    (alloc mem size).Refines (.alloc size) := by
  refine ⟨rfl, rfl, rfl, ?_, nofun⟩
  simp only [alloc, Cbuf.alloc, alignSz, cbufSz, BitVec.toNat_ofNat]
  omega

section

variable {p : CbufPtrs} {b : Cbuf} (refines : p.Refines b)
include refines

theorem Refines.bytes : p.bytes = b.bytes := by
  apply ext_getElem?
  intro pos
  rw [CbufPtrs.bytes, Cbuf.bytes, getElem?_map, getElem?_take, getElem?_drop, refines.len]
  split
  · rename_i inside
    rw [refines.mem _ (Nat.add_lt_add_left inside _), getElem?_range inside, refines.data]
    simp [add_assoc]
  · simp_all

theorem Refines.recv (chunk : List Byte) : Option.Rel Refines (p.recv chunk) (b.put chunk) := by
  obtain ⟨data, tail, len, last, mem⟩ := refines
  rw [CbufPtrs.recv, put, Cbuf.put]
  by_cases room : b.data + b.len + chunk.length ≤ b.cap
  · rw [if_pos (by simp only; omega), dif_pos room]
    have start : (b.mem.take (b.data + b.len)).length = b.data + b.len :=
      length_take_of_le b.written
    refine .some ⟨data, ?_, ?_, last, fun pos inside => ?_⟩ <;> dsimp only at *
    · omega
    · omega
    rw [append_assoc]
    by_cases old : pos < b.data + b.len
    · rw [getElem?_append_left (start.symm ▸ old), getElem?_take_of_lt old, mem pos old,
        if_neg (by omega)]
      rfl
    · have index : ((cbufSz : Int) + pos - p.tail).toNat = pos - (b.data + b.len) := by omega
      rw [getElem?_append_right (by omega), start, getElem?_append_left (by omega),
        if_pos (by omega), index, getElem?_eq_getElem (by omega)]
      rfl
  · rw [if_neg (by simp only; omega), dif_neg room]
    exact .none

theorem Refines.pull (enough : size ≤ b.len) :
    Option.Rel Refines (p.pull size) (b.pull size enough) := by
  have inside := b.le_cap
  obtain ⟨data, tail, len, last, mem⟩ := refines
  rw [CbufPtrs.pull, if_pos (by omega), Cbuf.pull, if_pos (by omega)]
  refine .some ⟨?_, ?_, ?_, last, fun pos inside => mem pos ?_⟩ <;> dsimp only at * <;> omega

theorem Refines.reallocTailroom (block : Int → Byte) (small : b.len + room + 127 < 2 ^ 64) :
    Option.Rel Refines (p.reallocTailroom block room) (some (b.reallocTailroom room)) := by
  have short : (p.endPtr.toNat - p.tail) % 2 ^ 64 = b.tailroom := by
    have inside := b.le_cap
    have bounded := p.endPtr.isLt
    rw [refines.endPtr] at bounded
    rw [refines.tail, refines.endPtr, Cbuf.tailroom]
    omega
  rw [CbufPtrs.reallocTailroom, Cbuf.reallocTailroom, short]
  by_cases more : room > b.tailroom
  · have fresh := (refines_alloc block small).endPtr
    rw [if_pos (Int.ofNat_lt.mpr more), if_pos more, refines.len, Nat.mod_eq_of_lt (by omega), put,
      if_pos]
    · refine .some ⟨rfl, ?_, ?_, fresh, fun pos inside => ?_⟩
      · simp [copy, alloc]
      · simp [copy, alloc]
        omega
      · have inside : pos < p.len := by simpa [refines.len] using inside
        simp [← refines.bytes, CbufPtrs.bytes, copy, alloc, inside]
    · change (cbufSz + b.len : Int) ≤ (alloc block (b.len + room)).endPtr.toNat
      rw [fresh]
      simp only [Cbuf.alloc, alignSz, cbufSz]
      omega
  · rw [if_neg (mt Int.ofNat_lt.mp more), if_neg more]
    exact .some refines

theorem Refines.rewind {size : Nat} (enough : size ≤ b.data) :
    (p.rewind size).Refines (b.rewind size) := by
  obtain ⟨data, tail, len, last, mem⟩ := refines
  refine ⟨?_, ?_, len, last, fun pos inside => mem pos ?_⟩ <;>
    dsimp only [CbufPtrs.rewind, Cbuf.rewind] at * <;> omega

end

/-- What the read loops do with the pointers is what their model does with the positions. -/
theorem cbuf_refined {p : CbufPtrs} {b : Cbuf} (refines : p.Refines b) : p.bytes = b.bytes ∧
    (∀ chunk, Option.Rel Refines (p.recv chunk) (b.put chunk)) ∧
    (∀ size enough, Option.Rel Refines (p.pull size) (b.pull size enough)) ∧
    (∀ block room, b.len + room + 127 < 2 ^ 64 →
      Option.Rel Refines (p.reallocTailroom block room) (some (b.reallocTailroom room))) ∧
    ∀ size ≤ b.data, (p.rewind size).Refines (b.rewind size) :=
  ⟨refines.bytes, refines.recv, fun _ => refines.pull, fun block _ => refines.reallocTailroom block,
    fun _ => refines.rewind⟩

theorem cbuf_refined_fresh :
    Option.Rel Refines ((alloc (fun _ => 0) 8).recv [1, 2]) ((Cbuf.alloc 8).put [1, 2]) :=
  (cbuf_refined (refines_alloc _ (by decide))).2.1 [1, 2]

end OpenMul.CbufPtrs
