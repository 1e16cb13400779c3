import Mathlib.Data.List.Basic
import Mathlib.Data.List.TakeDrop

namespace OpenMul.Lib

universe u

structure Slot where
  bkt : Nat
  idx : Nat
deriving DecidableEq, Repr

abbrev BucketChain (α : Type u) (width : Nat) := List (Vector α width)

/-- Place of a slot in the flat list. -/
def Slot.place (slot : Slot) (width : Nat) : Nat :=
  slot.bkt * width + slot.idx

namespace BucketChain

variable {α : Type u} {width : Nat}

def slots (chain : BucketChain α width) : List α :=
  chain.flatMap Vector.toList

def slotAt (chain : BucketChain α width) (slot : Slot) : Option α :=
  (chain[slot.bkt]?).bind (·[slot.idx]?)

def setSlot (chain : BucketChain α width) (slot : Slot) (value : α) : BucketChain α width :=
  chain.modify slot.bkt (·.setIfInBounds slot.idx value)

/-- The slots with their addresses, in the order of a walk from the first bucket. -/
def walk (chain : BucketChain α width) : List (Slot × α) :=
  chain.slots.zipIdx.map fun (value, place) => (⟨place / width, place % width⟩, value)

@[simp] theorem slots_nil : slots ([] : BucketChain α width) = [] := rfl

@[simp] theorem slots_cons (bkt : Vector α width) (chain : BucketChain α width) :
    slots (bkt :: chain) = bkt.toList ++ slots chain := rfl

@[simp] theorem slots_append (front back : BucketChain α width) :
    slots (front ++ back) = slots front ++ slots back :=
  List.flatMap_append

theorem length_slots (chain : BucketChain α width) :
    (slots chain).length = chain.length * width := by
  induction chain with
  | nil => simp
  | cons bkt rest ih => simp [ih, Nat.succ_mul, Nat.add_comm]

@[simp] theorem length_setSlot (chain : BucketChain α width) (slot : Slot) (value : α) :
    (setSlot chain slot value).length = chain.length := by
  simp [setSlot]

private theorem place_succ (bkt : Vector α width) (number idx : Nat) :
    Slot.place ⟨number + 1, idx⟩ width = bkt.toList.length + Slot.place ⟨number, idx⟩ width := by
  simp only [Slot.place, Nat.succ_mul, Vector.length_toList]
  omega

variable (chain : BucketChain α width)

theorem slotAt_eq (inside : slot.idx < width) :
    slotAt chain slot = (slots chain)[slot.place width]? := by
  obtain ⟨number, idx⟩ := slot
  induction chain generalizing number with
  | nil => simp [slotAt]
  | cons bkt rest ih =>
    cases number with
    | zero =>
      have early : idx < bkt.toList.length := by simpa using inside
      simp [slotAt, Slot.place, List.getElem?_append_left early]
    | succ number =>
      have := ih number inside
      rw [place_succ bkt, slots_cons, List.getElem?_append_right (Nat.le_add_right _ _),
        Nat.add_sub_cancel_left, ← this]
      simp [slotAt]

theorem slots_setSlot (inside : slot.idx < width) (value : α) :
    slots (setSlot chain slot value) = (slots chain).set (slot.place width) value := by
  obtain ⟨number, idx⟩ := slot
  induction chain generalizing number with
  | nil => simp [setSlot]
  | cons bkt rest ih =>
    cases number with
    | zero =>
      have early : idx < bkt.toList.length := by simpa using inside
      simp [setSlot, Slot.place, List.set_append_left _ _ early, Vector.toList_setIfInBounds]
    | succ number =>
      have := ih number inside
      rw [place_succ bkt, slots_cons, List.set_append_right _ _ (Nat.le_add_right _ _),
        Nat.add_sub_cancel_left, ← this]
      simp [setSlot]

theorem slots_eraseIdx (number : Nat) : slots (chain.eraseIdx number) =
      (slots chain).take (number * width) ++ (slots chain).drop ((number + 1) * width) := by
  induction chain generalizing number with
  | nil => simp
  | cons bkt rest ih =>
    cases number with
    | zero => simp
    | succ number =>
      have shift : ∀ count, (count + 1) * width = bkt.toList.length + count * width := by
        intro count
        simp [Nat.succ_mul, Nat.add_comm]
      rw [List.eraseIdx_cons_succ, slots_cons, slots_cons, shift (number + 1), shift number,
        List.take_length_add_append, List.drop_length_add_append, ih, shift number,
        List.append_assoc]

theorem map_snd_walk : chain.walk.map Prod.snd = chain.slots := by
  simp [walk, Function.comp_def]

/-- Writing to a slot of the walk replaces the value at that point of the walk. -/
theorem walk_split {chain : BucketChain α width} (positive : 0 < width)
    {before after : List (Slot × α)} (split : chain.walk = before ++ (slot, value) :: after) :
    chain.slots = before.map Prod.snd ++ value :: after.map Prod.snd ∧
      chain.slotAt slot = some value ∧
    ∀ written,
      (chain.setSlot slot written).slots = before.map Prod.snd ++ written :: after.map Prod.snd ∧
      (chain.setSlot slot written).slotAt slot = some written := by
  have parts : chain.slots = before.map Prod.snd ++ value :: after.map Prod.snd := by
    rw [← map_snd_walk, split]
    simp
  have here : chain.walk[before.length]? = some (slot, value) := by simp [split]
  have address : slot = ⟨before.length / width, before.length % width⟩ := by
    simp only [walk, List.getElem?_map, Option.map_eq_some_iff, List.getElem?_zipIdx] at here
    obtain ⟨_, ⟨_, -, rfl⟩, same⟩ := here
    simpa using (Prod.ext_iff.mp same).1.symm
  have inside : slot.idx < width := by
    rw [address]
    exact Nat.mod_lt _ positive
  have place : slot.place width = (before.map Prod.snd).length := by
    rw [address, List.length_map]
    exact Nat.div_add_mod' ..
  refine ⟨parts, ?_, fun written => ?_⟩
  · rw [slotAt_eq _ inside, place, parts]
    simp
  · have replaced : (chain.setSlot slot written).slots =
        before.map Prod.snd ++ written :: after.map Prod.snd := by
      rw [slots_setSlot _ inside, place, parts]
      simp
    rw [slotAt_eq _ inside, place, replaced]
    simp

end BucketChain

/-- Slots while live values are moved to the front in place: the values kept so
far, the slots freed by the walk, and the slots not looked at yet. -/
structure Sifted {α : Type u} (live : α → Bool) (slots front blanks rest : List α) : Prop where
  parts : slots = front ++ blanks ++ rest
  kept : ∀ value ∈ front, live value = true
  free : ∀ value ∈ blanks, live value = false

namespace Sifted

variable {α : Type u} {live : α → Bool} {slots front blanks rest : List α} {blank value dead : α}

theorem current (sifted : Sifted live slots front blanks (value :: rest)) :
    slots[front.length + blanks.length]? = some value := by
  rw [sifted.parts, ← List.length_append]
  simp

theorem firstFree (sifted : Sifted live slots front blanks rest) (freed : blanks ≠ []) :
    ∃ blank, slots[front.length]? = some blank ∧ live blank = false := by
  obtain ⟨blank, more, rfl⟩ := List.exists_cons_of_ne_nil freed
  exact ⟨blank, by simp [sifted.parts], sifted.free blank List.mem_cons_self⟩

theorem filter (sifted : Sifted live slots front blanks rest) :
    slots.filter live = front ++ rest.filter live := by
  have frontKept : front.filter live = front := List.filter_eq_self.mpr sifted.kept
  have blanksGone : blanks.filter live = [] := by
    apply List.filter_eq_nil_iff.mpr
    intro value member
    simp [sifted.free value member]
  rw [sifted.parts, List.filter_append, List.filter_append, frontKept, blanksGone, List.append_nil]

/-- The current value dies where it is. -/
theorem expire (sifted : Sifted live slots front blanks (value :: rest))
    (isDead : live dead = false) :
    Sifted live (slots.set (front.length + blanks.length) dead) front (blanks ++ [dead]) rest where
  parts := by
    rw [sifted.parts, ← List.length_append]
    simp
  kept := sifted.kept
  free := by
    intro other member
    rcases List.mem_append.mp member with earlier | last
    · exact sifted.free other earlier
    · rw [List.mem_singleton.mp last, isDead]

private theorem kept_snoc (sifted : Sifted live slots front blanks rest)
    (isLive : live value = true) : ∀ other ∈ front ++ [value], live other = true := by
  intro other member
  rcases List.mem_append.mp member with earlier | last
  · exact sifted.kept other earlier
  · rw [List.mem_singleton.mp last, isLive]

/-- With no freed slot the current value stays. -/
theorem stay (sifted : Sifted live slots front [] (value :: rest)) (isLive : live value = true) :
    Sifted live slots (front ++ [value]) [] rest where
  parts := by simp [sifted.parts]
  kept := sifted.kept_snoc isLive
  free := by simp

/-- Otherwise it moves to the first freed slot and its own slot is freed. -/
theorem move (sifted : Sifted live slots front (blank :: blanks) (value :: rest))
    (isLive : live value = true) (isDead : live dead = false) :
    Sifted live ((slots.set front.length value).set (front.length + (blank :: blanks).length) dead)
      (front ++ [value]) (blanks ++ [dead]) rest where
  parts := by simp [sifted.parts]
  kept := sifted.kept_snoc isLive
  free := by
    intro other member
    rcases List.mem_append.mp member with earlier | last
    · exact sifted.free other (List.mem_cons_of_mem blank earlier)
    · rw [List.mem_singleton.mp last, isDead]

end Sifted

end OpenMul.Lib
