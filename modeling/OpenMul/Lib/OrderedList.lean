import Mathlib.Data.List.Perm.Basic
import Mathlib.Order.Lattice

namespace OpenMul.Lib

open List

universe u v

variable {Item : Type u} {Key : Type v}

/-- Insert before the node at a remembered position; append without one. -/
def insertBefore (list : List Item) (hint : Option Nat) (item : Item) : List Item :=
  match hint with
  | some index => list.take index ++ item :: list.drop index
  | none => list ++ [item]

variable (list : List Item) (hint : Option Nat) (item : Item)

theorem insertBefore_perm : (insertBefore list hint item).Perm (item :: list) := by
  cases hint with
  | none => exact perm_append_singleton item list
  | some index =>
    have moved := @perm_middle _ item (list.take index) (list.drop index)
    rwa [take_append_drop] at moved

theorem insertBefore_split :
    ∃ before after, list = before ++ after ∧
      insertBefore list hint item = before ++ item :: after := by
  cases hint with
  | none => exact ⟨list, [], by simp, rfl⟩
  | some index => exact ⟨list.take index, list.drop index, (take_append_drop index list).symm, rfl⟩

theorem mem_insertBefore {list : List Item} {hint : Option Nat} {item other : Item} :
    other ∈ insertBefore list hint item ↔ other = item ∨ other ∈ list := by
  rw [(insertBefore_perm list hint item).mem_iff, mem_cons]

theorem map_insertBefore (f : Item → Key) (list : List Item) (hint : Option Nat) (item : Item) :
    (insertBefore list hint item).map f = insertBefore (list.map f) hint (f item) := by
  cases hint <;> simp [insertBefore, map_take, map_drop]

section Sorted

variable [LinearOrder Key]

/-- The first node whose key does not exceed the bound. -/
def firstAtMost (key : Item → Key) (bound : Key) (list : List Item) : Option Nat :=
  list.findIdx? fun item => decide (key item ≤ bound)

variable (key : Item → Key)

theorem insertBefore_firstAtMost_cons (bound : Key) (head : Item)
    (rest : List Item) (item : Item) :
    insertBefore (head :: rest) (firstAtMost key bound (head :: rest)) item =
      if key head ≤ bound then item :: head :: rest
      else head :: insertBefore rest (firstAtMost key bound rest) item := by
  by_cases low : key head ≤ bound
  · simp [firstAtMost, insertBefore, findIdx?_cons, low]
  · cases found : rest.findIdx? fun item => decide (key item ≤ bound) <;>
      simp [firstAtMost, insertBefore, findIdx?_cons, low, found]

/-- Inserting an item before the first node at most its key keeps the order. -/
theorem sorted_insertBefore_firstAtMost (item : Item) (list : List Item)
    (sorted : list.Pairwise fun earlier later => key later ≤ key earlier) :
    (insertBefore list (firstAtMost key (key item) list) item).Pairwise
      fun earlier later => key later ≤ key earlier := by
  induction list with
  | nil => simp [insertBefore, firstAtMost]
  | cons head rest ih =>
    obtain ⟨bounds, sortedRest⟩ := pairwise_cons.mp sorted
    rw [insertBefore_firstAtMost_cons]
    split
    · rename_i low
      refine pairwise_cons.mpr ⟨?_, sorted⟩
      intro other member
      rcases mem_cons.mp member with same | later
      · exact same ▸ low
      · exact le_trans (bounds other later) low
    · rename_i high
      refine pairwise_cons.mpr ⟨?_, ih sortedRest⟩
      intro other member
      rcases mem_insertBefore.mp member with same | later
      · exact same ▸ le_of_not_ge high
      · exact bounds other later

/-- In such a list the first item to pass a test has the greatest key of all
that pass it. -/
theorem le_of_find?_sorted (test : Item → Bool) (list : List Item)
    (sorted : list.Pairwise fun earlier later => key later ≤ key earlier)
    (first : list.find? test = some found) (member : other ∈ list) (passes : test other = true) :
    key other ≤ key found := by
  induction list with
  | nil => cases member
  | cons head rest ih =>
    obtain ⟨bounds, sortedRest⟩ := pairwise_cons.mp sorted
    by_cases here : test head = true
    · rw [find?_cons_of_pos here] at first
      cases first
      rcases mem_cons.mp member with same | later
      · exact le_of_eq (congrArg key same)
      · exact bounds other later
    · rw [find?_cons_of_neg here] at first
      rcases mem_cons.mp member with same | later
      · exact absurd (same ▸ passes) here
      · exact ih sortedRest first later

end Sorted

end OpenMul.Lib
