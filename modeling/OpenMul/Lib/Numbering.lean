import Mathlib.Logic.Function.Basic
import Mathlib.Data.List.Nodup

namespace OpenMul.Lib

open List

/-- Give the kept members the numbers from `next` on. -/
def number (keep : Nat → Bool) :
    List Nat → Nat → (Nat → Nat) × (Nat → Nat) → (Nat → Nat) × (Nat → Nat)
  | [], _, maps => maps
  | id :: rest, next, (rank, slot) =>
    if keep id then
      number keep rest (next + 1) (Function.update rank id next, Function.update slot next id)
    else number keep rest next (rank, slot)

/-- The slots hold the members in order, and the ranks are their numbers. -/
structure Numbers (members : List Nat) (rank slot : Nat → Nat) : Prop where
  slots : (List.range members.length).map slot = members
  ranks : ∀ place < members.length, rank (slot place) = place

theorem numbers_iff : Numbers members rank slot ↔
      ∀ place id, members[place]? = some id → slot place = id ∧ rank id = place := by
  constructor
  · intro numbers place id found
    have inside := (List.getElem?_eq_some_iff.mp found).1
    have same := congrArg (·[place]?) numbers.slots
    simp only [getElem?_map, getElem?_range inside, found, Option.map_some,
      Option.some_inj] at same
    exact ⟨same, same ▸ numbers.ranks place inside⟩
  · intro each
    constructor
    · apply ext_getElem?
      intro place
      by_cases inside : place < members.length
      · have found := getElem?_eq_getElem inside
        simp [getElem?_map, getElem?_range inside, Option.map_some, found,
          (each place _ found).1]
      · rw [getElem?_eq_none (by simpa using inside), getElem?_eq_none (by simpa using inside)]
    · intro place inside
      obtain ⟨slot, rank⟩ := each place _ (getElem?_eq_getElem inside)
      rw [slot, rank]

/-- Tables that number some members do not number one more that has no rank yet. -/
theorem Numbers.not_extended {rank slot : Nat → Nat}
    (numbers : Numbers members rank slot) (some : members ≠ []) {id : Nat} (fresh : id ∉ members)
    (unranked : rank id = 0) (added : id ∈ more) : ¬Numbers more rank slot := by
  intro extended
  obtain ⟨place, found⟩ := mem_iff_getElem?.mp added
  obtain ⟨placed, ranked⟩ := numbers_iff.mp extended place id found
  rw [unranked] at ranked
  cases members with
  | nil => exact some rfl
  | cons first rest =>
    have head := (numbers_iff.mp numbers 0 first rfl).1
    rw [ranked, placed] at head
    exact fresh (head ▸ mem_cons_self)

section

variable {keep : Nat → Bool} {ids : List Nat} {next : Nat} {maps : (Nat → Nat) × (Nat → Nat)}

theorem number_slot_outside (outside : place < next ∨ next + (ids.filter keep).length ≤ place) :
    (number keep ids next maps).2 place = maps.2 place := by
  induction ids generalizing next maps with
  | nil => rfl
  | cons id rest ih =>
    rw [number]
    cases kept : keep id with
    | false =>
      rw [filter_cons_of_neg (by simp [kept])] at outside
      exact ih outside
    | true =>
      rw [filter_cons_of_pos kept, length_cons] at outside
      rw [if_pos rfl, ih (by omega)]
      exact Function.update_of_ne (by omega) _ _

theorem number_rank_outside {id : Nat} (outside : id ∉ ids.filter keep) :
    (number keep ids next maps).1 id = maps.1 id := by
  induction ids generalizing next maps with
  | nil => rfl
  | cons head rest ih =>
    rw [number]
    cases kept : keep head with
    | false =>
      rw [filter_cons_of_neg (by simp [kept])] at outside
      exact ih outside
    | true =>
      rw [filter_cons_of_pos kept, mem_cons, not_or] at outside
      rw [if_pos rfl, ih outside.2]
      exact Function.update_of_ne outside.1 _ _

theorem number_inside (nodup : ids.Nodup) {place id : Nat}
    (found : (ids.filter keep)[place]? = some id) :
    (number keep ids next maps).2 (next + place) = id ∧
      (number keep ids next maps).1 id = next + place := by
  induction ids generalizing next maps place with
  | nil => simp at found
  | cons head rest ih =>
    obtain ⟨fresh, later⟩ := nodup_cons.mp nodup
    rw [number]
    cases kept : keep head with
    | false =>
      rw [filter_cons_of_neg (by simp [kept])] at found
      exact ih later found
    | true =>
      rw [filter_cons_of_pos kept] at found
      rw [if_pos rfl]
      cases place with
      | zero =>
        have same : head = id := Option.some.inj found
        subst same
        have absent : head ∉ rest.filter keep := fun member => fresh (mem_filter.mp member).1
        rw [number_slot_outside (by omega), number_rank_outside absent]
        simp
      | succ place =>
        have shifted :=
          @ih (next + 1) (Function.update maps.1 head next, Function.update maps.2 next head)
          later place found
        rwa [show next + (place + 1) = next + 1 + place by omega]

theorem number_numbers (nodup : ids.Nodup) :
    Numbers (ids.filter keep) (number keep ids 0 maps).1 (number keep ids 0 maps).2 := by
  apply numbers_iff.mpr
  intro place id found
  have placed := @number_inside keep ids 0 maps nodup place id found
  rwa [Nat.zero_add] at placed

end

end OpenMul.Lib
