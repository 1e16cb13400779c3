import Mathlib.Algebra.Order.Group.Nat
import Mathlib.Data.List.Perm.Subperm
import OpenMul.Lib.FloydWarshall

namespace OpenMul.Lib.FloydWarshall

open List

variable {Node : Type}

/-- The weight of the walk from `i` through the nodes listed to `j`; it is `⊤`
if a link is missing. -/
def walkWeight (link : Node → Node → ℕ∞) (i : Node) : List Node → Node → ℕ∞
  | [], j => link i j
  | via :: rest, j => link i via + walkWeight link via rest j

section Walk

variable {link : Node → Node → ℕ∞}

theorem walkWeight_append (i mid j : Node) (first second : List Node) :
    walkWeight link i (first ++ mid :: second) j =
      walkWeight link i first mid + walkWeight link mid second j := by
  induction first generalizing i with
  | nil => rfl
  | cons via rest ih => rw [cons_append, walkWeight, walkWeight, ih, add_assoc]

theorem least_le_walkWeight (bound : ∀ i j, least ≤ link i j) (i j : Node) (walk : List Node) :
    least ≤ walkWeight link i walk j := by
  cases walk with
  | nil => exact bound i j
  | cons via rest => exact (bound i via).trans le_self_add

/-- A closed part of a walk can be left out, so no node is needed twice. -/
theorem exists_nodup_walk [DecidableEq Node] (i j : Node) (walk : List Node) :
    ∃ short : List Node, short.Nodup ∧ short ⊆ walk ∧
      walkWeight link i short j ≤ walkWeight link i walk j := by
  induction walk generalizing i with
  | nil => exact ⟨[], nodup_nil, List.Subset.refl [], le_rfl⟩
  | cons via rest ih =>
    obtain ⟨short, distinct, subset, less⟩ := ih via
    by_cases again : via ∈ short
    · obtain ⟨before, after, split⟩ := append_of_mem again
      subst split
      have suffix : (via :: after).Sublist (before ++ via :: after) := sublist_append_right ..
      refine ⟨via :: after, distinct.sublist suffix, ?_, ?_⟩
      · intro node member
        rcases mem_cons.mp member with rfl | later
        · exact mem_cons_self
        · exact mem_cons_of_mem _ (subset (suffix.subset (mem_cons_of_mem _ later)))
      · have tail :
            walkWeight link via after j ≤ walkWeight link via (before ++ via :: after) j := by
          rw [walkWeight_append]
          exact le_add_self
        exact add_le_add le_rfl (tail.trans less)
    · refine ⟨via :: short, nodup_cons.mpr ⟨again, distinct⟩, ?_, add_le_add le_rfl less⟩
      exact cons_subset_cons _ subset

/-- A walk that exists weighs at most the heaviest link at each of its steps. -/
theorem walkWeight_le {heaviest : Nat} (bound : ∀ i j, link i j ≠ ⊤ → link i j ≤ heaviest)
    (i j : Node) (walk : List Node) (finite : walkWeight link i walk j ≠ ⊤) :
    walkWeight link i walk j ≤ ((heaviest * (walk.length + 1) : Nat) : ℕ∞) := by
  induction walk generalizing i with
  | nil => simpa [walkWeight] using bound i j finite
  | cons via rest ih =>
    rw [walkWeight, ne_eq, ENat.add_eq_top, not_or] at finite
    have total : heaviest * ((via :: rest).length + 1) =
        heaviest + heaviest * (rest.length + 1) := by
      rw [length_cons, Nat.mul_succ, Nat.add_comm]
    rw [total]
    exact add_le_add (bound i via finite.1) (ih via finite.2)

end Walk

section Relaxed

variable [DecidableEq Node] {link : Node → Node → ℕ∞}

/-- How the cells relate to the links they started from, once the nodes of
`seen` were offered. -/
structure Exact (link : Node → Node → ℕ∞) (cells : Node → Node → Cell Node) (seen : List Node) :
    Prop where
  below : ∀ i j, (cells i j).weight ≤ link i j
  walk : ∀ i j, ∃ walk : List Node, walk ⊆ seen ∧ (cells i j).weight = walkWeight link i walk j
  diagonal : ∀ i, (cells i i).weight = link i i
  /-- A weight without a transit node is that of the link. -/
  direct : ∀ i j, (cells i j).transit = [] → (cells i j).weight = link i j

omit [DecidableEq Node] in
theorem Exact.start (same : ∀ i j, (cells i j).weight = link i j) : Exact link cells [] where
  below i j := (same i j).le
  walk i j := ⟨[], List.Subset.refl [], same i j⟩
  diagonal i := same i i
  direct i j _ := same i j

theorem Exact.step (exact : Exact link cells seen)
    (cap : Nat) (mid : Node) : Exact link (relax cap cells mid) (mid :: seen) where
  below i j := (weight_relax_le cap mid cells i j).trans (exact.below i j)
  walk i j := by
    obtain ⟨old, oldSeen, oldWeight⟩ := exact.walk i j
    have kept : ∃ walk : List Node, walk ⊆ mid :: seen ∧
        (cells i j).weight = walkWeight link i walk j :=
      ⟨old, subset_cons_of_subset mid oldSeen, oldWeight⟩
    rw [weight_relax]
    split
    · exact kept
    rcases min_choice (cells i j).weight ((cells i mid).weight + (cells mid j).weight) with
      same | detour
    · rw [same]
      exact kept
    · obtain ⟨first, firstSeen, firstWeight⟩ := exact.walk i mid
      obtain ⟨second, secondSeen, secondWeight⟩ := exact.walk mid j
      refine ⟨first ++ mid :: second, ?_, ?_⟩
      · apply append_subset.mpr
        exact ⟨subset_cons_of_subset mid firstSeen, cons_subset_cons mid secondSeen⟩
      · rw [detour, firstWeight, secondWeight, walkWeight_append]
  diagonal i := by
    rw [weight_relax, if_pos rfl]
    exact exact.diagonal i
  direct i j empty := by
    rcases relax_cases cap mid cells i j with ⟨same, -⟩ | ⟨-, -, new⟩ | ⟨-, new⟩
    · rw [same] at empty ⊢
      exact exact.direct i j empty
    · rw [new] at empty
      cases empty
    · rw [new] at empty
      exact absurd empty (append_ne_nil_of_right_ne_nil _ (cons_ne_nil mid []))

variable {cells : Node → Node → Cell Node} {seen : List Node}

theorem Exact.foldl (exact : Exact link cells seen) (cap : Nat) (mids : List Node) :
    Exact link (mids.foldl (relax cap) cells) (mids.reverse ++ seen) := by
  induction mids generalizing cells seen with
  | nil => exact exact
  | cons mid rest ih => simpa using ih (exact.step cap mid)

omit [DecidableEq Node] in
/-- No walk through offered nodes is lighter than the cell. -/
theorem Exact.le_walk (exact : Exact link cells seen) (relaxed : Relaxed cells seen)
    (different : i ≠ j) (walk : List Node) (offered : walk ⊆ seen) :
    (cells i j).weight ≤ walkWeight link i walk j := by
  induction walk generalizing i with
  | nil => exact exact.below i j
  | cons via rest ih =>
    obtain ⟨here, later⟩ := cons_subset.mp offered
    by_cases last : via = j
    · subst via
      exact (exact.below i j).trans le_self_add
    · calc (cells i j).weight ≤ (cells i via).weight + (cells via j).weight :=
            relaxed.triangle via here i j different
        _ ≤ link i via + walkWeight link via rest j :=
          add_le_add (exact.below i via) (ih last later)

/-- A weight is that of a walk without repetition. -/
theorem Exact.le_heaviest (exact : Exact link cells seen) (relaxed : Relaxed cells seen)
    {heaviest : Nat} (bound : ∀ i j, link i j ≠ ⊤ → link i j ≤ heaviest) (i j : Node)
    (finite : (cells i j).weight ≠ ⊤) :
    (cells i j).weight ≤ ((heaviest * (seen.length + 1) : Nat) : ℕ∞) := by
  by_cases same : i = j
  · subst same
    rw [exact.diagonal] at finite ⊢
    refine (bound i i finite).trans ?_
    exact Nat.cast_le.mpr (Nat.le_mul_of_pos_right heaviest (Nat.succ_pos _))
  · obtain ⟨walk, offered, weight⟩ := exact.walk i j
    obtain ⟨short, distinct, subset, less⟩ := @exists_nodup_walk _ link _ i j walk
    have exists_short : walkWeight link i short j ≠ ⊤ := by
      rw [weight] at finite
      exact ne_top_of_le_ne_top finite less
    have shortSeen : short ⊆ seen := List.Subset.trans subset offered
    have few : short.length ≤ seen.length := (subperm_of_subset distinct shortSeen).length_le
    calc (cells i j).weight ≤ walkWeight link i short j :=
      exact.le_walk relaxed same short shortSeen
      _ ≤ ((heaviest * (short.length + 1) : Nat) : ℕ∞) := walkWeight_le bound i j short exists_short
      _ ≤ _ := Nat.cast_le.mpr (Nat.mul_le_mul_left heaviest (Nat.succ_le_succ few))

end Relaxed

end OpenMul.Lib.FloydWarshall
