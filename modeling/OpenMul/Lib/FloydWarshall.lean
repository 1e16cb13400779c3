import Mathlib.Data.ENat.Lattice
import Mathlib.Data.List.Induction
import Mathlib.Logic.Function.Basic

namespace OpenMul.Lib.FloydWarshall

variable {Node : Type} [DecidableEq Node]

/-- What is known about one pair: the weight of the best path so far, and the
nodes it was found to pass through. -/
structure Cell (Node : Type) where
  weight : ℕ∞
  transit : List Node

/-- Offer the detour through `mid` to one pair. At most `cap` equal detours are
remembered; a better one forgets them all. -/
def relaxCell (cap : Nat) (mid : Node) (cells : Node → Node → Cell Node) (i j : Node) : Cell Node :=
  let detour := (cells i mid).weight + (cells mid j).weight
  if i = j then cells i j
  else if detour < (cells i j).weight then ⟨detour, [mid]⟩
  else if detour = (cells i j).weight ∧ detour ≠ ⊤ ∧ mid ≠ i ∧ mid ≠ j ∧
      (cells i j).transit.length < cap then
    { cells i j with transit := (cells i j).transit ++ [mid] }
  else cells i j

def relax (cap : Nat) (cells : Node → Node → Cell Node) (mid : Node) : Node → Node → Cell Node :=
  relaxCell cap mid cells

section Cell

variable (cap : Nat) (mid : Node) (cells : Node → Node → Cell Node)

theorem relax_cases (i j : Node) : relax cap cells mid i j = cells i j ∧
        (i ≠ j → (cells i j).weight ≤ (cells i mid).weight + (cells mid j).weight) ∨
      i ≠ j ∧ (cells i mid).weight + (cells mid j).weight < (cells i j).weight ∧
        relax cap cells mid i j = ⟨(cells i mid).weight + (cells mid j).weight, [mid]⟩ ∨
      ((cells i mid).weight + (cells mid j).weight = (cells i j).weight ∧ (cells i j).weight ≠ ⊤ ∧
          mid ≠ i ∧ mid ≠ j ∧ (cells i j).transit.length < cap) ∧
        relax cap cells mid i j = { cells i j with transit := (cells i j).transit ++ [mid] } := by
  unfold relax relaxCell
  dsimp only
  split
  · rename_i same
    exact .inl ⟨rfl, fun different => absurd same different⟩
  rename_i different
  split
  · rename_i less
    exact .inr (.inl ⟨different, less, rfl⟩)
  rename_i more
  split
  · rename_i equal
    obtain ⟨sum, finite, rest⟩ := equal
    exact .inr (.inr ⟨⟨sum, sum ▸ finite, rest⟩, rfl⟩)
  · exact .inl ⟨rfl, fun _ => not_lt.mp more⟩

theorem weight_relax (i j : Node) : (relax cap cells mid i j).weight =
      if i = j then (cells i j).weight
      else min (cells i j).weight ((cells i mid).weight + (cells mid j).weight) := by
  rcases relax_cases cap mid cells i j with ⟨same, kept⟩ | ⟨different, less, new⟩ | ⟨equal, new⟩
  · rw [same]
    split
    · rfl
    · rename_i different
      exact (min_eq_left (kept different)).symm
  · rw [new, if_neg different]
    exact (min_eq_right less.le).symm
  · rw [new, equal.1, min_self, ite_self]

theorem weight_relax_le (i j : Node) : (relax cap cells mid i j).weight ≤ (cells i j).weight := by
  rw [weight_relax]
  split
  · exact le_rfl
  · exact min_le_left ..

/-- The column of the transit node does not change while it is offered. -/
theorem weight_relax_column (i : Node) :
    (relax cap cells mid i mid).weight = (cells i mid).weight := by
  rw [weight_relax]
  split
  · rfl
  · exact min_eq_left le_self_add

theorem weight_relax_row (j : Node) :
    (relax cap cells mid mid j).weight = (cells mid j).weight := by
  rw [weight_relax]
  split
  · rfl
  · exact min_eq_left le_add_self

end Cell

/-- What holds of the cells once the nodes of `seen` were offered. -/
structure Relaxed (cells : Node → Node → Cell Node) (seen : List Node) : Prop where
  triangle : ∀ mid ∈ seen, ∀ i j, i ≠ j →
    (cells i j).weight ≤ (cells i mid).weight + (cells mid j).weight
  /-- A remembered detour is no longer than the pair's own weight. -/
  transits : ∀ i j, i ≠ j → ∀ mid ∈ (cells i j).transit, mid ≠ i ∧ mid ≠ j ∧
    (cells i j).weight ≠ ⊤ ∧ (cells i mid).weight + (cells mid j).weight ≤ (cells i j).weight

omit [DecidableEq Node] in
theorem Relaxed.start {cells : Node → Node → Cell Node} (empty : ∀ i j, (cells i j).transit = []) :
    Relaxed cells [] where
  triangle := by simp
  transits i j _ mid member := by simp [empty] at member

section Step

variable {cells : Node → Node → Cell Node} {seen : List Node}

section

variable (relaxed : Relaxed cells seen) (cap : Nat)
include relaxed

/-- Both legs of a detour may have been shortened through the same node. -/
private theorem Relaxed.triangle_step (offered : via ∈ seen) (different : i ≠ j) :
    (relax cap cells mid i j).weight ≤
      (relax cap cells mid i via).weight + (relax cap cells mid via j).weight := by
  by_cases first : i = via
  · subst via
    exact le_add_self
  by_cases last : via = j
  · subst via
    exact le_self_add
  have old := relaxed.triangle via offered i j different
  have detour : (relax cap cells mid i j).weight ≤ (cells i mid).weight + (cells mid j).weight := by
    rw [weight_relax, if_neg different]
    exact min_le_right ..
  have shorter := weight_relax_le cap mid cells i j
  rw [weight_relax cap mid cells i via, if_neg first, weight_relax cap mid cells via j, if_neg last]
  rcases min_choice (cells i via).weight ((cells i mid).weight + (cells mid via).weight) with
    left | left <;>
    rcases min_choice (cells via j).weight ((cells via mid).weight + (cells mid j).weight) with
      right | right <;> rw [left, right]
  · exact shorter.trans old
  · -- Through the middle first: `i - via - mid - j`.
    by_cases here : i = mid
    · subst mid
      exact shorter.trans (le_add_self.trans le_add_self)
    · have leg := relaxed.triangle via offered i mid here
      calc _ ≤ (cells i mid).weight + (cells mid j).weight := detour
        _ ≤ (cells i via).weight + (cells via mid).weight + (cells mid j).weight := by gcongr
        _ = _ := add_assoc ..
  · by_cases here : mid = j
    · subst mid
      exact shorter.trans (le_self_add.trans le_self_add)
    · have leg := relaxed.triangle via offered mid j here
      calc _ ≤ (cells i mid).weight + (cells mid j).weight := detour
        _ ≤ (cells i mid).weight + ((cells mid via).weight + (cells via j).weight) := by gcongr
        _ = _ := (add_assoc ..).symm
  · calc _ ≤ (cells i mid).weight + (cells mid j).weight := detour
      _ ≤ _ := add_le_add le_self_add le_add_self

private theorem Relaxed.transits_step (mid : Node) (different : i ≠ j)
    (member : via ∈ (relax cap cells mid i j).transit) :
    via ≠ i ∧ via ≠ j ∧ (relax cap cells mid i j).weight ≠ ⊤ ∧
      (relax cap cells mid i via).weight + (relax cap cells mid via j).weight ≤
        (relax cap cells mid i j).weight := by
  have legs : (relax cap cells mid i mid).weight + (relax cap cells mid mid j).weight =
      (cells i mid).weight + (cells mid j).weight := by
    rw [weight_relax_column, weight_relax_row]
  have earlier : ∀ via ∈ (cells i j).transit, via ≠ i ∧ via ≠ j ∧ (cells i j).weight ≠ ⊤ ∧
      (relax cap cells mid i via).weight + (relax cap cells mid via j).weight ≤
        (cells i j).weight := by
    intro via inside
    obtain ⟨first, last, finite, detour⟩ := relaxed.transits i j different via inside
    exact ⟨first, last, finite,
      (add_le_add (weight_relax_le cap mid cells i via) (weight_relax_le cap mid cells via j)).trans
        detour⟩
  rcases relax_cases cap mid cells i j with
    ⟨same, -⟩ | ⟨-, less, new⟩ | ⟨⟨sum, finite, first, last, -⟩, new⟩
  · rw [same] at member ⊢
    exact earlier via member
  · rw [new] at member ⊢
    obtain rfl : via = mid := by simpa using member
    refine ⟨?_, ?_, less.ne_top, legs.le⟩
    · rintro rfl
      exact absurd less (not_lt.mpr le_add_self)
    · rintro rfl
      exact absurd less (not_lt.mpr le_self_add)
  · rw [new] at member ⊢
    rcases List.mem_append.mp member with inside | now
    · exact earlier via inside
    · obtain rfl : via = mid := by simpa using now
      exact ⟨first, last, finite, (legs.trans sum).le⟩

theorem Relaxed.step (mid : Node) : Relaxed (relax cap cells mid) (mid :: seen) where
  triangle := by
    intro via offered i j different
    rcases List.mem_cons.mp offered with rfl | earlier
    · rw [weight_relax_column, weight_relax_row, weight_relax, if_neg different]
      exact min_le_right ..
    · exact relaxed.triangle_step cap earlier different
  transits i j different via member := relaxed.transits_step cap mid different member

end

end Step

section

variable {cells : Node → Node → Cell Node}

/-- All nodes were offered, in whatever order. -/
theorem Relaxed.foldl (relaxed : Relaxed cells seen) (cap : Nat) (mids : List Node) :
    Relaxed (mids.foldl (relax cap) cells) (mids.reverse ++ seen) := by
  induction mids generalizing cells seen with
  | nil => exact relaxed
  | cons mid rest ih =>
    have later := ih (relaxed.step cap mid)
    simpa using later

/-- A transitive relation that holds of all weighted pairs keeps holding. -/
theorem foldl_relax_sound (joined : Node → Node → Prop)
    (trans : ∀ i mid j, joined i mid → joined mid j → joined i j)
    (initially : ∀ i j, (cells i j).weight ≠ ⊤ → joined i j) (cap : Nat) (mids : List Node)
    (i j : Node) (finite : (mids.foldl (relax cap) cells i j).weight ≠ ⊤) : joined i j := by
  induction mids generalizing cells with
  | nil => exact initially i j finite
  | cons mid rest ih =>
    refine ih ?_ finite
    intro i j finite
    rw [weight_relax] at finite
    split at finite
    · exact initially i j finite
    · rcases min_choice (cells i j).weight ((cells i mid).weight + (cells mid j).weight) with
        old | new
      · exact initially i j (old ▸ finite)
      · rw [new, ne_eq, ENat.add_eq_top, not_or] at finite
        exact trans i mid j (initially i mid finite.1) (initially mid j finite.2)

theorem foldl_relax_transit
    (initially : ∀ i j, (cells i j).transit.length ≤ cap) (room : 0 < cap) (mids : List Node)
    (i j : Node) : (mids.foldl (relax cap) cells i j).transit.length ≤ cap := by
  induction mids generalizing cells with
  | nil => exact initially i j
  | cons mid rest ih =>
    refine ih fun i j => ?_
    rcases relax_cases cap mid cells i j with ⟨same, -⟩ | ⟨-, -, new⟩ | ⟨⟨-, -, -, -, free⟩, new⟩
    · rw [same]
      exact initially i j
    · rw [new]
      exact room
    · rw [new, List.length_append]
      exact free

theorem foldl_relax_least (initially : ∀ i j, least ≤ (cells i j).weight) (cap : Nat)
    (mids : List Node) (i j : Node) : least ≤ (mids.foldl (relax cap) cells i j).weight := by
  induction mids generalizing cells with
  | nil => exact initially i j
  | cons mid rest ih =>
    refine ih fun i j => ?_
    rw [weight_relax]
    split
    · exact initially i j
    · exact le_min (initially i j) ((initially i mid).trans le_self_add)

end

theorem foldl_update_eq {Place Value : Type} [DecidableEq Place]
    (next : (Place → Value) → Place → Value) (fixed : Place → Prop) (state : Place → Value)
    (reads : ∀ other place, (∀ kept, fixed kept → other kept = state kept) →
      other place = state place →
      next other place = next state place)
    (idle : ∀ place, fixed place → next state place = state place) (places : List Place)
    (distinct : places.Nodup) :
    places.foldl (fun state place => Function.update state place (next state place)) state =
      fun place => if place ∈ places then next state place else state place := by
  induction places using List.reverseRecOn with
  | nil => rfl
  | append_singleton done place ih =>
    obtain ⟨before, -, apart⟩ := List.nodup_append.mp distinct
    have absent : place ∉ done := fun member => apart place member place (by simp) rfl
    rw [List.foldl_append, List.foldl_cons, ih before]
    have now : next (fun place => if place ∈ done then next state place else state place) place =
        next state place := by
      apply reads
      · intro kept holds
        simp [idle kept holds]
      · rw [if_neg absent]
    rw [now]
    funext other
    by_cases here : other = place
    · subst other
      simp
    · simp [here]

end OpenMul.Lib.FloydWarshall
