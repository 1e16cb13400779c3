import Mathlib.Algebra.Group.Fin.Basic
import Mathlib.Data.Finset.Max
import Mathlib.Data.Fintype.Basic
import Mathlib.Logic.Relation

namespace OpenMul.Lib

/-- A dart is a link as seen from one of its ends; `flip` goes to the other. -/
structure Multigraph (Vertex Dart : Type) where
  live : Dart → Prop
  tail : Dart → Vertex
  flip : Dart → Dart
  flip_live : ∀ dart, live dart → live (flip dart)
  flip_flip : ∀ dart, live dart → flip (flip dart) = dart

namespace Multigraph

variable {Vertex Dart : Type} (graph : Multigraph Vertex Dart)

def head (dart : Dart) : Vertex := graph.tail (graph.flip dart)

/-- A closed trail: darts join end to end, and no link is used twice. -/
structure IsCycle {size : Nat} (trail : Fin (size + 1) → Dart) : Prop where
  live : ∀ index, graph.live (trail index)
  joins : ∀ index, graph.head (trail index) = graph.tail (trail (index + 1))
  once : ∀ first second, first ≠ second →
    trail first ≠ trail second ∧ trail first ≠ graph.flip (trail second)

def Acyclic : Prop := ∀ (size : Nat) (trail : Fin (size + 1) → Dart), ¬graph.IsCycle trail

def Adjacent (first second : Vertex) : Prop :=
  ∃ dart, graph.live dart ∧ graph.tail dart = first ∧ graph.head dart = second

def Joined : Vertex → Vertex → Prop := Relation.ReflTransGen graph.Adjacent

variable {graph}

theorem adjacent_symm (adjacent : graph.Adjacent first second) : graph.Adjacent second first := by
  obtain ⟨dart, live, rfl, rfl⟩ := adjacent
  refine ⟨graph.flip dart, graph.flip_live dart live, rfl, ?_⟩
  rw [head, graph.flip_flip dart live]

theorem joined_symm (joined : graph.Joined first second) : graph.Joined second first := by
  induction joined with
  | refl => exact .refl
  | tail _ adjacent ih => exact .head (adjacent_symm adjacent) ih

theorem isCycle_of_loop (live : graph.live dart) (loop : graph.head dart = graph.tail dart) :
    graph.IsCycle fun _ : Fin 1 => dart where
  live _ := live
  joins _ := loop
  once first second different := absurd (Fin.ext (by omega)) different

section Height

variable {Height : Type} [LinearOrder Height] {height : Vertex → Height}

/-- No two links lead down from one vertex. -/
def SingleDescent (graph : Multigraph Vertex Dart) (height : Vertex → Height) : Prop :=
  ∀ first second, graph.live first → graph.live second → graph.tail first = graph.tail second →
    height (graph.head first) < height (graph.tail first) →
    height (graph.head second) < height (graph.tail second) → first = second

/-- At its highest vertex a closed trail would arrive and leave by one link. -/
theorem acyclic_of_singleDescent (single : SingleDescent graph height)
    (sloped : ∀ dart, graph.live dart → height (graph.head dart) ≠ height (graph.tail dart)) :
    graph.Acyclic := by
  intro size trail cycle
  obtain ⟨top, -, highest⟩ := Finset.exists_max_image Finset.univ
    (fun index => height (graph.tail (trail index))) Finset.univ_nonempty
  have below : ∀ index, height (graph.tail (trail index)) ≤ height (graph.tail (trail top)) :=
    fun index => highest index (Finset.mem_univ index)
  have arrives : graph.head (trail (top - 1)) = graph.tail (trail top) := by
    rw [cycle.joins, sub_add_cancel]
  have live := cycle.live (top - 1)
  have leaves : height (graph.head (trail top)) < height (graph.tail (trail top)) := by
    refine lt_of_le_of_ne ?_ (sloped _ (cycle.live top))
    rw [cycle.joins]
    exact below _
  have back : height (graph.head (graph.flip (trail (top - 1)))) <
      height (graph.tail (graph.flip (trail (top - 1)))) := by
    refine lt_of_le_of_ne ?_ (sloped _ (graph.flip_live _ live))
    rw [head, graph.flip_flip _ live]
    exact (below _).trans (le_of_eq (congrArg height arrives.symm))
  have same := single _ _ (cycle.live top) (graph.flip_live _ live) arrives.symm leaves back
  by_cases alone : top = top - 1
  · rw [← alone] at same arrives
    exact sloped _ (cycle.live top) (congrArg height arrives)
  · exact (cycle.once top (top - 1) alone).2 same

/-- One link down. -/
def Descends (graph : Multigraph Vertex Dart) (height : Vertex → Height) (upper lower : Vertex) :
    Prop :=
  ∃ dart, graph.live dart ∧ graph.tail dart = upper ∧ graph.head dart = lower ∧
    height lower < height upper

section

variable (single : SingleDescent graph height)
    (level : ∀ dart, graph.live dart → height (graph.head dart) = height (graph.tail dart) →
      graph.head dart = graph.tail dart)
    {first second : Vertex} (joined : graph.Joined first second)
include single level joined

/-- Joined vertices descend to a common vertex. -/
private theorem joined_meet : ∃ bottom, Relation.ReflTransGen (Descends graph height) first bottom ∧
      Relation.ReflTransGen (Descends graph height) second bottom := by
  induction joined with
  | refl => exact ⟨first, .refl, .refl⟩
  | @tail middle last _ adjacent ih =>
    obtain ⟨bottom, left, right⟩ := ih
    obtain ⟨dart, live, rfl, rfl⟩ := adjacent
    rcases lt_trichotomy (height (graph.head dart)) (height (graph.tail dart)) with down | same | up
    · rcases Relation.ReflTransGen.cases_head right with
        rfl | ⟨next, ⟨other, living, start, rfl, lower⟩, rest⟩
      · exact ⟨graph.head dart, left.tail ⟨dart, live, rfl, rfl, down⟩, .refl⟩
      · have unique := single other dart living live start (start ▸ lower) down
        exact ⟨bottom, left, unique ▸ rest⟩
    · exact ⟨bottom, left, (level dart live same).symm ▸ right⟩
    · refine ⟨bottom, left, .head ⟨graph.flip dart, graph.flip_live dart live, rfl, ?_, up⟩ right⟩
      rw [head, graph.flip_flip dart live]

/-- Two vertices without a link down are joined only if they are one. -/
theorem eq_of_joined (firstLow : ∀ lower, ¬Descends graph height first lower)
    (secondLow : ∀ lower, ¬Descends graph height second lower) : first = second := by
  obtain ⟨bottom, left, right⟩ := joined_meet single level joined
  have firstBottom : first = bottom := by
    rcases Relation.ReflTransGen.cases_head left with same | ⟨lower, step, -⟩
    · exact same
    · exact absurd step (firstLow lower)
  have secondBottom : second = bottom := by
    rcases Relation.ReflTransGen.cases_head right with same | ⟨lower, step, -⟩
    · exact same
    · exact absurd step (secondLow lower)
  exact firstBottom.trans secondBottom.symm

end

end Height

end Multigraph

end OpenMul.Lib
