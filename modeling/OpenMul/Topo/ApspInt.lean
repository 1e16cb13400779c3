import OpenMul.Lib.Walk
import OpenMul.Topo.ApspCorrect

namespace OpenMul.Topo

open Lib FloydWarshall Function

def intMax : Int := 2147483647

def intMin : Int := -2147483648

def neighNoPath : Int := intMax

/-- Signed addition; it has no result when it overflows. -/
def addInt (a b : Int) : Option Int :=
  if intMin ≤ a + b ∧ a + b ≤ intMax then some (a + b) else none

/-- What the loops read and write of one element: the weight of the first pair
and the transit switches. -/
structure IntElem where
  weight : Int
  swAlias : List Nat

/-- `fwElem` with C's arithmetic. -/
def fwElemInt (mid : Nat) (elems : Nat × Nat → IntElem) (place : Nat × Nat) : Option IntElem :=
  let elem := elems place
  let weightIk := (elems (place.1, mid)).weight
  let weightKj := (elems (mid, place.2)).weight
  if place.1 = place.2 then some elem
  else if weightIk ≠ neighNoPath ∧ weightKj ≠ neighNoPath then
    (addInt weightIk weightKj).map fun sum =>
      if sum < elem.weight then ⟨sum, [mid]⟩
      else if sum = elem.weight ∧ mid ≠ place.1 ∧ mid ≠ place.2 ∧
        elem.swAlias.length < rtMaxEqPaths then
        { elem with swAlias := elem.swAlias ++ [mid] }
      else elem
  else some elem

def fwStageInt (nodes : Nat) (elems : Nat × Nat → IntElem) (mid : Nat) :
    Option (Nat × Nat → IntElem) :=
  (aliasPairs nodes).foldlM (fun elems place =>
    (fwElemInt mid elems place).map fun elem => Function.update elems place elem) elems

/-- The integer a weight is stored as. -/
def intWeight (weight : ℕ∞) : Int := if weight = ⊤ then neighNoPath else (weight.toNat : Int)

def intElem (elem : RtElem) : IntElem := ⟨intWeight (elem.adjPairs 0).weight, elem.swAlias⟩

/-- `mul_route_apsp_calc` on the stored integers; no result if a sum overflows. -/
def routeApspCalcInt (rt : RtApsp) : Option (Nat × Nat → IntElem) :=
  if rt.init && rt.adjInit then
    (List.range rt.nodes).foldlM (fwStageInt rt.nodes) (intElem ∘ rt.elems)
  else some (intElem ∘ rt.elems)

@[simp] theorem intWeight_top : intWeight ⊤ = neighNoPath := if_pos rfl

@[simp] theorem intWeight_coe (weight : Nat) : intWeight weight = weight := by
  rw [intWeight, if_neg (ENat.natCast_ne_top weight), ENat.toNat_natCast]

/-- What exists is at most `bound`. -/
def AtMost (bound : Nat) (weight : ℕ∞) : Prop := weight ≠ ⊤ → weight ≤ bound

variable {bound : Nat} {weight : ℕ∞}

theorem AtMost.cases (atMost : AtMost bound weight) :
    weight = ⊤ ∨ ∃ value : Nat, weight = value ∧ value ≤ bound := by
  induction weight using ENat.recTopCoe with
  | top => exact .inl rfl
  | coe value => exact .inr ⟨value, rfl, Nat.cast_le.mp (atMost (ENat.natCast_ne_top value))⟩

theorem AtMost.mono (atMost : AtMost bound weight) (le : bound ≤ larger) : AtMost larger weight :=
  fun finite => (atMost finite).trans (Nat.cast_le.mpr le)

/-- Far enough below the largest integer for two of them to be added. -/
def smallWeight : Nat := 5120000

theorem intWeight_eq_noPath (atMost : AtMost bound weight)
    (small : bound ≤ 2 * smallWeight) : intWeight weight = neighNoPath ↔ weight = ⊤ := by
  rcases atMost.cases with rfl | ⟨value, rfl, le⟩
  · simp
  · refine iff_of_false ?_ (ENat.natCast_ne_top value)
    rw [intWeight_coe]
    unfold neighNoPath intMax
    unfold smallWeight at small
    omega

theorem fwElemInt_eq (mid : Nat) (elems : Nat × Nat → RtElem) (place : Nat × Nat)
    (first : AtMost smallWeight ((elems (place.1, mid)).adjPairs 0).weight)
    (second : AtMost smallWeight ((elems (mid, place.2)).adjPairs 0).weight)
    (own : AtMost (2 * smallWeight) ((elems place).adjPairs 0).weight) :
    fwElemInt mid (intElem ∘ elems) place = some (intElem (fwElem mid elems place)) := by
  unfold fwElemInt fwElem
  simp only [comp_apply]
  by_cases diagonal : place.1 = place.2
  · rw [if_pos diagonal, if_pos diagonal]
  rw [if_neg diagonal, if_neg diagonal]
  have legs : (intElem (elems (place.1, mid))).weight ≠ neighNoPath ∧
      (intElem (elems (mid, place.2))).weight ≠ neighNoPath ↔
      ((elems (place.1, mid)).adjPairs 0).weight ≠ ⊤ ∧
        ((elems (mid, place.2)).adjPairs 0).weight ≠ ⊤ :=
    Iff.and (intWeight_eq_noPath first (by decide)).not (intWeight_eq_noPath second (by decide)).not
  by_cases finite : ((elems (place.1, mid)).adjPairs 0).weight ≠ ⊤ ∧
    ((elems (mid, place.2)).adjPairs 0).weight ≠ ⊤
  · rw [if_pos (legs.mpr finite)]
    obtain ⟨one, oneEq, oneLe⟩ := first.cases.resolve_left finite.1
    obtain ⟨two, twoEq, twoLe⟩ := second.cases.resolve_left finite.2
    have fits :
        addInt (intElem (elems (place.1, mid))).weight (intElem (elems (mid, place.2))).weight =
        some ((one + two : Nat) : Int) := by
      simp only [intElem, oneEq, twoEq, intWeight_coe]
      unfold smallWeight at oneLe twoLe
      rw [addInt, if_pos (by unfold intMin intMax; omega), Nat.cast_add]
    rw [fits, oneEq, twoEq, ← Nat.cast_add, Option.map_some]
    have sumLe : one + two ≤ 2 * smallWeight := by omega
    generalize one + two = sum at sumLe ⊢
    rcases own.cases with missing | ⟨value, ownEq, -⟩
    · have less : (sum : Int) < neighNoPath := by
        unfold neighNoPath intMax
        unfold smallWeight at sumLe
        omega
      simp only [intElem, missing, intWeight_top, less, ENat.natCast_lt_top, if_true]
      simp [RtElem.setPair]
    · simp only [intElem, ownEq, intWeight_coe, Nat.cast_lt, Nat.cast_inj]
      split
      · simp [RtElem.setPair]
      · split
        · simp [ownEq]
        · simp [ownEq]
  · rw [if_neg (mt legs.mp finite), if_neg finite]

/-- While one switch is offered, its own row and column stay small. -/
structure StageSmall (mid : Nat) (elems : Nat × Nat → RtElem) : Prop where
  cross : ∀ place : Nat × Nat, place.1 = mid ∨ place.2 = mid →
    AtMost smallWeight ((elems place).adjPairs 0).weight
  sums : ∀ place, AtMost (2 * smallWeight) ((elems place).adjPairs 0).weight

theorem weight_fwElem (mid : Nat) (elems : Nat × Nat → RtElem) (place : Nat × Nat) :
    ((fwElem mid elems place).adjPairs 0).weight = ((elems place).adjPairs 0).weight ∨
      ((fwElem mid elems place).adjPairs 0).weight =
        ((elems (place.1, mid)).adjPairs 0).weight + ((elems (mid, place.2)).adjPairs
          0).weight := by
  have cell := congrArg Cell.weight (relaxCell_cells mid elems place.1 place.2)
  have least := weight_relax rtMaxEqPaths mid (cells elems) place.1 place.2
  rw [relax, cell] at least
  split at least
  · exact .inl least
  · rcases min_choice (cells elems place.1 place.2).weight
      ((cells elems place.1 mid).weight + (cells elems mid place.2).weight) with old | detour
    · exact .inl (least.trans old)
    · exact .inr (least.trans detour)

variable {elems : Nat × Nat → RtElem}

theorem StageSmall.step (small : StageSmall mid elems)
    (place : Nat × Nat) : StageSmall mid (update elems place (fwElem mid elems place)) where
  cross other edge := by
    by_cases here : other = place
    · subst here
      rw [update_self, fwElem_idle mid elems other edge]
      exact small.cross other edge
    · rw [update_of_ne here]
      exact small.cross other edge
  sums other := by
    by_cases here : other = place
    · subst here
      rw [update_self]
      rcases weight_fwElem mid elems other with old | detour
      · rw [old]
        exact small.sums other
      · rw [detour]
        intro finite
        rw [ne_eq, ENat.add_eq_top, not_or] at finite
        exact add_le_add (small.cross (other.1, mid) (.inr rfl) finite.1)
          (small.cross (mid, other.2) (.inl rfl) finite.2)
    · rw [update_of_ne here]
      exact small.sums other

theorem fwStageInt_eq (nodes mid : Nat) (small : StageSmall mid elems) :
    fwStageInt nodes (intElem ∘ elems) mid = some (intElem ∘ fwStage nodes elems mid) := by
  unfold fwStageInt fwStage
  induction aliasPairs nodes generalizing elems with
  | nil => rfl
  | cons place rest ih =>
    rw [List.foldlM_cons, fwElemInt_eq mid elems place (small.cross _ (.inr rfl))
      (small.cross _ (.inl rfl)) (small.sums place), Option.map_some, ← comp_update]
    exact ih (small.step place)

/-- The weights a matrix starts with. -/
def linkWeight (elems : Nat × Nat → RtElem) (i j : Nat) : ℕ∞ := ((elems (i, j)).adjPairs 0).weight

/-- The heaviest link sent to the routing module is a blocked one. -/
def heaviestLink : Nat := 10000

theorem foldlM_fwStageInt (light : ∀ i j, AtMost heaviestLink (link i j)) {seen mids : List Nat}
    (bounded : Bounded nodes elems) (walks : Exact link (cells elems) seen)
    (relaxed : Relaxed (cells elems) seen)
    (few : seen.length + mids.length ≤ maxSwitchesPerCluster) :
    mids.foldlM (fwStageInt nodes) (intElem ∘ elems) =
      some (intElem ∘ mids.foldl (fwStage nodes) elems) := by
  induction mids generalizing elems seen with
  | nil => rfl
  | cons mid rest ih =>
    rw [List.length_cons] at few
    have weights : ∀ place, AtMost smallWeight ((elems place).adjPairs 0).weight := by
      intro place finite
      refine (walks.le_heaviest relaxed light place.1 place.2 finite).trans (Nat.cast_le.mpr ?_)
      unfold heaviestLink smallWeight
      unfold maxSwitchesPerCluster at few
      omega
    have small : StageSmall mid elems :=
      ⟨fun place _ => weights place, fun place => (weights place).mono (by decide)⟩
    rw [List.foldlM_cons, fwStageInt_eq nodes mid small]
    have stage := cells_fwStage bounded mid
    apply ih (bounded.fwStage mid)
    · rw [stage]
      exact walks.step rtMaxEqPaths mid
    · rw [stage]
      exact relaxed.step rtMaxEqPaths mid
    · rw [List.length_cons]
      omega

end OpenMul.Topo
