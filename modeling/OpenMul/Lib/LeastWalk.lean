import Mathlib.Data.Set.Card
import OpenMul.Lib.Walk

namespace OpenMul.Lib.FloydWarshall

open List hiding after

variable {Node : Type}

/-- A walk of least weight among all walks between two nodes. -/
structure LeastWalk (link : Node → Node → ℕ∞) (i j : Node) (walk : List Node) : Prop where
  finite : walkWeight link i walk j ≠ ⊤
  least : ∀ other, walkWeight link i walk j ≤ walkWeight link i other j

section LeastWalk

variable {link : Node → Node → ℕ∞} {i mid j : Node} {first second : List Node}

theorem LeastWalk.legs (whole : LeastWalk link i j (first ++ mid :: second)) :
    LeastWalk link i mid first ∧ LeastWalk link mid j second := by
  have finite := whole.finite
  rw [walkWeight_append, ne_eq, ENat.add_eq_top, not_or] at finite
  refine ⟨⟨finite.1, fun other => ?_⟩, ⟨finite.2, fun other => ?_⟩⟩
  · have less := whole.least (other ++ mid :: second)
    rw [walkWeight_append, walkWeight_append] at less
    exact (ENat.add_le_add_iff_right finite.2).mp less
  · have less := whole.least (first ++ mid :: other)
    rw [walkWeight_append, walkWeight_append] at less
    exact (ENat.add_le_add_iff_left finite.1).mp less

/-- Where one walk of least weight passes, any two legs of least weight join. -/
theorem LeastWalk.join (whole : LeastWalk link i j (first ++ mid :: second))
    (one : LeastWalk link i mid before) (two : LeastWalk link mid j after) :
    LeastWalk link i j (before ++ mid :: after) := by
  have same : walkWeight link i (before ++ mid :: after) j ≤
      walkWeight link i (first ++ mid :: second) j := by
    rw [walkWeight_append, walkWeight_append]
    exact add_le_add (one.least first) (two.least second)
  exact ⟨ne_top_of_le_ne_top whole.finite same, fun other => same.trans (whole.least other)⟩

theorem LeastWalk.apart (positive : ∀ i j, 0 < link i j)
    (whole : LeastWalk link i j (first ++ mid :: second)) : i ≠ mid ∧ mid ≠ j := by
  have legs := whole.legs
  have weigh : ∀ i j walk, 0 < walkWeight link i walk j := by
    intro i j walk
    cases walk with
    | nil => exact positive i j
    | cons via rest => exact lt_of_lt_of_le (positive i via) le_self_add
  constructor
  · rintro rfl
    have less := whole.least second
    rw [walkWeight_append] at less
    have none := (ENat.add_le_add_iff_right legs.2.finite).mp (less.trans_eq (zero_add _).symm)
    exact absurd none (not_le.mpr (weigh i i first))
  · rintro rfl
    have less := whole.least first
    rw [walkWeight_append] at less
    have none := (ENat.add_le_add_iff_left legs.1.finite).mp (less.trans_eq (add_zero _).symm)
    exact absurd none (not_le.mpr (weigh mid mid second))

/-- A leg has no more walks of least weight than the whole. -/
theorem LeastWalk.legs_encard (whole : LeastWalk link i j (first ++ mid :: second)) :
    {walk | LeastWalk link i mid walk}.encard ≤ {walk | LeastWalk link i j walk}.encard ∧
      {walk | LeastWalk link mid j walk}.encard ≤ {walk | LeastWalk link i j walk}.encard := by
  obtain ⟨before, after⟩ := whole.legs
  constructor
  · apply Set.encard_le_encard_of_injOn (f := fun walk => walk ++ mid :: second)
    · exact fun walk least => whole.join least after
    · exact fun one _ two _ same => append_cancel_right same
  · apply Set.encard_le_encard_of_injOn (f := fun walk => first ++ mid :: walk)
    · exact fun walk least => whole.join before least
    · exact fun one _ two _ same => (cons.inj (append_cancel_left same)).2

/-- A walk weighs at least the lightest link at each of its steps. -/
theorem length_le_walkWeight {lightest : Nat} (bound : ∀ i j, lightest ≤ link i j) (i j : Node)
    (walk : List Node) :
    ((lightest * (walk.length + 1) : Nat) : ℕ∞) ≤ walkWeight link i walk j := by
  induction walk generalizing i with
  | nil => simpa [walkWeight] using bound i j
  | cons via rest ih =>
    have total : lightest * ((via :: rest).length + 1) =
        lightest + lightest * (rest.length + 1) := by
      rw [length_cons, Nat.mul_succ, Nat.add_comm]
    rw [total]
    exact add_le_add (bound i via) (ih via)

/-- The nodes of a walk that exists are ends of links. -/
theorem subset_of_walkWeight (ends : ∀ i j, link i j ≠ ⊤ → j ∈ offered) (i j : Node)
    (finite : walkWeight link i walk j ≠ ⊤) : walk ⊆ offered := by
  induction walk generalizing i with
  | nil => exact nil_subset _
  | cons via rest ih =>
    rw [walkWeight, ne_eq, ENat.add_eq_top, not_or] at finite
    exact cons_subset.mpr ⟨ends i via finite.1, ih via finite.2⟩

variable {cells : Node → Node → Cell Node} {seen : List Node}

section

variable (exact : Exact link cells seen) (relaxed : Relaxed cells seen)
    (ends : ∀ i j, link i j ≠ ⊤ → j ∈ seen) (different : i ≠ j) {walk : List Node}
include exact relaxed ends different

/-- The cell of a pair has the weight of its walks of least weight. -/
theorem Exact.weight_leastWalk (least : LeastWalk link i j walk) :
    (cells i j).weight = walkWeight link i walk j := by
  apply le_antisymm
  · exact exact.le_walk relaxed different walk (subset_of_walkWeight ends i j least.finite)
  · obtain ⟨other, -, weight⟩ := exact.walk i j
    rw [weight]
    exact least.least other

/-- A walk as heavy as the cell of its pair is of least weight. -/
theorem Exact.leastWalk
    (finite : (cells i j).weight ≠ ⊤) (weight : walkWeight link i walk j = (cells i j).weight) :
    LeastWalk link i j walk := by
  refine ⟨weight ▸ finite, fun other => ?_⟩
  by_cases exists_other : walkWeight link i other j = ⊤
  · rw [exists_other]
    exact le_top
  · rw [weight]
    exact exact.le_walk relaxed different other (subset_of_walkWeight ends i j exists_other)

end

end LeastWalk

variable [LinearOrder Node]

/-- A walk through offered nodes, all others of which are below `mid`, has the
weight given. -/
def TopOf (link : Node → Node → ℕ∞) (seen : List Node) (i j mid : Node) (weight : ℕ∞) : Prop :=
  mid ∈ seen ∧ ∃ first second : List Node, first ⊆ seen ∧ second ⊆ seen ∧
    (∀ node ∈ first ++ second, node < mid) ∧
    walkWeight link i (first ++ mid :: second) j = weight

/-- The transit nodes of a pair are the tops of its walks, as far as there is
room for them. -/
structure Recorded (cap : Nat) (link : Node → Node → ℕ∞) (cells : Node → Node → Cell Node)
    (seen : List Node) : Prop where
  distinct : ∀ i j, (cells i j).transit.Nodup
  sound : ∀ i j, ∀ mid ∈ (cells i j).transit, TopOf link seen i j mid (cells i j).weight
  complete : ∀ i j, i ≠ j → (cells i j).weight ≠ ⊤ → ∀ mid, i ≠ mid → mid ≠ j →
    TopOf link seen i j mid (cells i j).weight → mid ∈ (cells i j).transit ∨
      cap ≤ (cells i j).transit.length

theorem Recorded.start {cells : Node → Node → Cell Node} (cap : Nat)
    (empty : ∀ i j, (cells i j).transit = []) : Recorded cap link cells [] where
  distinct i j := by simp [empty]
  sound i j mid member := by simp [empty] at member
  complete i j _ _ mid _ _ top := by simp [TopOf] at top

section Step

variable {cap : Nat} {link : Node → Node → ℕ∞} {cells : Node → Node → Cell Node} {seen : List Node}
    {mid : Node}

theorem TopOf.mono (top : TopOf link seen i j node weight) (mid : Node) :
    TopOf link (mid :: seen) i j node weight := by
  obtain ⟨offered, first, second, before, after, below, total⟩ := top
  exact ⟨mem_cons_of_mem mid offered, first, second, subset_cons_of_subset mid before,
    subset_cons_of_subset mid after, below, total⟩

/-- A detour through a node above all others has it for its top. -/
theorem Exact.topOf_detour (exact : Exact link cells seen) (above : ∀ node ∈ seen, node < mid)
    (i j : Node) :
    TopOf link (mid :: seen) i j mid ((cells i mid).weight + (cells mid j).weight) := by
  obtain ⟨first, before, left⟩ := exact.walk i mid
  obtain ⟨second, after, right⟩ := exact.walk mid j
  refine ⟨mem_cons_self, first, second, subset_cons_of_subset mid before,
    subset_cons_of_subset mid after, ?_, ?_⟩
  · intro node member
    exact above node (append_subset.mpr ⟨before, after⟩ member)
  · rw [walkWeight_append, left, right]

/-- A detour that is no heavier than the result was recorded, if there was room. -/
theorem relax_offered (different : i ≠ j) (first : i ≠ mid) (last : mid ≠ j)
    (finite : (relax cap cells mid i j).weight ≠ ⊤)
    (detour : (cells i mid).weight + (cells mid j).weight ≤ (relax cap cells mid i j).weight) :
    mid ∈ (relax cap cells mid i j).transit ∨ cap ≤ (relax cap cells mid i j).transit.length := by
  unfold relax relaxCell at finite detour ⊢
  rw [if_neg different] at finite detour ⊢
  split at finite
  · rename_i less
    rw [if_pos less]
    exact .inl (mem_singleton.mpr rfl)
  rename_i more
  rw [if_neg more] at detour ⊢
  split
  · exact .inl (mem_append_right _ (mem_singleton.mpr rfl))
  · rename_i kept
    rw [if_neg kept] at finite detour
    have equal := le_antisymm detour (not_lt.mp more)
    refine .inr (not_lt.mp fun free => kept ⟨equal, ?_, first.symm, last, free⟩)
    exact equal ▸ finite

section

variable (recorded : Recorded cap link cells seen) (exact : Exact link cells seen)
    (relaxed : Relaxed cells seen)
include recorded exact relaxed

theorem Recorded.step (above : ∀ node ∈ seen, node < mid) :
    Recorded cap link (relax cap cells mid) (mid :: seen) where
  distinct i j := by
    rcases relax_cases cap mid cells i j with ⟨same, -⟩ | ⟨-, -, new⟩ | ⟨-, new⟩
    · rw [same]
      exact recorded.distinct i j
    · rw [new]
      exact nodup_singleton mid
    · rw [new]
      refine nodup_append.mpr ⟨recorded.distinct i j, nodup_singleton mid, ?_⟩
      intro node member other now
      have older := above node (recorded.sound i j node member).1
      rw [mem_singleton.mp now]
      exact older.ne
  sound i j := by
    intro node member
    rcases relax_cases cap mid cells i j with ⟨same, -⟩ | ⟨-, -, new⟩ | ⟨⟨sum, -⟩, new⟩
    · rw [same] at member ⊢
      exact (recorded.sound i j node member).mono mid
    · rw [new] at member ⊢
      rw [mem_singleton.mp member]
      exact exact.topOf_detour above i j
    · rw [new] at member ⊢
      rcases mem_append.mp member with old | now
      · exact (recorded.sound i j node old).mono mid
      · rw [mem_singleton.mp now, ← sum]
        exact exact.topOf_detour above i j
  complete i j different finite node first last top := by
    obtain ⟨offered, before, after, beforeSeen, afterSeen, below, total⟩ := top
    have older : ∀ part, part ⊆ before ++ after → part ⊆ mid :: seen → node ≤ mid →
        part ⊆ seen := by
      intro part inside seenSoFar limit other member
      rcases mem_cons.mp (seenSoFar member) with rfl | earlier
      · exact absurd (below other (inside member)) (not_lt.mpr limit)
      · exact earlier
    have limit : node ≤ mid := by
      rcases mem_cons.mp offered with rfl | earlier
      · exact le_rfl
      · exact (above node earlier).le
    have beforeOld := older before (subset_append_left before after) beforeSeen limit
    have afterOld := older after (subset_append_right before after) afterSeen limit
    rcases mem_cons.mp offered with rfl | earlier
    · -- The legs of the walk are no lighter than the cells of the legs.
      apply relax_offered different first last finite
      rw [← total, walkWeight_append]
      exact add_le_add (exact.le_walk relaxed first before beforeOld)
        (exact.le_walk relaxed last after afterOld)
    · -- The walk was there before, so the weight is the old one.
      have walkOld : before ++ node :: after ⊆ seen :=
        append_subset.mpr ⟨beforeOld, cons_subset.mpr ⟨earlier, afterOld⟩⟩
      have same : (relax cap cells mid i j).weight = (cells i j).weight := by
        apply le_antisymm (weight_relax_le cap mid cells i j)
        rw [← total]
        exact exact.le_walk relaxed different _ walkOld
      rw [same] at total finite
      have old := recorded.complete i j different finite node first last
        ⟨earlier, before, after, beforeOld, afterOld, below, total⟩
      rcases relax_cases cap mid cells i j with
        ⟨kept, -⟩ | ⟨-, less, new⟩ | ⟨⟨-, -, -, -, free⟩, new⟩
      · rw [kept]
        exact old
      · rw [new] at same
        exact absurd same less.ne
      · rw [new]
        exact .inl (mem_append_left _ (old.resolve_right (not_le.mpr free)))

/-- The nodes were offered in ascending order. -/
theorem Recorded.foldl (mids : List Node) (ascending : mids.Pairwise (· < ·))
    (above : ∀ node ∈ seen, ∀ mid ∈ mids, node < mid) :
    Recorded cap link (mids.foldl (relax cap) cells) (mids.reverse ++ seen) := by
  induction mids generalizing cells seen with
  | nil => exact recorded
  | cons mid rest ih =>
    obtain ⟨smallest, later⟩ := pairwise_cons.mp ascending
    have now := recorded.step exact relaxed fun node member => above node member mid mem_cons_self
    have run := ih now (exact.step cap mid) (relaxed.step cap mid) later (by
      intro node member next inside
      rcases mem_cons.mp member with rfl | earlier
      · exact smallest next inside
      · exact above node earlier next (mem_cons_of_mem mid inside))
    simpa using run

end

end Step

/-- The highest node on some walk of least weight. -/
def Peak (link : Node → Node → ℕ∞) (i j mid : Node) : Prop :=
  ∃ first second, (∀ node ∈ first ++ second, node < mid) ∧
    LeastWalk link i j (first ++ mid :: second)

section Peak

variable {cap : Nat} {link : Node → Node → ℕ∞} {i j : Node}

/-- A walk has one highest node, so there are no more peaks than walks. -/
theorem peak_encard_le :
    {mid | Peak link i j mid}.encard ≤ {walk | LeastWalk link i j walk}.encard := by
  choose! first second below least using fun mid (peak : Peak link i j mid) => peak
  apply Set.encard_le_encard_of_injOn (f := fun mid => first mid ++ mid :: second mid)
  · exact fun mid peak => least mid peak
  · intro one onePeak two twoPeak same
    dsimp only at same
    have limit : ∀ mid other, Peak link i j other → mid ∈ first other ++ other :: second other →
        mid ≤ other := by
      intro mid other peak member
      rcases mem_append.mp member with before | rest
      · exact (below other peak mid (mem_append_left _ before)).le
      rcases mem_cons.mp rest with rfl | after
      · exact le_rfl
      · exact (below other peak mid (mem_append_right _ after)).le
    have here : ∀ mid, mid ∈ first mid ++ mid :: second mid := by simp
    apply le_antisymm
    · exact limit one two twoPeak (same ▸ here one)
    · exact limit two one onePeak (same ▸ here two)

variable {cells : Node → Node → Cell Node} {seen : List Node}

/-- With room for all of them, the transit nodes are the peaks. -/
theorem Recorded.transit_iff_peak (recorded : Recorded cap link cells seen)
    (exact : Exact link cells seen) (relaxed : Relaxed cells seen)
    (ends : ∀ i j, link i j ≠ ⊤ → j ∈ seen) (positive : ∀ i j, 0 < link i j) (different : i ≠ j)
    (few : {walk | LeastWalk link i j walk}.encard ≤ cap) (mid : Node) :
    mid ∈ (cells i j).transit ↔ Peak link i j mid := by
  have sound : ∀ mid ∈ (cells i j).transit, Peak link i j mid := by
    intro mid member
    obtain ⟨-, first, second, -, -, below, total⟩ := recorded.sound i j mid member
    have finite := (relaxed.transits i j different mid member).2.2.1
    exact ⟨first, second, below, exact.leastWalk relaxed ends different finite total⟩
  refine ⟨sound mid, ?_⟩
  intro peak
  by_contra missing
  obtain ⟨first, second, below, least⟩ := peak
  have weight := exact.weight_leastWalk relaxed ends different least
  have offered := subset_of_walkWeight ends i j least.finite
  have top : TopOf link seen i j mid (cells i j).weight := by
    obtain ⟨before, after⟩ := append_subset.mp offered
    obtain ⟨here, after⟩ := cons_subset.mp after
    exact ⟨here, first, second, before, after, below, weight.symm⟩
  obtain ⟨away, back⟩ := least.apart positive
  have full :=
    (recorded.complete i j different (weight ▸ least.finite) mid away back top).resolve_left missing
  -- A full list and one more peak are too many.
  have members : ((insert mid (cells i j).transit.toFinset : Finset Node) : Set Node) ⊆
      {mid | Peak link i j mid} := by
    intro node member
    rcases Finset.mem_insert.mp (Finset.mem_coe.mp member) with rfl | inside
    · exact ⟨first, second, below, least⟩
    · exact sound node (mem_toFinset.mp inside)
  have count := ((Set.encard_le_encard members).trans peak_encard_le).trans few
  rw [Set.encard_coe_eq_coe_finsetCard, Finset.card_insert_of_notMem (by simpa using missing),
    toFinset_card_of_nodup (recorded.distinct i j), Nat.cast_le] at count
  exact absurd (count.trans full) (Nat.not_succ_le_self _)

end Peak

end OpenMul.Lib.FloydWarshall
