import OpenMul.Topo.ApspCorrect
import OpenMul.Topo.Route

namespace OpenMul.Topo

open Lib

/-- The weight of the way to a node, 0 at the node itself. -/
def distance (rt : RtApsp) (dest node : Nat) : ℕ∞ :=
  if node = dest then 0 else rt.getWeight node dest

/-- The route leaves its source over a link to a node closer to its destination. -/
def Approaches (rt : RtApsp) (src dest : Nat) (route : Route) : Prop :=
  ∃ next rest, route = ⟨src, rt.getPair src next⟩ :: rest ∧ rt.onlinkNeigh src next = true ∧
    distance rt dest next < distance rt dest src

variable {src dest : Nat}

section Distance

variable {topo : Topology} {rt : RtApsp} (solved : Solved topo rt)
include solved

theorem Solved.positive (i j : Nat) : 0 < rt.getWeight i j :=
  lt_of_lt_of_le (by decide) (solved.least i j)

theorem Solved.distance_pos (away : node ≠ dest) : 0 < distance rt dest node := by
  rw [distance, if_neg away]
  exact solved.positive node dest

theorem Solved.closer_via (different : src ≠ dest) (transit : mid ∈ (rt.elems (src, dest)).swAlias)
    (before : src ≠ mid) (closer : distance rt mid next < distance rt mid src) :
    distance rt dest next < distance rt dest src := by
  obtain ⟨finite, detour⟩ := solved.transits src dest different mid transit
  have leg : rt.getWeight mid dest ≠ ⊤ := ne_top_of_le_ne_top finite (le_add_self.trans detour)
  by_cases arrived : next = dest
  · rw [distance, if_pos arrived]
    exact solved.distance_pos different
  have before' : distance rt mid src = rt.getWeight src mid := if_neg before
  have whole : distance rt dest src = rt.getWeight src dest := if_neg different
  rw [before'] at closer
  rw [whole, distance, if_neg arrived]
  refine lt_of_lt_of_le ?_ detour
  by_cases here : next = mid
  · calc rt.getWeight next dest = 0 + rt.getWeight mid dest := by rw [here, zero_add]
      _ < rt.getWeight src mid + rt.getWeight mid dest :=
          (ENat.add_lt_add_iff_right leg).mpr (solved.positive src mid)
  · rw [distance, if_neg here] at closer
    calc rt.getWeight next dest ≤ rt.getWeight next mid + rt.getWeight mid dest :=
          solved.triangle mid next dest arrived
      _ < rt.getWeight src mid + rt.getWeight mid dest := (ENat.add_lt_add_iff_right leg).mpr closer

end Distance

theorem mem_routeListMerge (member : route ∈ routeListMerge path ik kj) :
    route ∈ path ∨ ∃ first ∈ ik, ∃ rest ∈ kj, route = first ++ rest := by
  cases ik with
  | nil => exact .inl member
  | cons first others =>
    unfold routeListMerge at member
    induction kj generalizing path with
    | nil => exact .inl member
    | cons last more ih =>
      rcases ih member with earlier | joined
      · rcases List.mem_cons.mp earlier with now | old
        · exact .inr ⟨first, List.mem_cons_self, last, List.mem_cons_self, now⟩
        · exact .inl old
      · obtain ⟨head, found, rest, inside, same⟩ := joined
        exact .inr ⟨head, found, rest, List.mem_cons_of_mem last inside, same⟩

variable {subp : Nat → Nat → Nat → List Route × Nat}

section Collected

variable {rt : RtApsp} {good : Nat → Nat → Route → Prop}
  (direct : ∀ {src dest}, src ≠ dest → rt.onlinkNeigh src dest = true →
    good src dest [⟨src, rt.getPair src dest⟩])
  (joined : ∀ {src mid dest first rest}, src ≠ dest → mid ∈ (rt.elems (src, dest)).swAlias →
    src ≠ mid → good src mid first → good mid dest rest → good src dest (first ++ rest))
include direct joined

private theorem routeApspSubpLoop_collects
    (below : ∀ src dest maxHops, src ≠ dest → ∀ route ∈ (subp src dest maxHops).1,
      good src dest route)
    (different : src ≠ dest) (used : ∀ mid ∈ slots, mid ∈ (rt.elems (src, dest)).swAlias) (n : Nat)
    (collected : ∀ route ∈ path, good src dest route) (maxHops : Nat) :
    ∀ route ∈ (routeApspSubpLoop rt subp src dest n slots path maxHops).1, good src dest route := by
  induction slots generalizing n path maxHops with
  | nil =>
    intro route member
    rw [routeApspSubpLoop] at member
    split at member
    · rename_i onlink
      rw [Bool.and_eq_true] at onlink
      rw [List.mem_singleton.mp member]
      exact direct different onlink.2
    · exact collected route member
  | cons mid rest ih =>
    rw [routeApspSubpLoop]
    split
    · exact collected
    · rename_i proceed
      rw [not_or, not_or] at proceed
      refine ih (fun other member => used other (List.mem_cons_of_mem mid member)) _ ?_ _
      intro route member
      rcases mem_routeListMerge member with old | ⟨first, one, tail, two, rfl⟩
      · exact collected route old
      · exact joined different (used mid List.mem_cons_self) proceed.2.1
          (below _ _ _ proceed.2.1 first one) (below _ _ _ (Ne.symm proceed.2.2) tail two)

/-- What survives joining two legs holds of every route that is collected. -/
theorem routeApspGetSubp_collects (fuel : Nat) (different : src ≠ dest) (maxHops : Nat) :
    ∀ route ∈ (routeApspGetSubp rt fuel src dest maxHops).1, good src dest route := by
  induction fuel generalizing src dest maxHops with
  | zero => exact nofun
  | succ fuel ih =>
    rw [routeApspGetSubp]
    split
    · exact nofun
    · exact routeApspSubpLoop_collects direct joined (fun _ _ hops apart => ih apart hops) different
        (fun _ member => member) 0 (by simp) _

end Collected

theorem routeApspGetSubp_approaches (solved : Solved topo rt) (fuel : Nat) (different : src ≠ dest)
    (maxHops : Nat) :
    ∀ route ∈ (routeApspGetSubp rt fuel src dest maxHops).1, Approaches rt src dest route := by
  refine routeApspGetSubp_collects ?_ ?_ fuel different maxHops
  · intro src dest different onlink
    refine ⟨dest, [], rfl, onlink, ?_⟩
    rw [distance, if_pos rfl]
    exact solved.distance_pos different
  · intro src mid dest first tail different transit apart one _
    obtain ⟨next, more, rfl, onlink, closer⟩ := one
    exact ⟨next, more ++ tail, rfl, onlink, solved.closer_via different transit apart closer⟩

theorem routeApspSubpLoop_hops (spent : ∀ src dest maxHops, (subp src dest maxHops).2 ≤ maxHops)
    (src dest n : Nat) (slots : List Nat) (path : List Route) (maxHops : Nat) :
    (routeApspSubpLoop rt subp src dest n slots path maxHops).2 ≤ maxHops := by
  induction slots generalizing n path maxHops with
  | nil => exact le_rfl
  | cons mid rest ih =>
    unfold routeApspSubpLoop
    split
    · exact le_rfl
    · exact (ih _ _ _).trans ((spent _ _ _).trans (spent _ _ _))

theorem routeApspGetSubp_hops (rt : RtApsp) (fuel src dest maxHops : Nat) :
    (routeApspGetSubp rt fuel src dest maxHops).2 ≤ maxHops := by
  induction fuel generalizing src dest maxHops with
  | zero => exact le_rfl
  | succ fuel ih =>
    unfold routeApspGetSubp
    split
    · exact le_rfl
    · exact (routeApspSubpLoop_hops ih ..).trans (Nat.sub_le ..)

theorem routeApspSubpLoop_congr
    (same : ∀ src dest maxHops, maxHops ≤ bound → subp src dest maxHops = subp' src dest maxHops)
    (spent : ∀ src dest maxHops, (subp src dest maxHops).2 ≤ maxHops) (src dest n : Nat)
    (slots : List Nat) (path : List Route) (small : maxHops ≤ bound) :
    routeApspSubpLoop rt subp src dest n slots path maxHops =
      routeApspSubpLoop rt subp' src dest n slots path maxHops := by
  induction slots generalizing n path maxHops with
  | nil => rfl
  | cons mid rest ih =>
    have first := (spent src mid maxHops).trans small
    unfold routeApspSubpLoop
    split
    · rfl
    · dsimp only
      rw [← same _ _ _ small, ← same _ _ _ first]
      exact ih _ _ ((spent _ _ _).trans first)

theorem routeApspGetSubp_fuel (rt : RtApsp) (src dest : Nat) (enough : maxHops ≤ fuel) :
    routeApspGetSubp rt fuel src dest maxHops =
      routeApspGetSubp rt (fuel + 1) src dest maxHops := by
  induction fuel generalizing src dest maxHops with
  | zero =>
    obtain rfl := Nat.le_zero.mp enough
    rfl
  | succ fuel ih =>
    rw [routeApspGetSubp, routeApspGetSubp]
    split
    · rfl
    · refine routeApspSubpLoop_congr (fun src dest hops small => ih src dest small)
        (routeApspGetSubp_hops rt fuel) _ _ _ _ _ (?_ : maxHops - 1 ≤ fuel)
      omega

/-- Also over transits in a cycle the expansion is no deeper than the hops it may spend. -/
theorem routeApspGetSubp_depth (rt : RtApsp) (src dest maxHops more : Nat) :
    routeApspGetSubp rt (maxHops + more) src dest maxHops =
      routeApspGetSubp rt maxHops src dest maxHops := by
  induction more with
  | zero => rfl
  | succ more ih => exact (routeApspGetSubp_fuel rt src dest (Nat.le_add_right ..)).symm.trans ih

theorem trGetRoute_spec {rt : RtApsp} (solved : Solved topo rt)
    (found : trGetRoute topo rt src dst = some route) :
    rt.getWeight src dst ≠ ⊤ ∧ Approaches rt src dst route := by
  have sp : routeApspGetSp topo rt src dst = some route := by
    unfold trGetRoute at found
    split at found
    · cases found
    · cases found
    · split at found
      · cases found
      · exact found
  unfold routeApspGetSp at sp
  split at sp
  · cases sp
  · rename_i allowed
    simp only [Bool.or_eq_true, not_or, decide_eq_true_eq, beq_iff_eq] at allowed
    obtain ⟨⟨⟨different, -⟩, -⟩, finite⟩ := allowed
    refine ⟨finite, ?_⟩
    have approaches := routeApspGetSubp_approaches solved maxHopsPerRoute different maxHopsPerRoute
    dsimp only at sp
    split at sp
    · cases sp
    split at sp
    · cases sp
    · cases sp
    · rename_i first others _ eq
      split at sp
      · obtain ⟨next, rest, rfl, onlink, closer⟩ := approaches first (eq ▸ List.mem_cons_self)
        cases sp
        exact ⟨next, _, rfl, onlink, closer⟩
      · cases sp

end OpenMul.Topo
