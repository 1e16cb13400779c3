import OpenMul.Lib.LeastWalk
import OpenMul.Topo.RouteValid

namespace OpenMul.Topo

open Lib FloydWarshall List

def aliases (route : Route) : List Nat := route.map RtPathElem.swAlias

/-- The switches of one entry of a list of routes. -/
def entryAliases (entry : Option (List PathHop)) : Option (List Nat) :=
  entry.map fun hops => hops.map fun hop => hop.elem.swAlias

/-- The shortest sequences between two switches come apart at their highest
switches, on both sides, down to usable links. -/
inductive Separable (rt : RtApsp) : Nat → Nat → Prop where
  | link {i j : Nat} (onlink : rt.onlinkNeigh i j = true) : Separable rt i j
  | via {i j : Nat} (offlink : rt.onlinkNeigh i j = false)
      (one : ∀ walk, LeastWalk (linkWeight rt.elems) i j walk →
        ∃! mid, mid ∈ walk ∧ Peak (linkWeight rt.elems) i j mid)
      (reached : ∀ mid, Peak (linkWeight rt.elems) i j mid →
        ∃! walk, LeastWalk (linkWeight rt.elems) i mid walk)
      (first : ∀ mid, Peak (linkWeight rt.elems) i j mid → Separable rt i mid)
      (second : ∀ mid, Peak (linkWeight rt.elems) i j mid → Separable rt mid j) : Separable rt i j

theorem count_routeListMerge (path : List Route) (first : Route) (others kj : List Route)
    (sequence : List Nat) :
    ((routeListMerge path (first :: others) kj).map aliases).count sequence =
      (path.map aliases).count sequence + (kj.map aliases).countP fun tail =>
        aliases first ++ tail = sequence := by
  unfold routeListMerge
  dsimp only
  induction kj generalizing path with
  | nil => simp
  | cons route rest ih =>
    have joined : aliases (first ++ route) = aliases first ++ aliases route := map_append
    rw [foldl_cons, ih, map_cons, map_cons, count_cons, countP_cons, joined]
    simp only [beq_iff_eq, decide_eq_true_eq]
    omega

variable {src dest : Nat}

theorem routeApspSubpLoop_count {subp : Nat → Nat → Nat → List Route × Nat} {cost : Nat → Nat → Nat}
    {bound : Nat}
    (spent : ∀ src dest maxHops, src ≠ dest → (subp src dest maxHops).2 = maxHops - cost src dest)
    {n : Nat} {slots : List Nat} (usable : Slots src dest n slots)
    (offlink : rt.onlinkNeigh src dest = false) (sequence walk : List Nat)
    (adds : ∀ mid ∈ slots, ∀ maxHops ≤ bound, cost src mid + cost mid dest < maxHops → ∀ path,
      ((routeListMerge path (subp src mid maxHops).1 (subp mid dest (subp src mid maxHops).2).1).map
        aliases).count sequence = (path.map aliases).count sequence + if mid ∈ walk then 1 else 0)
    (path : List Route) {maxHops : Nat} (small : maxHops ≤ bound)
    (enough : (slots.map fun mid => cost src mid + cost mid dest).sum < maxHops) :
    ((routeApspSubpLoop rt subp src dest n slots path maxHops).1.map aliases).count sequence =
      (path.map aliases).count sequence + slots.countP fun mid => mid ∈ walk := by
  induction slots generalizing n path maxHops with
  | nil =>
    rw [routeApspSubpLoop, offlink, Bool.and_false]
    rfl
  | cons mid rest ih =>
    obtain ⟨first, last⟩ := usable.apart mid mem_cons_self
    rw [map_cons, sum_cons] at enough
    have left := spent src mid maxHops first.symm
    have right := spent mid dest (subp src mid maxHops).2 last
    rw [usable.round, ih usable.tail (fun other member => adds other (mem_cons_of_mem mid member)) _
      (by omega) (by omega), adds mid mem_cons_self maxHops small (by omega), countP_cons]
    simp only [decide_eq_true_eq]
    omega

variable {mid : Nat} {walk : List Nat}

/-- The second legs that complete a sequence behind the first leg. -/
theorem countP_legs {legs : List Route}
    (starts : ∀ route ∈ legs, ∃ tail, aliases route = mid :: tail)
    (once : ∀ tail, walk = leg ++ mid :: tail → (legs.map aliases).count (mid :: tail) = 1)
    (passes : mid ∈ walk → ∃ tail, walk = leg ++ mid :: tail) :
    ((legs.map aliases).countP fun tail => src :: leg ++ tail = src :: walk) = if mid ∈ walk then 1
      else 0 := by
  split
  · rename_i inside
    obtain ⟨tail, rfl⟩ := passes inside
    rw [← once tail rfl]
    apply countP_congr
    intro other _
    simp
  · rename_i outside
    rw [countP_eq_zero]
    intro other member
    obtain ⟨route, inside, rfl⟩ := mem_map.mp member
    obtain ⟨tail, starting⟩ := starts route inside
    rw [starting, decide_eq_true_eq]
    intro same
    have walk_eq := (cons.inj same).2
    exact outside (walk_eq ▸ by simp)

variable {i j : Nat}

section Calculated

variable {loopStatus : PortId → LoopPortStatus} {sendPortState : Bool} {nodes : Nat} {rt : RtApsp}
  (started : Started loopStatus sendPortState nodes rt)
include started

theorem Started.ends (i j : Nat) (linked : linkWeight rt.elems i j ≠ ⊤) :
    j ∈ (range nodes).reverse := by
  by_contra outside
  apply linked
  apply started.bounded (i, j)
  intro inside
  exact outside (mem_reverse.mpr (mem_range.mpr inside.2))

theorem Started.links_pos (i j : Nat) : 0 < linkWeight rt.elems i j :=
  lt_of_lt_of_le (by decide) (started.links_least i j)

/-- Nothing is as short as a link that may be used. -/
theorem Started.leastWalk_onlink (onlink : rt.onlinkNeigh i j = true)
    (least : LeastWalk (linkWeight rt.elems) i j walk) : walk = [] := by
  cases walk with
  | nil => rfl
  | cons via rest =>
    have direct := least.least []
    rw [walkWeight, started.onlink_weight onlink] at direct
    have legs := add_le_add (started.links_least i via)
      (least_le_walkWeight started.links_least via j rest)
    exact absurd (legs.trans direct) (by decide)

variable (ready : (rt.init && rt.adjInit) = true)
include ready

theorem Started.recorded :
    Recorded rtMaxEqPaths (linkWeight rt.elems) (cells (routeApspCalc rt).elems)
    (range nodes).reverse := by
  obtain ⟨walks, relaxed⟩ := started.exact
  have start : Recorded rtMaxEqPaths (linkWeight rt.elems) (cells rt.elems) [] :=
    .start rtMaxEqPaths fun i j => started.transit (i, j)
  have run := start.foldl walks relaxed (range nodes) pairwise_lt_range nofun
  rw [append_nil, ← cells_foldl started.bounded, ← started.run ready] at run
  exact run

/-- The transit switches of a pair are the highest of its few shortest sequences. -/
theorem Started.transit_iff_peak (different : i ≠ j)
    (few : {walk | LeastWalk (linkWeight rt.elems) i j walk}.encard ≤ rtMaxEqPaths) (mid : Nat) :
    mid ∈ ((routeApspCalc rt).elems (i, j)).swAlias ↔ Peak (linkWeight rt.elems) i j mid := by
  obtain ⟨walks, relaxed⟩ := started.calculated ready
  exact (started.recorded ready).transit_iff_peak walks relaxed started.ends started.links_pos
    different few mid

theorem Started.transit_onlink (different : i ≠ j) (onlink : rt.onlinkNeigh i j = true) :
    ((routeApspCalc rt).elems (i, j)).swAlias = [] := by
  have measured := started.measured ready
  rw [eq_nil_iff_forall_not_mem]
  intro mid member
  obtain ⟨-, -, -, detour⟩ := measured.transits i j different mid member
  have short := (started.calculated ready).1.below i j
  rw [started.onlink_weight onlink] at short
  have legs := add_le_add (measured.least i mid) (measured.least mid j)
  rw [detour] at legs
  exact absurd (legs.trans short) (by decide)

end Calculated

variable {route : Route}

theorem Follows.aliases_head (follows : Follows rt src dest route) :
    ∃ tail, aliases route = src :: tail := by
  obtain ⟨pair, rest, rfl⟩ := follows.head
  exact ⟨aliases rest, rfl⟩

private theorem countP_unique {slots : List Nat} (distinct : slots.Nodup) (member : mid ∈ slots)
    (inside : mid ∈ walk) (only : ∀ other ∈ slots, other ∈ walk → other = mid) :
    (slots.countP fun mid => mid ∈ walk) = 1 := by
  rw [← count_eq_one_of_mem distinct member]
  apply countP_congr
  intro other listed
  simp only [decide_eq_true_eq, beq_iff_eq]
  constructor
  · exact only other listed
  · intro same
    exact same ▸ inside

section Expansion

variable {loopStatus : PortId → LoopPortStatus} {sendPortState : Bool} {nodes : Nat} {rt : RtApsp}
  (started : Started loopStatus sendPortState nodes rt) (ready : (rt.init && rt.adjInit) = true)
include started ready

/-- A route weighs what its links weighed before the calculation. -/
theorem Started.follows_walk (follows : Follows (routeApspCalc rt) src dest route) :
    ∃ tail, aliases route = src :: tail ∧
      walkWeight (linkWeight rt.elems) src tail dest = routeWeight route := by
  have same : ∀ i j, (routeApspCalc rt).onlinkNeigh i j = true →
      ((routeApspCalc rt).getPair i j).weight = linkWeight rt.elems i j := by
    intro i j onlink
    rw [started.onlinkNeigh_calc ready] at onlink
    rw [started.onlink_weight onlink]
    exact started.getWeight_onlink ready onlink
  induction follows with
  | last onlink => exact ⟨[], rfl, by simp [walkWeight, routeWeight, same _ _ onlink]⟩
  | @step src next dest rest onlink follows ih =>
    obtain ⟨tail, switches, weight⟩ := ih
    refine ⟨next :: tail, congrArg (cons src) switches, ?_⟩
    rw [walkWeight, weight, routeWeight, routeWeight, map_cons, sum_cons, same _ _ onlink]

theorem ShortestRoute.leastWalk (shortest : ShortestRoute (routeApspCalc rt) i j route)
    (different : i ≠ j) (finite : (routeApspCalc rt).getWeight i j ≠ ⊤) :
    ∃ walk, aliases route = i :: walk ∧ LeastWalk (linkWeight rt.elems) i j walk := by
  obtain ⟨walks, relaxed⟩ := started.calculated ready
  obtain ⟨walk, switches, weight⟩ := started.follows_walk ready shortest.follows
  exact ⟨walk, switches,
    walks.leastWalk relaxed started.ends different finite (weight.trans shortest.weight)⟩

theorem Started.merge_adds (peak : Peak (linkWeight rt.elems) i j mid)
    (reached : ∃! walk, LeastWalk (linkWeight rt.elems) i mid walk) {ik kj : List Route}
    (firstOnce : ∀ leg, LeastWalk (linkWeight rt.elems) i mid leg →
      (ik.map aliases).count (i :: leg) = 1)
    (secondOnce : ∀ leg, LeastWalk (linkWeight rt.elems) mid j leg →
      (kj.map aliases).count (mid :: leg) = 1)
    (firstShort : ∀ route ∈ ik, ShortestRoute (routeApspCalc rt) i mid route)
    (secondShort : ∀ route ∈ kj, ShortestRoute (routeApspCalc rt) mid j route)
    (least : LeastWalk (linkWeight rt.elems) i j walk) (path : List Route) :
    ((routeListMerge path ik kj).map aliases).count (i :: walk) =
      (path.map aliases).count (i :: walk) + if mid ∈ walk then 1 else 0 := by
  obtain ⟨before, after, -, whole⟩ := peak
  obtain ⟨leg, legLeast, only⟩ := reached
  have apart := whole.apart started.links_pos
  have finite : (routeApspCalc rt).getWeight i mid ≠ ⊤ := by
    obtain ⟨walks, relaxed⟩ := started.calculated ready
    have weight := walks.weight_leastWalk relaxed started.ends apart.1 legLeast
    exact fun top => legLeast.finite (weight.symm.trans top)
  cases ik with
  | nil => exact absurd (firstOnce leg legLeast) (by simp)
  | cons head others =>
    obtain ⟨other, switches, otherLeast⟩ :=
      (firstShort head mem_cons_self).leastWalk started ready apart.1 finite
    obtain rfl := only other otherLeast
    rw [count_routeListMerge, switches, countP_legs]
    · exact fun route member => (secondShort route member).follows.aliases_head
    · intro tail split
      exact secondOnce tail (split ▸ least).legs.2
    · intro inside
      obtain ⟨before, after, rfl⟩ := append_of_mem inside
      exact ⟨after, by rw [only before least.legs.1]⟩

/-- The expansion finds each shortest sequence of separable switches once. -/
theorem Separable.count_eq_one (separable : Separable rt i j) (different : i ≠ j)
    (few : {walk | LeastWalk (linkWeight rt.elems) i j walk}.encard ≤ rtMaxEqPaths) (fuel : Nat)
    (small : maxHops ≤ fuel) (enough : subpCalls (routeApspCalc rt) fuel i j < maxHops)
    (least : LeastWalk (linkWeight rt.elems) i j walk) :
    ((routeApspGetSubp (routeApspCalc rt) fuel i j maxHops).1.map aliases).count
    (i :: walk) = 1 := by
  have expandable := started.expandable ready
  have measured := started.measured ready
  induction separable generalizing fuel maxHops walk with
  | @link i j onlink =>
    cases fuel with
    | zero => omega
    | succ fuel =>
      have calc_onlink := (started.onlinkNeigh_calc ready i j).trans onlink
      rw [routeApspGetSubp, if_neg (by omega), started.transit_onlink ready different onlink,
        routeApspSubpLoop, calc_onlink, started.leastWalk_onlink onlink least]
      simp [rtMaxEqPaths, aliases]
  | @via i j offlink one reached _ _ firstIh secondIh =>
    cases fuel with
    | zero => omega
    | succ fuel =>
      have transit := started.transit_iff_peak ready different few
      have distinct : ((routeApspCalc rt).elems (i, j)).swAlias.Nodup :=
        (started.recorded ready).distinct i j
      rw [subpCalls] at enough
      rw [routeApspGetSubp, if_neg (by omega), routeApspSubpLoop_count
        (fun _ _ hops apart => routeApspGetSubp_spent expandable fuel apart hops)
          (expandable.slotsOf different)
        ((started.onlinkNeigh_calc ready i j).trans offlink) (i :: walk) walk _ []
          (show maxHops - 1 ≤ fuel by omega)
        (by omega)]
      · obtain ⟨mid, ⟨inside, peak⟩, only⟩ := one walk least
        rw [countP_unique distinct ((transit mid).mpr peak) inside]
        · rfl
        · exact fun other listed passed => only other ⟨passed, (transit other).mp listed⟩
      · intro mid listed hops small enough path
        have peak := (transit mid).mp listed
        obtain ⟨before, after, below, whole⟩ := id peak
        obtain ⟨apartFirst, apartLast⟩ := whole.apart started.links_pos
        obtain ⟨fewFirst, fewSecond⟩ := whole.legs_encard
        have left := routeApspGetSubp_spent expandable fuel apartFirst hops
        apply started.merge_adds ready peak (reached mid peak)
        · exact fun leg legLeast =>
            firstIh mid peak apartFirst (fewFirst.trans few) fuel small (by omega) legLeast
        · exact fun leg legLeast =>
            secondIh mid peak apartLast (fewSecond.trans few) fuel (by omega) (by omega) legLeast
        · exact routeApspGetSubp_shortest measured fuel apartFirst hops
        · exact routeApspGetSubp_shortest measured fuel apartLast _
        · exact least

end Expansion

theorem entryAliases_sameNodeEntry (leaves : Leaves route) (dest : Nat) :
    entryAliases (sameNodeEntry dest route) = some (aliases route ++ [dest]) := by
  have elems := congrArg (map RtPathElem.swAlias) (prepHops_elem none (route ++ [lastElem dest]))
  rw [map_map, map_append] at elems
  rw [sameNodeEntry_leaves leaves, entryAliases]
  exact congrArg some elems

theorem count_sameNodeList (leaves : ∀ route ∈ routes, Leaves route) (dest : Nat)
    (sequence : List Nat) :
    ((sameNodeList dest routes).map entryAliases).count (some (sequence ++ [dest])) =
      (routes.map aliases).count sequence := by
  have close : Function.Injective fun sequence : List Nat => some (sequence ++ [dest]) :=
    fun _ _ same => append_cancel_right (Option.some.inj same)
  have entries : (routes.map (sameNodeEntry dest)).map entryAliases =
      (routes.map aliases).map fun sequence => some (sequence ++ [dest]) := by
    rw [map_map, map_map]
    exact map_congr_left fun route member => entryAliases_sameNodeEntry (leaves route member) dest
  rw [sameNodeList_leaves fun route member => .inr (leaves route member), entries]
  exact count_map_of_injective _ _ close sequence

theorem routeApspGetMpSpList_all (dpidWithAlias : Nat → Dpid) {rt : RtApsp}
    (mpSelect : Option (Nat → Nat)) (different : src ≠ dest) (known : dpidWithAlias dest ≠ 0)
    (converged : rt.converged = true) (finite : rt.getWeight src dest ≠ ⊤)
    (budget : (routeApspGetSubp rt maxHopsPerRoute src dest maxHopsPerRoute).2 ≠ 0) :
    routeApspGetMpSpList dpidWithAlias rt mpSelect true src dest =
      some (sameNodeList dest
        (routeApspGetSubp rt maxHopsPerRoute src dest maxHopsPerRoute).1) := by
  rw [routeApspGetMpSpList, if_neg different, if_neg known, converged, Bool.not_true, if_neg finite]
  exact if_neg budget

/-- Between separable switches the list of all routes has each shortest sequence once. -/
theorem routeApspGetMpSpList_equal_cost (imap : SwImap) (loopStatus : PortId → LoopPortStatus)
    (sendPortState : Bool) (updates : List NeighUpdate) (dpidWithAlias : Nat → Dpid)
    (mpSelect : Option (Nat → Nat))
    (converged : (routeApspCalc (imap.build loopStatus sendPortState updates)).converged = true)
    {src dest : Nat} (different : src ≠ dest) (known : dpidWithAlias dest ≠ 0)
    (few : {walk | LeastWalk (linkWeight (imap.build loopStatus sendPortState updates).elems) src
               dest walk}.encard ≤ rtMaxEqPaths)
    (budget : (routeApspGetSubp (routeApspCalc (imap.build loopStatus sendPortState updates))
      maxHopsPerRoute src dest maxHopsPerRoute).2 ≠ 0)
    (separable : Separable (imap.build loopStatus sendPortState updates) src dest) (walk : List Nat)
    (least :
      LeastWalk (linkWeight (imap.build loopStatus sendPortState updates).elems) src dest walk) :
    ∃ list, routeApspGetMpSpList dpidWithAlias
      (routeApspCalc (imap.build loopStatus sendPortState updates)) mpSelect
        true src dest = some list ∧
          (list.map entryAliases).count (some (src :: walk ++ [dest])) = 1 := by
  obtain ⟨nodes, -, started⟩ := started_build imap loopStatus sendPortState updates
  have ready := ready_of_converged converged
  have expandable := started.expandable ready
  have leaves := routeApspGetSubp_leaves expandable maxHopsPerRoute different maxHopsPerRoute
  have finite : (routeApspCalc (imap.build loopStatus sendPortState updates)).getWeight src dest ≠
      ⊤ := by
    obtain ⟨walks, relaxed⟩ := started.calculated ready
    have weight := walks.weight_leastWalk relaxed started.ends different least
    exact fun top => least.finite (weight.symm.trans top)
  refine ⟨_,
    routeApspGetMpSpList_all dpidWithAlias mpSelect different known converged finite budget, ?_⟩
  have enough : subpCalls (routeApspCalc (imap.build loopStatus sendPortState updates))
      maxHopsPerRoute src dest <
      maxHopsPerRoute := by
    rw [routeApspGetSubp_spent expandable maxHopsPerRoute different] at budget
    exact Nat.lt_of_sub_ne_zero budget
  have once :=
    separable.count_eq_one started ready different few maxHopsPerRoute le_rfl enough least
  rw [← once]
  exact count_sameNodeList leaves dest (src :: walk)

abbrev kite : RtApsp := kiteImap.build (fun _ => .none) true []

theorem kite_started : Started (fun _ => .none) true 5 kite := by
  obtain ⟨nodes, -, started⟩ := started_build kiteImap (fun _ => .none) true []
  have size : kite.nodes = 5 := by decide
  obtain rfl : nodes = 5 := started.size.symm.trans size
  exact started

theorem kite_link (linked : linkWeight kite.elems i j ≠ ⊤) : j ∈ kiteNeighbors i := by
  have small : ∀ i < 5, ∀ j < 5, linkWeight kite.elems i j ≠ ⊤ → j ∈ kiteNeighbors i := by decide
  have inside : i < 5 ∧ j < 5 := by
    by_contra outside
    exact linked (kite_started.bounded (i, j) outside)
  exact small i inside.1 j inside.2 linked

theorem kite_leastWalk (different : i ≠ j) {weight : Nat}
    (total : (routeApspCalc kite).getWeight i j = weight) (walk : List Nat) :
    LeastWalk (linkWeight kite.elems) i j walk ↔
      walkWeight (linkWeight kite.elems) i walk j = weight := by
  obtain ⟨walks, relaxed⟩ := kite_started.calculated (by decide)
  constructor
  · intro least
    rw [← walks.weight_leastWalk relaxed kite_started.ends different least]
    exact total
  · intro same
    have finite : (routeApspCalc kite).getWeight i j ≠ ⊤ := total ▸ ENat.natCast_ne_top weight
    exact walks.leastWalk relaxed kite_started.ends different finite (same.trans total.symm)

/-- The ways from neighbour to neighbour with at most so many switches between. -/
def kiteWalks : Nat → Nat → Nat → List (List Nat)
  | 0, i, j => if j ∈ kiteNeighbors i then [[]] else []
  | limit + 1, i, j => (if j ∈ kiteNeighbors i then [[]] else []) ++
    (kiteNeighbors i).flatMap fun via => (kiteWalks limit via j).map (via :: ·)

theorem kite_walk {weight limit : Nat}
    (total : walkWeight (linkWeight kite.elems) i walk j = weight)
    (light : weight < 100 * (limit + 2)) : walk ∈ kiteWalks limit i j := by
  have short : walk.length ≤ limit := by
    have bound := @length_le_walkWeight _ _ 100 kite_started.links_least i j walk
    rw [total, Nat.cast_le] at bound
    omega
  have finite : walkWeight (linkWeight kite.elems) i walk j ≠ ⊤ :=
    total ▸ ENat.natCast_ne_top weight
  clear total light
  induction walk generalizing i limit with
  | nil => cases limit <;> simp [kiteWalks, kite_link finite]
  | cons via rest ih =>
    rw [walkWeight, ne_eq, ENat.add_eq_top, not_or] at finite
    cases limit with
    | zero => cases short
    | succ limit =>
      have later := ih (Nat.le_of_succ_le_succ short) finite.2
      exact mem_append_right _ (mem_flatMap.mpr ⟨via, kite_link finite.1, mem_map_of_mem later⟩)

theorem kite_corner (walk : List Nat) :
    LeastWalk (linkWeight kite.elems) 0 2 walk ↔ walk = [1] ∨ walk = [3] := by
  rw [@kite_leastWalk 0 2 (by decide) 200 (by decide +kernel)]
  constructor
  · intro total
    have listed := @kite_walk walk 0 2 200 1 total (by decide)
    simpa [kiteWalks, kiteNeighbors] using listed
  · rintro (rfl | rfl)
    · decide
    · decide

/-- Both corners between the ends lead to the switch behind the square. -/
theorem kite_tail (walk : List Nat) :
    LeastWalk (linkWeight kite.elems) 0 4 walk ↔ walk = [1, 2] ∨ walk = [3, 2] := by
  rw [@kite_leastWalk 0 4 (by decide) 300 (by decide +kernel)]
  constructor
  · intro total
    have listed := @kite_walk walk 0 4 300 2 total (by decide)
    simpa [kiteWalks, kiteNeighbors] using listed
  · rintro (rfl | rfl)
    · decide
    · decide

theorem encard_le_of_two {walks : Set (List Nat)}
    (members : ∀ walk, walk ∈ walks ↔ walk = one ∨ walk = two) : walks.encard ≤ rtMaxEqPaths := by
  have pair : walks = {one, two} := Set.ext members
  have small := Set.encard_insert_le {two} one
  rw [Set.encard_singleton] at small
  rw [pair]
  exact small.trans (by decide)

theorem kite_separable : Separable kite 0 2 := by
  have onlink : ∀ mid, mid = 1 ∨ mid = 3 → kite.onlinkNeigh 0 mid = true ∧
      kite.onlinkNeigh mid 2 = true := by
    rintro mid (rfl | rfl) <;> decide
  have peaks : ∀ mid, Peak (linkWeight kite.elems) 0 2 mid → mid = 1 ∨ mid = 3 := by
    rintro mid ⟨first, second, -, least⟩
    have member : mid ∈ first ++ mid :: second := by simp
    rcases (kite_corner _).mp least with split | split <;> rw [split, mem_singleton] at member
    · exact .inl member
    · exact .inr member
  apply Separable.via
  · decide
  · intro walk least
    obtain ⟨mid, rfl⟩ : ∃ mid, walk = [mid] := by
      rcases (kite_corner walk).mp least with rfl | rfl
      · exact ⟨1, rfl⟩
      · exact ⟨3, rfl⟩
    refine ⟨mid, ⟨mem_singleton.mpr rfl, [], [], nofun, least⟩, ?_⟩
    exact fun other inside => mem_singleton.mp inside.1
  · intro mid peak
    obtain ⟨first, second, -, least⟩ := id peak
    refine ⟨first, least.legs.1, fun other otherLeast => ?_⟩
    have direct := (onlink mid (peaks mid peak)).1
    rw [kite_started.leastWalk_onlink direct otherLeast,
      kite_started.leastWalk_onlink direct least.legs.1]
  · exact fun mid peak => .link (onlink mid (peaks mid peak)).1
  · exact fun mid peak => .link (onlink mid (peaks mid peak)).2

/-- Both ways around the square are listed once. -/
theorem kite_corner_listed : LeastWalk (linkWeight kite.elems) 0 2 [1] ∧ ∃ list,
      routeApspGetMpSpList (fun _ => 1) (routeApspCalc kite) none true 0 2 = some list ∧
        (list.map entryAliases).count (some [0, 1, 2]) = 1 :=
  ⟨(kite_corner [1]).mpr (.inl rfl),
    routeApspGetMpSpList_equal_cost kiteImap (fun _ => .none) true [] (fun _ => 1) none
    (by decide) (by decide) (by decide) (encard_le_of_two kite_corner) (by decide +kernel)
      kite_separable [1]
    ((kite_corner [1]).mpr (.inl rfl))⟩

/-- To the switch behind the square one way is listed twice and the other not at all. -/
theorem kite_tail_not_listed : (routeApspCalc kite).converged = true ∧
    {walk | LeastWalk (linkWeight kite.elems) 0 4 walk}.encard ≤ rtMaxEqPaths ∧
    (routeApspGetSubp (routeApspCalc kite) maxHopsPerRoute 0 4 maxHopsPerRoute).2 ≠ 0 ∧
    LeastWalk (linkWeight kite.elems) 0 4 [1, 2] ∧ LeastWalk (linkWeight kite.elems) 0 4 [3, 2] ∧
    (routeApspGetMpSpList (fun _ => 1) (routeApspCalc kite) none true 0 4).map
    (List.map entryAliases) = some [some [0, 3, 2, 4], some [0, 3, 2, 4]] := by
  refine ⟨by decide, encard_le_of_two kite_tail, by decide +kernel, ?_, ?_, by decide +kernel⟩
  · exact (kite_tail [1, 2]).mpr (.inl rfl)
  · exact (kite_tail [3, 2]).mpr (.inr rfl)

end OpenMul.Topo
