import OpenMul.Topo.RouteExistence

namespace OpenMul.Topo

open Lib FloydWarshall List

/-- `rt_path_elem_t` as it is handed out. -/
structure PathHop where
  elem : RtPathElem
  inPort : PortNo
  firstHop : Bool
  lastHop : Bool

/-- The loop of `mul_route_prep_out`. `add_route_path_elem` left no input port. -/
def prepHops (prev : Option RtPathElem) : Route → List PathHop
  | [] => []
  | elem :: rest =>
    { elem
      inPort := (prev.map fun before => before.link.lb).getD neighNoLink
      firstHop := prev.isNone
      lastHop := rest.isEmpty } :: prepHops (some elem) rest

def lastElem (dest : Nat) : RtPathElem := ⟨dest, ⟨neighNoLink, neighNoLink, ⊤, 0⟩⟩

/-- One round of the loop at the label `route_same_node`. A route that fails the
check is freed, and then the entry points to no route any more. -/
def sameNodeEntry (dest : Nat) (route : Route) : Option (List PathHop) :=
  if routePrepOut (route ++ [lastElem dest]) then
    some (if route.isEmpty then [] else prepHops none (route ++ [lastElem dest]))
  else none

/-- The whole loop. When a check fails it is the head of the list that loses its
route. -/
def sameNodeList (dest : Nat) (routes : List Route) : List (Option (List PathHop)) :=
  let entries := routes.map (sameNodeEntry dest)
  if entries.all Option.isSome then entries else entries.set 0 (some [])

/-- `mul_route_apsp_get_mp_sp`, undisturbed by writers, for switches that have rows
in the matrices. -/
def routeApspGetMpSpList (dpidWithAlias : Nat → Dpid) (rt : RtApsp) (mpSelect : Option (Nat → Nat))
    (bpairs : Bool) (src dest : Nat) : Option (List (Option (List PathHop))) :=
  if src = dest then some (sameNodeList dest [[]])
  else if dpidWithAlias dest = 0 then none
  else if !rt.converged then none
  else if rt.getWeight src dest = ⊤ then none
  else
    let found := routeApspGetSubp rt maxHopsPerRoute src dest maxHopsPerRoute
    let hint := (mpSelect.map fun select => select found.1.length).getD 0
    let routes :=
      if bpairs then found.1
      else [routeSelectSingle found.1 (if found.1.length ≤ hint then 0 else hint)]
    if found.2 = 0 then none else some (sameNodeList dest routes)

theorem sameNodeList_single (dest : Nat) (route : Route) :
    sameNodeList dest [route] = [some (prepHops none (routeSameNode dest route))] := by
  change sameNodeList dest [route] = [some (prepHops none
    (if routePrepOut (route ++ [lastElem dest]) then
      if route.isEmpty then [] else route ++ [lastElem dest] else []))]
  by_cases checked : routePrepOut (route ++ [lastElem dest]) = true
  · by_cases empty : route = [] <;> simp [sameNodeList, sameNodeEntry, checked, empty, prepHops]
  · simp [sameNodeList, sameNodeEntry, checked, prepHops]

/-- Without `bpairs` the list holds the one route, with its hops marked. -/
theorem routeApspGetMpSpList_single (dpidWithAlias : Nat → Dpid) (rt : RtApsp)
    (mpSelect : Option (Nat → Nat)) (src dest : Nat) :
    routeApspGetMpSpList dpidWithAlias rt mpSelect false src dest =
      (routeApspGetMpSp dpidWithAlias rt mpSelect src dest).map fun route =>
        [some (prepHops none route)] := by
  simp only [routeApspGetMpSpList, routeApspGetMpSp, sameNodeList_single, Bool.false_eq_true,
    if_false, apply_ite (Option.map _), Option.map_some, Option.map_none]

/-- A port of the first switch leads to the second, and the pair was sent for it. -/
def Discovered (imap : SwImap) (loopStatus : PortId → LoopPortStatus) (sendPortState : Bool)
    (place : Nat × Nat) (pair : LweightPair) : Prop :=
  ∃ fromSw toSw port, imap.sw place.1 = some fromSw ∧ imap.sw place.2 = some toSw ∧
    port ∈ fromSw.portsTo toSw.dpid ∧ pair = rtNeighPair fromSw port loopStatus sendPortState

/-- The second hop is over the link of the first. -/
def OverLink (imap : SwImap) (loopStatus : PortId → LoopPortStatus) (sendPortState : Bool)
    (hop next : PathHop) : Prop :=
  Discovered imap loopStatus sendPortState (hop.elem.swAlias, next.elem.swAlias) hop.elem.link ∧
    hasFlag hop.elem.link.flags neighFlOnlink = true ∧
      hasFlag hop.elem.link.flags neighFlBlock = false ∧
    next.inPort = hop.elem.link.lb

/-- A route from `src` to `dest` whose links weigh `weight`. -/
structure ValidRoute (imap : SwImap) (loopStatus : PortId → LoopPortStatus) (sendPortState : Bool)
    (src dest : Nat) (weight : ℕ∞) (hops : List PathHop) : Prop where
  starts : hops.head?.map (fun hop => hop.elem.swAlias) = some src
  ends : hops.getLast?.map (fun hop => hop.elem.swAlias) = some dest
  nodup : (hops.map fun hop => hop.elem.swAlias).Nodup
  links : hops.IsChain (OverLink imap loopStatus sendPortState)
  firstHop : hops.map PathHop.firstHop = true :: List.replicate (hops.length - 1) false
  lastHop : hops.map PathHop.lastHop = List.replicate (hops.length - 1) false ++ [true]
  total : (hops.dropLast.map fun hop => hop.elem.link.weight).sum = weight

section Links

variable (imap : SwImap) (loopStatus : PortId → LoopPortStatus) (sendPortState : Bool)

/-- The first pair of each element is that of a discovered link, if there is any. -/
def FromLinks (rt : RtApsp) : Prop :=
  ∀ place, (rt.elems place).adjPairs 0 = disconnected.adjPairs 0 ∨
    Discovered imap loopStatus sendPortState place ((rt.elems place).adjPairs 0)

variable {imap loopStatus sendPortState}

theorem FromLinks.initNeighPair (filled : FromLinks imap loopStatus sendPortState rt)
    (src dst : Nat) :
    FromLinks imap loopStatus sendPortState
      (imap.initNeighPair loopStatus sendPortState rt src dst) := by
  unfold SwImap.initNeighPair
  split
  · rename_i fromSw toSw source target
    apply foldlRecOn _ _ filled
    intro rt filled port listed place
    have added :=
      routeApspAddNeighConn_spec rt src dst (rtNeighPair fromSw port loopStatus sendPortState)
    rcases (added.2.2 place).2 with kept | ⟨rfl, written⟩
    · rw [kept]
      exact filled place
    · rw [written]
      exact .inr ⟨fromSw, toSw, port, source, target, listed, rfl⟩
  · exact filled

theorem fromLinks_build (updates : List NeighUpdate) :
    FromLinks imap loopStatus sendPortState (imap.build loopStatus sendPortState updates) := by
  have start :
      FromLinks imap loopStatus sendPortState (imap.initState loopStatus sendPortState) := by
    unfold SwImap.initState
    split
    · exact fun _ => .inl rfl
    · rename_i last _
      have clear : FromLinks imap loopStatus sendPortState
          { init := true, nodes := last + 1, elems := fun _ => disconnected } := fun _ => .inl rfl
      exact foldlRecOn (aliasPairs (last + 1)) _ clear fun rt filled place _ =>
        filled.initNeighPair place.1 place.2
  apply foldlRecOn updates _ start
  intro rt filled update _
  rw [FromLinks, (routeApspAddNeighConn_update rt update.swA update.swB update.pair).2]
  exact filled

/-- Relaxing does not change the far port of a first pair either. -/
theorem fwElem_lb (mid : Nat) (elems : Nat × Nat → RtElem) (place : Nat × Nat) :
    ((fwElem mid elems place).adjPairs 0).lb = ((elems place).adjPairs 0).lb := by
  unfold fwElem
  dsimp only
  split
  · rfl
  split
  · split
    · simp [RtElem.setPair]
    · split <;> rfl
  · rfl

theorem lb_foldl (nodes : Nat) (elems : Nat × Nat → RtElem) (mids : List Nat) (place : Nat × Nat) :
    ((mids.foldl (fwStage nodes) elems place).adjPairs 0).lb = ((elems place).adjPairs 0).lb := by
  induction mids generalizing elems with
  | nil => rfl
  | cons mid rest ih =>
    rw [foldl_cons, ih, fwStage_eq]
    split
    · exact fwElem_lb mid elems place
    · rfl

private theorem pair_ext {two : LweightPair} (la : one.la = two.la) (lb : one.lb = two.lb)
    (weight : one.weight = two.weight) (flags : one.flags = two.flags) : one = two := by
  cases one
  cases two
  simp_all only

theorem rtNeighPair_unblocked
    (unblocked : hasFlag (rtNeighPair sw port loopStatus sendPortState).flags neighFlBlock =
      false) :
    (rtNeighPair sw port loopStatus sendPortState).weight = neighDflWeight := by
  unfold rtNeighPair at unblocked ⊢
  dsimp only at unblocked ⊢
  split
  · rename_i blocked
    rw [if_pos blocked] at unblocked
    exact absurd unblocked (by decide)
  · rfl

end Links

/-- What the expansion relies on in the weights. -/
structure Measured (rt : RtApsp) : Prop where
  least : ∀ i j, neighDflWeight ≤ rt.getWeight i j
  triangle : ∀ mid i j, i ≠ j → rt.getWeight i j ≤ rt.getWeight i mid + rt.getWeight mid j
  transits : ∀ i j, i ≠ j → ∀ mid ∈ (rt.elems (i, j)).swAlias,
    mid ≠ i ∧ mid ≠ j ∧ rt.getWeight i j ≠ ⊤ ∧
      rt.getWeight i mid + rt.getWeight mid j = rt.getWeight i j

section Calculated

variable {imap : SwImap} {loopStatus : PortId → LoopPortStatus} {sendPortState : Bool} {nodes : Nat}
    {rt : RtApsp}
  (started : Started loopStatus sendPortState nodes rt)
include started

/-- A link that routes may use has the least weight there is. -/
theorem Started.onlink_weight (onlink : rt.onlinkNeigh i j = true) :
    linkWeight rt.elems i j = neighDflWeight := by
  rcases started.known (i, j) with none | ⟨sw, port, -, sent⟩
  · exact absurd onlink (onlinkNeigh_of_clear (congrArg LweightPair.flags none))
  · rw [RtApsp.onlinkNeigh, Bool.and_eq_true, Bool.not_eq_true', RtApsp.getPair, sent] at onlink
    rw [linkWeight, sent]
    exact rtNeighPair_unblocked onlink.2

variable (ready : (rt.init && rt.adjInit) = true)
include ready

theorem Started.onlinkNeigh_calc (i j : Nat) :
    (routeApspCalc rt).onlinkNeigh i j = rt.onlinkNeigh i j := by
  have flags := (pair_foldl nodes rt.elems (range nodes) (i, j)).2
  rw [← started.run ready] at flags
  rw [RtApsp.onlinkNeigh, RtApsp.onlinkNeigh, RtApsp.getPair, RtApsp.getPair, flags]

theorem Started.measured : Measured (routeApspCalc rt) := by
  obtain ⟨-, relaxed⟩ := started.calculated ready
  have triangle : ∀ mid i j, i ≠ j → (routeApspCalc rt).getWeight i j ≤
      (routeApspCalc rt).getWeight i mid + (routeApspCalc rt).getWeight mid j := by
    intro mid i j different
    by_cases inside : mid < nodes
    · exact relaxed.triangle mid (by simpa using inside) i j different
    · -- No path leads through a node beyond the last alias.
      have top := started.bounded.foldl (range nodes) (i, mid) fun within => inside within.2
      rw [← started.run ready] at top
      exact le_of_le_of_eq le_top (ENat.add_eq_top.mpr (.inl top)).symm
  refine ⟨started.weights_least ready, triangle, ?_⟩
  intro i j different mid member
  obtain ⟨first, last, finite, detour⟩ := relaxed.transits i j different mid member
  exact ⟨first, last, finite, le_antisymm detour (triangle mid i j different)⟩

theorem Started.getWeight_onlink (onlink : rt.onlinkNeigh i j = true) :
    (routeApspCalc rt).getWeight i j = neighDflWeight := by
  apply le_antisymm
  · exact ((started.calculated ready).1.below i j).trans (started.onlink_weight onlink).le
  · exact (started.measured ready).least i j

/-- A link that routes may use has its own weight still. -/
theorem Started.onlink_pair (filled : FromLinks imap loopStatus sendPortState rt)
    (onlink : (routeApspCalc rt).onlinkNeigh i j = true) :
    Discovered imap loopStatus sendPortState (i, j) ((routeApspCalc rt).getPair i j) := by
  obtain ⟨la, flags⟩ := pair_foldl nodes rt.elems (range nodes) (i, j)
  have lb := lb_foldl nodes rt.elems (range nodes) (i, j)
  rw [← started.run ready] at la flags lb
  rw [started.onlinkNeigh_calc ready] at onlink
  have weight := (started.getWeight_onlink ready onlink).trans (started.onlink_weight onlink).symm
  rw [RtApsp.getPair, pair_ext la lb weight flags]
  exact (filled (i, j)).resolve_left fun none =>
    absurd onlink (onlinkNeigh_of_clear (congrArg LweightPair.flags none))

end Calculated

/-- A route over links that may be used, without the element of its last switch. -/
inductive Follows (rt : RtApsp) : Nat → Nat → Route → Prop where
  | last {src dest : Nat} (onlink : rt.onlinkNeigh src dest = true) :
      Follows rt src dest [⟨src, rt.getPair src dest⟩]
  | step {src next dest : Nat} {rest : Route} (onlink : rt.onlinkNeigh src next = true)
      (follows : Follows rt next dest rest) :
        Follows rt src dest (⟨src, rt.getPair src next⟩ :: rest)

variable {src dest : Nat}

theorem Follows.append (one : Follows rt src mid first) (two : Follows rt mid dest rest) :
    Follows rt src dest (first ++ rest) := by
  induction one with
  | last onlink => exact .step onlink two
  | step onlink _ ih => exact .step onlink (ih two)

def routeWeight (route : Route) : ℕ∞ := (route.map fun elem => elem.link.weight).sum

theorem routeWeight_append (first rest : Route) :
    routeWeight (first ++ rest) = routeWeight first + routeWeight rest := by
  simp [routeWeight]

/-- A route that weighs no more than the distance of its ends. -/
structure ShortestRoute (rt : RtApsp) (src dest : Nat) (route : Route) : Prop where
  follows : Follows rt src dest route
  weight : routeWeight route = rt.getWeight src dest

variable {route : Route}

section Expansion

variable {rt : RtApsp} (measured : Measured rt)
include measured

theorem routeApspGetSubp_shortest (fuel : Nat) (different : src ≠ dest) (maxHops : Nat) :
    ∀ route ∈ (routeApspGetSubp rt fuel src dest maxHops).1, ShortestRoute rt src dest route := by
  refine routeApspGetSubp_collects ?_ ?_ fuel different maxHops
  · intro src dest _ onlink
    exact ⟨.last onlink, by simp [routeWeight, RtApsp.getWeight]⟩
  · intro src mid dest first rest different transit _ one two
    refine ⟨one.follows.append two.follows, ?_⟩
    rw [routeWeight_append, one.weight, two.weight]
    exact (measured.transits src dest different mid transit).2.2.2

theorem distance_le_step (src next dest : Nat) :
    distance rt dest src ≤ rt.getWeight src next + distance rt dest next := by
  by_cases here : src = dest
  · rw [distance, if_pos here]
    exact zero_le
  by_cases there : next = dest
  · rw [distance, if_neg here, distance, if_pos there, there, add_zero]
  · rw [distance, if_neg here, distance, if_neg there]
    exact measured.triangle next src dest here

theorem Follows.distance_le (follows : Follows rt src dest route) :
    distance rt dest src ≤ routeWeight route := by
  induction follows with
  | @last src dest _ =>
    have step := distance_le_step measured src dest dest
    simpa [distance, routeWeight, RtApsp.getWeight] using step
  | @step src next dest rest _ _ ih =>
    have step := distance_le_step measured src next dest
    calc distance rt dest src ≤ rt.getWeight src next + distance rt dest next := step
      _ ≤ rt.getWeight src next + routeWeight rest := by gcongr
      _ = _ := by simp [routeWeight, RtApsp.getWeight]

/-- On a shortest route every switch is closer to the destination than the one before. -/
theorem Follows.nodup (follows : Follows rt src dest route)
    (short : routeWeight route = distance rt dest src) (finite : distance rt dest src ≠ ⊤) :
    (route.map RtPathElem.swAlias ++ [dest]).Nodup ∧
      ∀ node ∈ route.map RtPathElem.swAlias, distance rt dest node ≤ distance rt dest src := by
  have away : ∀ node, 0 < distance rt dest node → node ≠ dest := by
    rintro node positive rfl
    simp [distance] at positive
  induction follows with
  | @last src dest _ =>
    have positive : 0 < distance rt dest src := by
      rw [← short]
      simpa [routeWeight, RtApsp.getWeight]
        using lt_of_lt_of_le (by decide) (measured.least src dest)
    simpa using away src positive
  | @step src next dest rest _ follows ih =>
    have whole : rt.getWeight src next + routeWeight rest = distance rt dest src := by
      rw [← short]
      simp [routeWeight, RtApsp.getWeight]
    have leg : rt.getWeight src next ≠ ⊤ := ne_top_of_le_ne_top finite (whole ▸ le_self_add)
    have closer : routeWeight rest = distance rt dest next := by
      apply le_antisymm _ (follows.distance_le measured)
      have step := distance_le_step measured src next dest
      rw [← whole] at step
      exact (ENat.add_le_add_iff_left leg).mp step
    have remaining : distance rt dest next ≠ ⊤ := by
      rw [← closer]
      exact ne_top_of_le_ne_top finite (whole ▸ le_add_self)
    obtain ⟨distinct, near⟩ := ih closer remaining away
    have falls : distance rt dest next < distance rt dest src := by
      rw [← whole, closer]
      calc distance rt dest next = 0 + distance rt dest next := (zero_add _).symm
        _ < _ := (ENat.add_lt_add_iff_right remaining).mpr
          (lt_of_lt_of_le (by decide) (measured.least src next))
    refine ⟨?_, ?_⟩
    · rw [map_cons, cons_append, nodup_cons]
      refine ⟨?_, distinct⟩
      intro again
      rcases mem_append.mp again with inside | last
      · exact absurd (near src inside) (not_le.mpr falls)
      · exact away src (lt_of_le_of_lt zero_le falls) (mem_singleton.mp last)
    · intro node member
      rcases mem_cons.mp member with rfl | inside
      · exact le_rfl
      · exact (near node inside).trans falls.le

end Expansion

theorem prepHops_elem (prev : Option RtPathElem) (route : Route) :
    (prepHops prev route).map PathHop.elem = route := by
  induction route generalizing prev with
  | nil => rfl
  | cons elem rest ih => rw [prepHops, map_cons, ih]

theorem prepHops_firstHop (elem : RtPathElem) (rest : Route) :
    (prepHops none (elem :: rest)).map PathHop.firstHop = true :: replicate rest.length false := by
  have later : ∀ prev,
      (prepHops (some prev) rest).map PathHop.firstHop = replicate rest.length false := by
    induction rest with
    | nil => exact fun _ => rfl
    | cons elem rest ih =>
      intro prev
      rw [prepHops, map_cons, ih, length_cons]
      rfl
  rw [prepHops, map_cons, later]
  rfl

theorem prepHops_lastHop (prev : Option RtPathElem) (route : Route) (last : RtPathElem) :
    (prepHops prev (route ++ [last])).map PathHop.lastHop = replicate route.length false ++
      [true] := by
  induction route generalizing prev with
  | nil => rfl
  | cons elem rest ih =>
    rw [cons_append, prepHops, map_cons, ih, length_cons, replicate_succ]
    simp

theorem prepHops_chain (prev : Option RtPathElem) (chain : route.IsChain linked) :
    (prepHops prev route).IsChain fun hop next =>
      linked hop.elem next.elem ∧ next.inPort = hop.elem.link.lb := by
  induction route generalizing prev with
  | nil => exact .nil
  | cons elem rest ih =>
    cases rest with
    | nil => exact .singleton _
    | cons next more =>
      rw [isChain_cons_cons] at chain
      exact isChain_cons_cons.mpr ⟨⟨chain.1, rfl⟩, ih (some elem) chain.2⟩

theorem Follows.head (follows : Follows rt src dest route) :
    ∃ pair rest, route = ⟨src, pair⟩ :: rest := by
  cases follows with
  | last | step => exact ⟨_, _, rfl⟩

/-- Each element of a route and the next are over a link that may be used. -/
theorem Follows.chain (follows : Follows rt src dest route) :
    (route ++ [lastElem dest]).IsChain fun elem next =>
      rt.onlinkNeigh elem.swAlias next.swAlias = true ∧
        elem.link = rt.getPair elem.swAlias next.swAlias := by
  induction follows with
  | last onlink => exact isChain_cons_cons.mpr ⟨⟨onlink, rfl⟩, .singleton _⟩
  | step onlink follows ih =>
    obtain ⟨pair, rest, rfl⟩ := follows.head
    exact isChain_cons_cons.mpr ⟨⟨onlink, rfl⟩, ih⟩

theorem sameNodeEntry_leaves (leaves : Leaves route) (dest : Nat) :
    sameNodeEntry dest route = some (prepHops none (route ++ [lastElem dest])) := by
  have checked : routePrepOut (route ++ [lastElem dest]) = true := by
    rw [routePrepOut, dropLast_concat, all_eq_true]
    exact fun elem member => by simpa using leaves.2 elem member
  have kept : route.isEmpty = false := by simpa using leaves.1
  rw [sameNodeEntry, if_pos checked, kept, if_neg Bool.false_ne_true]

theorem sameNodeEntry_nil (dest : Nat) : sameNodeEntry dest [] = some [] := rfl

/-- Nothing is freed when every route leaves its switches by ports. -/
theorem sameNodeList_leaves {routes : List Route}
    (leaves : ∀ route ∈ routes, route = [] ∨ Leaves route) (dest : Nat) :
    sameNodeList dest routes = routes.map (sameNodeEntry dest) := by
  have kept : (routes.map (sameNodeEntry dest)).all Option.isSome = true := by
    rw [all_map, all_eq_true]
    intro route member
    rcases leaves route member with rfl | leaving
    · rfl
    · rw [Function.comp_apply, sameNodeEntry_leaves leaving]
      rfl
  rw [sameNodeList, if_pos kept]

section Valid

variable {imap : SwImap} {loopStatus : PortId → LoopPortStatus} {sendPortState : Bool} {nodes : Nat}
    {rt : RtApsp}
  (started : Started loopStatus sendPortState nodes rt) (ready : (rt.init && rt.adjInit) = true)
  (filled : FromLinks imap loopStatus sendPortState rt)
include started ready filled

theorem ShortestRoute.valid (different : src ≠ dest)
    (finite : (routeApspCalc rt).getWeight src dest ≠ ⊤)
    (shortest : ShortestRoute (routeApspCalc rt) src dest route) :
    ValidRoute imap loopStatus sendPortState src dest ((routeApspCalc rt).getWeight src dest)
      (prepHops none (route ++ [lastElem dest])) := by
  have measured := started.measured ready
  have elems := prepHops_elem none (route ++ [lastElem dest])
  have nodes_eq : (prepHops none (route ++ [lastElem dest])).map (fun hop => hop.elem.swAlias) =
      route.map RtPathElem.swAlias ++ [dest] := by
    have mapped := congrArg (map RtPathElem.swAlias) elems
    rw [map_map, map_append] at mapped
    exact mapped
  have size : (prepHops none (route ++ [lastElem dest])).length = route.length + 1 := by
    rw [← length_map PathHop.elem, elems, length_append, length_singleton]
  have apart : distance (routeApspCalc rt) dest src = (routeApspCalc rt).getWeight src dest :=
    if_neg different
  refine ⟨?_, ?_, ?_, ?_, ?_, ?_, ?_⟩
  · obtain ⟨pair, rest, rfl⟩ := shortest.follows.head
    rfl
  · rw [← getLast?_map, nodes_eq, getLast?_concat]
  · rw [nodes_eq]
    exact (shortest.follows.nodup measured (shortest.weight.trans apart.symm) (apart ▸ finite)).1
  · refine (prepHops_chain none shortest.follows.chain).imp ?_
    rintro hop next ⟨⟨onlink, link⟩, inPort⟩
    have discovered := started.onlink_pair ready filled onlink
    rw [RtApsp.onlinkNeigh, Bool.and_eq_true, Bool.not_eq_true', ← link] at onlink
    rw [← link] at discovered
    exact ⟨discovered, onlink.1, onlink.2, inPort⟩
  · obtain ⟨pair, rest, rfl⟩ := shortest.follows.head
    rw [size, cons_append, prepHops_firstHop]
    simp
  · rw [size, prepHops_lastHop]
    rfl
  · have links := congrArg (fun list => (list.dropLast.map fun elem => elem.link.weight).sum) elems
    simp only [dropLast_concat, ← map_dropLast, map_map] at links
    rw [← shortest.weight]
    exact links

end Valid

theorem routeSelectSingle_mem (routes : List Route) (hint : Nat) :
    routeSelectSingle routes hint = [] ∨ routeSelectSingle routes hint ∈ routes := by
  rw [routeSelectSingle]
  cases found : routes[hint]? with
  | none => exact .inl rfl
  | some route => exact .inr (mem_of_getElem? found)

/-- The routes of a list were all expanded, but for a single `NULL`. -/
theorem mem_routes_of_returned {rt : RtApsp} (different : src ≠ dest)
    (returned : routeApspGetMpSpList dpidWithAlias rt mpSelect bpairs src dest = some list) :
    rt.getWeight src dest ≠ ⊤ ∧ ∃ routes, list = sameNodeList dest routes ∧ ∀ route ∈ routes,
      route = [] ∧ bpairs = false ∨
        route ∈ (routeApspGetSubp rt maxHopsPerRoute src dest maxHopsPerRoute).1 := by
  rw [routeApspGetMpSpList, if_neg different] at returned
  split at returned
  · cases returned
  split at returned
  · cases returned
  split at returned
  · cases returned
  rename_i finite
  dsimp only at returned
  split at returned
  · cases returned
  refine ⟨finite, _, (Option.some.inj returned).symm, ?_⟩
  intro route member
  cases bpairs with
  | true => exact .inr member
  | false =>
    rw [if_neg Bool.false_ne_true, mem_singleton] at member
    rw [member]
    exact (routeSelectSingle_mem ..).imp_left fun none => ⟨none, rfl⟩

/-- Every route that is returned for two different switches of converged matrices is valid. -/
theorem routeApspGetMpSpList_valid (imap : SwImap) (loopStatus : PortId → LoopPortStatus)
    (sendPortState : Bool) (updates : List NeighUpdate) (dpidWithAlias : Nat → Dpid)
    (mpSelect : Option (Nat → Nat)) (bpairs : Bool)
    (converged : (routeApspCalc (imap.build loopStatus sendPortState updates)).converged = true)
    {src dest : Nat} (different : src ≠ dest) {list : List (Option (List PathHop))}
    (returned : routeApspGetMpSpList dpidWithAlias
      (routeApspCalc (imap.build loopStatus sendPortState updates))
      mpSelect bpairs src dest = some list) :
    ∀ entry ∈ list, ∃ hops, entry = some hops ∧ (hops = [] ∧ bpairs = false ∨
      ValidRoute imap loopStatus sendPortState src dest
        ((routeApspCalc (imap.build loopStatus sendPortState updates)).getWeight src dest)
          hops) := by
  obtain ⟨nodes, -, started⟩ := started_build imap loopStatus sendPortState updates
  have ready := ready_of_converged converged
  have shortest :=
    routeApspGetSubp_shortest (started.measured ready) maxHopsPerRoute different maxHopsPerRoute
  have leaves :=
    routeApspGetSubp_leaves (started.expandable ready) maxHopsPerRoute different maxHopsPerRoute
  obtain ⟨finite, routes, rfl, expanded⟩ := mem_routes_of_returned different returned
  rw [sameNodeList_leaves fun route member => (expanded route member).imp And.left (leaves route)]
  intro entry member
  obtain ⟨route, inside, rfl⟩ := mem_map.mp member
  rcases expanded route inside with ⟨rfl, single⟩ | found
  · exact ⟨[], sameNodeEntry_nil dest, .inl ⟨rfl, single⟩⟩
  · exact ⟨_, sameNodeEntry_leaves (leaves route found) dest,
      .inr ((shortest route found).valid started ready (fromLinks_build updates) different finite)⟩

/-- A square of four switches with a fifth behind one corner. -/
def kiteNeighbors : Nat → List Nat
  | 0 => [1, 3]
  | 1 => [0, 2]
  | 2 => [1, 3, 4]
  | 3 => [0, 2]
  | 4 => [2]
  | _ => []

/-- Each switch has one port for each neighbour, numbered by its alias. -/
def kiteSwitch (node : Nat) : LldpSwitch :=
  let port (far : Nat) : LldpPort :=
    { portNo := BitVec.ofNat 16 (far + 1), status := .neighbor
      neighborPort := BitVec.ofNat 16 (node + 1)
      neighborDpid := BitVec.ofNat 64 (far + 1) }
  { dpid := BitVec.ofNat 64 (node + 1), aliasId := node, ports := (kiteNeighbors node).map port
    neighbors := (kiteNeighbors node).map fun far => (BitVec.ofNat 64 (far + 1), [port far]) }

def kiteImap : SwImap where
  sw node := if node < 5 then some (kiteSwitch node) else none
  maxSwAlias := some 4
  range last found := by
    cases found
    decide
  numbered := numbered_below (by decide)

/-- Two routes lead to the opposite corner of the square. -/
theorem kite_routes_valid :
    ∃ list, routeApspGetMpSpList (fun _ => 1)
      (routeApspCalc (kiteImap.build (fun _ => .none) true [])) none true 0 2 =
        some list ∧ list.length = 2 ∧
      ∀ entry ∈ list, ∃ hops, entry = some hops ∧ (hops = [] ∧ true = false ∨
        ValidRoute kiteImap (fun _ => .none) true 0 2
          ((routeApspCalc (kiteImap.build (fun _ => .none) true [])).getWeight 0 2) hops) := by
  have two : (routeApspGetMpSpList (fun _ => 1)
      (routeApspCalc (kiteImap.build (fun _ => .none) true [])) none true
      0 2).map length = some 2 := by decide +kernel
  obtain ⟨list, returned, two⟩ := Option.map_eq_some_iff.mp two
  exact ⟨list, returned, two,
    routeApspGetMpSpList_valid kiteImap (fun _ => .none) true [] (fun _ => 1) none true
    (by decide) (by decide) returned⟩

end OpenMul.Topo
