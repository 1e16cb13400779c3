import OpenMul.Topo.RouteInvariant
import OpenMul.Topo.ShortestPath

namespace OpenMul.Topo

open Lib FloydWarshall List

/-- `mul_route_select_single_and_purge_list`. -/
def routeSelectSingle (routes : List Route) (hint : Nat) : Route := (routes[hint]?).getD []

/-- From the label `route_same_node` on. The last hop is appended to a copy of
the list head, so it reaches the list only if that was not `NULL`. -/
def routeSameNode (dest : Nat) (route : Route) : Route :=
  let full := route ++ [⟨dest, ⟨neighNoLink, neighNoLink, ⊤, 0⟩⟩]
  let stored := if route.isEmpty then [] else full
  if routePrepOut full then stored else []

/-- `mul_route_apsp_get_mp_sp` of one route, before `mul_route_prep_out` marks its hops. -/
def routeApspGetMpSp (dpidWithAlias : Nat → Dpid) (rt : RtApsp) (mpSelect : Option (Nat → Nat))
    (src dest : Nat) : Option Route :=
  if src = dest then some (routeSameNode dest [])
  else if dpidWithAlias dest = 0 then none
  else if !rt.converged then none
  else if rt.getWeight src dest = ⊤ then none
  else
    let found := routeApspGetSubp rt maxHopsPerRoute src dest maxHopsPerRoute
    let hint := (mpSelect.map fun select => select found.1.length).getD 0
    let route := routeSelectSingle found.1 (if found.1.length ≤ hint then 0 else hint)
    if found.2 = 0 then none else some (routeSameNode dest route)

/-- `mul_route_apsp_get_sp`. -/
def routeApspGetRoute (dpidWithAlias : Nat → Dpid) (rt : RtApsp) (src dest : Nat) : Route :=
  (routeApspGetMpSp dpidWithAlias rt none src dest).getD []

/-- Loop detection has the route that the callers of the library get, unless that is empty. -/
theorem routeApspGetSp_eq_some_iff (topo : Topology) (rt : RtApsp) (src dest : Nat)
    (route : Route) :
    routeApspGetSp topo rt src dest = some route ↔
      routeApspGetRoute (appSwitchGetDpidWithAlias topo) rt src dest = route ∧ route ≠ [] := by
  unfold routeApspGetSp routeApspGetRoute routeApspGetMpSp routeSameNode
  generalize (⟨dest, ⟨neighNoLink, neighNoLink, ⊤, 0⟩⟩ : RtPathElem) = last
  by_cases same : src = dest
  · simp [same]
  by_cases absent : appSwitchGetDpidWithAlias topo dest = 0#64
  · simp [same, absent]
  by_cases early : rt.converged = false
  · simp [same, absent, early]
  by_cases far : rt.getWeight src dest = ⊤
  · simp [same, absent, early, far]
  generalize routeApspGetSubp rt maxHopsPerRoute src dest maxHopsPerRoute = found
  obtain ⟨routes, left⟩ := found
  by_cases spent : left = 0
  · simp [same, absent, early, far, spent]
  match routes with
  | [] | [] :: _ => simp [same, absent, early, far, spent, routeSelectSingle]
  | (first :: rest) :: others =>
    by_cases checked : routePrepOut (first :: (rest ++ [last])) = true
    · have filled : first :: (rest ++ [last]) = route → route ≠ [] := by
        rintro rfl
        exact cons_ne_nil first _
      simpa [same, absent, early, far, spent, routeSelectSingle, checked] using filled
    · simp [same, absent, early, far, spent, routeSelectSingle, checked]

/-- The transit switches recorded for a pair lead down to first pairs that are
on link and not blocked. -/
inductive Unfolds (rt : RtApsp) : Nat → Nat → Prop where
  | direct {src dest : Nat} (onlink : rt.onlinkNeigh src dest = true)
      (free : (rt.elems (src, dest)).swAlias.length < rtMaxEqPaths) : Unfolds rt src dest
  | via {src mid dest : Nat} (transit : mid ∈ (rt.elems (src, dest)).swAlias)
      (first : Unfolds rt src mid) (second : Unfolds rt mid dest) : Unfolds rt src dest

/-- The calls of `mul_route_apsp_get_subp` that expand a pair over all its
equal-cost branches, to the depth given. -/
def subpCalls (rt : RtApsp) : Nat → Nat → Nat → Nat
  | 0, _, _ => 0
  | depth + 1, src, dest =>
    1 + ((rt.elems (src, dest)).swAlias.map
      fun mid => subpCalls rt depth src mid + subpCalls rt depth mid dest).sum

/-- What the expansion relies on in the matrices. -/
structure Expandable (rt : RtApsp) : Prop where
  transits : ∀ i j, i ≠ j → ∀ mid ∈ (rt.elems (i, j)).swAlias, mid ≠ i ∧ mid ≠ j ∧
    rt.getWeight i j ≠ ⊤
  slots : ∀ i j, (rt.elems (i, j)).swAlias.length ≤ rtMaxEqPaths
  onlink : ∀ i j, rt.onlinkNeigh i j = true → rt.getWeight i j ≠ ⊤ ∧
    (rt.getPair i j).la ≠ neighNoLink

/-- The slots of a pair, none of which ends the loop early. -/
structure Slots (src dest n : Nat) (slots : List Nat) : Prop where
  room : n + slots.length ≤ rtMaxEqPaths
  apart : ∀ mid ∈ slots, mid ≠ src ∧ mid ≠ dest

variable {src dest n : Nat}

theorem Slots.tail (slots : Slots src dest n (mid :: rest)) : Slots src dest (n + 1) rest := by
  have room := slots.room
  rw [length_cons] at room
  exact ⟨by omega, fun other member => slots.apart other (mem_cons_of_mem mid member)⟩

theorem Slots.round (slots : Slots src dest n (mid :: rest)) (path : List Route) (maxHops : Nat) :
    routeApspSubpLoop rt subp src dest n (mid :: rest) path maxHops =
      routeApspSubpLoop rt subp src dest (n + 1) rest
        (routeListMerge path (subp src mid maxHops).1 (subp mid dest (subp src mid maxHops).2).1)
        (subp mid dest (subp src mid maxHops).2).2 := by
  have room := slots.room
  obtain ⟨first, last⟩ := slots.apart mid mem_cons_self
  rw [length_cons] at room
  rw [routeApspSubpLoop, if_neg]
  rintro (full | same | same)
  · omega
  · exact first same.symm
  · exact last same.symm

theorem Expandable.slotsOf (expandable : Expandable rt) (different : src ≠ dest) :
    Slots src dest 0 (rt.elems (src, dest)).swAlias where
  room := by simpa using expandable.slots src dest
  apart mid member :=
    have transit := expandable.transits src dest different mid member
    ⟨transit.1, transit.2.1⟩

section Loop

variable {rt : RtApsp} {subp : Nat → Nat → Nat → List Route × Nat} {cost : Nat → Nat → Nat}
  (spent : ∀ src dest maxHops, src ≠ dest → (subp src dest maxHops).2 = maxHops - cost src dest)
include spent

theorem routeApspSubpLoop_spent (usable : Slots src dest n slots) (path : List Route)
    (maxHops : Nat) : (routeApspSubpLoop rt subp src dest n slots path maxHops).2 =
      maxHops - (slots.map fun mid => cost src mid + cost mid dest).sum := by
  induction slots generalizing n path maxHops with
  | nil => rfl
  | cons mid rest ih =>
    obtain ⟨first, last⟩ := usable.apart mid mem_cons_self
    rw [usable.round, ih usable.tail, spent mid dest _ last, spent src mid _ first.symm, map_cons,
      sum_cons]
    omega

end Loop

theorem routeApspGetSubp_spent (expandable : Expandable rt) (fuel : Nat) (different : src ≠ dest)
    (maxHops : Nat) :
    (routeApspGetSubp rt fuel src dest maxHops).2 = maxHops - subpCalls rt fuel src dest := by
  induction fuel generalizing src dest maxHops with
  | zero => rfl
  | succ fuel ih =>
    rw [routeApspGetSubp, subpCalls]
    split
    · omega
    · rw [routeApspSubpLoop_spent (fun _ _ hops apart => ih apart hops)
        (expandable.slotsOf different)]
      omega

theorem routeListMerge_ne_nil : routeListMerge path ik kj ≠ [] ↔ path ≠ [] ∨ ik ≠ [] ∧ kj ≠ [] := by
  cases ik with
  | nil => simp [routeListMerge]
  | cons first others =>
    unfold routeListMerge
    dsimp only
    induction kj generalizing path with
    | nil => simp
    | cons last more ih =>
      simp

/-- A loop with hops to spare finds what its transit switches or the direct
link give. -/
theorem routeApspSubpLoop_ne_nil {subp : Nat → Nat → Nat → List Route × Nat}
    {cost : Nat → Nat → Nat} {bound : Nat}
    (spent : ∀ src dest maxHops, src ≠ dest → (subp src dest maxHops).2 = maxHops - cost src dest)
    (found : ∀ src dest maxHops, src ≠ dest → maxHops ≤ bound → cost src dest < maxHops →
      ((subp src dest maxHops).1 ≠ [] ↔ Unfolds rt src dest))
    {slots : List Nat} (usable : Slots src dest n slots) (path : List Route) {maxHops : Nat}
    (small : maxHops ≤ bound)
    (enough : (slots.map fun mid => cost src mid + cost mid dest).sum < maxHops) :
    (routeApspSubpLoop rt subp src dest n slots path maxHops).1 ≠ [] ↔
      path ≠ [] ∨ (∃ mid ∈ slots, Unfolds rt src mid ∧ Unfolds rt mid dest) ∨
        n + slots.length < rtMaxEqPaths ∧ rt.onlinkNeigh src dest = true := by
  induction slots generalizing n path maxHops with
  | nil =>
    rw [routeApspSubpLoop]
    by_cases direct : n < rtMaxEqPaths ∧ rt.onlinkNeigh src dest = true
    · simp [direct.1, direct.2]
    · simp [direct]
  | cons mid rest ih =>
    obtain ⟨first, last⟩ := usable.apart mid mem_cons_self
    rw [map_cons, sum_cons] at enough
    have left := spent src mid maxHops first.symm
    have right := spent mid dest (subp src mid maxHops).2 last
    have head := found src mid maxHops first.symm small (by omega)
    have tail := found mid dest (subp src mid maxHops).2 last (by omega) (by omega)
    rw [usable.round, ih usable.tail _ (by omega) (by omega), routeListMerge_ne_nil, head, tail]
    simp only [mem_cons, exists_eq_or_imp, length_cons]
    rw [show n + 1 + rest.length = n + (rest.length + 1) by omega]
    simp [or_assoc]

theorem routeApspGetSubp_ne_nil (expandable : Expandable rt) (fuel : Nat) (different : src ≠ dest)
    (small : maxHops ≤ fuel) (enough : subpCalls rt fuel src dest < maxHops) :
    (routeApspGetSubp rt fuel src dest maxHops).1 ≠ [] ↔ Unfolds rt src dest := by
  induction fuel generalizing src dest maxHops with
  | zero => omega
  | succ fuel ih =>
    rw [subpCalls] at enough
    rw [routeApspGetSubp, if_neg (by omega),
      routeApspSubpLoop_ne_nil
        (fun _ _ hops apart => routeApspGetSubp_spent expandable fuel apart hops)
        (fun _ _ hops apart small enough => ih apart small enough) (expandable.slotsOf different) []
        (show maxHops - 1 ≤ fuel by omega) (by omega), Nat.zero_add]
    constructor
    · rintro (none | ⟨mid, transit, first, second⟩ | ⟨free, onlink⟩)
      · exact absurd rfl none
      · exact .via transit first second
      · exact .direct onlink free
    · intro unfolds
      cases unfolds with
      | direct onlink free => exact .inr (.inr ⟨free, onlink⟩)
      | via transit first second => exact .inr (.inl ⟨_, transit, first, second⟩)

/-- A route that leaves every one of its switches by a port. -/
def Leaves (route : Route) : Prop := route ≠ [] ∧ ∀ elem ∈ route, elem.link.la ≠ neighNoLink

theorem Leaves.append (one : Leaves first) (two : Leaves rest) : Leaves (first ++ rest) := by
  refine ⟨append_ne_nil_of_left_ne_nil one.1 rest, fun elem member => ?_⟩
  rcases mem_append.mp member with inside | inside
  · exact one.2 elem inside
  · exact two.2 elem inside

theorem routeApspGetSubp_leaves (expandable : Expandable rt) (fuel : Nat) (different : src ≠ dest)
    (maxHops : Nat) : ∀ route ∈ (routeApspGetSubp rt fuel src dest maxHops).1, Leaves route := by
  refine @routeApspGetSubp_collects src dest rt (fun _ _ => Leaves) ?_ ?_ fuel different maxHops
  · intro src dest _ onlink
    exact ⟨cons_ne_nil _ _, by simpa using (expandable.onlink src dest onlink).2⟩
  · intro src mid dest first rest _ _ _ one two
    exact one.append two

theorem routeSameNode_nil (dest : Nat) : routeSameNode dest [] = [] := by
  simp [routeSameNode]

theorem routeSameNode_ne_nil (leaves : Leaves route) (dest : Nat) :
    routeSameNode dest route ≠ [] := by
  have checked : routePrepOut (route ++ [⟨dest, ⟨neighNoLink, neighNoLink, ⊤, 0⟩⟩]) = true := by
    rw [routePrepOut, dropLast_concat, all_eq_true]
    exact fun elem member => by simpa using leaves.2 elem member
  have kept : route.isEmpty = false := by simpa using leaves.1
  unfold routeSameNode
  rw [if_pos checked, kept]
  exact append_ne_nil_of_left_ne_nil leaves.1 _

theorem Unfolds.finite (expandable : Expandable rt) (different : src ≠ dest)
    (unfolds : Unfolds rt src dest) : rt.getWeight src dest ≠ ⊤ := by
  cases unfolds with
  | direct onlink => exact (expandable.onlink src dest onlink).1
  | via transit => exact (expandable.transits src dest different _ transit).2.2

/-- A route is found exactly if the pair unfolds within the hops. -/
theorem routeApspGetRoute_ne_nil (expandable : Expandable rt) (converged : rt.converged = true)
    (dpidWithAlias : Nat → Dpid) (src dest : Nat) :
    routeApspGetRoute dpidWithAlias rt src dest ≠ [] ↔
      src ≠ dest ∧ dpidWithAlias dest ≠ 0 ∧ Unfolds rt src dest ∧
        subpCalls rt maxHopsPerRoute src dest < maxHopsPerRoute := by
  unfold routeApspGetRoute routeApspGetMpSp
  by_cases same : src = dest
  · rw [if_pos same, routeSameNode_nil]
    exact iff_of_false (by simp) fun condition => condition.1 same
  rw [if_neg same]
  by_cases unknown : dpidWithAlias dest = 0
  · rw [if_pos unknown]
    exact iff_of_false (by simp) fun condition => condition.2.1 unknown
  rw [if_neg unknown, converged, Bool.not_true, if_neg Bool.false_ne_true]
  by_cases finite : rt.getWeight src dest = ⊤
  · rw [if_pos finite]
    exact iff_of_false (by simp) fun condition => condition.2.2.1.finite expandable same finite
  rw [if_neg finite]
  have budget := routeApspGetSubp_spent expandable maxHopsPerRoute same maxHopsPerRoute
  by_cases enough : subpCalls rt maxHopsPerRoute src dest < maxHopsPerRoute
  · rw [if_neg (by omega)]
    have found := routeApspGetSubp_ne_nil expandable maxHopsPerRoute same le_rfl enough
    have leaves := routeApspGetSubp_leaves expandable maxHopsPerRoute same maxHopsPerRoute
    refine Iff.trans ?_ (found.trans ⟨fun unfolds => ⟨same, unknown, unfolds, enough⟩,
      fun condition => condition.2.2.1⟩)
    cases routes : (routeApspGetSubp rt maxHopsPerRoute src dest maxHopsPerRoute).1 with
    | nil => simp [routeSelectSingle, routeSameNode_nil]
    | cons first others =>
      rw [routes] at leaves
      exact iff_of_true (routeSameNode_ne_nil (leaves first mem_cons_self) dest) (cons_ne_nil _ _)
  · rw [if_pos (by omega)]
    exact iff_of_false (by simp) fun condition => enough condition.2.2.2

theorem rtNeighPair_port (sw : LldpSwitch) (port : LldpPort) (loopStatus : PortId → LoopPortStatus)
    (sendPortState : Bool) : (rtNeighPair sw port loopStatus sendPortState).la = port.portNo := rfl

theorem Started.expandable
    (started : Started loopStatus sendPortState nodes rt) (ready : (rt.init && rt.adjInit) = true) :
    Expandable (routeApspCalc rt) := by
  obtain ⟨walks, relaxed⟩ := started.calculated ready
  refine ⟨fun i j different mid member => ?_, fun i j => ?_, fun i j onlink => ?_⟩
  · obtain ⟨first, last, finite, -⟩ := relaxed.transits i j different mid member
    exact ⟨first, last, finite⟩
  · have few := @foldl_relax_transit _ _ (cells rt.elems) rtMaxEqPaths
      (fun i j => by rw [cells, started.transit]; exact Nat.zero_le _) (by decide) (range nodes) i j
    rw [← cells_foldl started.bounded, ← started.run ready] at few
    exact few
  · have pair := pair_foldl nodes rt.elems (range nodes) (i, j)
    rw [← started.run ready] at pair
    rcases started.known (i, j) with none | ⟨sw, port, numbered, sent⟩
    · exact absurd onlink (onlinkNeigh_of_clear (pair.2.trans (congrArg LweightPair.flags none)))
    · refine ⟨?_, ?_⟩
      · have light : linkWeight rt.elems i j ≤ heaviestLink := by
          rw [linkWeight, sent]
          exact rtNeighPair_light ..
        exact ne_top_of_le_ne_top (ENat.natCast_ne_top heaviestLink) ((walks.below i j).trans light)
      · intro none
        have port_eq : port.portNo = neighNoLink := by
          rw [← rtNeighPair_port sw port loopStatus sendPortState, ← sent, ← pair.1]
          exact none
        rw [port_eq] at numbered
        exact absurd numbered (by decide)

/-- Only a calculation that ran leaves converged matrices. -/
theorem ready_of_converged (converged : (routeApspCalc rt).converged = true) :
    (rt.init && rt.adjInit) = true := by
  unfold routeApspCalc RtApsp.converged at converged
  split at converged
  · assumption
  · rw [Bool.and_eq_true] at converged
    exact converged.1

namespace SwImap

variable (imap : SwImap) (loopStatus : PortId → LoopPortStatus) (sendPortState : Bool)

/-- Some port of the first switch leads to the second one and is not blocked. -/
def UnblockedLink (i j : Nat) : Prop :=
  ∃ last, imap.maxSwAlias = some last ∧ i ≤ last ∧ j ≤ last ∧
    ∃ fromSw toSw, imap.sw i = some fromSw ∧ imap.sw j = some toSw ∧
      ∃ port ∈ fromSw.portsTo toSw.dpid,
      hasFlag (rtNeighPair fromSw port loopStatus sendPortState).flags neighFlBlock = false

def Reachable : Nat → Nat → Prop :=
  Relation.ReflTransGen (imap.UnblockedLink loopStatus sendPortState)

end SwImap

/-- A reachable destination gets a route exactly if it is known, not the source,
and the pair unfolds within the hops. -/
theorem routeApspGetRoute_exists_iff (imap : SwImap) (loopStatus : PortId → LoopPortStatus)
    (sendPortState : Bool) (updates : List NeighUpdate) (dpidWithAlias : Nat → Dpid)
    (converged : (routeApspCalc (imap.build loopStatus sendPortState updates)).converged = true)
    (src dest : Nat) :
    (imap.Reachable loopStatus sendPortState src dest →
        routeApspGetRoute dpidWithAlias
          (routeApspCalc (imap.build loopStatus sendPortState updates)) src dest ≠ [] ∧
        (src = dest →
          (routeApspGetRoute dpidWithAlias
            (routeApspCalc (imap.build loopStatus sendPortState updates))
            src dest).length = 1)) ↔ (imap.Reachable loopStatus sendPortState src dest →
        src ≠ dest ∧ dpidWithAlias dest ≠ 0 ∧
        Unfolds (routeApspCalc (imap.build loopStatus sendPortState updates)) src dest ∧
        subpCalls (routeApspCalc (imap.build loopStatus sendPortState updates)) maxHopsPerRoute src
          dest < maxHopsPerRoute) := by
  obtain ⟨nodes, few, started⟩ := started_build imap loopStatus sendPortState updates
  have expandable := started.expandable (ready_of_converged converged)
  have found := routeApspGetRoute_ne_nil expandable converged dpidWithAlias src dest
  constructor
  · intro property reachable
    exact found.mp (property reachable).1
  · intro condition reachable
    exact ⟨found.mpr (condition reachable), fun same => absurd same (condition reachable).1⟩

theorem routeApspGetRoute_exists_line :
    (routeApspCalc (lineImap.build (fun _ => .none) true [])).converged = true ∧
    ((lineImap.Reachable (fun _ => .none) true 0 2 →
        routeApspGetRoute (fun _ => 1) (routeApspCalc (lineImap.build (fun _ => .none) true [])) 0
          2 ≠ [] ∧ (0 = 2 →
          (routeApspGetRoute (fun _ => 1) (routeApspCalc (lineImap.build (fun _ => .none) true []))
            0 2).length = 1)) ↔ (lineImap.Reachable (fun _ => .none) true 0 2 →
        0 ≠ 2 ∧ (1 : Dpid) ≠ 0 ∧
          Unfolds (routeApspCalc (lineImap.build (fun _ => .none) true [])) 0 2 ∧
        subpCalls (routeApspCalc (lineImap.build (fun _ => .none) true [])) maxHopsPerRoute 0 2 <
          maxHopsPerRoute)) :=
  ⟨by decide, routeApspGetRoute_exists_iff lineImap (fun _ => .none) true [] (fun _ =>
    1) (by decide) 0 2⟩

/-- Two switches with two links between them. -/
def twinSwitch (node : Nat) : LldpSwitch :=
  let port (portNo : PortNo) : LldpPort :=
    { portNo := portNo, status := .neighbor, neighborPort := portNo
      neighborDpid := BitVec.ofNat 64 (2 - node) }
  { dpid := BitVec.ofNat 64 (node + 1), aliasId := node, ports := [port 1, port 2]
    neighbors := [(BitVec.ofNat 64 (2 - node), [port 1, port 2])] }

def twinImap : SwImap where
  sw node := if node < 2 then some (twinSwitch node) else none
  maxSwAlias := some 1
  range last found := by
    cases found
    decide
  numbered := numbered_below (by decide)

/-- The loop detector blocked the first of the two links. -/
def twinStatus : PortId → LoopPortStatus := fun port => if port = (2, 1) then .ndp else .dp

theorem reachable_without_route :
    (routeApspCalc (twinImap.build twinStatus true [])).converged = true ∧
    (twinImap.Reachable twinStatus true 0 0 ∧
      routeApspGetRoute (fun _ => 1) (routeApspCalc (twinImap.build twinStatus true [])) 0 0 = []) ∧
    (twinImap.Reachable twinStatus true 1 0 ∧
      routeApspGetRoute (fun _ => 1) (routeApspCalc (twinImap.build twinStatus true [])) 1 0 =
        []) := by
  have link : twinImap.UnblockedLink twinStatus true 1 0 :=
    ⟨1, rfl, by decide, by decide, twinSwitch 1, twinSwitch 0, rfl, rfl, by decide⟩
  refine ⟨by decide, ⟨.refl, by decide⟩, .single link, by decide⟩

end OpenMul.Topo
