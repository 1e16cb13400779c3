import OpenMul.Topo.ApspInt

namespace OpenMul.Topo

open Lib FloydWarshall List

/-- What the routing module reads of the discovery state. Nothing is assumed of
the neighbour tables but that no port beyond `OFPP_MAX` was ever added. -/
structure SwImap where
  sw : Nat → Option LldpSwitch
  maxSwAlias : Option Nat
  range : ∀ last, maxSwAlias = some last → last < maxSwitchesPerCluster
  numbered : ∀ node fromSw, sw node = some fromSw → ∀ dpid, ∀ port ∈ fromSw.portsTo dpid,
    port.portNo ≤ ofppMax

/-- One call of `mul_loop_rt_neigh_conn_update`. -/
structure NeighUpdate where
  swA : Nat
  swB : Nat
  pair : LweightPair

namespace SwImap

variable (imap : SwImap) (loopStatus : PortId → LoopPortStatus) (sendPortState : Bool)

/-- `__lldp_init_neigh_pair_adjacencies`. -/
def initNeighPair (rt : RtApsp) (src dst : Nat) : RtApsp :=
  match imap.sw src, imap.sw dst with
  | some fromSw, some toSw =>
    (fromSw.portsTo toSw.dpid).foldl (fun rt port =>
      routeApspAddNeighConn rt src dst (rtNeighPair fromSw port loopStatus sendPortState) false) rt
  | _, _ => rt

/-- `mul_route_apsp_init_state`. -/
def initState : RtApsp :=
  match imap.maxSwAlias with
  | none => { elems := fun _ => disconnected }
  | some last =>
    let clear : RtApsp := { init := true, nodes := last + 1, elems := fun _ => disconnected }
    let filled := (aliasPairs (last + 1)).foldl (fun rt place =>
      imap.initNeighPair loopStatus sendPortState rt place.1 place.2) clear
    { filled with adjInit := true }

/-- The matrices after they were filled and the loop module reported blocked
links to them. -/
def build (updates : List NeighUpdate) : RtApsp :=
  updates.foldl (fun rt update => routeApspAddNeighConn rt update.swA update.swB update.pair true)
    (imap.initState loopStatus sendPortState)

end SwImap

/-- The index map of a consistent topology. -/
def Topology.imap (topo : Topology) : SwImap where
  sw := topo.switchFromImap
  maxSwAlias := topo.maxSwAlias
  range last found := by
    obtain ⟨member, -⟩ := List.max?_eq_some_iff.mp found
    obtain ⟨sw, inside, rfl⟩ := List.mem_map.mp member
    exact (topo.valid sw inside).2
  numbered node fromSw found dpid port listed := by
    have member := (Topology.switchFromImap_iff.mp found).1
    exact (topo.numbered fromSw member port ((Topology.mem_portsTo member).mp listed).1).2

/-- Through the index map of a topology the matrices are filled as from its switches. -/
theorem Topology.initState_imap (topo : Topology) (loopStatus : PortId → LoopPortStatus)
    (sendPortState : Bool) :
    topo.imap.initState loopStatus sendPortState =
      routeApspInitState topo loopStatus sendPortState := rfl

/-- A pair that `lldp_send_rt_neigh_conn` sends for some port. -/
def SentPair (loopStatus : PortId → LoopPortStatus) (sendPortState : Bool) (pair : LweightPair) :
    Prop :=
  ∃ sw port, port.portNo ≤ ofppMax ∧ pair = rtNeighPair sw port loopStatus sendPortState

theorem rtNeighPair_light (sw : LldpSwitch) (port : LldpPort) (loopStatus : PortId → LoopPortStatus)
    (sendPortState : Bool) :
    (rtNeighPair sw port loopStatus sendPortState).weight ≤ heaviestLink := by
  unfold rtNeighPair neighDflWeight heaviestLink
  dsimp only
  split <;> decide

/-- No path was looked for yet, and links are between the nodes of the matrix. -/
structure Started (loopStatus : PortId → LoopPortStatus) (sendPortState : Bool) (nodes : Nat)
    (rt : RtApsp) : Prop where
  size : rt.nodes = nodes
  transit : ∀ place, (rt.elems place).swAlias = []
  known : ∀ place, (rt.elems place).adjPairs 0 = disconnected.adjPairs 0 ∨
    SentPair loopStatus sendPortState ((rt.elems place).adjPairs 0)
  bounded : Bounded nodes rt.elems

section Started

variable {loopStatus : PortId → LoopPortStatus} {sendPortState : Bool} {nodes : Nat} {rt : RtApsp}

theorem started_clear (size : rt.nodes = nodes) (clear : rt.elems = fun _ => disconnected) :
    Started loopStatus sendPortState nodes rt where
  size := size
  transit := by simp [clear, disconnected]
  known _ := .inl (by rw [clear])
  bounded := by simp [Bounded, clear, disconnected]

variable (started : Started loopStatus sendPortState nodes rt)
include started

theorem Started.light (i j : Nat) : AtMost heaviestLink (linkWeight rt.elems i j) := by
  intro finite
  rcases started.known (i, j) with none | ⟨sw, port, -, sent⟩
  · exact absurd (congrArg LweightPair.weight none) finite
  · rw [linkWeight, sent]
    exact rtNeighPair_light ..

theorem Started.add (sent : SentPair loopStatus sendPortState new)
    (inside : swA < nodes ∧ swB < nodes) :
    Started loopStatus sendPortState nodes (routeApspAddNeighConn rt swA swB new false) := by
  obtain ⟨-, same, elems⟩ := routeApspAddNeighConn_spec rt swA swB new
  refine ⟨same.trans started.size, fun place => (elems place).1.trans (started.transit place),
    ?_, ?_⟩
  · intro place
    rcases (elems place).2 with kept | ⟨-, written⟩
    · rw [kept]
      exact started.known place
    · rw [written]
      exact .inr sent
  · intro place outside
    rcases (elems place).2 with kept | ⟨here, -⟩
    · rw [kept]
      exact started.bounded place outside
    · subst here
      exact absurd inside outside

end Started

theorem routeApspAddNeighConn_update (rt : RtApsp) (swA swB : Nat) (new : LweightPair) :
    (routeApspAddNeighConn rt swA swB new true).nodes = rt.nodes ∧
      (routeApspAddNeighConn rt swA swB new true).elems = rt.elems := by
  unfold routeApspAddNeighConn
  dsimp only
  split
  · exact ⟨rfl, rfl⟩
  split
  · split <;> exact ⟨rfl, rfl⟩
  · exact ⟨rfl, rfl⟩

section Fill

variable (imap : SwImap) (loopStatus : PortId → LoopPortStatus) (sendPortState : Bool)

variable {loopStatus sendPortState} in
theorem Started.update (started : Started loopStatus sendPortState nodes rt)
    (update : NeighUpdate) :
    Started loopStatus sendPortState nodes
      (routeApspAddNeighConn rt update.swA update.swB update.pair true) := by
  obtain ⟨same, elems⟩ := routeApspAddNeighConn_update rt update.swA update.swB update.pair
  exact ⟨same.trans started.size, elems ▸ started.transit, elems ▸ started.known,
    elems ▸ started.bounded⟩

theorem Started.initNeighPair (started : Started loopStatus sendPortState nodes rt)
    (inside : src < nodes ∧ dst < nodes) :
    Started loopStatus sendPortState nodes
      (imap.initNeighPair loopStatus sendPortState rt src dst) := by
  unfold SwImap.initNeighPair
  split
  · rename_i fromSw toSw source _
    apply foldlRecOn _ _ started
    intro rt started port listed
    exact started.add ⟨fromSw, port, imap.numbered src fromSw source _ port listed, rfl⟩ inside
  · exact started

theorem started_initState : ∃ nodes ≤ maxSwitchesPerCluster,
    Started loopStatus sendPortState nodes (imap.initState loopStatus sendPortState) := by
  unfold SwImap.initState
  cases found : imap.maxSwAlias with
  | none => exact ⟨0, Nat.zero_le _, started_clear rfl rfl⟩
  | some last =>
    refine ⟨last + 1, imap.range last found, ?_⟩
    have clear : Started loopStatus sendPortState (last + 1)
        { init := true, nodes := last + 1, elems := fun _ => disconnected } := started_clear rfl rfl
    have filled := foldlRecOn (aliasPairs (last + 1))
      (fun rt place => imap.initNeighPair loopStatus sendPortState rt place.1 place.2) clear
      fun rt started place listed =>
        have inside := mem_product.mp listed
        started.initNeighPair imap loopStatus sendPortState
          ⟨mem_range.mp inside.1, mem_range.mp inside.2⟩
    exact { filled with }

theorem started_build (updates : List NeighUpdate) : ∃ nodes ≤ maxSwitchesPerCluster,
    Started loopStatus sendPortState nodes (imap.build loopStatus sendPortState updates) := by
  obtain ⟨nodes, few, started⟩ := started_initState imap loopStatus sendPortState
  refine ⟨nodes, few, ?_⟩
  apply foldlRecOn updates _ started
  intro rt started update _
  exact started.update update

end Fill

section Calc

variable {loopStatus : PortId → LoopPortStatus} {sendPortState : Bool} {nodes : Nat} {rt : RtApsp}
  (started : Started loopStatus sendPortState nodes rt)
include started

theorem Started.exact :
    Exact (linkWeight rt.elems) (cells rt.elems) [] ∧ Relaxed (cells rt.elems) [] :=
  ⟨.start fun _ _ => rfl, .start fun i j => started.transit (i, j)⟩

/-- The loops on C integers do what the loops on weights do, and no sum overflows. -/
theorem Started.routeApspCalcInt (few : nodes ≤ maxSwitchesPerCluster) :
    routeApspCalcInt rt = some (intElem ∘ (routeApspCalc rt).elems) := by
  obtain ⟨walks, relaxed⟩ := started.exact
  unfold Topo.routeApspCalcInt routeApspCalc
  split
  · apply foldlM_fwStageInt started.light (started.size ▸ started.bounded) walks relaxed
    rw [length_nil, length_range, started.size]
    omega
  · rfl

theorem Started.links_least (i j : Nat) : neighDflWeight ≤ linkWeight rt.elems i j := by
  rcases started.known (i, j) with none | ⟨sw, port, -, sent⟩
  · rw [linkWeight, none]
    exact le_top
  · rw [linkWeight, sent]
    exact rtNeighPair_least ..

variable (ready : (rt.init && rt.adjInit) = true)
include ready

theorem Started.run : (routeApspCalc rt).elems = (range nodes).foldl (fwStage nodes) rt.elems := by
  rw [routeApspCalc, if_pos ready, started.size]

theorem Started.calculated :
    Exact (linkWeight rt.elems) (cells (routeApspCalc rt).elems) (range nodes).reverse ∧
      Relaxed (cells (routeApspCalc rt).elems) (range nodes).reverse := by
  obtain ⟨walks, relaxed⟩ := started.exact
  rw [started.run ready, cells_foldl started.bounded, ← append_nil (range nodes).reverse]
  exact ⟨walks.foldl rtMaxEqPaths _, relaxed.foldl rtMaxEqPaths _⟩

theorem Started.weights_least (i j : Nat) : neighDflWeight ≤ (routeApspCalc rt).getWeight i j := by
  obtain ⟨walk, -, weight⟩ := (started.calculated ready).1.walk i j
  exact le_of_le_of_eq (least_le_walkWeight started.links_least i j walk) weight.symm

end Calc

/-- The total of a path over the stored link weights, if all its links exist. -/
def pathWeight (weights : Nat × Nat → Int) (src : Nat) : List Nat → Nat → Option Int
  | [], dst => if weights (src, dst) = neighNoPath then none else some (weights (src, dst))
  | via :: rest, dst =>
    if weights (src, via) = neighNoPath then none
    else (pathWeight weights via rest dst).map fun total => weights (src, via) + total

/-- `weight` is the least total of a path among `nodes` switches, and the mark
for none exactly if there is no path. -/
structure LeastPath (nodes : Nat) (weights : Nat × Nat → Int) (src dst : Nat) (weight : Int) :
    Prop where
  noPath : weight = neighNoPath ↔
    ∀ path : List Nat, (∀ via ∈ path, via < nodes) → pathWeight weights src path dst = none
  attained : weight ≠ neighNoPath →
    ∃ path : List Nat, (∀ via ∈ path, via < nodes) ∧ pathWeight weights src path dst = some weight
  least : ∀ path : List Nat, (∀ via ∈ path, via < nodes) →
    ∀ total, pathWeight weights src path dst = some total → weight ≤ total

/-- The weights stored for the links. -/
def storedWeight (rt : RtApsp) (place : Nat × Nat) : Int := (intElem (rt.elems place)).weight

theorem pathWeight_stored (light : ∀ i j, AtMost heaviestLink (linkWeight rt.elems i j))
    (src : Nat) (path : List Nat) (dst : Nat) : pathWeight (storedWeight rt) src path dst =
      if walkWeight (linkWeight rt.elems) src path dst = ⊤ then none
      else some (intWeight (walkWeight (linkWeight rt.elems) src path dst)) := by
  have link : ∀ i j, storedWeight rt (i, j) = neighNoPath ↔ linkWeight rt.elems i j = ⊤ :=
    fun i j => intWeight_eq_noPath (light i j) (by decide)
  induction path generalizing src with
  | nil => simp only [pathWeight, walkWeight, link]; rfl
  | cons via rest ih =>
    simp only [pathWeight, walkWeight, link, ih, ENat.add_eq_top]
    by_cases missing : linkWeight rt.elems src via = ⊤
    · simp [missing]
    by_cases stuck : walkWeight (linkWeight rt.elems) via rest dst = ⊤
    · simp [missing, stuck]
    · obtain ⟨first, firstEq⟩ := ENat.ne_top_iff_exists.mp missing
      obtain ⟨second, secondEq⟩ := ENat.ne_top_iff_exists.mp stuck
      have stored : storedWeight rt (src, via) = first := by
        change intWeight (linkWeight rt.elems src via) = first
        rw [← firstEq, intWeight_coe]
      rw [if_neg missing, if_neg stuck, if_neg (by tauto), Option.map_some, stored, ← firstEq,
        ← secondEq, ← Nat.cast_add, intWeight_coe, intWeight_coe, Nat.cast_add]

theorem intWeight_le (le : small ≤ large) (finite : large ≠ ⊤) :
    intWeight small ≤ intWeight large := by
  obtain ⟨above, rfl⟩ := ENat.ne_top_iff_exists.mp finite
  obtain ⟨below, rfl⟩ := ENat.ne_top_iff_exists.mp (ne_top_of_le_ne_top finite le)
  exact Nat.cast_le.mpr (Nat.cast_le.mp le)

/-- The weights left by the calculation are those of the shortest paths. -/
theorem Started.leastPath
    (started : Started loopStatus sendPortState nodes rt) (few : nodes ≤ maxSwitchesPerCluster)
    (ready : (rt.init && rt.adjInit) = true) {i j : Nat} (different : i ≠ j) :
    LeastPath nodes (storedWeight rt) i j (intElem ((routeApspCalc rt).elems (i, j))).weight := by
  obtain ⟨walks, relaxed⟩ := started.calculated ready
  generalize (routeApspCalc rt).elems = final at walks relaxed
  have offered : ∀ path : List Nat, (∀ via ∈ path, via < nodes) → path ⊆ (range nodes).reverse :=
    fun path inside via member => by simpa using inside via member
  have below := fun path inside => walks.le_walk relaxed different path (offered path inside)
  obtain ⟨best, bestSeen, bestWeight⟩ := walks.walk i j
  have bestInside : ∀ via ∈ best, via < nodes := fun via member => by simpa using bestSeen member
  have bestPath := pathWeight_stored started.light i best j
  rw [← bestWeight] at bestPath
  have small : AtMost (2 * smallWeight) (cells final i j).weight := by
    intro finite
    refine (walks.le_heaviest relaxed started.light i j finite).trans (Nat.cast_le.mpr ?_)
    rw [length_reverse, length_range]
    unfold heaviestLink smallWeight
    unfold maxSwitchesPerCluster at few
    omega
  have missing : intWeight (cells final i j).weight = neighNoPath ↔ (cells final i j).weight = ⊤ :=
    intWeight_eq_noPath small le_rfl
  refine ⟨missing.trans ⟨fun top path inside => ?_, fun none => ?_⟩, fun exists_path => ?_,
    fun path inside total found => ?_⟩
  · rw [pathWeight_stored started.light, if_pos (top_le_iff.mp (top ▸ below path inside))]
  · by_contra finite
    have found := none best bestInside
    rw [bestPath, if_neg finite] at found
    exact Option.some_ne_none _ found
  · exact ⟨best, bestInside, bestPath.trans (if_neg (mt missing.mpr exists_path))⟩
  · rw [pathWeight_stored started.light] at found
    split at found
    · exact absurd found (Option.some_ne_none total).symm
    · rename_i finite
      rw [← Option.some_inj.mp found]
      exact intWeight_le (below path inside) finite

/-- If the calculation runs, no sum overflows and each pair gets the least total. -/
theorem routeApspCalc_shortest (imap : SwImap) (loopStatus : PortId → LoopPortStatus)
    (sendPortState : Bool) (updates : List NeighUpdate)
    (ready : ((imap.build loopStatus sendPortState updates).init &&
      (imap.build loopStatus sendPortState updates).adjInit) = true) :
    ∃ final, routeApspCalcInt (imap.build loopStatus sendPortState updates) = some final ∧
      ∀ i < (imap.build loopStatus sendPortState updates).nodes,
      ∀ j < (imap.build loopStatus sendPortState updates).nodes, i ≠ j →
        LeastPath (imap.build loopStatus sendPortState updates).nodes
          (storedWeight (imap.build loopStatus sendPortState updates)) i j
    (final (i, j)).weight := by
  obtain ⟨nodes, few, started⟩ := started_build imap loopStatus sendPortState updates
  refine ⟨_, started.routeApspCalcInt few, fun i _ j _ different => ?_⟩
  rw [started.size]
  exact started.leastPath few ready different

/-- A switch of a line of three, with its left and right neighbour. -/
def lineSwitch (node : Nat) : LldpSwitch :=
  let port (portNo back : PortNo) (far : Nat) : LldpPort :=
    { portNo := portNo, status := .neighbor, neighborPort := back
      neighborDpid := BitVec.ofNat 64 (far + 1) }
  { dpid := BitVec.ofNat 64 (node + 1), aliasId := node
    ports := [port 1 2 (node - 1), port 2 1 (node + 1)]
    neighbors := [(BitVec.ofNat 64 node, [port 1 2 (node - 1)]),
      (BitVec.ofNat 64 (node + 2), [port 2 1 (node + 1)])] }

theorem numbered_below {last : Nat} {switch : Nat → LldpSwitch}
    (small : ∀ node < last, ∀ entry ∈ (switch node).neighbors,
      ∀ port ∈ entry.2, port.portNo ≤ ofppMax) (node : Nat) (fromSw : LldpSwitch)
    (found : (if node < last then some (switch node) else none) = some fromSw) (dpid : Dpid)
    (port : LldpPort) (listed : port ∈ fromSw.portsTo dpid) : port.portNo ≤ ofppMax := by
  split at found
  · rename_i inside
    obtain rfl := Option.some_inj.mp found
    obtain ⟨entry, member, -, here⟩ := LldpSwitch.exists_of_mem_portsTo listed
    exact small node inside entry member port here
  · cases found

def lineImap : SwImap where
  sw node := if node < 3 then some (lineSwitch node) else none
  maxSwAlias := some 2
  range last found := by
    cases found
    decide
  numbered := numbered_below (by decide)

theorem routeApspCalc_shortest_line :
    ((lineImap.build (fun _ => .none) true []).init &&
      (lineImap.build (fun _ => .none) true []).adjInit) = true ∧
    ∃ final, routeApspCalcInt (lineImap.build (fun _ => .none) true []) = some final ∧
      ∀ i < (lineImap.build (fun _ => .none) true []).nodes,
      ∀ j < (lineImap.build (fun _ => .none) true []).nodes, i ≠ j →
        LeastPath (lineImap.build (fun _ => .none) true []).nodes
          (storedWeight (lineImap.build (fun _ => .none) true [])) i j (final (i, j)).weight :=
  ⟨by decide, routeApspCalc_shortest lineImap (fun _ => .none) true [] (by decide)⟩

end OpenMul.Topo
