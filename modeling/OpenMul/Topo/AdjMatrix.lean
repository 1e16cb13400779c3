import OpenMul.Lib.Machine
import OpenMul.Topo.ShortestPath

namespace OpenMul.Topo

open Lib Function

/-- The arguments of `mul_route_apsp_add_neigh_conn`. -/
structure NeighConn where
  swA : Nat
  swB : Nat
  dpidA : Dpid
  dpidB : Dpid
  newAdj : LweightPair
  update : Bool

/-- `adj_matrix` as it lies in memory, one row after the other and without an end. -/
structure AdjMatrix where
  init : Bool
  adjInit : Bool
  nodes : Nat
  cells : Nat → RtElem
  dpids : Nat → Dpid × Dpid

namespace AdjMatrix

/-- `RT_APSP_ADJ_ELEM`. -/
def adjElem (m : AdjMatrix) (row col : Nat) : Nat := row * m.nodes + col

def rtApsp (m : AdjMatrix) : RtApsp where
  init := m.init
  adjInit := m.adjInit
  nodes := m.nodes
  elems place := m.cells (m.adjElem place.1 place.2)

/-- The second index is not compared with the number of nodes: the first one is, twice. -/
def Accepts (m : AdjMatrix) (swA swB : Nat) : Prop :=
  m.init = true ∧ swA < m.nodes ∧ (m.cells (m.adjElem swA swB)).pairs < rtMaxAdjPairs - 1

instance (m : AdjMatrix) (swA swB : Nat) : Decidable (m.Accepts swA swB) :=
  inferInstanceAs (Decidable (_ ∧ _))

/-- `mul_route_apsp_add_neigh_conn`, writing to the cell it finds by its two indices. -/
def addNeighConn (m : AdjMatrix) (call : NeighConn) : AdjMatrix :=
  if m.Accepts call.swA call.swB then
    let rt := routeApspAddNeighConn m.rtApsp call.swA call.swB call.newAdj call.update
    let elem := m.adjElem call.swA call.swB
    { m with
      adjInit := rt.adjInit
      cells := update m.cells elem (rt.elems (call.swA, call.swB))
      dpids := update m.dpids elem (call.dpidA, call.dpidB) }
  else m

/-- Any calls after `mul_route_apsp_init_state` has cleared the cells of the nodes. -/
def runs : Machine AdjMatrix NeighConn where
  start m := ∀ row < m.nodes, ∀ col < m.nodes, m.cells (m.adjElem row col) = disconnected
  admits _ _ := True
  exec := addNeighConn

/-- What a call leaves as it is. -/
structure Framed (m : AdjMatrix) (call : NeighConn) : Prop where
  others : ∀ row < m.nodes, ∀ col < m.nodes, (row, col) ≠ (call.swA, call.swB) →
    (m.addNeighConn call).cells (m.adjElem row col) = m.cells (m.adjElem row col) ∧
      (m.addNeighConn call).dpids (m.adjElem row col) = m.dpids (m.adjElem row col)
  rest : (m.addNeighConn call).nodes = m.nodes ∧ (m.addNeighConn call).init = m.init
  outside : m.nodes ≤ call.swA ∨ m.nodes ≤ call.swB → m.addNeighConn call = m
  links : call.update = true → (m.addNeighConn call).cells = m.cells

end AdjMatrix

/-- Few pairs, no two of them between the same ports. -/
structure RtElem.Sound (elem : RtElem) : Prop where
  few : elem.pairs < rtMaxAdjPairs
  once : ∀ first < elem.pairs, ∀ second < elem.pairs,
    (elem.adjPairs first).la = (elem.adjPairs second).la →
    (elem.adjPairs first).lb = (elem.adjPairs second).lb → first = second

theorem RtElem.Sound.added (sound : (rt.elems (swA, swB)).Sound) (new : LweightPair)
    (update : Bool) : ((routeApspAddNeighConn rt swA swB new update).elems (swA, swB)).Sound := by
  unfold routeApspAddNeighConn
  dsimp only
  split
  · exact sound
  rename_i room
  simp only [Bool.or_eq_true, decide_eq_true_eq, not_or, not_le] at room
  split
  · rename_i index found
    split
    · split
      · exact sound
      · -- The pair keeps its two ports.
        simp only [update_self]
        refine ⟨sound.few, fun first inside second below la lb => ?_⟩
        simp only [RtElem.setPair, update_apply] at la lb
        exact sound.once first inside second below (by grind) (by grind)
    · exact sound
  · rename_i missing
    split
    · exact sound
    · simp only [update_self]
      refine ⟨Nat.add_lt_of_lt_sub room.2, fun first inside second below la lb => ?_⟩
      have other := List.find?_eq_none.1 missing
      simp only [List.mem_range, Bool.and_eq_true, beq_iff_eq] at other
      have once := sound.once first
      simp only [RtElem.setPair, update_apply] at la lb
      grind

namespace AdjMatrix

theorem adjElem_inj (m : AdjMatrix) (inside : col < m.nodes) (below : swB < m.nodes)
    (same : m.adjElem row col = m.adjElem swA swB) : (row, col) = (swA, swB) := by
  have positive : 0 < m.nodes := by omega
  have rows := congrArg (· / m.nodes) same
  have cols := congrArg (· % m.nodes) same
  simp [adjElem, Nat.mul_comm _ m.nodes, Nat.mul_add_div positive, Nat.div_eq_of_lt,
    Nat.mod_eq_of_lt, inside, below] at rows cols
  rw [rows, cols]

theorem addNeighConn_of_ne (m : AdjMatrix) (call : NeighConn)
    (other : elem ≠ m.adjElem call.swA call.swB) :
    (m.addNeighConn call).cells elem = m.cells elem ∧
      (m.addNeighConn call).dpids elem = m.dpids elem := by
  unfold addNeighConn
  split
  · exact ⟨update_of_ne other .., update_of_ne other ..⟩
  · exact ⟨rfl, rfl⟩

theorem addNeighConn_rest (m : AdjMatrix) (call : NeighConn) :
    (m.addNeighConn call).nodes = m.nodes ∧ (m.addNeighConn call).init = m.init := by
  unfold addNeighConn
  split <;> exact ⟨rfl, rfl⟩

theorem addNeighConn_update (m : AdjMatrix) (call : NeighConn) (only : call.update = true) :
    (m.addNeighConn call).cells = m.cells := by
  unfold addNeighConn
  split
  · simp only [only, routeApspAddNeighConn_update]
    exact update_eq_self ..
  · rfl

theorem framed (within : m.Accepts call.swA call.swB → call.swB < m.nodes) : Framed m call where
  others row _ col inside other := by
    by_cases accepted : m.Accepts call.swA call.swB
    · exact m.addNeighConn_of_ne call fun same =>
        other (m.adjElem_inj inside (within accepted) same)
    · rw [addNeighConn, if_neg accepted]
      exact ⟨rfl, rfl⟩
  rest := m.addNeighConn_rest call
  outside out := by
    rw [addNeighConn, if_neg fun accepted => ?_]
    exact out.elim accepted.2.1.not_ge (within accepted).not_ge
  links := m.addNeighConn_update call

theorem sound_step (m : AdjMatrix) (call : NeighConn) (before : (m.cells elem).Sound) :
    ((m.addNeighConn call).cells elem).Sound := by
  by_cases here : elem = m.adjElem call.swA call.swB
  · unfold addNeighConn
    split
    · rw [here] at before ⊢
      simp only [update_self]
      exact RtElem.Sound.added before ..
    · exact before
  · rw [(m.addNeighConn_of_ne call here).1]
    exact before

/-- Every cell of the nodes keeps few distinct pairs, and the calls for two
indices keep their frame where the second one is checked, too. -/
theorem adjMatrix_framed_iff (reached : runs.Reaches m) (swA swB : Nat) :
    (∀ row < m.nodes, ∀ col < m.nodes, (m.cells (m.adjElem row col)).Sound) ∧
      ((∀ call : NeighConn, call.swA = swA → call.swB = swB → Framed m call) ↔
        (m.Accepts swA swB → swB < m.nodes)) := by
  refine ⟨?_, fun all accepted => ?_, ?_⟩
  · refine reached.invariant (fun m => ∀ row < m.nodes, ∀ col < m.nodes,
      (m.cells (m.adjElem row col)).Sound) ?_ ?_
    · intro m clear row inside col below
      rw [clear row inside col below]
      exact ⟨by decide, nofun⟩
    · intro m call _ sound _
      simp only [runs, adjElem, m.addNeighConn_rest call]
      exact fun row inside col below => sound_step m call (sound row inside col below)
  · by_contra out
    have same :=
      (all ⟨swA, swB, (m.dpids (m.adjElem swA swB)).1 + 1, 0, ⟨0, 0, 0, 0⟩, true⟩ rfl rfl).outside
      (.inr (Nat.not_lt.1 out))
    have := congrArg (fun m : AdjMatrix => (m.dpids (m.adjElem swA swB)).1) same
    simp [addNeighConn, accepted, adjElem] at this
  · rintro within call rfl rfl
    exact framed within

/-- Two nodes without a link. -/
def twoNodes : AdjMatrix := ⟨true, true, 2, fun _ => disconnected, fun _ => (0, 0)⟩

theorem adjMatrix_framed_twoNodes :
    runs.Reaches twoNodes ∧ ∀ call : NeighConn, call.swA = 0 → call.swB = 1 →
    Framed twoNodes call := by
  have reached : runs.Reaches twoNodes := .start fun _ _ _ _ => rfl
  exact ⟨reached, (adjMatrix_framed_iff reached 0 1).2.2 fun _ => by decide⟩

/-- A link between the nodes 0 and 2 of two nodes is stored as one from node 1 to node 0. -/
theorem addNeighConn_wrong_cell : runs.Reaches twoNodes ∧
    let after := twoNodes.addNeighConn ⟨0, 2, 5, 7, ⟨1, 1, 100, neighFlOnlink⟩, false⟩
    (twoNodes.cells (twoNodes.adjElem 1 0)).pairs = 0 ∧
      (after.cells (twoNodes.adjElem 1 0)).pairs = 1 :=
  ⟨.start fun _ _ _ _ => rfl, rfl, by decide⟩

end AdjMatrix

end OpenMul.Topo
