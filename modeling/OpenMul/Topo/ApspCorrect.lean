import Mathlib.Data.List.ProdSigma
import OpenMul.Topo.Apsp

namespace OpenMul.Topo

open Lib FloydWarshall List Function

/-- The pair leaves by a port that connects the two switches. -/
def LinkPair (topo : Topology) (place : Nat × Nat) (pair : LweightPair) : Prop :=
  ∃ src ∈ topo.switches, ∃ dst ∈ topo.switches, src.aliasId = place.1 ∧ dst.aliasId = place.2 ∧
    ∃ port ∈ src.ports, port.status = .neighbor ∧ port.neighborDpid = dst.dpid ∧
      pair.la = port.portNo

/-- A cell of the adjacency matrix before any path was looked for. -/
structure StartElem (topo : Topology) (place : Nat × Nat) (elem : RtElem) : Prop where
  transit : elem.swAlias = []
  least : 100 ≤ (elem.adjPairs 0).weight
  known : elem.adjPairs 0 = disconnected.adjPairs 0 ∨ LinkPair topo place (elem.adjPairs 0)

variable {nodes : Nat} {rt : RtApsp}

section Init

variable {topo : Topology}

theorem startElem_disconnected (place : Nat × Nat) : StartElem topo place disconnected where
  transit := rfl
  least := le_top
  known := .inl rfl

/-- Adding a connection rewrites at most the first pair of its own cell. -/
theorem routeApspAddNeighConn_spec (rt : RtApsp) (swA swB : Nat) (new : LweightPair) :
    let after := routeApspAddNeighConn rt swA swB new false
    after.init = rt.init ∧ after.nodes = rt.nodes ∧ ∀ place,
      (after.elems place).swAlias = (rt.elems place).swAlias ∧
      ((after.elems place).adjPairs 0 = (rt.elems place).adjPairs 0 ∨
        place = (swA, swB) ∧ (after.elems place).adjPairs 0 = new) := by
  have written : ∀ (index : Nat) (place : Nat × Nat) (elem : RtElem),
      elem.swAlias = (rt.elems (swA, swB)).swAlias →
      elem.adjPairs = update (rt.elems (swA, swB)).adjPairs index new →
      (update rt.elems (swA, swB) elem place).swAlias = (rt.elems place).swAlias ∧
      ((update rt.elems (swA, swB) elem place).adjPairs 0 = (rt.elems place).adjPairs 0 ∨
        place = (swA, swB) ∧ (update rt.elems (swA, swB) elem place).adjPairs 0 = new) := by
    intro index place elem transit pairs
    by_cases here : place = (swA, swB)
    · subst here
      rw [update_self, pairs]
      refine ⟨transit, ?_⟩
      by_cases first : index = 0
      · exact .inr ⟨rfl, by rw [first, update_self]⟩
      · exact .inl (update_of_ne (Ne.symm first) ..)
    · rw [update_of_ne here]
      exact ⟨rfl, .inl rfl⟩
  unfold routeApspAddNeighConn
  dsimp only
  split
  · exact ⟨rfl, rfl, fun _ => ⟨rfl, .inl rfl⟩⟩
  split
  · rename_i index found
    split
    · refine ⟨rfl, rfl, fun place => written index place _ rfl ?_⟩
      -- The pair found has the ports of the new one, so all of it is rewritten.
      have ports := find?_some found
      cases new
      simp_all [RtElem.setPair]
    · exact ⟨rfl, rfl, fun _ => ⟨rfl, .inl rfl⟩⟩
  · exact ⟨rfl, rfl, fun place => written _ place _ rfl rfl⟩

/-- What the fill loops keep. -/
structure Filling (topo : Topology) (nodes : Nat) (rt : RtApsp) : Prop where
  init : rt.init = true
  nodes : rt.nodes = nodes
  elems : ∀ place, StartElem topo place (rt.elems place)

theorem Filling.add (filling : Filling topo nodes rt) {new : LweightPair} (least : 100 ≤ new.weight)
    (link : LinkPair topo (swA, swB) new) :
    Filling topo nodes (routeApspAddNeighConn rt swA swB new false) := by
  obtain ⟨init, same, cells⟩ := routeApspAddNeighConn_spec rt swA swB new
  refine ⟨init.trans filling.init, same.trans filling.nodes, fun place => ?_⟩
  obtain ⟨transit, kept | ⟨here, written⟩⟩ := cells place
  · exact ⟨transit.trans (filling.elems place).transit, kept ▸ (filling.elems place).least,
      kept ▸ (filling.elems place).known⟩
  · refine ⟨transit.trans (filling.elems place).transit, ?_, .inr ?_⟩
    · rw [written]
      exact least
    · rw [written, here]
      exact link

theorem rtNeighPair_least (sw : LldpSwitch) (port : LldpPort) (loopStatus : PortId → LoopPortStatus)
    (sendPortState : Bool) : 100 ≤ (rtNeighPair sw port loopStatus sendPortState).weight := by
  unfold rtNeighPair neighDflWeight
  dsimp only
  split <;> decide

theorem Filling.initNeigh (filling : Filling topo nodes rt) (loopStatus : PortId → LoopPortStatus)
    (sendPortState : Bool) (place : Nat × Nat) :
    Filling topo nodes
      (initNeighPairAdjacencies topo loopStatus sendPortState rt place.1 place.2) := by
  unfold initNeighPairAdjacencies
  split
  · rename_i fromSw toSw source target
    obtain ⟨fromMember, fromAlias⟩ := Topology.switchFromImap_iff.mp source
    obtain ⟨toMember, toAlias⟩ := Topology.switchFromImap_iff.mp target
    refine foldlRecOn _ _ filling fun rt filling port listed => ?_
    obtain ⟨present, status, leads⟩ := (Topology.mem_portsTo fromMember).mp listed
    exact filling.add (rtNeighPair_least ..)
      ⟨fromSw, fromMember, toSw, toMember, fromAlias, toAlias, port, present, status, leads, rfl⟩
  · exact filling

end Init

/-- A matrix as the relaxation sees it. -/
def cells (elems : Nat × Nat → RtElem) (i j : Nat) : Cell Nat :=
  ⟨((elems (i, j)).adjPairs 0).weight, (elems (i, j)).swAlias⟩

section

variable (mid : Nat) (elems : Nat × Nat → RtElem)

theorem relaxCell_cells (i j : Nat) : relaxCell rtMaxEqPaths mid (cells elems) i j =
      ⟨((fwElem mid elems (i, j)).adjPairs 0).weight, (fwElem mid elems (i, j)).swAlias⟩ := by
  unfold relaxCell fwElem cells
  by_cases same : i = j
  · simp [same]
  rw [if_neg same, if_neg same]
  by_cases finite : ((elems (i, mid)).adjPairs 0).weight ≠ ⊤ ∧
    ((elems (mid, j)).adjPairs 0).weight ≠ ⊤
  · split
    · simp [RtElem.setPair]
    · simp only [ne_eq, ENat.add_eq_top, finite.1, finite.2, or_self, not_false_eq_true, true_and]
      split <;> rfl
  · rw [if_neg finite]
    have top : ((elems (i, mid)).adjPairs 0).weight + ((elems (mid, j)).adjPairs 0).weight = ⊤ := by
      rw [ENat.add_eq_top]
      tauto
    simp [top]

theorem fwElem_pair (place : Nat × Nat) :
    ((fwElem mid elems place).adjPairs 0).la = ((elems place).adjPairs 0).la ∧
      ((fwElem mid elems place).adjPairs 0).flags = ((elems place).adjPairs 0).flags := by
  unfold fwElem
  dsimp only
  split
  · exact ⟨rfl, rfl⟩
  split
  · split
    · simp [RtElem.setPair]
    · split <;> exact ⟨rfl, rfl⟩
  · exact ⟨rfl, rfl⟩

theorem fwElem_idle (place : Nat × Nat)
    (edge : place.1 = mid ∨ place.2 = mid) : fwElem mid elems place = elems place := by
  obtain ⟨i, j⟩ := place
  unfold fwElem
  dsimp only at edge ⊢
  split
  · rfl
  split
  · have longer : ((elems (i, j)).adjPairs 0).weight ≤
        ((elems (i, mid)).adjPairs 0).weight + ((elems (mid, j)).adjPairs 0).weight := by
      rcases edge with rfl | rfl
      · exact le_add_self
      · exact le_self_add
    rw [if_neg (not_lt.mpr longer), if_neg]
    rintro ⟨-, first, last, -⟩
    exact edge.elim (fun here => first here.symm) fun here => last here.symm
  · rfl

end

theorem fwStage_eq (nodes : Nat) (elems : Nat × Nat → RtElem) (mid : Nat) (place : Nat × Nat) :
    fwStage nodes elems mid place =
      if place.1 < nodes ∧ place.2 < nodes then fwElem mid elems place else elems place := by
  have reads : ∀ other place,
      (∀ kept : Nat × Nat, kept.1 = mid ∨ kept.2 = mid → other kept = elems kept) →
      other place = elems place → fwElem mid other place = fwElem mid elems place := by
    intro other place kept own
    unfold fwElem
    rw [kept (place.1, mid) (.inr rfl), kept (mid, place.2) (.inl rfl), own]
  have distinct : (aliasPairs nodes).Nodup := nodup_range.product nodup_range
  have stage :=
    congrFun (foldl_update_eq (fwElem mid) _ elems reads (fwElem_idle mid elems) _ distinct) place
  have inside : place ∈ aliasPairs nodes ↔ place.1 < nodes ∧ place.2 < nodes := by
    rw [aliasPairs, mem_product, mem_range, mem_range]
  split
  · rename_i within
    exact stage.trans (if_pos (inside.mpr within))
  · rename_i beyond
    exact stage.trans (if_neg (mt inside.mp beyond))

/-- Cells beyond the last alias have no path. -/
def Bounded (nodes : Nat) (elems : Nat × Nat → RtElem) : Prop :=
  ∀ place : Nat × Nat, ¬(place.1 < nodes ∧ place.2 < nodes) → ((elems place).adjPairs 0).weight = ⊤

variable {elems : Nat × Nat → RtElem}

section

variable (bounded : Bounded nodes elems)
include bounded

theorem cells_fwStage
    (mid : Nat) : cells (fwStage nodes elems mid) = relax rtMaxEqPaths (cells elems) mid := by
  funext i j
  rw [relax, relaxCell_cells, cells, fwStage_eq]
  by_cases inside : i < nodes ∧ j < nodes
  · rw [if_pos inside]
  · rw [if_neg inside]
    have beyond : ((elems (i, mid)).adjPairs 0).weight = ⊤ ∨
        ((elems (mid, j)).adjPairs 0).weight = ⊤ := by
      rcases not_and_or.mp inside with row | column
      · exact .inl (bounded _ fun member => row member.1)
      · exact .inr (bounded _ fun member => column member.2)
    have idle : fwElem mid elems (i, j) = elems (i, j) := by
      unfold fwElem
      dsimp only
      rw [if_neg (not_and_or.mpr (beyond.imp not_not.mpr not_not.mpr)), ite_self]
    rw [idle]

theorem Bounded.fwStage (mid : Nat) : Bounded nodes (fwStage nodes elems mid) := by
  intro place outside
  rw [fwStage_eq, if_neg outside]
  exact bounded place outside

theorem Bounded.foldl (mids : List Nat) :
    Bounded nodes (mids.foldl (OpenMul.Topo.fwStage nodes) elems) :=
  foldlRecOn _ _ bounded fun _ bounded mid _ => bounded.fwStage mid

theorem cells_foldl (mids : List Nat) :
    cells (mids.foldl (fwStage nodes) elems) = mids.foldl (relax rtMaxEqPaths) (cells elems) := by
  induction mids generalizing elems with
  | nil => rfl
  | cons mid rest ih => rw [foldl_cons, foldl_cons, ih (bounded.fwStage mid), cells_fwStage bounded]

end

theorem pair_foldl (nodes : Nat) (elems : Nat × Nat → RtElem) (mids : List Nat)
    (place : Nat × Nat) :
    ((mids.foldl (fwStage nodes) elems place).adjPairs 0).la = ((elems place).adjPairs 0).la ∧
      ((mids.foldl (fwStage nodes) elems place).adjPairs 0).flags =
        ((elems place).adjPairs 0).flags := by
  induction mids generalizing elems with
  | nil => exact ⟨rfl, rfl⟩
  | cons mid rest ih =>
    rw [foldl_cons, (ih _).1, (ih _).2, fwStage_eq]
    split
    · exact fwElem_pair mid elems place
    · exact ⟨rfl, rfl⟩

/-- Weights are shortest distances. -/
structure Solved (topo : Topology) (rt : RtApsp) : Prop where
  least : ∀ i j, 100 ≤ rt.getWeight i j
  triangle : ∀ mid i j, i ≠ j → rt.getWeight i j ≤ rt.getWeight i mid + rt.getWeight mid j
  transits : ∀ i j, i ≠ j → ∀ mid ∈ (rt.elems (i, j)).swAlias,
    rt.getWeight i j ≠ ⊤ ∧ rt.getWeight i mid + rt.getWeight mid j ≤ rt.getWeight i j
  onlink : ∀ i j, rt.onlinkNeigh i j = true → LinkPair topo (i, j) (rt.getPair i j)
  joined : ∀ src ∈ topo.switches, ∀ dst ∈ topo.switches,
    rt.getWeight src.aliasId dst.aliasId ≠ ⊤ → topo.links.Joined src.dpid dst.dpid

/-- The switches with these aliases are connected by links. -/
def AliasJoined (topo : Topology) (i j : Nat) : Prop :=
  ∃ src ∈ topo.switches, ∃ dst ∈ topo.switches, src.aliasId = i ∧ dst.aliasId = j ∧
    topo.links.Joined src.dpid dst.dpid

section Joined

variable {topo : Topology}

theorem eq_of_aliasId (one : first ∈ topo.switches) (two : second ∈ topo.switches)
    (same : first.aliasId = second.aliasId) : first = second :=
  inj_on_of_nodup_map topo.aliases one two same

theorem aliasJoined_iff (source : src ∈ topo.switches) (target : dst ∈ topo.switches) :
    AliasJoined topo src.aliasId dst.aliasId ↔ topo.links.Joined src.dpid dst.dpid := by
  constructor
  · rintro ⟨here, hereMember, there, thereMember, hereAlias, thereAlias, joined⟩
    rwa [eq_of_aliasId hereMember source hereAlias, eq_of_aliasId thereMember target thereAlias]
      at joined
  · exact fun joined => ⟨src, source, dst, target, rfl, rfl, joined⟩

theorem aliasJoined_trans (i mid j : Nat) (first : AliasJoined topo i mid)
    (second : AliasJoined topo mid j) : AliasJoined topo i j := by
  obtain ⟨src, source, via, viaMember, fromAlias, viaAlias, left⟩ := first
  obtain ⟨other, otherMember, dst, target, otherAlias, toAlias, right⟩ := second
  obtain rfl := eq_of_aliasId viaMember otherMember (viaAlias.trans otherAlias.symm)
  exact ⟨src, source, dst, target, fromAlias, toAlias, left.trans right⟩

theorem linked_port (source : src ∈ topo.switches)
    (present : port ∈ src.ports) (status : port.status = .neighbor) :
    topo.Linked (src.dpid, port.portNo) ∧
      (topo.partner (src.dpid, port.portNo)).1 = port.neighborDpid :=
  ⟨⟨src, source, port, present, status, rfl⟩, by rw [Topology.partner_eq source present]⟩

theorem LinkPair.joined (link : LinkPair topo (i, j) pair) : AliasJoined topo i j := by
  obtain ⟨src, source, dst, target, fromAlias, toAlias, port, present, status, leads, -⟩ := link
  obtain ⟨linked, far⟩ := linked_port source present status
  exact ⟨src, source, dst, target, fromAlias, toAlias,
    .single ⟨(src.dpid, port.portNo), linked, rfl, far.trans leads⟩⟩

end Joined

theorem onlinkNeigh_of_clear (clear : (rt.getPair src dst).flags = 0) :
    ¬rt.onlinkNeigh src dst = true := by
  rw [RtApsp.onlinkNeigh, clear]
  decide

theorem aliasId_le {topo : Topology} (found : topo.maxSwAlias = some last) {sw : LldpSwitch}
    (member : sw ∈ topo.switches) : sw.aliasId ≤ last := by
  have bound := max?_eq_some_iff.mp found
  exact bound.2 _ (mem_map_of_mem member)

theorem Filling.solved (found : topo.maxSwAlias = some last)
    (filling : Filling topo (last + 1) rt) (adjInit : rt.adjInit = true) :
    Solved topo (routeApspCalc rt) := by
  have weighed : ∀ i j, (cells rt.elems i j).weight ≠ ⊤ →
      LinkPair topo (i, j) ((rt.elems (i, j)).adjPairs 0) := by
    intro i j finite
    rcases (filling.elems (i, j)).known with none | link
    · exact absurd (congrArg LweightPair.weight none) finite
    · exact link
  have bounded : Bounded rt.nodes rt.elems := by
    intro place outside
    by_contra finite
    obtain ⟨src, source, dst, target, fromAlias, toAlias, -⟩ := weighed place.1 place.2 finite
    have row := aliasId_le found source
    have column := aliasId_le found target
    rw [filling.nodes] at outside
    omega
  have solved : routeApspCalc rt = { rt with
      elems := (range rt.nodes).foldl (fwStage rt.nodes) rt.elems, run := false, isConverged :=
        true } := by
    rw [routeApspCalc, filling.init, adjInit, Bool.and_self, if_pos rfl]
  have empty : ∀ i j, (cells rt.elems i j).transit = [] := fun i j => (filling.elems (i, j)).transit
  have relaxed := (Relaxed.start empty).foldl rtMaxEqPaths (range rt.nodes)
  rw [← cells_foldl bounded] at relaxed
  rw [solved]
  refine ⟨?_, ?_, fun i j different mid member => ?_, fun i j onlink => ?_,
    fun src source dst target finite => ?_⟩
  · change ∀ i j, 100 ≤ (cells ((range rt.nodes).foldl (fwStage rt.nodes) rt.elems) i j).weight
    rw [cells_foldl bounded]
    exact foldl_relax_least (fun i j => (filling.elems (i, j)).least) _ _
  · intro mid i j different
    by_cases inside : mid < rt.nodes
    · exact relaxed.triangle mid (by simpa using inside) i j different
    · -- No path leads through a node beyond the last alias.
      have top := bounded.foldl (range rt.nodes) (i, mid) fun within => inside within.2
      exact le_of_le_of_eq le_top (ENat.add_eq_top.mpr (.inl top)).symm
  · exact (relaxed.transits i j different mid member).2.2
  · obtain ⟨la, flags⟩ := pair_foldl rt.nodes rt.elems (range rt.nodes) (i, j)
    rcases (filling.elems (i, j)).known with none | link
    · have clear := flags.trans (congrArg LweightPair.flags none)
      exact absurd onlink (onlinkNeigh_of_clear clear)
    · obtain ⟨src, source, dst, target, fromAlias, toAlias, port, present, status, leads, portNo⟩ :=
        link
      exact ⟨src, source, dst, target, fromAlias, toAlias, port, present, status, leads,
        la.trans portNo⟩
  · apply aliasJoined_iff source target |>.mp
    refine foldl_relax_sound (AliasJoined topo) aliasJoined_trans
      (fun i j finite => (weighed i j finite).joined)
      rtMaxEqPaths (range rt.nodes) _ _ ?_
    rw [← cells_foldl bounded]
    exact finite

/-- The matrices are solved whenever they were calculated, with or without port states. -/
theorem solved_routeApspCalc (topo : Topology) (loopStatus : PortId → LoopPortStatus)
    (sendPortState : Bool) :
    Solved topo (routeApspCalc (routeApspInitState topo loopStatus sendPortState)) := by
  unfold routeApspInitState
  cases found : topo.maxSwAlias with
  | none =>
    refine ⟨fun _ _ => le_top, fun _ _ _ _ => le_top,
      fun _ _ _ _ member => absurd member not_mem_nil, fun _ _ onlink =>
        absurd onlink (onlinkNeigh_of_clear rfl), fun _ _ _ _ finite => absurd rfl finite⟩
  | some last =>
    have clear : Filling topo (last + 1)
        { init := true, nodes := last + 1, elems := fun _ => disconnected } :=
      ⟨rfl, rfl, startElem_disconnected⟩
    have filled := foldlRecOn (aliasPairs (last + 1))
      (fun rt place => initNeighPairAdjacencies topo loopStatus sendPortState rt place.1 place.2)
        clear
      fun rt filling place _ => filling.initNeigh loopStatus sendPortState place
    have marked : Filling topo (last + 1) { (aliasPairs (last + 1)).foldl (fun rt place =>
        initNeighPairAdjacencies topo loopStatus sendPortState rt place.1 place.2)
        { init := true, nodes := last + 1, elems := fun _ => disconnected } with adjInit :=
          true } :=
      { filled with }
    exact marked.solved found rfl

end OpenMul.Topo
