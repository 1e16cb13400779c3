import OpenMul.Topo.LoopRun

namespace OpenMul.Topo

open Lib Multigraph

/-- The weight of a switch's way to the root. -/
def height (topo : Topology) (rt : RtApsp) (root : LldpSwitch) (dpid : Dpid) : ℕ∞ :=
  match topo.fetchSwitch dpid with
  | none => ⊤
  | some sw => distance rt root.aliasId sw.aliasId

variable {sw : LldpSwitch} {port : PortId}

section Kept

variable {topo : Topology} {rt : RtApsp} {root : LldpSwitch}

theorem height_eq (member : sw ∈ topo.switches) :
    height topo rt root sw.dpid = distance rt root.aliasId sw.aliasId := by
  rw [height, Topology.fetchSwitch_iff.mpr ⟨member, rfl⟩]

theorem IsRootPort.descends (solved : Solved topo rt) (marked : IsRootPort topo rt root port) :
    topo.Linked port ∧ height topo rt root (topo.partner port).1 < height topo rt root port.1 := by
  obtain ⟨sw, member, owner, -, found⟩ := marked
  obtain ⟨route, routed⟩ := route_of_rootPort found
  obtain ⟨portNo, same, linked, next, nextMember, far, closer⟩ :=
    rootPort_of_route solved member routed
  obtain rfl : portNo = port.2 := Option.some.inj (same.symm.trans found)
  rw [owner] at linked far
  refine ⟨linked, ?_⟩
  rw [far, height_eq nextMember, ← owner, height_eq member]
  exact closer

theorem IsRootPort.unique (one : IsRootPort topo rt root first)
    (two : IsRootPort topo rt root second) (same : first.1 = second.1) : first = second := by
  obtain ⟨sw, member, owner, -, found⟩ := one
  obtain ⟨other, otherMember, otherOwner, -, otherFound⟩ := two
  obtain rfl := Topology.eq_of_dpid member otherMember (owner.trans (same.trans otherOwner.symm))
  exact Prod.ext same (Option.some.inj (found.symm.trans otherFound))

section

variable (solved : Solved topo rt) (linked : topo.Linked port) (kept : KeepsLink topo rt root port)
include solved linked kept

/-- Along an open link, only its root port leads down. -/
theorem KeepsLink.slope :
    IsRootPort topo rt root port ∨
      height topo rt root port.1 < height topo rt root (topo.partner port).1 ∨
      port.1 = root.dpid ∧ (topo.partner port).1 = root.dpid := by
  rcases kept with marked | marked | within
  · exact .inl marked
  · have up := (marked.descends solved).2
    rw [(Topology.linked_partner linked).2.1] at up
    exact .inr (.inl up)
  · exact .inr (.inr within)

theorem KeepsLink.of_descends
    (down : height topo rt root (topo.partner port).1 < height topo rt root port.1) :
    IsRootPort topo rt root port := by
  rcases kept.slope solved linked with marked | up | ⟨here, there⟩
  · exact marked
  · exact absurd up down.not_gt
  · rw [here, there] at down
    exact absurd down (lt_irrefl _)

theorem KeepsLink.of_level
    (level : height topo rt root (topo.partner port).1 = height topo rt root port.1) :
    port.1 = root.dpid ∧ (topo.partner port).1 = root.dpid := by
  rcases kept.slope solved linked with marked | up | within
  · exact absurd level (marked.descends solved).2.ne
  · exact absurd level up.ne'
  · exact within

end

end Kept

section Run

variable (now : Nat) {hdl : TopoHdl} {root : LldpSwitch}

/-- The links that are open after a run. -/
abbrev openAfter (now : Nat) (hdl : TopoHdl) : Multigraph Dpid PortId :=
  hdl.topo.openLinks (loopDetect now hdl).Unblocked

theorem Ready.solved (ready : Ready hdl) : Solved hdl.topo hdl.rt := by
  obtain ⟨loopStatus, sendPortState, same⟩ := ready.recomputed
  rw [same]
  exact solved_routeApspCalc hdl.topo loopStatus sendPortState

section

variable (ready : Ready hdl) (elects : hdl.topo.Elects root)
include ready elects

theorem live_iff :
    (openAfter now hdl).live port ↔ hdl.topo.Linked port ∧ KeepsLink hdl.topo hdl.rt root port := by
  constructor
  · rintro ⟨linked, opened⟩
    exact ⟨linked, ((loopDetect_detected now ready elects).unblocked port linked).mp opened⟩
  · rintro ⟨linked, kept⟩
    exact ⟨linked, ((loopDetect_detected now ready elects).unblocked port linked).mpr kept⟩

theorem openAfter_singleDescent :
    SingleDescent (openAfter now hdl) (height hdl.topo hdl.rt root) := by
  intro first second firstLive secondLive same firstDown secondDown
  obtain ⟨firstLinked, firstKept⟩ := (live_iff now ready elects).mp firstLive
  obtain ⟨secondLinked, secondKept⟩ := (live_iff now ready elects).mp secondLive
  have one := firstKept.of_descends ready.solved firstLinked firstDown
  have two := secondKept.of_descends ready.solved secondLinked secondDown
  exact one.unique two same

theorem openAfter_level (live : (openAfter now hdl).live port)
    (level : height hdl.topo hdl.rt root ((openAfter now hdl).head port) =
      height hdl.topo hdl.rt root ((openAfter now hdl).tail port)) :
    port.1 = root.dpid ∧ (hdl.topo.partner port).1 = root.dpid := by
  obtain ⟨linked, kept⟩ := (live_iff now ready elects).mp live
  exact kept.of_level ready.solved linked level

end

theorem linked_record {topo : Topology} (linked : topo.Linked port) :
    ∃ sw ∈ topo.switches, sw.dpid = port.1 ∧ ∃ record ∈ sw.ports, record.status = .neighbor ∧
      record.neighborDpid = (topo.partner port).1 := by
  obtain ⟨sw, member, record, present, status, rfl⟩ := linked
  exact ⟨sw, member, rfl, record, present, status, by rw [Topology.partner_eq member present]⟩

/-- Discovery has just settled on the topology. -/
def discovered (topo : Topology) : TopoHdl where
  topo := topo
  rt := trInvokeRouting topo fun _ => .init
  loopTrigger := true
  loopEn := true

theorem ready_discovered (topo : Topology) : Ready (discovered topo) where
  triggered := ⟨rfl, rfl⟩
  detects := rfl
  recomputed := ⟨fun _ => .init, false, rfl⟩
  fresh := .inl rfl

/-- One switch with a cable between two of its ports. -/
def loopedRoot : Topology where
  switches := [⟨1, 0, [⟨1, .neighbor, 2, 1⟩, ⟨2, .neighbor, 1, 1⟩],
    [(1, [⟨1, .neighbor, 2, 1⟩, ⟨2, .neighbor, 1, 1⟩])]⟩]
  dpids := by decide
  aliases := by decide
  valid := by decide
  portNos := by decide
  numbered := by decide
  symmetric := by decide
  listed := by decide
  connected := by decide

/-- Two switches with two cables between them; the second one also has a cable
between two of its own ports. -/
def twoCables : Topology where
  switches := [
    ⟨1, 0, [⟨1, .neighbor, 1, 2⟩, ⟨2, .neighbor, 2, 2⟩],
      [(2, [⟨1, .neighbor, 1, 2⟩, ⟨2, .neighbor, 2, 2⟩])]⟩,
    ⟨2, 1, [⟨1, .neighbor, 1, 1⟩, ⟨2, .neighbor, 2, 1⟩, ⟨3, .neighbor, 4, 2⟩, ⟨4, .neighbor, 3, 2⟩],
      [(1, [⟨1, .neighbor, 1, 1⟩, ⟨2, .neighbor, 2, 1⟩]),
        (2, [⟨3, .neighbor, 4, 2⟩, ⟨4, .neighbor, 3, 2⟩])]⟩]
  dpids := by decide
  aliases := by decide
  valid := by decide
  portNos := by decide
  numbered := by decide
  symmetric := by decide
  listed := by decide
  connected := by decide

theorem twoCables_ported : ∀ sw ∈ twoCables.switches, sw.ports ≠ [] := by decide

/-- A switch with a host, and two connected switches apart from it. -/
def islands : Topology where
  switches := [
    ⟨1, 0, [⟨1, .external, 0, 0⟩], []⟩,
    ⟨2, 1, [⟨1, .neighbor, 1, 3⟩], [(3, [⟨1, .neighbor, 1, 3⟩])]⟩,
    ⟨3, 2, [⟨1, .neighbor, 1, 2⟩], [(2, [⟨1, .neighbor, 1, 2⟩])]⟩]
  dpids := by decide
  aliases := by decide
  valid := by decide
  portNos := by decide
  numbered := by decide
  symmetric := by decide
  listed := by decide
  connected := by decide

/-- The open links have no cycle exactly if no port of the root is connected to the root itself. -/
theorem openAfter_acyclic_iff (ready : Ready hdl) : (openAfter now hdl).Acyclic ↔
      ∀ root, hdl.topo.Elects root → ∀ port ∈ root.ports, port.status = .neighbor →
        port.neighborDpid ≠ root.dpid := by
  constructor
  · intro acyclic root elects port present status back
    obtain ⟨linked, far⟩ := linked_port elects.1 present status
    have live := (live_iff now ready elects).mpr ⟨linked, .inr (.inr ⟨rfl, far.trans back⟩)⟩
    exact acyclic 0 _ (isCycle_of_loop live (far.trans back))
  · intro apart size trail cycle
    obtain ⟨root, elects⟩ := elects_of_linked (cycle.live 0).1
    refine acyclic_of_singleDescent (openAfter_singleDescent now ready elects) ?_ size trail cycle
    intro port live level
    obtain ⟨here, there⟩ := openAfter_level now ready elects live level
    obtain ⟨sw, member, owner, record, present, status, far⟩ := linked_record live.1
    obtain rfl := Topology.eq_of_dpid member elects.1 (owner.trans here)
    exact apart sw elects record present status (far.trans there)

/-- The root's ports stay designated, so its own cable stays open. -/
theorem loopedRoot_cycle : ¬(openAfter 1000 (discovered loopedRoot)).Acyclic := by
  intro acyclic
  have live : (openAfter 1000 (discovered loopedRoot)).live (1, 1) := by
    refine ⟨⟨_, List.mem_cons_self, _, List.mem_cons_self, rfl, rfl⟩, ?_⟩
    unfold TopoHdl.Unblocked
    decide
  exact acyclic 0 _ (isCycle_of_loop live rfl)

theorem twoCables_acyclic :
    (openAfter 1000 (discovered twoCables)).live (1, 1) ∧
      (openAfter 1000 (discovered twoCables)).Acyclic := by
  refine ⟨⟨⟨_, List.mem_cons_self, _, List.mem_cons_self, rfl, rfl⟩, ?_⟩, ?_⟩
  · unfold TopoHdl.Unblocked
    decide
  · have apart : ∀ root ∈ twoCables.switches,
        (∀ other ∈ twoCables.switches, root.dpid ≤ other.dpid) →
        ∀ port ∈ root.ports, port.neighborDpid ≠ root.dpid := by decide
    refine (openAfter_acyclic_iff 1000 (ready_discovered twoCables)).mpr
      fun root elects port present _ => ?_
    exact apart root elects.1
      (fun other member => elects.2.2 other member (twoCables_ported other member))
      port present

section

variable (ready : Ready hdl) (elects : hdl.topo.Elects root)
include ready elects

theorem not_descends (member : sw ∈ hdl.topo.switches)
    (bottom : sw.dpid = root.dpid ∨ trGetRoute hdl.topo hdl.rt sw.aliasId root.aliasId = none)
    (lower : Dpid) : ¬Descends (openAfter now hdl) (height hdl.topo hdl.rt root) sw.dpid lower := by
  rintro ⟨port, live, tail, rfl, down⟩
  obtain ⟨linked, kept⟩ := (live_iff now ready elects).mp live
  rw [← tail] at down
  obtain ⟨other, otherMember, owner, away, marked⟩ := kept.of_descends ready.solved linked down
  obtain rfl := Topology.eq_of_dpid otherMember member (owner.trans tail)
  rcases bottom with rooted | unrouted
  · exact away rooted
  · obtain ⟨route, routed⟩ := route_of_rootPort marked
    simp [unrouted] at routed

theorem eq_of_joined_openAfter
    (one : first ∈ hdl.topo.switches) (two : second ∈ hdl.topo.switches)
    (firstBottom : first.dpid = root.dpid ∨
      trGetRoute hdl.topo hdl.rt first.aliasId root.aliasId = none)
    (secondBottom : second.dpid = root.dpid ∨
      trGetRoute hdl.topo hdl.rt second.aliasId root.aliasId = none)
    (joined : (openAfter now hdl).Joined first.dpid second.dpid) : first.dpid = second.dpid := by
  refine eq_of_joined (openAfter_singleDescent now ready elects) (fun port live level => ?_) joined
    (not_descends now ready elects one firstBottom) (not_descends now ready elects two secondBottom)
  obtain ⟨here, there⟩ := openAfter_level now ready elects live level
  exact there.trans here.symm

theorem joined_root (routed : ∀ sw ∈ hdl.topo.switches, sw.dpid ≠ root.dpid →
      (∃ port ∈ sw.ports, port.status = .neighbor ∧ port.neighborDpid ≠ sw.dpid) →
      (trGetRoute hdl.topo hdl.rt sw.aliasId root.aliasId).isSome) (member : sw ∈ hdl.topo.switches)
    (leaves : ∃ port ∈ sw.ports, port.status = .neighbor ∧ port.neighborDpid ≠ sw.dpid) :
    (openAfter now hdl).Joined sw.dpid root.dpid := by
  -- Induction on the height: a root port leads to a lower switch, which is
  -- linked back to this one.
  induction level : height hdl.topo hdl.rt root sw.dpid using WellFoundedLT.induction
    generalizing sw with
  | ind level ih =>
    by_cases here : sw.dpid = root.dpid
    · rw [here]
      exact .refl
    obtain ⟨route, found⟩ := Option.isSome_iff_exists.mp (routed sw member here leaves)
    obtain ⟨portNo, marked, linked, next, nextMember, far, closer⟩ :=
      rootPort_of_route ready.solved member found
    have live : (openAfter now hdl).live (sw.dpid, portNo) :=
      (live_iff now ready elects).mpr ⟨linked, .inl ⟨sw, member, rfl, here, marked⟩⟩
    rw [← height_eq member, ← height_eq nextMember] at closer
    have back : ∃ port ∈ next.ports, port.status = .neighbor ∧ port.neighborDpid ≠ next.dpid := by
      obtain ⟨partnerLinked, same, -⟩ := Topology.linked_partner linked
      obtain ⟨owner, ownerMember, ownerDpid, record, present, status, leads⟩ :=
        linked_record partnerLinked
      obtain rfl := Topology.eq_of_dpid ownerMember nextMember (ownerDpid.trans far)
      refine ⟨record, present, status, ?_⟩
      rw [leads, same]
      rintro equal
      exact absurd closer (equal ▸ lt_irrefl _)
    exact .head ⟨(sw.dpid, portNo), live, rfl, far⟩ (ih _ (level ▸ closer) nextMember back rfl)

end

/-- Linked switches stay connected exactly if each but the root has a route to the root. -/
theorem openAfter_joined_iff (ready : Ready hdl) :
    (∀ first second, hdl.topo.links.Joined first second → (openAfter now hdl).Joined first second) ↔
      ∀ root, hdl.topo.Elects root → ∀ sw ∈ hdl.topo.switches, sw.dpid ≠ root.dpid →
        (∃ port ∈ sw.ports, port.status = .neighbor ∧ port.neighborDpid ≠ sw.dpid) →
        (trGetRoute hdl.topo hdl.rt sw.aliasId root.aliasId).isSome := by
  constructor
  · intro kept root elects sw member away ⟨port, present, status, leads⟩
    by_contra unrouted
    have bottom : trGetRoute hdl.topo hdl.rt sw.aliasId root.aliasId = none := by
      simpa using unrouted
    obtain ⟨linked, far⟩ := linked_port member present status
    obtain ⟨other, otherMember, otherDpid, -⟩ := linked_record (Topology.linked_partner linked).1
    have adjacent : hdl.topo.links.Joined sw.dpid other.dpid :=
      .single ⟨(sw.dpid, port.portNo), linked, rfl, otherDpid.symm⟩
    have apart : ¬hdl.topo.links.Joined sw.dpid root.dpid := fun joined =>
      away (eq_of_joined_openAfter now ready elects member elects.1 (.inr bottom) (.inl rfl)
        (kept _ _ joined))
    -- The neighbour cannot have a route either, and then the two are one.
    cases routed : trGetRoute hdl.topo hdl.rt other.aliasId root.aliasId with
    | some route =>
      have finite := (trGetRoute_spec ready.solved routed).1
      exact apart (adjacent.trans (ready.solved.joined other otherMember root elects.1 finite))
    | none =>
      have same :=
        eq_of_joined_openAfter now ready elects member otherMember (.inr bottom) (.inr routed)
        (kept _ _ adjacent)
      exact leads (far.symm.trans (otherDpid.symm.trans same.symm))
  · intro routed first second joined
    induction joined with
    | refl => exact .refl
    | @tail middle last _ adjacent ih =>
      apply ih.trans
      obtain ⟨port, linked, rfl, rfl⟩ := adjacent
      by_cases loop : (hdl.topo.partner port).1 = port.1
      · exact (show hdl.topo.links.head port = hdl.topo.links.tail port from loop) ▸ .refl
      obtain ⟨root, elects⟩ := elects_of_linked linked
      have down : ∀ port, hdl.topo.Linked port → (hdl.topo.partner port).1 ≠ port.1 →
          (openAfter now hdl).Joined port.1 root.dpid := by
        intro port linked apart
        obtain ⟨sw, member, owner, record, present, status, leads⟩ := linked_record linked
        rw [← owner]
        refine joined_root now ready elects (routed root elects) member ⟨record, present,
          status, ?_⟩
        rw [leads, owner]
        exact apart
      obtain ⟨partnerLinked, back, -⟩ := Topology.linked_partner linked
      have other : (hdl.topo.partner (hdl.topo.partner port)).1 ≠ (hdl.topo.partner port).1 := by
        rw [back]
        exact Ne.symm loop
      exact (down port linked loop).trans (joined_symm (down _ partnerLinked other))

/-- Switches without a route have all their links shut. -/
theorem islands_cut : ¬∀ first second, islands.links.Joined first second →
    (openAfter 1000 (discovered islands)).Joined first second := by
  intro kept
  have linked : islands.Linked (2, 1) :=
    ⟨_, List.mem_cons_of_mem _ List.mem_cons_self, _, List.mem_cons_self, rfl, rfl⟩
  have joined := kept 2 3 (.single ⟨(2, 1), linked, rfl, rfl⟩)
  rcases Relation.ReflTransGen.cases_head joined with same | ⟨next, ⟨port, live, tail, -⟩, -⟩
  · exact absurd same (by decide)
  · -- The only port of the switch is blocked.
    have ports : ∀ sw ∈ islands.switches, sw.dpid = 2 → ∀ record ∈ sw.ports, record.portNo = 1 := by
      decide
    have only : port = (2, 1) := by
      obtain ⟨sw, member, record, present, -, rfl⟩ := live.1
      exact Prod.ext tail (ports sw member tail record present)
    have blocked : ¬(loopDetect 1000 (discovered islands)).Unblocked (2, 1) := by
      unfold TopoHdl.Unblocked
      decide
    exact blocked (only ▸ live.2.1)

theorem twoCables_joined :
    Ready (discovered twoCables) ∧ ∀ first second, twoCables.links.Joined first second →
      (openAfter 1000 (discovered twoCables)).Joined first second := by
  have routed : ∀ root ∈ twoCables.switches,
      (∀ other ∈ twoCables.switches, root.dpid ≤ other.dpid) →
      ∀ sw ∈ twoCables.switches, sw.dpid ≠ root.dpid →
        (trGetRoute twoCables (discovered twoCables).rt sw.aliasId root.aliasId).isSome := by decide
  refine ⟨ready_discovered twoCables, ?_⟩
  refine (openAfter_joined_iff 1000 (ready_discovered twoCables)).mpr
    fun root elects sw member away _ => ?_
  exact routed root elects.1
    (fun other member => elects.2.2 other member (twoCables_ported other member))
    sw member away

end Run

end OpenMul.Topo
