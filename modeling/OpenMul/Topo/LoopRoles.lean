import OpenMul.Lib.Loop
import OpenMul.Topo.Loop
import OpenMul.Topo.RouteInvariant

namespace OpenMul.Topo

open Lib Function

/-- The status of a port no stage has spoken about. -/
def LoopPortStatus.Idle (status : LoopPortStatus) : Prop := status = .init ∨ status = .none

theorem LoopPortStatus.Idle.undecided {status : LoopPortStatus} (idle : status.Idle) :
    status ≠ .rp ∧ status ≠ .dp := by
  rcases idle with rfl | rfl <;> decide

/-- The switches were told the status of every linked port that has one. -/
def TopoHdl.Sent (hdl : TopoHdl) : Prop :=
  ∀ port, hdl.topo.Linked port → ¬(hdl.loopStatus port).Idle →
    hdl.lastPortMod port = some (loopPortConfig (hdl.loopStatus port))

/-- The fields that steer the state machine are the same, and no switch was left
uninformed. -/
structure Framed (before after : TopoHdl) : Prop where
  topo : after.topo = before.topo
  rootSw : after.rootSw = before.rootSw
  nextLoopState : after.nextLoopState = before.nextLoopState
  loopBlocked : after.loopBlocked = before.loopBlocked
  loopTrigger : after.loopTrigger = before.loopTrigger
  loopEn : after.loopEn = before.loopEn
  loopResetOnly : after.loopResetOnly = before.loopResetOnly
  sent : before.Sent → after.Sent

theorem Framed.refl (hdl : TopoHdl) : Framed hdl hdl := ⟨rfl, rfl, rfl, rfl, rfl, rfl, rfl, id⟩

theorem Framed.trans (one : Framed first second) (two : Framed second third) : Framed first third :=
  ⟨two.topo.trans one.topo, two.rootSw.trans one.rootSw, two.nextLoopState.trans one.nextLoopState,
    two.loopBlocked.trans one.loopBlocked, two.loopTrigger.trans one.loopTrigger,
    two.loopEn.trans one.loopEn, two.loopResetOnly.trans one.loopResetOnly, two.sent ∘ one.sent⟩

/-- Besides, only idle ports may have changed, and they are idle still. -/
structure Quieted (before after : TopoHdl) : Prop extends Framed before after where
  rt : after.rt = before.rt
  softened : ∀ port, after.loopStatus port = before.loopStatus port ∨
    (before.loopStatus port).Idle ∧ (after.loopStatus port).Idle

theorem Quieted.refl (hdl : TopoHdl) : Quieted hdl hdl := ⟨.refl hdl, rfl, fun _ => .inl rfl⟩

/-- Counters and costs are not looked at by any of this. -/
theorem Quieted.counted (hdl : TopoHdl) (held clr : Nat) (cost : Dpid → Int) :
    Quieted hdl { hdl with heldPorts := held, clrPorts := clr, rootPathCost := cost } where
  toFramed := ⟨rfl, rfl, rfl, rfl, rfl, rfl, rfl, id⟩
  rt := rfl
  softened _ := .inl rfl

theorem Quieted.trans (one : Quieted first second) (two : Quieted second third) :
    Quieted first third := by
  refine ⟨one.toFramed.trans two.toFramed, two.rt.trans one.rt, fun port => ?_⟩
  rcases one.softened port with same | ⟨idle, still⟩ <;> rcases two.softened port with
    again | ⟨idle', still'⟩
  · exact .inl (again.trans same)
  · exact .inr ⟨same ▸ idle', still'⟩
  · exact .inr ⟨idle, again ▸ still⟩
  · exact .inr ⟨idle, still'⟩

variable {before after : TopoHdl}

theorem Quieted.idle (quieted : Quieted before after) {port : PortId}
    (idle : (before.loopStatus port).Idle) : (after.loopStatus port).Idle := by
  rcases quieted.softened port with same | ⟨-, still⟩
  · exact same ▸ idle
  · exact still

theorem Quieted.busy (quieted : Quieted before after) {port : PortId}
    (busy : ¬(before.loopStatus port).Idle) : after.loopStatus port = before.loopStatus port := by
  rcases quieted.softened port with same | ⟨idle, -⟩
  · exact same
  · exact absurd idle busy

section Port

variable (now : Nat) (hdl : TopoHdl) (port : PortId)

theorem loopPortSet_sent (status : LoopPortStatus) (sent : hdl.Sent) :
    (loopPortSet hdl port status).Sent := by
  intro other linked busy
  change (((hdl.portMods ++ [(port, loopPortConfig status)]).reverse.find?
    fun entry => entry.1 == other).map Prod.snd) = _
  rw [List.reverse_append, List.reverse_singleton, List.singleton_append, List.find?_cons]
  change ¬(update hdl.loopStatus port status other).Idle at busy
  change _ = some (loopPortConfig (update hdl.loopStatus port status other))
  by_cases here : other = port
  · subst here
    simp
  · rw [update_of_ne here] at busy ⊢
    rw [beq_false_of_ne (Ne.symm here)]
    exact sent other linked busy

theorem loopPortUpdate_framed (status : LoopPortStatus) :
    Framed hdl (loopPortUpdate now hdl port status) ∧
      (loopPortUpdate now hdl port status).rt = hdl.rt := by
  unfold loopPortUpdate loopPortUpdateNone
  split
  · split
    · split <;> exact ⟨⟨rfl, rfl, rfl, rfl, rfl, rfl, rfl, id⟩, rfl⟩
    · exact ⟨⟨rfl, rfl, rfl, rfl, rfl, rfl, rfl, loopPortSet_sent _ port .none⟩, rfl⟩
  · exact ⟨⟨rfl, rfl, rfl, rfl, rfl, rfl, rfl, loopPortSet_sent hdl port status⟩, rfl⟩

theorem loopPortUpdate_status (different : status ≠ .none) :
    (loopPortUpdate now hdl port status).loopStatus = update hdl.loopStatus port status := by
  rw [loopPortUpdate, if_neg different]
  rfl

/-- `NONE` is set at once or held back. -/
theorem loopPortUpdate_none : (loopPortUpdate now hdl port .none).loopStatus = hdl.loopStatus ∨
      (loopPortUpdate now hdl port .none).loopStatus = update hdl.loopStatus port .none := by
  rw [loopPortUpdate, if_pos rfl]
  unfold loopPortUpdateNone
  split
  · split <;> exact .inl rfl
  · exact .inr rfl

theorem loopPortUpdate_quieted (idle : (hdl.loopStatus port).Idle) :
    Quieted hdl (loopPortUpdate now hdl port .none) := by
  obtain ⟨framed, rt⟩ := loopPortUpdate_framed now hdl port .none
  refine ⟨framed, rt, fun other => ?_⟩
  rcases loopPortUpdate_none now hdl port with same | set
  · exact .inl (congrFun same other)
  · rw [set]
    by_cases here : other = port
    · subst here
      exact .inr ⟨idle, by rw [update_self]; exact .inr rfl⟩
    · exact .inl (update_of_ne here ..)

theorem perSwitchPortMarkNone_quieted : Quieted hdl (perSwitchPortMarkNone now hdl port) := by
  unfold perSwitchPortMarkNone
  split
  · rename_i idle
    have mark : ∀ held, Quieted hdl held → Quieted hdl
        (if (loopPortUpdate now held port .none).holdTime port = 0 then
          { loopPortUpdate now held port .none with
            clrPorts := (loopPortUpdate now held port .none).clrPorts + 1 }
        else loopPortUpdate now held port .none) := by
      intro held counted
      have marked := counted.trans (loopPortUpdate_quieted now held port (counted.idle idle.symm))
      split
      · exact marked.trans (.counted _ _ _ _)
      · exact marked
    by_cases onHold : hdl.holdTime port ≠ 0
    · rw [if_pos onHold]
      exact mark _ (.counted hdl (hdl.heldPorts + 1) hdl.clrPorts hdl.rootPathCost)
    · rw [if_neg onHold]
      exact mark hdl (.refl hdl)
  · exact .refl hdl

theorem perSwitchPortMarkNoneLazy_quieted :
    Quieted hdl (perSwitchPortMarkNoneLazy now hdl port) := by
  unfold perSwitchPortMarkNoneLazy
  split
  · exact perSwitchPortMarkNone_quieted now hdl port
  · exact .refl hdl

end Port

theorem perSwitchNoneSelectLazy_quieted (now : Nat) (hdl : TopoHdl) (sw : LldpSwitch) :
    Quieted hdl (perSwitchNoneSelectLazy now hdl sw) :=
  foldl_related .refl .trans _ (fun hdl port _ => perSwitchPortMarkNoneLazy_quieted now hdl port)
    hdl

theorem perSwitchNoneSelect_quieted (now : Nat) (root : LldpSwitch) (hdl : TopoHdl)
    (sw : LldpSwitch) : Quieted hdl (perSwitchNoneSelect now root hdl sw) := by
  unfold perSwitchNoneSelect
  split
  · exact .refl hdl
  · exact foldl_related .refl .trans _
      (fun hdl port _ => perSwitchPortMarkNone_quieted now hdl port) hdl

theorem loopPortUpdate_dp_foldl (now : Nat) (ports : List PortId) (hdl : TopoHdl) :
    let after := ports.foldl (fun hdl port => loopPortUpdate now hdl port .dp) hdl
    Framed hdl after ∧ after.rt = hdl.rt ∧
      after.loopStatus = fun port => if port ∈ ports then .dp else hdl.loopStatus port := by
  induction ports generalizing hdl with
  | nil => exact ⟨.refl hdl, rfl, rfl⟩
  | cons port rest ih =>
    obtain ⟨framed, rt⟩ := loopPortUpdate_framed now hdl port .dp
    obtain ⟨later, laterRt, status⟩ := ih (loopPortUpdate now hdl port .dp)
    refine ⟨framed.trans later, laterRt.trans rt, status.trans ?_⟩
    funext other
    rw [loopPortUpdate_status now hdl port (by decide)]
    by_cases here : other = port
    · subst here
      simp
    · simp [here]

/-- The port `mul_per_switch_rp_calc` marks, if any. -/
def rootPort (topo : Topology) (rt : RtApsp) (root sw : LldpSwitch) : Option PortNo :=
  (trGetRoute topo rt sw.aliasId root.aliasId).bind fun route =>
    (sw.portFind (routeCostCalc route).2).map LldpPort.portNo

theorem routeCostCalc_port (rest : Route) (numbered : elem.link.la ≠ 0) :
    (routeCostCalc (elem :: rest)).2 = elem.link.la := by
  have kept : ∀ found : Int × PortNo, found.2 ≠ 0 →
      (rest.foldl (fun found elem => (found.1 + 10, if found.2 = 0 then elem.link.la else found.2))
        found).2 =
        found.2 := by
    induction rest with
    | nil => exact fun _ _ => rfl
    | cons elem more ih =>
      intro found set
      rw [List.foldl_cons, ih _ (by rwa [if_neg set]), if_neg set]
  exact kept _ numbered

variable {topo : Topology} {rt : RtApsp} {root sw : LldpSwitch}

/-- A switch with a route has a root port, and it leads closer to the root. -/
theorem rootPort_of_route (solved : Solved topo rt) (member : sw ∈ topo.switches)
    (found : trGetRoute topo rt sw.aliasId root.aliasId = some route) :
    ∃ portNo, rootPort topo rt root sw = some portNo ∧ topo.Linked (sw.dpid, portNo) ∧
      ∃ next ∈ topo.switches, (topo.partner (sw.dpid, portNo)).1 = next.dpid ∧
        distance rt root.aliasId next.aliasId < distance rt root.aliasId sw.aliasId := by
  obtain ⟨-, next, rest, rfl, onlink, closer⟩ := trGetRoute_spec solved found
  obtain ⟨src, source, dst, target, fromAlias, toAlias, port, present, status, leads, portNo⟩ :=
    solved.onlink _ _ onlink
  obtain rfl := eq_of_aliasId source member fromAlias
  subst toAlias
  have first : (routeCostCalc (⟨src.aliasId, rt.getPair src.aliasId dst.aliasId⟩ :: rest)).2 = _ :=
    routeCostCalc_port rest (portNo ▸ (topo.numbered src source port present).1)
  refine ⟨port.portNo, ?_, ?_⟩
  · rw [rootPort, found, Option.bind_some, first, portNo,
      (Topology.portFind_iff source).mpr ⟨present, rfl⟩, Option.map_some]
  · obtain ⟨linked, far⟩ := linked_port source present status
    exact ⟨linked, dst, target, far.trans leads, closer⟩

theorem route_of_rootPort (found : rootPort topo rt root sw = some portNo) :
    ∃ route, trGetRoute topo rt sw.aliasId root.aliasId = some route := by
  obtain ⟨route, routed, -⟩ := Option.bind_eq_some_iff.mp found
  exact ⟨route, routed⟩

theorem perSwitchRpCalc_spec (now : Nat) {hdl : TopoHdl} (away : sw.dpid ≠ root.dpid)
    (loose : rootPort hdl.topo hdl.rt root sw = none → ∀ port ∈ sw.portIds,
      (hdl.loopStatus port).Idle) :
    let after := perSwitchRpCalc now root hdl sw
    Framed hdl after ∧ after.rt = hdl.rt ∧
      match rootPort hdl.topo hdl.rt root sw with
      | none => Quieted hdl after
      | some portNo => after.loopStatus = update hdl.loopStatus (sw.dpid, portNo) .rp := by
  unfold perSwitchRpCalc
  rw [if_neg away]
  unfold rootPort at loose ⊢
  cases routed : trGetRoute hdl.topo hdl.rt sw.aliasId root.aliasId with
  | none =>
    rw [routed] at loose
    have quieted : Quieted hdl (sw.portIds.foldl (fun hdl port => loopPortUpdate now hdl port .none)
        { hdl with rootPathCost := update hdl.rootPathCost sw.dpid (-1) }) := by
      refine List.foldlRecOn _ _ (.counted hdl _ _ _) ?_
      intro reached quieted port inside
      exact quieted.trans
        (loopPortUpdate_quieted now reached port (quieted.idle (loose rfl port inside)))
    exact ⟨quieted.toFramed, quieted.rt, quieted⟩
  | some route =>
    rw [Option.bind_some]
    dsimp only
    cases located : sw.portFind (routeCostCalc route).2 with
    | none =>
      have quieted := Quieted.counted hdl hdl.heldPorts hdl.clrPorts
        (update hdl.rootPathCost sw.dpid (routeCostCalc route).1)
      exact ⟨quieted.toFramed, quieted.rt, quieted⟩
    | some port =>
      have costed := Quieted.counted hdl hdl.heldPorts hdl.clrPorts
        (update hdl.rootPathCost sw.dpid (routeCostCalc route).1)
      obtain ⟨framed, rt⟩ := loopPortUpdate_framed now
        { hdl with rootPathCost := update hdl.rootPathCost sw.dpid (routeCostCalc route).1 }
        (sw.dpid, port.portNo) .rp
      exact ⟨costed.toFramed.trans framed, rt, loopPortUpdate_status now _ _ (by decide)⟩

/-- The root's ports are designated, and the switches in `seen` have their root ports. -/
structure RootRoles (topo : Topology) (rt : RtApsp) (root : LldpSwitch) (seen : Dpid → Prop)
    (status : PortId → LoopPortStatus) : Prop where
  rooted : ∀ port ∈ root.portIds, status port = .dp
  others : ∀ sw ∈ topo.switches, sw.dpid ≠ root.dpid → ∀ port ∈ sw.portIds,
    (status port).Idle ∧ (seen sw.dpid → rootPort topo rt root sw ≠ some port.2) ∨
      status port = .rp ∧ rootPort topo rt root sw = some port.2

theorem fst_of_mem_portIds (member : port ∈ sw.portIds) : port.1 = sw.dpid := by
  obtain ⟨record, -, rfl⟩ := List.mem_map.mp member
  rfl

theorem RootRoles.quieted (roles : RootRoles topo rt root seen before.loopStatus)
    (quieted : Quieted before after) : RootRoles topo rt root seen after.loopStatus where
  rooted port inside := by
    have designated := roles.rooted port inside
    rw [quieted.busy fun idle => idle.undecided.2 designated, designated]
  others sw member away port inside := by
    rcases roles.others sw member away port inside with ⟨idle, other⟩ | ⟨marked, found⟩
    · exact .inl ⟨quieted.idle idle, other⟩
    · rw [quieted.busy fun idle => idle.undecided.1 marked]
      exact .inr ⟨marked, found⟩

theorem RootRoles.step (now : Nat) {seen : Dpid → Prop} {hdl : TopoHdl}
    (roles : RootRoles hdl.topo hdl.rt root seen hdl.loopStatus) (member : sw ∈ hdl.topo.switches) :
    let after := perSwitchRpCalc now root hdl sw
    Framed hdl after ∧ after.rt = hdl.rt ∧
      RootRoles hdl.topo hdl.rt root (fun dpid => seen dpid ∨ dpid = sw.dpid) after.loopStatus := by
  by_cases here : sw.dpid = root.dpid
  · have idle : perSwitchRpCalc now root hdl sw = hdl := if_pos here
    rw [idle]
    refine ⟨.refl hdl, rfl, roles.rooted, fun other otherMember away port inside => ?_⟩
    refine (roles.others other otherMember away port inside).imp_left fun known => ⟨known.1, ?_⟩
    rintro (earlier | now)
    · exact known.2 earlier
    · exact absurd (now.trans here) away
  have loose : rootPort hdl.topo hdl.rt root sw = none → ∀ port ∈ sw.portIds,
      (hdl.loopStatus port).Idle := by
    intro missing port inside
    rcases roles.others sw member here port inside with ⟨idle, -⟩ | ⟨-, found⟩
    · exact idle
    · simp [missing] at found
  obtain ⟨framed, rt, effect⟩ := perSwitchRpCalc_spec now here loose
  refine ⟨framed, rt, ?_⟩
  cases found : rootPort hdl.topo hdl.rt root sw with
  | none =>
    rw [found] at effect
    have quieted := roles.quieted effect
    refine ⟨quieted.rooted, fun other otherMember away port inside => ?_⟩
    refine (quieted.others other otherMember away port inside).imp_left fun known => ⟨known.1, ?_⟩
    rintro (earlier | now)
    · exact known.2 earlier
    · rw [Topology.eq_of_dpid otherMember member now, found]
      simp
  | some portNo =>
    rw [found] at effect
    rw [effect]
    refine ⟨fun port inside => ?_, fun other otherMember away port inside => ?_⟩
    · rw [update_of_ne, roles.rooted port inside]
      rintro rfl
      exact here (fst_of_mem_portIds inside)
    · by_cases marked : port = (sw.dpid, portNo)
      · have same : other.dpid = sw.dpid :=
          (fst_of_mem_portIds inside).symm.trans (congrArg Prod.fst marked)
        rw [Topology.eq_of_dpid otherMember member same, marked, update_self]
        exact .inr ⟨rfl, found⟩
      · rw [update_of_ne marked]
        refine (roles.others other otherMember away port inside).imp_left fun known => ⟨known.1, ?_⟩
        rintro (earlier | now)
        · exact known.2 earlier
        · rw [Topology.eq_of_dpid otherMember member now, found, ne_eq, Option.some.injEq]
          intro same
          exact marked (Prod.ext ((fst_of_mem_portIds inside).trans now) same.symm)

theorem RootRoles.foldl (now : Nat) {hdl : TopoHdl}
    (roles : RootRoles hdl.topo hdl.rt root (fun _ => False) hdl.loopStatus) :
    let after := hdl.topo.switches.foldl (perSwitchRpCalc now root) hdl
    Framed hdl after ∧ after.rt = hdl.rt ∧
      RootRoles hdl.topo hdl.rt root (fun dpid => ∃ sw ∈ hdl.topo.switches, dpid = sw.dpid)
        after.loopStatus := by
  have visited := foldl_visits (perSwitchRpCalc now root) (fun sw dpid => dpid = sw.dpid)
    (fun seen after => Framed hdl after ∧ after.rt = hdl.rt ∧
      RootRoles hdl.topo hdl.rt root seen after.loopStatus) hdl.topo.switches
    (by
      rintro seen reached sw member ⟨framed, rt, roles⟩
      rw [← framed.topo, ← rt] at roles
      obtain ⟨next, nextRt, after⟩ := roles.step now (framed.topo.symm ▸ member)
      rw [framed.topo, rt] at after
      exact ⟨framed.trans next, nextRt.trans rt, after⟩)
    (fun _ => False) hdl ⟨.refl hdl, rfl, roles⟩
  simpa only [false_or] using visited

end OpenMul.Topo
