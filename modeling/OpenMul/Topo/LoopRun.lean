import OpenMul.Topo.LinkVerdict

namespace OpenMul.Topo

open Lib

/-- No stage has spoken about any port. -/
def AllIdle (topo : Topology) (status : PortId → LoopPortStatus) : Prop :=
  ∀ sw ∈ topo.switches, ∀ port ∈ sw.portIds, (status port).Idle

/-- Loop detection is about to run over calculated paths. -/
structure Ready (hdl : TopoHdl) : Prop where
  triggered : hdl.loopTrigger = true ∧ hdl.loopEn = true
  detects : hdl.loopResetOnly = false
  recomputed : ∃ loopStatus sendPortState,
    hdl.rt = routeApspCalc (routeApspInitState hdl.topo loopStatus sendPortState)
  fresh : hdl.nextLoopState = .reset ∨
    hdl.nextLoopState = .rootElect ∧ AllIdle hdl.topo hdl.loopStatus

theorem rootElect_least {sw : LldpSwitch} (member : sw ∈ topo.switches)
    (ported : sw.ports ≠ []) : rootElect topo ≤ sw.dpid := by
  have visited := foldl_visits
    (fun least sw => if sw.dpid < least ∧ sw.ports ≠ [] then sw.dpid else least)
      (fun sw other => other = sw)
    (fun seen least => ∀ sw, seen sw → sw.ports ≠ [] → least ≤ sw.dpid) topo.switches
    (by
      intro seen least item _ below other known ported
      split
      · rename_i smaller
        rcases known with earlier | rfl
        · exact BitVec.le_trans (BitVec.le_of_lt smaller.1) (below other earlier ported)
        · exact BitVec.le_refl _
      · rename_i larger
        rcases known with earlier | rfl
        · exact below other earlier ported
        · exact BitVec.not_lt.mp fun less => larger ⟨less, ported⟩)
    (fun _ => False) invDpid (fun _ none => none.elim)
  exact visited sw (.inr ⟨sw, member, rfl⟩) ported

theorem rootElect_known (elected : rootElect topo ≠ invDpid) :
    ∃ root ∈ topo.switches, root.ports ≠ [] ∧ root.dpid = rootElect topo := by
  have known : rootElect topo = invDpid ∨
      ∃ root ∈ topo.switches, root.ports ≠ [] ∧ root.dpid = rootElect topo := by
    refine List.foldlRecOn
      (motive := fun least => least = invDpid ∨ ∃ root ∈ topo.switches, root.ports ≠ [] ∧
        root.dpid = least)
      _ _ (.inl rfl) fun least known sw member => ?_
    split
    · rename_i smaller
      exact .inr ⟨sw, member, smaller.2, rfl⟩
    · exact known
  exact known.resolve_left elected

/-- The switch with the least dpid among those that have a port. -/
def Topology.Elects (topo : Topology) (sw : LldpSwitch) : Prop :=
  sw ∈ topo.switches ∧ sw.ports ≠ [] ∧ ∀ other ∈ topo.switches, other.ports ≠ [] →
    sw.dpid ≤ other.dpid

theorem rootElect_ne_inv {sw : LldpSwitch} (member : sw ∈ topo.switches)
    (ported : sw.ports ≠ []) : rootElect topo ≠ invDpid := by
  have least := rootElect_least member ported
  have valid := (topo.valid sw member).1
  intro same
  rw [same] at least
  exact valid (BitVec.le_antisymm (by unfold invDpid; bv_omega) least)

theorem elects_iff {topo : Topology} :
    topo.Elects root ↔ topo.fetchSwitch (rootElect topo) = some root := by
  constructor
  · rintro ⟨member, ported, least⟩
    obtain ⟨found, foundMember, foundPorted, same⟩ :=
      rootElect_known (rootElect_ne_inv member ported)
    refine Topology.fetchSwitch_iff.mpr ⟨member,
      BitVec.le_antisymm ?_ (rootElect_least member ported)⟩
    rw [← same]
    exact least found foundMember foundPorted
  · intro fetched
    obtain ⟨member, dpid⟩ := Topology.fetchSwitch_iff.mp fetched
    obtain ⟨found, foundMember, ported, same⟩ := rootElect_known (dpid ▸ (topo.valid root member).1)
    obtain rfl := Topology.eq_of_dpid foundMember member (same.trans dpid.symm)
    refine ⟨member, ported, fun other otherMember otherPorted => ?_⟩
    rw [dpid]
    exact rootElect_least otherMember otherPorted

theorem elects_of_linked {topo : Topology} (linked : topo.Linked port) :
    ∃ root, topo.Elects root := by
  obtain ⟨sw, member, record, present, -, -⟩ := linked
  obtain ⟨root, rootMember, -, same⟩ :=
    rootElect_known (rootElect_ne_inv member (List.ne_nil_of_mem present))
  exact ⟨root, elects_iff.mpr (Topology.fetchSwitch_iff.mpr ⟨rootMember, same⟩)⟩

/-- The handle between two stages of a run that has elected `root`. -/
structure Between (topo : Topology) (root : LldpSwitch) (next : LoopState) (hdl : TopoHdl) :
    Prop where
  topo : hdl.topo = topo
  rootSw : hdl.rootSw = some root
  nextLoopState : hdl.nextLoopState = next
  loopBlocked : hdl.loopBlocked = false
  sent : hdl.Sent

/-- The handle before the root is elected. -/
structure Electing (topo : Topology) (rt : RtApsp) (hdl : TopoHdl) : Prop where
  topo : hdl.topo = topo
  rt : hdl.rt = rt
  nextLoopState : hdl.nextLoopState = .rootElect
  loopBlocked : hdl.loopBlocked = false
  idle : AllIdle hdl.topo hdl.loopStatus

theorem loopStatus_perSwitchLoopReset (hdl : TopoHdl) (sw : LldpSwitch) (port : PortId) :
    (perSwitchLoopReset hdl sw).loopStatus port = if port ∈ sw.portIds then .init
      else hdl.loopStatus port := by
  unfold perSwitchLoopReset
  generalize hdl.loopStatus = status
  induction sw.portIds generalizing status with
  | nil => rfl
  | cons first rest ih =>
    rw [List.foldl_cons, ih]
    by_cases here : port = first
    · subst here
      simp
    · simp [here]

theorem loopDetectStateReset_electing (detects : hdl.loopResetOnly = false)
    (running : hdl.loopBlocked = false) : Electing hdl.topo hdl.rt (loopDetectStateReset hdl) := by
  have visited := foldl_visits perSwitchLoopReset (fun sw port => port ∈ sw.portIds)
    (fun seen after => after.topo = hdl.topo ∧ after.rt = hdl.rt ∧
      ∀ port, seen port → after.loopStatus port = .init) hdl.topo.switches
    (by
      rintro seen reached sw - ⟨topo, rt, cleared⟩
      refine ⟨topo, rt, fun port known => ?_⟩
      rw [loopStatus_perSwitchLoopReset]
      split
      · rfl
      · rename_i outside
        exact cleared port (known.resolve_right outside))
    (fun _ => False) { hdl with rootDpid := invDpid } ⟨rfl, rfl, fun _ none => none.elim⟩
  obtain ⟨topo, rt, cleared⟩ := visited
  refine ⟨topo, rt, rfl, ?_, fun sw member port inside => .inl (cleared port ?_)⟩
  · change (hdl.loopResetOnly || hdl.loopBlocked) = false
    rw [detects, running]
    rfl
  · exact .inr ⟨sw, topo ▸ member, inside⟩

theorem linked_mem {topo : Topology} (linked : topo.Linked port) :
    ∃ sw ∈ topo.switches, sw.dpid = port.1 ∧ port ∈ sw.portIds := by
  obtain ⟨sw, member, record, present, -, rfl⟩ := linked
  exact ⟨sw, member, rfl, List.mem_map_of_mem present⟩

/-- There is nothing to be told yet. -/
theorem Electing.sent {topo : Topology} {rt : RtApsp} {hdl : TopoHdl}
    (electing : Electing topo rt hdl) : hdl.Sent := by
  intro port linked busy
  obtain ⟨sw, member, -, inside⟩ := linked_mem linked
  exact absurd (electing.idle sw member port inside) busy

section Stages

variable {topo : Topology} {rt : RtApsp} {root : LldpSwitch} {hdl : TopoHdl} (now : Nat)

theorem loopDetectRootSelect_between (electing : Electing topo rt hdl) (elects : topo.Elects root) :
    Between topo root .rootCostCalc (loopDetectRootSelect now hdl) ∧
      (loopDetectRootSelect now hdl).rt = rt ∧
      RootRoles topo rt root (fun _ => False) (loopDetectRootSelect now hdl).loopStatus := by
  have stage : loopDetectRootSelect now hdl =
      root.portIds.foldl (fun hdl port => loopPortUpdate now hdl port .dp)
        { hdl with
          rootSw := some root, rootDpid := rootElect hdl.topo
          nextLoopState := .rootCostCalc } := by
    unfold loopDetectRootSelect
    dsimp only
    rw [electing.topo, if_neg (rootElect_ne_inv elects.1 elects.2.1), elects_iff.mp elects]
  obtain ⟨framed, sameRt, status⟩ := loopPortUpdate_dp_foldl now root.portIds
    { hdl with rootSw := some root, rootDpid := rootElect hdl.topo, nextLoopState := .rootCostCalc }
  rw [stage]
  refine ⟨⟨framed.topo.trans electing.topo, framed.rootSw, framed.nextLoopState,
    framed.loopBlocked.trans electing.loopBlocked, framed.sent electing.sent⟩,
      sameRt.trans electing.rt, ?_⟩
  rw [status]
  refine ⟨fun port inside => if_pos inside, fun sw member away port inside => .inl ⟨?_, False.elim⟩⟩
  rw [if_neg]
  · exact electing.idle sw (electing.topo.symm ▸ member) port inside
  · intro rooted
    exact away ((fst_of_mem_portIds inside).symm.trans (fst_of_mem_portIds rooted))

theorem loopDetectRootCostCalc_between (between : Between topo root .rootCostCalc hdl)
    (same : hdl.rt = rt) (roles : RootRoles topo rt root (fun _ => False) hdl.loopStatus) :
    Between topo root .dpSelect (loopDetectRootCostCalc now hdl) ∧
      RootRoles topo rt root (fun dpid => ∃ sw ∈ topo.switches, dpid = sw.dpid)
        (loopDetectRootCostCalc now hdl).loopStatus := by
  obtain ⟨rfl, rootSw, -, running, sent⟩ := between
  subst same
  obtain ⟨framed, -, after⟩ := roles.foldl now
  unfold loopDetectRootCostCalc
  rw [rootSw]
  exact ⟨⟨framed.topo, framed.rootSw.trans rootSw, rfl, framed.loopBlocked.trans running,
    framed.sent sent⟩, after⟩

/-- Before the verdicts, every linked port is where its role puts it. -/
theorem RootRoles.settled (member : root ∈ topo.switches)
    (roles : RootRoles topo rt root seen status) :
    AllSettled topo (roleOf root.dpid status) (fun _ => False) status := by
  intro port linked
  obtain ⟨sw, swMember, owner, inside⟩ := linked_mem linked
  unfold roleOf
  by_cases rooted : port.1 = root.dpid
  · rw [if_pos rooted]
    obtain rfl := Topology.eq_of_dpid swMember member (owner.trans rooted)
    have designated := roles.rooted port inside
    rw [designated]
    cases (if (topo.partner port).1 = sw.dpid then Role.root
      else if status (topo.partner port) = .rp then .rootPort else .other) <;> simp [Settled]
  · rw [if_neg rooted]
    rcases roles.others sw swMember (owner ▸ rooted) port inside with ⟨idle, -⟩ | ⟨marked, -⟩
    · rw [if_neg idle.undecided.1]
      cases (if (topo.partner port).1 = root.dpid then Role.root
        else if status (topo.partner port) = .rp then .rootPort
          else .other) <;> simp [Settled, idle]
    · rw [if_pos marked]
      exact marked

theorem loopDetectDpSelect_between (between : Between topo root .dpSelect hdl)
    (settled : AllSettled topo (roleOf root.dpid start) (fun _ => False) hdl.loopStatus) :
    Between topo root .noneSelect (loopDetectDpSelect now hdl) ∧
      AllSettled topo (roleOf root.dpid start)
        (fun port => ∃ sw ∈ topo.switches, sw.dpid ≠ root.dpid ∧ port ∈ sw.portIds)
        (loopDetectDpSelect now hdl).loopStatus := by
  obtain ⟨rfl, rootSw, -, running, sent⟩ := between
  obtain ⟨framed, after⟩ := settled.foldl now
  unfold loopDetectDpSelect
  rw [rootSw]
  exact ⟨⟨framed.topo, framed.rootSw.trans rootSw, rfl, framed.loopBlocked.trans running,
    framed.sent sent⟩, after⟩

theorem loopDetectNoneSelect_final (between : Between topo root .noneSelect hdl) :
    (loopDetectNoneSelect now hdl).topo = topo ∧ (loopDetectNoneSelect now hdl).loopBlocked = true ∧
      (loopDetectNoneSelect now hdl).Sent ∧ ∀ port, ¬(hdl.loopStatus port).Idle →
        (loopDetectNoneSelect now hdl).loopStatus port = hdl.loopStatus port := by
  have quieted := foldl_related Quieted.refl Quieted.trans hdl.topo.switches
    (fun hdl sw _ => perSwitchNoneSelect_quieted now root hdl sw) hdl
  unfold loopDetectNoneSelect
  rw [between.rootSw]
  exact ⟨quieted.topo.trans between.topo, rfl, quieted.sent between.sent,
    fun port busy => quieted.busy busy⟩

end Stages

section Rounds

variable (now : Nat)

theorem loopRounds_running (running : hdl.loopBlocked = false) (rounds : Nat) :
    loopRounds now (rounds + 1) hdl = loopRounds now rounds (loopRound now hdl) := by
  rw [loopRounds, running, if_neg Bool.false_ne_true]

theorem loopRounds_blocked (blocked : hdl.loopBlocked = true) (rounds : Nat) :
    loopRounds now rounds hdl = hdl := by
  cases rounds with
  | zero => rfl
  | succ rounds => rw [loopRounds, if_pos blocked]

/-- The rounds that are left, at most. -/
def LoopState.left : LoopState → Nat
  | .reset => 5
  | .rootElect => 4
  | .rootCostCalc => 3
  | .dpSelect => 2
  | .noneSelect => 1

theorem loopRound_left (hdl : TopoHdl) : (loopRound now hdl).loopBlocked = true ∨
      (loopRound now hdl).nextLoopState.left < hdl.nextLoopState.left := by
  unfold loopRound
  cases hdl.nextLoopState with
  | reset => exact .inr (Nat.lt_succ_self 4)
  | rootElect =>
    unfold loopDetectRootSelect
    dsimp only
    split
    · simp [LoopState.left]
    · rw [(loopPortUpdate_dp_foldl now _ _).1.nextLoopState]
      simp [LoopState.left]
  | rootCostCalc =>
    dsimp only
    unfold loopDetectRootCostCalc
    split <;> simp [LoopState.left]
  | dpSelect =>
    unfold loopDetectDpSelect
    dsimp only
    split <;> simp [LoopState.left]
  | noneSelect => exact .inl rfl

/-- The loop of the source ends: with the rounds that are left it is blocked. -/
theorem loopRounds_stops (enough : hdl.nextLoopState.left ≤ rounds) :
    (loopRounds now rounds hdl).loopBlocked = true := by
  induction rounds generalizing hdl with
  | zero => cases state : hdl.nextLoopState <;> simp [state, LoopState.left] at enough
  | succ rounds ih =>
    cases running : hdl.loopBlocked with
    | true => rw [loopRounds_blocked now running, running]
    | false =>
      rw [loopRounds_running now running]
      rcases loopRound_left now hdl with blocked | less
      · rw [loopRounds_blocked now blocked, blocked]
      · exact ih (by omega)

/-- Whatever state an earlier detection left, five rounds are enough. -/
theorem loopRounds_five (hdl : TopoHdl) : (loopRounds now 5 hdl).loopBlocked = true := by
  apply loopRounds_stops
  cases hdl.nextLoopState <;> decide

end Rounds

/-- The port is the root port of its switch. -/
def IsRootPort (topo : Topology) (rt : RtApsp) (root : LldpSwitch) (port : PortId) : Prop :=
  ∃ sw ∈ topo.switches, sw.dpid = port.1 ∧ sw.dpid ≠ root.dpid ∧
    rootPort topo rt root sw = some port.2

theorem roleOf_eq_root : roleOf root start port = .root ↔ port.1 = root := by
  unfold roleOf
  split
  · simpa
  · split <;> simpa

theorem RootRoles.roleOf_eq_rootPort {topo : Topology} {root : LldpSwitch}
    (roles : RootRoles topo rt root (fun dpid => ∃ sw ∈ topo.switches, dpid = sw.dpid) status)
    (linked : topo.Linked port) :
    roleOf root.dpid status port = .rootPort ↔ IsRootPort topo rt root port := by
  obtain ⟨sw, member, owner, inside⟩ := linked_mem linked
  unfold roleOf
  by_cases rooted : port.1 = root.dpid
  · rw [if_pos rooted]
    apply iff_of_false (by decide)
    rintro ⟨other, -, same, away, -⟩
    exact absurd (same.trans rooted) away
  rw [if_neg rooted]
  rcases roles.others sw member (owner ▸ rooted) port inside with ⟨idle, unmarked⟩ | ⟨marked, found⟩
  · rw [if_neg idle.undecided.1]
    apply iff_of_false (by decide)
    rintro ⟨other, otherMember, same, -, found⟩
    rw [Topology.eq_of_dpid otherMember member (same.trans owner.symm)] at found
    exact absurd found (unmarked ⟨sw, member, rfl⟩)
  · rw [if_pos marked]
    exact ⟨fun _ => ⟨sw, member, owner, owner ▸ rooted, found⟩, fun _ => rfl⟩

/-- The links a run leaves open. -/
def KeepsLink (topo : Topology) (rt : RtApsp) (root : LldpSwitch) (port : PortId) : Prop :=
  IsRootPort topo rt root port ∨ IsRootPort topo rt root (topo.partner port) ∨
    port.1 = root.dpid ∧ (topo.partner port).1 = root.dpid

/-- The last thing the switch was told about the port is to receive. -/
def TopoHdl.Unblocked (hdl : TopoHdl) (port : PortId) : Prop :=
  ((hdl.lastPortMod port).any fun config => !hasFlag config.1 ofppcNoRecv) = true

theorem unblocked_of_told {hdl : TopoHdl}
    (told : hdl.lastPortMod port = some (loopPortConfig (hdl.loopStatus port))) :
    hdl.Unblocked port ↔ (hdl.loopStatus port).unblocked = true := by
  rw [TopoHdl.Unblocked, told]
  rfl

/-- Every linked port has a status that its switch was told. -/
structure Detected (topo : Topology) (rt : RtApsp) (root : LldpSwitch) (hdl : TopoHdl) : Prop where
  told : ∀ port, topo.Linked port →
    hdl.lastPortMod port = some (loopPortConfig (hdl.loopStatus port))
  unblocked : ∀ port, topo.Linked port →
    (hdl.Unblocked port ∧ hdl.Unblocked (topo.partner port) ↔ KeepsLink topo rt root port)

theorem Electing.detected (now : Nat) {topo : Topology} {rt : RtApsp} {root : LldpSwitch}
    {hdl : TopoHdl} (electing : Electing topo rt hdl) (elects : topo.Elects root) (rounds : Nat) :
    Detected topo rt root (loopRounds now (rounds + 4) hdl) := by
  obtain ⟨costing, sameRt, unseen⟩ := loopDetectRootSelect_between now electing elects
  obtain ⟨selecting, roles⟩ := loopDetectRootCostCalc_between now costing sameRt unseen
  obtain ⟨marking, settled⟩ := loopDetectDpSelect_between now selecting (roles.settled elects.1)
  obtain ⟨same, blocked, sent, kept⟩ := loopDetectNoneSelect_final now marking
  have run : loopRounds now (rounds + 4) hdl = loopDetectNoneSelect now (loopDetectDpSelect now
      (loopDetectRootCostCalc now (loopDetectRootSelect now hdl))) := by
    rw [loopRounds_running now electing.loopBlocked, loopRound, electing.nextLoopState,
      loopRounds_running now costing.loopBlocked, loopRound, costing.nextLoopState,
      loopRounds_running now selecting.loopBlocked, loopRound, selecting.nextLoopState,
      loopRounds_running now marking.loopBlocked, loopRound, marking.nextLoopState,
      loopRounds_blocked now blocked]
  have visited : ∀ port, topo.Linked port → roleOf root.dpid
      (loopDetectRootCostCalc now (loopDetectRootSelect now hdl)).loopStatus port ≠ .root →
      ∃ sw ∈ topo.switches, sw.dpid ≠ root.dpid ∧ port ∈ sw.portIds := by
    intro port linked away
    obtain ⟨sw, swMember, owner, inside⟩ := linked_mem linked
    exact ⟨sw, swMember, fun same => away (roleOf_eq_root.mpr (owner.symm.trans same)), inside⟩
  have busy : ∀ port, topo.Linked port → ¬((loopDetectDpSelect now
      (loopDetectRootCostCalc now (loopDetectRootSelect now hdl))).loopStatus port).Idle :=
    fun port linked => (settled port linked).busy (visited port linked)
  rw [run]
  have told := fun port linked => sent port (same.symm ▸ linked)
    (kept port (busy port linked) ▸ busy port linked)
  refine ⟨told, fun port linked => ?_⟩
  obtain ⟨partnerLinked, back, -⟩ := Topology.linked_partner linked
  have here := settled port linked
  have there := settled _ partnerLinked
  rw [back] at there
  rw [unblocked_of_told (told port linked), unblocked_of_told (told _ partnerLinked),
    kept port (busy port linked), kept _ (busy _ partnerLinked),
      here.unblocked_iff there (visited port linked) (visited _ partnerLinked),
    roles.roleOf_eq_rootPort linked, roles.roleOf_eq_rootPort partnerLinked, roleOf_eq_root,
      roleOf_eq_root]
  rfl

theorem loopDetect_eq (now : Nat) {hdl : TopoHdl}
    (triggered : hdl.loopTrigger = true ∧ hdl.loopEn = true) :
    ∃ lazy, Quieted hdl lazy ∧
      let rounds := loopRounds now 5 { lazy with loopBlocked := false, loopTrigger := false }
      (loopDetect now hdl).loopStatus = rounds.loopStatus ∧
        (loopDetect now hdl).portMods = rounds.portMods := by
  have cleared := Quieted.counted hdl 0 0 hdl.rootPathCost
  have quieted := cleared.trans (foldl_related Quieted.refl Quieted.trans hdl.topo.switches
    (fun hdl sw _ => perSwitchNoneSelectLazy_quieted now hdl sw) _)
  refine ⟨_, quieted, ?_⟩
  unfold loopDetect
  dsimp only
  rw [quieted.loopTrigger, quieted.loopEn, triggered.1, triggered.2, Bool.and_self]
  exact ⟨rfl, rfl⟩

theorem loopDetect_detected (now : Nat) {hdl : TopoHdl} (ready : Ready hdl)
    (elects : hdl.topo.Elects root) : Detected hdl.topo hdl.rt root (loopDetect now hdl) := by
  obtain ⟨lazy, quieted, status, portMods⟩ := loopDetect_eq now ready.triggered
  have electing : ∃ rounds started, Electing hdl.topo hdl.rt started ∧
      loopRounds now 5 { lazy with loopBlocked := false, loopTrigger := false } =
        loopRounds now (rounds + 4) started := by
    rcases ready.fresh with reset | ⟨elects, idle⟩
    · refine ⟨0, loopDetectStateReset { lazy with loopBlocked := false, loopTrigger := false },
        ?_, ?_⟩
      · have electing : Electing lazy.topo lazy.rt _ := @loopDetectStateReset_electing
          { lazy with loopBlocked := false, loopTrigger := false }
          (quieted.loopResetOnly.trans ready.detects) rfl
        exact ⟨electing.topo.trans quieted.topo, electing.rt.trans quieted.rt,
          electing.nextLoopState, electing.loopBlocked, electing.idle⟩
      · rw [loopRounds_running now rfl, loopRound]
        rw [quieted.nextLoopState, reset]
    · refine ⟨1, { lazy with loopBlocked := false, loopTrigger := false }, ?_, rfl⟩
      refine ⟨quieted.topo, quieted.rt, quieted.nextLoopState.trans elects, rfl, ?_⟩
      intro sw member port inside
      exact quieted.idle (idle sw (quieted.topo ▸ member) port inside)
  obtain ⟨rounds, started, electing, run⟩ := electing
  have detected := electing.detected now elects rounds
  refine ⟨fun port linked => ?_, fun port linked => ?_⟩
  · have told := detected.told port linked
    unfold TopoHdl.lastPortMod at told ⊢
    rwa [status, portMods, run]
  · have opened := detected.unblocked port linked
    unfold TopoHdl.Unblocked TopoHdl.lastPortMod at opened ⊢
    rwa [portMods, run]

end OpenMul.Topo
