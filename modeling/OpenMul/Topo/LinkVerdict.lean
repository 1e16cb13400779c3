import OpenMul.Topo.LoopRoles

namespace OpenMul.Topo

open Lib Function

/-- What a port is once the root ports are known. -/
inductive Role where
  | root
  | rootPort
  | other
  deriving DecidableEq, Repr

def roleOf (root : Dpid) (start : PortId → LoopPortStatus) (port : PortId) : Role :=
  if port.1 = root then .root else if start port = .rp then .rootPort else .other

/-- A visit to a port that is no root port: the status of the far end before,
and the status of both ends after. -/
inductive Visit : LoopPortStatus → LoopPortStatus → LoopPortStatus → Prop where
  | facing : Visit .rp .dp .rp
  | both {far : LoopPortStatus} (undecided : far = .dp ∨ far.Idle) : Visit far .ndp .dpN
  | one {far own : LoopPortStatus} (decided : far ≠ .rp ∧ far ≠ .dp) (shut : own = .ndp ∨
    own = .dpN) :
      Visit far own far

/-- The visit to one end of a link leaves this handle. -/
def Visited (hdl : TopoHdl) (here there : PortId) (after : TopoHdl) : Prop :=
  Framed hdl after ∧ ∃ own far, Visit (hdl.loopStatus there) own far ∧
    after.loopStatus = Function.update (Function.update hdl.loopStatus here own) there far

section Verdict

variable (now : Nat) (hdl : TopoHdl) (sw : LldpSwitch) (port : LldpPort) (neigh : LldpSwitch)
    (back : LldpPort)

theorem shutThisEnd_spec (status : LoopPortStatus) (shut : status ≠ .none) :
    Framed hdl (shutThisEnd now hdl sw port neigh status) ∧
      (shutThisEnd now hdl sw port neigh status).loopStatus =
        update hdl.loopStatus (sw.dpid, port.portNo) status := by
  obtain ⟨framed, -⟩ := loopPortUpdate_framed now hdl (sw.dpid, port.portNo) status
  exact ⟨framed.trans ⟨rfl, rfl, rfl, rfl, rfl, rfl, rfl, id⟩, loopPortUpdate_status now hdl _ shut⟩

/-- Shutting only this end writes the far end back as it was. -/
theorem shutThisEnd_visited (shut : status = .ndp ∨ status = .dpN)
    (decided : hdl.loopStatus (neigh.dpid, back.portNo) ≠ .rp ∧
      hdl.loopStatus (neigh.dpid, back.portNo) ≠ .dp)
    (apart : (neigh.dpid, back.portNo) ≠ (sw.dpid, port.portNo)) :
    Visited hdl (sw.dpid, port.portNo) (neigh.dpid,
      back.portNo) (shutThisEnd now hdl sw port neigh status) := by
  obtain ⟨framed, set⟩ :=
    shutThisEnd_spec now hdl sw port neigh status (by rcases shut with rfl | rfl <;> decide)
  refine ⟨framed, status, _, .one decided shut, set.trans ?_⟩
  rw [update_comm apart.symm, update_eq_self]

theorem shutBothEnds_visited (undecided : hdl.loopStatus (neigh.dpid, back.portNo) = .dp ∨
      (hdl.loopStatus (neigh.dpid, back.portNo)).Idle) :
    Visited hdl (sw.dpid, port.portNo) (neigh.dpid,
      back.portNo) (shutBothEnds now hdl sw port neigh back) := by
  obtain ⟨here, status⟩ := shutThisEnd_spec now hdl sw port neigh .ndp (by decide)
  obtain ⟨there, statuses⟩ :=
    shutThisEnd_spec now (shutThisEnd now hdl sw port neigh .ndp) neigh back sw
    .dpN (by decide)
  refine ⟨here.trans there, .ndp, .dpN, .both undecided, statuses.trans ?_⟩
  rw [status]

theorem portDpVerdict_visited (apart : (neigh.dpid, back.portNo) ≠ (sw.dpid, port.portNo)) :
    Visited hdl (sw.dpid, port.portNo) (neigh.dpid,
      back.portNo) (portDpVerdict now hdl sw port neigh back) := by
  have one := fun status shut decided =>
    @shutThisEnd_visited now hdl sw port neigh back status shut decided apart
  have both := shutBothEnds_visited now hdl sw port neigh back
  -- Costs and dpids only choose which end is to be shut first.
  have undecided : (hdl.loopStatus (neigh.dpid, back.portNo)).Idle →
      Visited hdl (sw.dpid, port.portNo) (neigh.dpid, back.portNo)
      (if hdl.rootPathCost sw.dpid < hdl.rootPathCost neigh.dpid
        then shutThisEnd now hdl sw port neigh .dpN
        else if hdl.rootPathCost neigh.dpid < hdl.rootPathCost sw.dpid then
          shutBothEnds now hdl sw port neigh back
        else if sw.dpid ≤ neigh.dpid then shutThisEnd now hdl sw port neigh .dpN
        else shutBothEnds now hdl sw port neigh back) := by
    intro idle
    have decided := idle.undecided
    split
    · exact one .dpN (.inr rfl) decided
    split
    · exact both (.inr idle)
    split
    · exact one .dpN (.inr rfl) decided
    · exact both (.inr idle)
  unfold portDpVerdict
  split
  · rename_i found
    refine ⟨(loopPortUpdate_framed now hdl _ .dp).1, .dp, .rp, found ▸ .facing, ?_⟩
    rw [loopPortUpdate_status now hdl _ (by decide), update_comm apart.symm, ← found,
      update_eq_self]
  · rename_i found
    exact both (.inl found)
  · rename_i found
    exact one .dpN (.inr rfl) (by rw [found]; decide)
  · rename_i found
    exact one .ndp (.inl rfl) (by rw [found]; decide)
  · rename_i found
    exact undecided (.inl found)
  · rename_i found
    exact undecided (.inr found)

end Verdict

/-- `mul_per_switch_port_dp_calc` passes over unlinked ports and root ports. -/
theorem perSwitchPortDpCalc_visited (now : Nat) {hdl : TopoHdl} {sw : LldpSwitch}
    (member : sw ∈ hdl.topo.switches) {port : LldpPort} (present : port ∈ sw.ports) :
    perSwitchPortDpCalc now sw hdl port = hdl ∧
        (hdl.topo.Linked (sw.dpid, port.portNo) → hdl.loopStatus (sw.dpid, port.portNo) = .rp) ∨
      hdl.topo.Linked (sw.dpid, port.portNo) ∧ hdl.loopStatus (sw.dpid, port.portNo) ≠ .rp ∧
        Visited hdl (sw.dpid, port.portNo) (hdl.topo.partner (sw.dpid, port.portNo))
          (perSwitchPortDpCalc now sw hdl port) := by
  unfold perSwitchPortDpCalc
  split
  · rename_i proceed
    obtain ⟨other, otherMember, back, backPresent, far⟩ :=
      hdl.topo.symmetric sw member port present proceed.1
    obtain ⟨dpid, portNo, -, -, -, apart⟩ := far
    rw [Topology.fetchSwitch_iff.mpr ⟨otherMember, dpid⟩]
    dsimp only
    rw [(Topology.portFind_iff otherMember).mpr ⟨backPresent, portNo⟩,
      Topology.partner_eq member present, ← dpid, ← portNo]
    exact .inr ⟨⟨sw, member, port, present, proceed.1, rfl⟩, proceed.2,
      portDpVerdict_visited now hdl sw port other back apart⟩
  · rename_i passed
    refine .inl ⟨rfl, fun linked => ?_⟩
    by_contra unmarked
    obtain ⟨owner, ownerMember, record, recordPresent, status, same⟩ := linked
    obtain rfl := Topology.eq_of_dpid member ownerMember (congrArg Prod.fst same)
    obtain rfl := List.inj_on_of_nodup_map (hdl.topo.portNos sw member) present recordPresent
      (congrArg Prod.snd same)
    exact passed ⟨status, unmarked⟩

def Settled : Role → Role → Prop → Prop → LoopPortStatus → Prop
  | .rootPort, _, _, _, status => status = .rp
  | .root, .other, _, farSeen, status => farSeen ∧ status = .dpN ∨ ¬farSeen ∧ status = .dp
  | .root, _, _, _, status => status = .dp
  | .other, .rootPort, seen, _, status => status = .dp ∨ ¬seen ∧ status.Idle
  | .other, _, seen, _, status => status = .ndp ∨ status = .dpN ∨ ¬seen ∧ status.Idle

section Settled

variable {own far : Role} {seen farSeen : Prop} {status farStatus : LoopPortStatus}

theorem Settled.role_of_rp (settled : Settled own far seen farSeen .rp) : own = .rootPort := by
  cases own <;> cases far <;> simp [Settled, LoopPortStatus.Idle] at settled ⊢

/-- Nothing is waited for at a root port's link. -/
theorem Settled.of_rootPort (settled : Settled .rootPort far seen farSeen status)
    (farSettled : Settled far .rootPort farSeen seen farStatus) :
    Settled .rootPort far seen' farSeen' status ∧
      Settled far .rootPort farSeen seen' farStatus := by
  refine ⟨settled, ?_⟩
  cases far <;> exact farSettled

theorem Visit.settled (visit : Visit farStatus status' farStatus') (away : own ≠ .root)
    (unmarked : status ≠ .rp) (settled : Settled own far seen farSeen status)
    (farSettled : Settled far own farSeen seen farStatus) :
    Settled own far True farSeen status' ∧ Settled far own farSeen True farStatus' := by
  obtain rfl : own = .other := by
    cases own with
    | root => exact absurd rfl away
    | rootPort => exact absurd settled unmarked
    | other => rfl
  cases far with
  | root =>
    -- The root's port is designated until the visit shuts both ends.
    cases visit with
    | facing => simp [Settled] at farSettled
    | both undecided => exact ⟨.inl rfl, .inl ⟨trivial, rfl⟩⟩
    | one decided shut =>
      refine ⟨shut.imp_right .inl, .inl ⟨trivial, ?_⟩⟩
      rcases farSettled with ⟨-, shutAlready⟩ | ⟨-, designated⟩
      · exact shutAlready
      · exact absurd designated decided.2
  | rootPort =>
    cases visit with
    | facing => exact ⟨.inl rfl, rfl⟩
    | both undecided => simp_all [Settled, LoopPortStatus.Idle]
    | one decided shut => exact absurd farSettled decided.1
  | other =>
    cases visit with
    | facing => simp [Settled, LoopPortStatus.Idle] at farSettled
    | both undecided => exact ⟨.inl rfl, .inr (.inl rfl)⟩
    | one decided shut => exact ⟨shut.imp_right .inl, farSettled⟩

section

variable (settled : Settled own far seen farSeen status) (visited : own ≠ .root → seen)
include settled visited

theorem Settled.busy : ¬status.Idle := by
  cases own <;> cases far <;> simp only [Settled] at settled <;> grind [LoopPortStatus.Idle]

theorem Settled.opened
    (kept : own = .rootPort ∨ far = .rootPort ∨ own = .root ∧ far = .root) :
    status.unblocked = true := by
  cases own with
  | rootPort => rw [settled]; rfl
  | root =>
    cases far with
    | other => simp at kept
    | root | rootPort => rw [settled]; rfl
  | other =>
    cases far with
    | rootPort =>
      rcases settled with designated | ⟨unseen, -⟩
      · rw [designated]
        rfl
      · exact absurd (visited (by decide)) unseen
    | root | other => simp at kept

theorem Settled.shut (farVisited : far ≠ .root → farSeen)
    (dropped : ¬(own = .rootPort ∨ far = .rootPort ∨ own = .root ∧ far = .root)) :
    status.unblocked = false := by
  have shut : status = .ndp ∨ status = .dpN := by
    cases own with
    | rootPort => simp at dropped
    | root =>
      cases far with
      | other =>
        rcases settled with ⟨-, shut⟩ | ⟨unseen, -⟩
        · exact .inr shut
        · exact absurd (farVisited (by decide)) unseen
      | root | rootPort => simp at dropped
    | other =>
      have unseen : ¬(¬seen ∧ status.Idle) := fun waiting => waiting.1 (visited (by decide))
      cases far with
      | rootPort => simp at dropped
      | root | other => exact settled.imp_right fun rest => rest.resolve_right unseen
  rcases shut with rfl | rfl <;> rfl

end

/-- The open links are those of the root ports and those within the root. -/
theorem Settled.unblocked_iff (settled : Settled own far seen farSeen status)
    (farSettled : Settled far own farSeen seen farStatus) (visited : own ≠ .root → seen)
    (farVisited : far ≠ .root → farSeen) : status.unblocked = true ∧ farStatus.unblocked = true ↔
      own = .rootPort ∨ far = .rootPort ∨ own = .root ∧ far = .root := by
  constructor
  · intro opened
    by_contra dropped
    simp [settled.shut visited farVisited dropped] at opened
  · intro kept
    refine ⟨settled.opened visited kept, farSettled.opened farVisited ?_⟩
    tauto

end Settled

/-- All links are settled as far as they were visited. -/
def AllSettled (topo : Topology) (role : PortId → Role) (seen : PortId → Prop)
    (status : PortId → LoopPortStatus) : Prop :=
  ∀ port, topo.Linked port →
    Settled (role port) (role (topo.partner port)) (seen port) (seen (topo.partner port))
      (status port)

section Visits

variable {topo : Topology} {role : PortId → Role} {seen : PortId → Prop}

theorem AllSettled.of_ends {visited : PortId}
    (settled : AllSettled topo role seen before) (linked : topo.Linked visited)
    (elsewhere : ∀ port, port ≠ visited → port ≠ topo.partner visited → after port = before port)
    (here : Settled (role visited) (role (topo.partner visited)) True (seen (topo.partner visited))
      (after visited))
    (there : Settled (role (topo.partner visited)) (role visited) (seen (topo.partner visited)) True
      (after (topo.partner visited))) :
    AllSettled topo role (fun port => seen port ∨ port = visited) after := by
  intro port portLinked
  obtain ⟨-, back, apart⟩ := Topology.linked_partner linked
  by_cases first : port = visited
  · subst first
    simpa only [or_true, or_iff_left apart] using here
  by_cases second : port = topo.partner visited
  · subst second
    rw [back]
    simpa only [or_true, or_iff_left first] using there
  · have partnerApart : topo.partner port ≠ visited := by
      rintro rfl
      exact second (Topology.linked_partner portLinked).2.1.symm
    rw [elsewhere port first second]
    simpa only [or_iff_left first, or_iff_left partnerApart] using settled port portLinked

theorem AllSettled.of_unlinked
    (settled : AllSettled topo role seen status) (unlinked : ¬topo.Linked visited) :
    AllSettled topo role (fun port => seen port ∨ port = visited) status := by
  intro port linked
  have first : port ≠ visited := by
    rintro rfl
    exact unlinked linked
  have second : topo.partner port ≠ visited := by
    rintro rfl
    exact unlinked (Topology.linked_partner linked).1
  simpa only [or_iff_left first, or_iff_left second] using settled port linked

end Visits

theorem AllSettled.step (now : Nat) {hdl : TopoHdl} {role : PortId → Role} {seen : PortId → Prop}
    (settled : AllSettled hdl.topo role seen hdl.loopStatus) {sw : LldpSwitch}
    (member : sw ∈ hdl.topo.switches) {port : LldpPort} (present : port ∈ sw.ports)
    (away : role (sw.dpid, port.portNo) ≠ .root) :
    Framed hdl (perSwitchPortDpCalc now sw hdl port) ∧
      AllSettled hdl.topo role (fun other => seen other ∨ other = (sw.dpid, port.portNo))
        (perSwitchPortDpCalc now sw hdl port).loopStatus := by
  rcases perSwitchPortDpCalc_visited now member present with
    ⟨same, marked⟩ | ⟨linked, unmarked, framed, own, far, visit, statuses⟩
  · rw [same]
    refine ⟨.refl hdl, ?_⟩
    by_cases linked : hdl.topo.Linked (sw.dpid, port.portNo)
    · have here := settled _ linked
      have there := settled _ (Topology.linked_partner linked).1
      rw [(Topology.linked_partner linked).2.1] at there
      have rootPort : role (sw.dpid, port.portNo) = .rootPort := (marked linked ▸ here).role_of_rp
      rw [rootPort] at here there
      obtain ⟨hereNow, thereNow⟩ := here.of_rootPort there
      refine settled.of_ends linked (fun _ _ _ => rfl) ?_ ?_ <;> rw [rootPort]
      · exact hereNow
      · exact thereNow
    · exact settled.of_unlinked linked
  · refine ⟨framed, ?_⟩
    obtain ⟨partnerLinked, back, apart⟩ := Topology.linked_partner linked
    have there := settled _ partnerLinked
    rw [back] at there
    obtain ⟨hereNow, thereNow⟩ := visit.settled away unmarked (settled _ linked) there
    refine settled.of_ends linked ?_ ?_ ?_
    · intro other first second
      rw [statuses, update_of_ne second, update_of_ne first]
    · rwa [statuses, update_of_ne apart.symm, update_self]
    · rwa [statuses, update_self]

theorem AllSettled.foldl (now : Nat) {hdl : TopoHdl} {root : LldpSwitch}
    (settled : AllSettled hdl.topo (roleOf root.dpid start) (fun _ => False) hdl.loopStatus) :
    let after := hdl.topo.switches.foldl (perSwitchDpCalc now root) hdl
    Framed hdl after ∧ AllSettled hdl.topo (roleOf root.dpid start)
      (fun port => ∃ sw ∈ hdl.topo.switches, sw.dpid ≠ root.dpid ∧
        port ∈ sw.portIds) after.loopStatus := by
  have ports : ∀ seen reached, ∀ sw ∈ hdl.topo.switches,
      Framed hdl reached ∧ AllSettled hdl.topo (roleOf root.dpid start) seen reached.loopStatus →
      Framed hdl (perSwitchDpCalc now root reached sw) ∧
        AllSettled hdl.topo (roleOf root.dpid start)
        (fun port => seen port ∨ sw.dpid ≠ root.dpid ∧ port ∈ sw.portIds)
        (perSwitchDpCalc now root reached sw).loopStatus := by
    intro seen reached sw member holds
    unfold perSwitchDpCalc
    split
    · rename_i here
      simpa only [here, ne_eq, not_true_eq_false, false_and, or_false] using holds
    · rename_i away
      have visited := foldl_visits (perSwitchPortDpCalc now sw)
        (fun record port => port = (sw.dpid, record.portNo))
        (fun seen after => Framed hdl after ∧
          AllSettled hdl.topo (roleOf root.dpid start) seen after.loopStatus)
        sw.ports
        (by
          rintro seen middle record present ⟨framed, settled⟩
          rw [← framed.topo] at settled
          obtain ⟨next, after⟩ := settled.step now (framed.topo.symm ▸ member) present
            (by simp only [roleOf, if_neg away]; split <;> decide)
          rw [framed.topo] at after
          exact ⟨framed.trans next, after⟩)
        seen reached holds
      simpa only [LldpSwitch.portIds, List.mem_map, away, ne_eq, not_false_eq_true, true_and,
        eq_comm] using visited
  have visited := foldl_visits (perSwitchDpCalc now root)
    (fun sw port => sw.dpid ≠ root.dpid ∧ port ∈ sw.portIds)
    (fun seen after => Framed hdl after ∧
      AllSettled hdl.topo (roleOf root.dpid start) seen after.loopStatus)
    hdl.topo.switches ports (fun _ => False) hdl ⟨.refl hdl, settled⟩
  simpa only [false_or] using visited

end OpenMul.Topo
