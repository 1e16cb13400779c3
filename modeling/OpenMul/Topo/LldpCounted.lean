import OpenMul.Topo.AliasMapInvariant

namespace OpenMul.Topo

open Lib List Function

theorem LldpHdl.setSwitch_self {view : LldpHdl} (found : view.switches dpid = some sw) :
    view.setSwitch dpid sw = view := by
  rw [LldpHdl.setSwitch, ← found, update_eq_self]

namespace CountedHdl

/-- What the handlers see of the module when references are not counted. -/
def toLldp (hdl : CountedHdl) : LldpHdl where
  switches dpid := (hdl.switchAt dpid).map SwitchObj.toSwitchRec
  swImap aliasId := decide (0 ≤ aliasId) && (hdl.swImap aliasId.toNat).isSome
  crashed := hdl.crashed

variable {hdl : CountedHdl} {held : List Addr} {dpid : Dpid} {addr : Addr} {sw : SwitchObj}

theorem toLldp_switches (listed : hdl.switches.lookup dpid = some addr)
    (found : hdl.heap addr = some sw) : hdl.toLldp.switches dpid = some sw.toSwitchRec := by
  simp [toLldp, switchAt, listed, found]

theorem portFind_eq (found : hdl.heap addr = some sw) (portNo : PortNo) :
    hdl.portFind addr portNo = sw.ports portNo := by
  simp [portFind, found]

section

variable (registered : hdl.Registered held)
include registered

/-- No two datapaths have one record. -/
theorem Registered.listed_once (listed : hdl.switches.lookup dpid = some addr)
    (other : hdl.switches.lookup key = some addr) : key = dpid := by
  obtain ⟨sw, found, rfl⟩ := registered.stored dpid addr listed
  obtain ⟨again, allocated, rfl⟩ := registered.stored key addr other
  rw [found] at allocated
  cases allocated
  rfl

theorem Registered.apart (listed : hdl.switches.lookup dpid = some addr) :
    ∀ key ≠ dpid, ∀ other, hdl.switches.lookup key = some other → other ≠ addr := by
  rintro key differs other stored rfl
  exact differs (registered.listed_once listed stored)

omit registered in
/-- One datapath changes; the others have their records where they were. -/
theorem toLldp_switches_update {next : CountedHdl}
    (table : ∀ key ≠ dpid, next.switches.lookup key = hdl.switches.lookup key)
    (heap : ∀ key ≠ dpid, ∀ other, hdl.switches.lookup key = some other →
      next.heap other = hdl.heap other) :
    next.toLldp.switches =
      update hdl.toLldp.switches dpid ((next.switchAt dpid).map SwitchObj.toSwitchRec) := by
  funext key
  by_cases same : key = dpid
  · subst same
    simp [toLldp]
  · rw [update_of_ne same]
    cases listed : hdl.switches.lookup key with
    | none => simp [toLldp, switchAt, table key same, listed]
    | some other => simp [toLldp, switchAt, table key same, listed, heap key same other listed]

theorem Registered.toLldp_setSwitch (listed : hdl.switches.lookup dpid = some addr)
    (new : SwitchObj) :
    (hdl.setSwitch addr new).toLldp = hdl.toLldp.setSwitch dpid new.toSwitchRec := by
  have switches := @toLldp_switches_update hdl dpid (hdl.setSwitch addr new) (fun _ _ => rfl)
    fun key differs other stored =>
      update_of_ne (registered.apart listed key differs other stored) ..
  have here : (hdl.setSwitch addr new).switchAt dpid = some new := by
    simp [switchAt, CountedHdl.setSwitch, listed]
  rw [here] at switches
  exact congrArg (fun switches => { hdl.toLldp with switches }) switches

/-- A count is not seen. -/
theorem Registered.toLldp_counted (listed : hdl.switches.lookup dpid = some addr)
    (found : hdl.heap addr = some sw) (ref : Int) :
    (hdl.setSwitch addr { sw with ref }).toLldp = hdl.toLldp := by
  rw [registered.toLldp_setSwitch listed]
  exact LldpHdl.setSwitch_self ((toLldp_switches listed found).trans rfl)

theorem Registered.toLldp_modify (listed : hdl.switches.lookup dpid = some addr)
    (found : hdl.heap addr = some sw) (write : SwitchRec → SwitchRec) :
    (hdl.modify addr write).toLldp = hdl.toLldp.setSwitch dpid (write sw.toSwitchRec) := by
  rw [modify_eq found, registered.toLldp_setSwitch listed]

/-- A handler finds a switch exactly if it is seen to be there. -/
theorem Registered.fetch_cases (dpid : Dpid) :
    (hdl.fetchAndRetainSwitch dpid = none ∧ hdl.toLldp.switches dpid = none) ∨
      ∃ addr kept sw, hdl.fetchAndRetainSwitch dpid = some (addr, kept) ∧
        kept.toLldp.switches dpid = some sw.toSwitchRec ∧ kept.Registered (addr :: held) ∧
        kept.toLldp = hdl.toLldp ∧ kept.switches = hdl.switches ∧
        kept.switches.lookup dpid = some addr ∧ kept.heap addr = some sw := by
  unfold fetchAndRetainSwitch
  cases listed : hdl.switches.lookup dpid with
  | none => exact .inl ⟨rfl, by simp [toLldp, switchAt, listed]⟩
  | some addr =>
    obtain ⟨sw, found, -⟩ := registered.stored dpid addr listed
    have same := registered.toLldp_counted listed found (sw.ref + 1)
    refine .inr ⟨addr, _, _, by rw [Option.map_some, switchRef_eq found], ?_,
      registered.retain found, same, rfl, listed, update_self ..⟩
    rw [same, toLldp_switches listed found]

end

/-- The table keeps a switch whose temporary reference is released. -/
theorem Registered.toLldp_unref (registered : hdl.Registered (addr :: held))
    (listed : hdl.switches.lookup dpid = some addr) :
    (hdl.switchUnref addr).toLldp = hdl.toLldp := by
  obtain ⟨sw, found, keyed⟩ := registered.stored dpid addr listed
  obtain ⟨ref, -⟩ := registered.refs addr sw found
  rw [keyed, if_pos listed, count_cons_self] at ref
  have others : ¬sw.ref - 1 = 0 := by omega
  rw [switchUnref, found]
  simp only [others, if_false]
  exact registered.toLldp_counted listed found _

/-- What a step of a handler leaves, with the references it holds by then. -/
structure Step (hdl next : CountedHdl) (held : List Addr) (view : LldpHdl) : Prop where
  same : next.toLldp = view
  switches : next.switches = hdl.switches
  registered : ∃ more, next.Registered (more ++ held)

theorem switchUnref_switches (hdl : CountedHdl) (addr : Addr) :
    (hdl.switchUnref addr).switches = hdl.switches := by
  unfold switchUnref delSwitchFromImap
  repeat' split
  all_goals rfl

theorem Step.unref {next : CountedHdl} (step : Step hdl next (addr :: held) view)
    (listed : hdl.switches.lookup dpid = some addr) :
    Step hdl (next.switchUnref addr) held view := by
  obtain ⟨more, registered⟩ := step.registered
  have counted := registered.perm perm_middle
  refine ⟨?_, ?_, more, counted.unref.1⟩
  · rw [← step.same]
    apply counted.toLldp_unref
    rw [step.switches]
    exact listed
  · rw [switchUnref_switches, step.switches]

section

variable (registered : hdl.Registered held) (listed : hdl.switches.lookup dpid = some addr)
  (found : hdl.heap addr = some sw)
include registered listed found

theorem Registered.step_modify {write : SwitchRec → SwitchRec}
    (same : ∀ sw, (write sw).aliasId = sw.aliasId) :
    Step hdl (hdl.modify addr write) held (hdl.toLldp.setSwitch dpid (write sw.toSwitchRec)) := by
  refine ⟨registered.toLldp_modify listed found write, ?_, [], ?_⟩
  · rw [modify_eq found]
    rfl
  · rw [modify_eq found]
    exact registered.write found (same _)

theorem Registered.step_disconnect (port : PortRec) :
    Step hdl (hdl.portDisconnectToNeigh addr port) held
      (hdl.toLldp.portDisconnectToNeigh dpid sw.toSwitchRec port) := by
  unfold portDisconnectToNeigh LldpHdl.portDisconnectToNeigh
  split
  · exact ⟨rfl, rfl, [], registered⟩
  have torn := registered.step_modify listed found fun sw => sw.aliasId_portDisconnect port
  obtain ⟨more, still⟩ := torn.registered
  dsimp only
  rw [← torn.same]
  rcases still.fetch_cases port.neighborDpid with
    ⟨missing, unseen⟩ | ⟨peer, kept, other, fetched, seen, counted, same, table, there, allocated⟩
  · rw [missing, unseen]
    exact ⟨rfl, torn.switches, more, still⟩
  rw [← same]
  simp only [fetched, seen, portFind_eq allocated]
  cases other.ports port.neighborPort with
  | none => exact ⟨rfl, table.trans torn.switches, peer :: more, { counted with }⟩
  | some peerPort =>
    have cut := counted.step_modify there allocated fun sw => sw.aliasId_portDisconnect peerPort
    have done := cut.unref there
    obtain ⟨rest, left⟩ := done.registered
    rw [← append_assoc] at left
    exact ⟨done.same, done.switches.trans (table.trans torn.switches), _, left⟩

end

section Handlers

variable (registered : hdl.Registered held)
include registered

theorem Registered.toLldp_portAdd (dpid : Dpid) (portNo : PortNo) (port : Addr) :
    (hdl.portAdd dpid portNo port).toLldp = hdl.toLldp.portAdd dpid portNo port := by
  unfold CountedHdl.portAdd LldpHdl.portAdd
  rcases registered.fetch_cases dpid with
    ⟨missing, unseen⟩ | ⟨addr, kept, sw, fetched, seen, counted, same, -, listed, found⟩
  · rw [missing, unseen]
  rw [fetched, ← same, seen]
  have done :=
    (counted.step_modify listed found fun sw => sw.aliasId_portAdd portNo port).unref listed
  refine done.same.trans ?_
  unfold SwitchRec.portAdd
  dsimp only
  split
  · exact LldpHdl.setSwitch_self (toLldp_switches listed found)
  · rfl

theorem Registered.toLldp_packetIn (dpid : Dpid) (inport : BitVec 32) (pkt : LldpPkt) (now : Nat) :
    (hdl.packetIn dpid inport pkt now).toLldp = hdl.toLldp.packetIn dpid inport pkt now := by
  unfold CountedHdl.packetIn LldpHdl.packetIn LldpHdl.packetHandler
  rw [← ite_and]
  split
  · unfold CountedHdl.connectNeighPair LldpHdl.connectNeighPair
    rcases registered.fetch_cases dpid with
      ⟨missing, unseen⟩ | ⟨addr, kept, sw, fetched, seen, counted, same, -, listed, found⟩
    · rw [missing, unseen]
    rw [← same]
    simp only [fetched, seen, portFind_eq found]
    cases sw.ports (inport.setWidth 16) with
    | none => exact counted.toLldp_unref listed
    | some port =>
      exact ((counted.step_modify listed found fun sw => sw.aliasId_portConnectToNeigh ..).unref
        listed).same
  · rfl

theorem Registered.toLldp_portMod (dpid : Dpid) (portNo : PortNo) (upDown : Bool) :
    (hdl.portMod dpid portNo upDown).toLldp = hdl.toLldp.portMod dpid portNo upDown := by
  unfold CountedHdl.portMod LldpHdl.portMod
  split
  · rfl
  rcases registered.fetch_cases dpid with
    ⟨missing, unseen⟩ | ⟨addr, kept, sw, fetched, seen, counted, same, -, listed, found⟩
  · rw [missing, unseen]
  rw [← same]
  simp only [fetched, seen, portFind_eq found]
  cases sw.ports portNo with
  | none => exact counted.toLldp_unref listed
  | some port =>
    cases upDown with
    | true => exact counted.toLldp_unref listed
    | false => exact ((counted.step_disconnect listed found port).unref listed).same

theorem Registered.toLldp_portDelete (dpid : Dpid) (portNo : PortNo) :
    (hdl.portDelete dpid portNo).toLldp = hdl.toLldp.portDelete dpid portNo := by
  unfold CountedHdl.portDelete LldpHdl.portDelete
  split
  · rfl
  rcases registered.fetch_cases dpid with
    ⟨missing, unseen⟩ | ⟨addr, kept, sw, fetched, seen, counted, same, -, listed, found⟩
  · rw [missing, unseen]
    rfl
  rw [← same]
  simp only [fetched, seen, portFind_eq found]
  cases sw.ports portNo with
  | none => exact counted.toLldp_unref listed
  | some port =>
    have torn := counted.step_disconnect listed found port
    obtain ⟨more, still⟩ := torn.registered
    simp only [← torn.same]
    by_cases crashed : (kept.portDisconnectToNeigh addr port).crashed = true
    · simp [crashed, toLldp]
    rw [← torn.switches] at listed
    obtain ⟨left, allocated, -⟩ := still.stored dpid addr listed
    have done := ((still.perm perm_middle).step_modify listed allocated fun sw =>
      sw.aliasId_removePort portNo).unref listed
    have alive : ¬(kept.portDisconnectToNeigh addr port).toLldp.crashed = true := crashed
    rw [toLldp_switches listed allocated, if_neg crashed, if_neg alive]
    exact done.same

omit registered in
theorem Tracked.toLldp_updateTimer (tracked : hdl.Tracked held) (now : Nat)
    (visits : List (Dpid × PortNo)) :
    (hdl.updateTimer now visits).toLldp = hdl.toLldp.updateTimer now visits := by
  induction visits generalizing hdl with
  | nil => rfl
  | cons visit rest ih =>
    have first : (hdl.perPortTimer now visit).toLldp = hdl.toLldp.perPortTimer now visit := by
      unfold CountedHdl.perPortTimer LldpHdl.perPortTimer
      cases crashed : hdl.crashed with
      | true => simp [toLldp, crashed]
      | false =>
        obtain ⟨registered, -⟩ := tracked crashed
        cases listed : hdl.switches.lookup visit.1 with
        | none => simp [toLldp, switchAt, listed, crashed]
        | some addr =>
          obtain ⟨sw, found, -⟩ := registered.stored visit.1 addr listed
          simp only [toLldp_switches listed found, portFind_eq found]
          cases sw.ports visit.2 with
          | none => simp [toLldp, crashed]
          | some port =>
            have torn := (registered.step_disconnect listed found port).same
            by_cases due : port.status = .neighbor ∧ port.ttl ≤ now
            · simpa [due, toLldp, crashed] using torn
            · simp [due, toLldp, crashed]
    exact (ih (tracked.perPortTimer now visit)).trans
      (congrArg (fun view => view.updateTimer now rest) first)

omit registered in
private theorem aliases_update (map : Nat → Option Addr) (low : 0 ≤ aliasId) (entry : Option Addr) :
    (fun other : Int => decide (0 ≤ other) && (update map aliasId.toNat entry other.toNat).isSome) =
      update (fun other : Int => decide (0 ≤ other) && (map other.toNat).isSome) aliasId
        entry.isSome := by
  funext other
  by_cases same : other = aliasId
  · simp [same, low]
  · rw [update_of_ne same]
    by_cases negative : 0 ≤ other
    · have apart : other.toNat ≠ aliasId.toNat := by omega
      rw [update_of_ne apart]
    · simp [negative]

theorem Registered.toLldp_switchAdd (dpid : Dpid) (aliasId : Int) (fresh : hdl.heap addr = none) :
    (hdl.switchAdd dpid aliasId addr).toLldp = hdl.toLldp.switchAdd dpid aliasId := by
  unfold CountedHdl.switchAdd LldpHdl.switchAdd
  have seen : (hdl.toLldp.switches dpid).isSome = (hdl.switches.lookup dpid).isSome := by
    cases listed : hdl.switches.lookup dpid with
    | none => simp [toLldp, switchAt, listed]
    | some addr =>
      obtain ⟨sw, found, -⟩ := registered.stored dpid addr listed
      rw [toLldp_switches listed found]
      rfl
  rw [seen]
  split
  · rfl
  rename_i absent
  cases mapped : hdl.addSwitchToImap aliasId addr with
  | none =>
    have refused : aliasId < 0 ∨ (maxSwitchesPerCluster : Int) ≤ aliasId ∨
        hdl.toLldp.swImap aliasId = true := by
      unfold addSwitchToImap at mapped
      split at mapped
      · rename_i outside
        exact outside.imp_right .inl
      split at mapped
      · rename_i inside used
        have low : 0 ≤ aliasId := by omega
        exact .inr (.inr (by simp [toLldp, used, low]))
      · cases mapped
    rw [if_pos refused]
  | some next =>
    obtain ⟨low, high, unused, rfl⟩ := addSwitchToImap_some mapped
    have taken : ¬(aliasId < 0 ∨ (maxSwitchesPerCluster : Int) ≤ aliasId ∨
        hdl.toLldp.swImap aliasId = true) := by
      simp [toLldp, low, high, unused]
    rw [if_neg taken]
    have switches := @toLldp_switches_update hdl dpid (hdl.withSwitch dpid aliasId addr 0)
      (fun key differs => AList.lookup_insert_ne differs) fun key _ other stored => by
        obtain ⟨sw, found, -⟩ := registered.stored key other stored
        exact update_of_ne (apart_of_fresh fresh found) ..
    have here : (hdl.withSwitch dpid aliasId addr 0).switchAt dpid =
        some (newSwitch dpid aliasId) := by
      simp [switchAt, withSwitch]
    rw [here] at switches
    exact congrArg₂ (fun switches swImap => { hdl.toLldp with switches, swImap }) switches
      (aliases_update hdl.swImap low (some addr))

omit registered in
/-- Without other holders a switch goes as soon as the table gives it up. -/
theorem Registered.toLldp_switchDelete (registered : hdl.Registered []) (dpid : Dpid) :
    (hdl.switchDelete dpid).toLldp = hdl.toLldp.switchDelete dpid := by
  unfold CountedHdl.switchDelete LldpHdl.switchDelete
  cases listed : hdl.switches.lookup dpid with
  | none =>
    obtain ⟨largest, reset, -⟩ := registered.maxAliasidReset_eq
    rw [reset]
    simp [toLldp, switchAt, listed]
  | some addr =>
    obtain ⟨sw, found, keyed⟩ := registered.stored dpid addr listed
    obtain ⟨ref, -⟩ := registered.refs addr sw found
    rw [keyed, if_pos listed, count_nil] at ref
    obtain ⟨largest, reset, -⟩ := (registered.erase listed).unref.1.maxAliasidReset_eq
    obtain ⟨low, high⟩ := registered.range addr sw found
    have inside : ¬(sw.aliasId < 0 ∨ (maxSwitchesPerCluster : Int) ≤ sw.aliasId) := by omega
    have free : { hdl with switches := hdl.switches.erase dpid }.switchUnref addr =
        { hdl with
          switches := hdl.switches.erase dpid
          swImap := update hdl.swImap sw.aliasId.toNat none
          heap := update hdl.heap addr none } := by
      simp [switchUnref, found, show sw.ref - 1 = 0 by omega, delSwitchFromImap, inside]
    have switches := @toLldp_switches_update hdl dpid
      { hdl with switches := hdl.switches.erase dpid, heap := update hdl.heap addr none }
      (fun key differs => AList.lookup_erase_ne differs)
      fun key differs other stored =>
        update_of_ne (registered.apart listed key differs other stored) ..
    rw [show switchAt _ dpid = none by simp [switchAt]] at switches
    dsimp only
    rw [reset, free, toLldp_switches listed found]
    exact congrArg₂ (fun switches swImap => { hdl.toLldp with switches, swImap }) switches
      (aliases_update hdl.swImap low none)

end Handlers

end CountedHdl

/-- The event as it is without references; those who only hold a switch have none. -/
def CountedEvent.toLldp : CountedEvent → Option LldpEvent
  | .switchAdd dpid aliasId _ => some (.switchAdd dpid aliasId)
  | .switchDelete dpid => some (.switchDelete dpid)
  | .portAdd dpid portNo port => some (.portAdd dpid portNo port)
  | .portMod dpid portNo upDown => some (.portMod dpid portNo upDown)
  | .portDelete dpid portNo => some (.portDelete dpid portNo)
  | .packetIn dpid inport pkt now => some (.packetIn dpid inport pkt now)
  | .updateTimer now visits => some (.updateTimer now visits)
  | .retain _ | .release _ => none

/-- While nobody else holds a switch, the handlers with counted references do what the handlers
without them do. -/
theorem counted_handles {run : CountedRun} (reached : countedMachine.Reaches run)
    (released : run.held = []) (admitted : countedMachine.admits run event)
    (plain : event.toLldp = some handled) :
    (run.exec event).hdl.toLldp = run.hdl.toLldp.handle handled := by
  have tracked := tracked_of_reaches reached
  obtain ⟨registered, -⟩ := tracked admitted.1
  cases event <;> cases plain
  case switchAdd dpid aliasId addr =>
    exact registered.toLldp_switchAdd dpid aliasId admitted.2
  case switchDelete dpid =>
    rw [released] at registered
    exact registered.toLldp_switchDelete dpid
  case portAdd dpid portNo port => exact registered.toLldp_portAdd dpid portNo port
  case portMod dpid portNo upDown => exact registered.toLldp_portMod dpid portNo upDown
  case portDelete dpid portNo => exact registered.toLldp_portDelete dpid portNo
  case packetIn dpid inport pkt now => exact registered.toLldp_packetIn dpid inport pkt now
  case updateTimer now visits => exact tracked.toLldp_updateTimer now visits

end OpenMul.Topo
