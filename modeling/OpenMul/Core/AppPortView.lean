import OpenMul.Core.PortTable

namespace OpenMul

open List Function

/-- `mul_port_t`, less its number, which has 16 bits there. -/
structure MulPort where
  config : BitVec 32
  state : BitVec 32
  hwAddr : List Byte
  deriving DecidableEq

/-- `port_list`: no number is in it twice, and its order plays no part. -/
abbrev PortList := AList fun _ : BitVec 16 => MulPort

/-- A call of `switch_port_add_cb` or of `switch_port_del_cb`. -/
structure PortCall where
  dpid : BitVec 64
  portNo : BitVec 16
  add : Bool
  deriving DecidableEq

/-- The switches an application knows, and the calls it got, the last one first. -/
structure AppView where
  switches : BitVec 64 → Option PortList := fun _ => none
  calls : List PortCall := []

inductive AppMsg where
  | switchAdd (dpid : BitVec 64) (ports : List SwPort)
  | portStatus (dpid : BitVec 64) (reason : OfpPortReason) (desc : SwPort) (mask : PortMask)
  | switchDel (dpid : BitVec 64)

/-- Which of the callbacks for changes an application has. -/
structure AppCbs where
  portChg : Bool
  portAdmChg : Bool
  portLinkChg : Bool

namespace SwPort

variable (desc : SwPort)

def mulPort : MulPort := ⟨desc.config, desc.state, desc.rest⟩

/-- The number as the library searches and stores it. -/
def shortNo : BitVec 16 := desc.portNo.setWidth 16

end SwPort

/-- `__mul_app_switch_port_add`. -/
def appSwitchPortAdd (list : PortList) (desc : SwPort) : PortList :=
  if (list.lookup desc.shortNo).isSome then list else list.insert desc.shortNo desc.mulPort

/-- A callback is made for a modified port. -/
def AppCbs.changes (cbs : AppCbs) (mask : PortMask) : Bool :=
  cbs.portChg || (mask.config &&& cMlpcDown != 0 && cbs.portAdmChg) ||
    (mask.state &&& cMlpsDown != 0 && cbs.portLinkChg)

/-- `c_switch_port_status` on the ports of a known switch, with the calls it makes. There is
none when a callback is given no port, and when an unknown reason leaves the switch locked. -/
def cSwitchPortStatus (cbs : AppCbs) (dpid : BitVec 64) (list : PortList) (desc : SwPort)
    (mask : PortMask) :
    OfpPortReason → Option (PortList × List PortCall)
  | .add =>
    some (list.insert desc.shortNo desc.mulPort,
      if (list.lookup desc.shortNo).isSome then [] else [⟨dpid, desc.shortNo, true⟩])
  | .modify =>
    if (list.lookup desc.shortNo).isSome then some (list.insert desc.shortNo desc.mulPort, [])
    else if cbs.changes mask then none else some (list, [])
  | .delete =>
    if (list.lookup desc.shortNo).isSome then
      some (list.erase desc.shortNo, [⟨dpid, desc.shortNo, false⟩])
    else some (list, [])
  | .unknown => none

/-- `c_app_switch_add`, `c_switch_port_status` and `c_app_switch_del`. -/
def AppView.step (cbs : AppCbs) (view : AppView) : AppMsg → Option AppView
  | .switchAdd dpid ports =>
    match view.switches dpid with
    | some _ => some view
    | none => some ⟨Function.update view.switches dpid (some (ports.foldl appSwitchPortAdd ∅)),
        (ports.map SwPort.shortNo).reverse.map (⟨dpid, ·, true⟩) ++ view.calls⟩
  | .portStatus dpid reason desc mask =>
    match view.switches dpid with
    | none => some view
    | some list => (cSwitchPortStatus cbs dpid list desc mask reason).map fun (list, calls) =>
        ⟨Function.update view.switches dpid (some list), calls ++ view.calls⟩
  | .switchDel dpid =>
    match view.switches dpid with
    | none => some view
    | some list => some ⟨Function.update view.switches dpid none,
        list.keys.map (⟨dpid, ·, false⟩) ++ view.calls⟩

/-- The ports announced and not deleted, as they were last reported, of each switch. -/
abbrev Announced := BitVec 64 → Option (BitVec 32 → Option MulPort)

def report (table : BitVec 32 → Option MulPort) (desc : SwPort) : BitVec 32 → Option MulPort :=
  Function.update table desc.portNo (some desc.mulPort)

/-- What a message announces. A known switch is not added again. -/
def announce (ann : Announced) : AppMsg → Announced
  | .switchAdd dpid ports =>
    match ann dpid with
    | some _ => ann
    | none => Function.update ann dpid (some (ports.foldl report fun _ => none))
  | .portStatus dpid reason desc _ =>
    match ann dpid with
    | none => ann
    | some table => Function.update ann dpid <| some <|
        match reason with
        | .add => report table desc
        | .modify => if (table desc.portNo).isSome then report table desc else table
        | .delete => Function.update table desc.portNo none
        | .unknown => table
  | .switchDel dpid => Function.update ann dpid none

/-- The ports of a list under their whole numbers. -/
def PortList.shown (list : PortList) (portNo : BitVec 32) : Option MulPort :=
  if portNo.toNat < 65536 then list.lookup (portNo.setWidth 16) else none

/-- Calls that alternate, the last one first. A port is known behind an add. -/
inductive Alternating : Bool → List Bool → Prop
  | none : Alternating false []
  | call {known : Bool} {calls : List Bool} (before : Alternating known calls) :
    Alternating (!known) ((!known) :: calls)

def callsOf (calls : List PortCall) (dpid : BitVec 64) (portNo : BitVec 16) : List Bool :=
  (calls.filter fun call => call.dpid = dpid ∧ call.portNo = portNo).map PortCall.add

def AppView.known (view : AppView) (dpid : BitVec 64) (portNo : BitVec 16) : Bool :=
  ((view.switches dpid).bind (·.lookup portNo)).isSome

/-- The view shows what was announced, and the calls alternate. -/
structure AppView.Tracks (view : AppView) (ann : Announced) : Prop where
  shown : ∀ dpid, (view.switches dpid).map PortList.shown = ann dpid
  calls : ∀ dpid portNo, Alternating (view.known dpid portNo) (callsOf view.calls dpid portNo)

/-- Port numbers have 16 bits, a new switch has each of its ports once, and a callback for a
modified port comes for known ports only. -/
def AppMsg.Plain (cbs : AppCbs) (view : AppView) : AppMsg → Prop
  | .switchAdd dpid ports => view.switches dpid = none →
      (∀ desc ∈ ports, desc.portNo.toNat < 65536) ∧ (ports.map SwPort.portNo).Nodup
  | .portStatus dpid reason desc mask => ∀ list, view.switches dpid = some list →
      desc.portNo.toNat < 65536 ∧ reason ≠ .unknown ∧
        (reason = .modify → (list.lookup desc.shortNo).isSome ∨ cbs.changes mask = false)
  | .switchDel _ => True

section Shown

variable {desc : SwPort} (small : desc.portNo.toNat < 65536) (list : PortList)
include small

private theorem shortNo_ne (bound : other.toNat < 65536) (different : other ≠ desc.portNo) :
    other.setWidth 16 ≠ desc.shortNo := by
  intro same
  apply different
  have values := congrArg BitVec.toNat same
  simp only [SwPort.shortNo, BitVec.toNat_setWidth] at values
  exact BitVec.eq_of_toNat_eq (by omega)

theorem shown_self : list.shown desc.portNo = list.lookup desc.shortNo := if_pos small

theorem shown_insert :
    PortList.shown (list.insert desc.shortNo desc.mulPort) = report list.shown desc := by
  funext other
  by_cases same : other = desc.portNo
  · rw [same, shown_self small, report, update_self]
    exact AList.lookup_insert _
  · rw [report, update_of_ne same]
    by_cases bound : other.toNat < 65536
    · simp only [PortList.shown, if_pos bound]
      exact AList.lookup_insert_ne (shortNo_ne small bound same)
    · simp [PortList.shown, if_neg bound]

theorem shown_erase :
    PortList.shown (list.erase desc.shortNo) = update list.shown desc.portNo none := by
  funext other
  by_cases same : other = desc.portNo
  · rw [same, shown_self small, update_self]
    exact AList.lookup_erase _ _
  · rw [update_of_ne same]
    by_cases bound : other.toNat < 65536
    · simp only [PortList.shown, if_pos bound]
      exact AList.lookup_erase_ne (shortNo_ne small bound same)
    · simp [PortList.shown, if_neg bound]

end Shown

/-- The ports of a new switch, in the loop of `c_app_switch_add`. -/
theorem shown_foldl {ports : List SwPort} (small : ∀ desc ∈ ports, desc.portNo.toNat < 65536)
    (once : (ports.map SwPort.portNo).Nodup) {list : PortList}
    (fresh : ∀ desc ∈ ports, list.lookup desc.shortNo = none) :
    PortList.shown (ports.foldl appSwitchPortAdd list) = ports.foldl report list.shown := by
  induction ports generalizing list with
  | nil => rfl
  | cons desc rest ih =>
    obtain ⟨here, later⟩ := forall_mem_cons.1 small
    obtain ⟨absent, onceRest⟩ := nodup_cons.1 once
    obtain ⟨new, others⟩ := forall_mem_cons.1 fresh
    have added : appSwitchPortAdd list desc = list.insert desc.shortNo desc.mulPort := by
      simp [appSwitchPortAdd, new]
    rw [foldl_cons, foldl_cons, added, ← shown_insert here]
    apply ih later onceRest
    intro other member
    rw [AList.lookup_insert_ne, others other member]
    apply shortNo_ne here (later other member)
    rintro same
    exact absent (same ▸ mem_map_of_mem member)

theorem mem_foldl_appSwitchPortAdd (ports : List SwPort) (list : PortList) (portNo : BitVec 16) :
    portNo ∈ ports.foldl appSwitchPortAdd list ↔ portNo ∈ ports.map SwPort.shortNo ∨
      portNo ∈ list := by
  induction ports generalizing list with
  | nil => simp
  | cons desc rest ih =>
    rw [foldl_cons, ih, map_cons, mem_cons]
    unfold appSwitchPortAdd
    split
    · rename_i known
      constructor
      · tauto
      · rintro ((rfl | later) | before)
        · exact .inr (AList.lookup_isSome.1 known)
        · exact .inl later
        · exact .inr before
    · rw [AList.mem_insert]
      tauto

section Calls

variable (dpid : BitVec 64)

theorem callsOf_other (different : other ≠ dpid) (same : ∀ call ∈ new, call.dpid = dpid)
    (calls : List PortCall) (portNo : BitVec 16) :
    callsOf (new ++ calls) other portNo = callsOf calls other portNo := by
  have none : new.filter (fun call => call.dpid = other ∧ call.portNo = portNo) = [] := by
    rw [filter_eq_nil_iff]
    intro call member
    simp [same call member, different.symm]
  rw [callsOf, filter_append, none, nil_append, callsOf]

theorem callsOf_each {nos : List (BitVec 16)} (once : nos.Nodup) (add : Bool)
    (calls : List PortCall) (portNo : BitVec 16) :
    callsOf (nos.map (⟨dpid, ·, add⟩) ++ calls) dpid portNo =
      if portNo ∈ nos then add :: callsOf calls dpid portNo else callsOf calls dpid portNo := by
  induction nos with
  | nil => rfl
  | cons no rest ih =>
    obtain ⟨absent, onceRest⟩ := nodup_cons.1 once
    have later := ih onceRest
    by_cases same : no = portNo
    · subst same
      rw [if_neg absent] at later
      simpa [callsOf] using later
    · have different : portNo ≠ no := Ne.symm same
      simpa [callsOf, same, different] using later

end Calls

theorem AppView.known_eq {view : AppView} {dpid : BitVec 64} {list : PortList}
    (found : view.switches dpid = some list) (no : BitVec 16) :
    view.known dpid no = (list.lookup no).isSome := by
  simp [known, found]

namespace AppView.Tracks

variable {view : AppView} {ann : Announced} (tracks : view.Tracks ann)
include tracks

/-- A switch changes, and calls are made for some of its ports. -/
theorem set (list : Option PortList) (shows : list.map PortList.shown = table)
    {nos : List (BitVec 16)} (once : nos.Nodup) (add : Bool)
    (before : ∀ no ∈ nos, view.known dpid no = !add) (after : ∀ no,
      (list.bind (·.lookup no)).isSome = if no ∈ nos then add else view.known dpid no) :
    AppView.Tracks ⟨update view.switches dpid list, nos.map (⟨dpid, ·, add⟩) ++ view.calls⟩
      (update ann dpid table) := by
  constructor
  · intro other
    by_cases same : other = dpid
    · subst same
      simpa using shows
    · simpa [same] using tracks.shown other
  · intro other portNo
    by_cases same : other = dpid
    · subst same
      rw [callsOf_each other once]
      simp only [known, update_self, after]
      have calls := tracks.calls other portNo
      by_cases member : portNo ∈ nos
      · rw [before portNo member] at calls
        simpa [member] using calls.call
      · simpa [member, known] using calls
    · rw [callsOf_other dpid same (by simp)]
      simpa [known, same] using tracks.calls other portNo

theorem switchAdd {dpid : BitVec 64} {ports : List SwPort} (absent : view.switches dpid = none)
    (small : ∀ desc ∈ ports, desc.portNo.toNat < 65536) (once : (ports.map SwPort.portNo).Nodup) :
    AppView.Tracks ⟨update view.switches dpid (some (ports.foldl appSwitchPortAdd ∅)),
        (ports.map SwPort.shortNo).reverse.map (⟨dpid, ·, true⟩) ++ view.calls⟩
      (update ann dpid (some (ports.foldl report fun _ => none))) := by
  have empty : PortList.shown ∅ = fun _ => none := by
    funext portNo
    simp [PortList.shown]
  apply tracks.set
  · rw [Option.map_some, shown_foldl small once (by simp), empty]
  · apply nodup_reverse.2
    apply List.Nodup.map_on ?_ (List.Nodup.of_map _ once)
    intro desc member other present same
    by_contra different
    refine shortNo_ne (small other present) (small desc member) ?_ same
    intro numbers
    exact different (inj_on_of_nodup_map once member present numbers)
  · simp [known, absent]
  · intro portNo
    have listed := mem_foldl_appSwitchPortAdd ports ∅ portNo
    rw [← AList.lookup_isSome] at listed
    rw [Bool.eq_iff_iff, Option.bind_some, listed]
    simp [known, absent]

section Status

variable {dpid : BitVec 64} {list : PortList} (found : view.switches dpid = some list)
include found

section

variable {next : PortList} {table : BitVec 32 → Option MulPort} (shows : next.shown = table)
include shows

theorem quiet (same : ∀ no, no ∈ next ↔ no ∈ list) :
    AppView.Tracks ⟨update view.switches dpid (some next), view.calls⟩
      (update ann dpid (some table)) := by
  refine tracks.set (some next) (congrArg some shows) .nil true (by simp) ?_
  intro no
  rw [known_eq found, Bool.eq_iff_iff]
  simp [AList.lookup_isSome, same no]

theorem one (before : (list.lookup here).isSome = !add)
    (after : ∀ no, no ∈ next ↔ if no = here then add else no ∈ list) :
    AppView.Tracks ⟨update view.switches dpid (some next), ⟨dpid, here, add⟩ :: view.calls⟩
      (update ann dpid (some table)) := by
  refine tracks.set (some next) (congrArg some shows) (nodup_singleton here) add ?_ ?_
  · simpa [known_eq found] using before
  · intro no
    rw [known_eq found, Bool.eq_iff_iff, Option.bind_some, AList.lookup_isSome, after no]
    by_cases same : no = here
    · simp [same]
    · simp [same, AList.lookup_isSome]

end

theorem portStatus (small : desc.portNo.toNat < 65536) {cbs : AppCbs}
    (reasonable : reason ≠ .unknown)
    (told : reason = .modify → (list.lookup desc.shortNo).isSome ∨ cbs.changes mask = false) :
    ∃ next, view.step cbs (.portStatus dpid reason desc mask) = some next ∧
      next.Tracks (announce ann (.portStatus dpid reason desc mask)) := by
  have table : ann dpid = some list.shown := by rw [← tracks.shown, found, Option.map_some]
  simp only [step, found, announce, table, cSwitchPortStatus, shown_self small]
  have insert := shown_insert small list
  have erase := shown_erase small list
  cases present : (list.lookup desc.shortNo).isSome with
  | true =>
    have member : desc.shortNo ∈ list := AList.lookup_isSome.1 present
    have rewritten := tracks.quiet found insert (by
      intro no
      rw [AList.mem_insert, or_iff_right_iff_imp]
      rintro rfl
      exact member)
    cases reason with
    | unknown => contradiction
    | add | modify => exact ⟨_, rfl, rewritten⟩
    | delete =>
      refine ⟨_, rfl, tracks.one found erase present ?_⟩
      intro no
      split <;> simp [*]
  | false =>
    have absent : list.lookup desc.shortNo = none := by simpa using present
    have kept := tracks.quiet found rfl fun _ => Iff.rfl
    cases reason with
    | unknown => contradiction
    | add =>
      refine ⟨_, rfl, tracks.one found insert present ?_⟩
      intro no
      split <;> simp [*]
    | modify =>
      have silent : cbs.changes mask = false := (told rfl).resolve_left (by simp [absent])
      rw [silent]
      exact ⟨_, rfl, kept⟩
    | delete =>
      have nothing : update list.shown desc.portNo none = list.shown :=
        update_eq_self_iff.2 ((shown_self small list).trans absent).symm
      rw [nothing]
      exact ⟨_, rfl, kept⟩

end Status

theorem step (plain : msg.Plain cbs view) :
    ∃ next, view.step cbs msg = some next ∧ next.Tracks (announce ann msg) := by
  cases msg with
  | switchAdd dpid ports =>
    have same := tracks.shown dpid
    cases found : view.switches dpid with
    | none =>
      obtain ⟨small, once⟩ := plain found
      refine ⟨_, by rw [AppView.step, found], ?_⟩
      rw [announce, ← same, found]
      exact tracks.switchAdd found small once
    | some list => exact ⟨view, by rw [AppView.step, found], by rwa [announce, ← same, found]⟩
  | portStatus dpid reason desc mask =>
    cases found : view.switches dpid with
    | none =>
      have none := tracks.shown dpid
      exact ⟨view, by rw [AppView.step, found], by rwa [announce, ← none, found]⟩
    | some list =>
      obtain ⟨small, reasonable, told⟩ := plain list found
      exact tracks.portStatus found small reasonable told
  | switchDel dpid =>
    cases found : view.switches dpid with
    | none =>
      have same : announce ann (.switchDel dpid) = ann := by
        apply update_eq_self_iff.2
        rw [← tracks.shown, found, Option.map_none]
      exact ⟨view, by rw [AppView.step, found], by rwa [same]⟩
    | some list =>
      refine ⟨_, by rw [AppView.step, found], tracks.set none rfl list.keys_nodup false ?_ ?_⟩
      · intro no member
        rw [known_eq found]
        exact AList.lookup_isSome.2 member
      · intro no
        by_cases member : no ∈ list.keys
        · simp [member]
        · simp [member, known_eq found, AList.lookup_eq_none.2 member]

end AppView.Tracks

/-- The view after some messages, if none of them fails. -/
def viewAfter (cbs : AppCbs) (view : AppView) (msgs : List AppMsg) : Option AppView :=
  msgs.foldlM (AppView.step cbs) view

/-- Every message of a run is plain where it arrives. -/
def PlainRun (cbs : AppCbs) : AppView → List AppMsg → Prop
  | _, [] => True
  | view, msg :: rest =>
    msg.Plain cbs view ∧ ∀ next, view.step cbs msg = some next → PlainRun cbs next rest

theorem AppView.Tracks.run {view : AppView} (tracks : view.Tracks ann) {msgs : List AppMsg}
    (plain : PlainRun cbs view msgs) :
    ∃ next, viewAfter cbs view msgs = some next ∧ next.Tracks (msgs.foldl announce ann) := by
  induction msgs generalizing view ann with
  | nil => exact ⟨view, rfl, tracks⟩
  | cons msg rest ih =>
    obtain ⟨first, later⟩ := plain
    obtain ⟨next, done, still⟩ := tracks.step first
    obtain ⟨last, rest, tracked⟩ := ih still (later next done)
    exact ⟨last, by rw [viewAfter, foldlM_cons, done]; exact rest, tracked⟩

/-- After plain messages the ports are those announced, and the calls alternate. -/
theorem appView_tracks (cbs : AppCbs) (msgs : List AppMsg) (plain : PlainRun cbs {} msgs) :
    ∃ view, viewAfter cbs {} msgs = some view ∧
      view.Tracks (msgs.foldl announce fun _ => none) := by
  have start : AppView.Tracks {} fun _ => none := ⟨fun _ => rfl, fun _ _ => .none⟩
  exact start.run plain

/-- A switch with port 1; port 2 comes, port 1 goes down and away; then the switch goes. -/
def portChanges : List AppMsg :=
  [.switchAdd 7 [⟨1, 0, 0, []⟩], .portStatus 7 .add ⟨2, 0, 0, []⟩ {},
    .portStatus 7 .modify ⟨1, 1, 1, []⟩ ⟨1, 1⟩, .portStatus 7 .delete ⟨1, 1, 1, []⟩ {},
      .switchDel 7]

theorem appView_tracks_port :
    ((viewAfter ⟨true, false, false⟩ {} portChanges).map fun view =>
        (callsOf view.calls 7 1, callsOf view.calls 7 2)) = some ([false, true], [false, true]) ∧
      ∃ view, viewAfter ⟨true, false, false⟩ {} portChanges = some view ∧
        view.Tracks (portChanges.foldl announce fun _ => none) := by
  refine ⟨by decide, appView_tracks _ _ ?_⟩
  unfold portChanges
  refine ⟨fun _ => by decide, ?_⟩
  rintro _ ⟨⟩
  refine ⟨?_, ?_⟩
  · rintro _ ⟨⟩
    exact ⟨by decide, by decide, nofun⟩
  rintro _ ⟨⟩
  refine ⟨?_, ?_⟩
  · rintro _ ⟨⟩
    exact ⟨by decide, by decide, fun _ => .inl (by decide)⟩
  rintro _ ⟨⟩
  refine ⟨?_, ?_⟩
  · rintro _ ⟨⟩
    exact ⟨by decide, by decide, nofun⟩
  rintro _ ⟨⟩
  exact ⟨trivial, fun _ _ => trivial⟩

/-- A switch names port 1 twice; port 65537 takes the place of port 1; and port 2, which is
not known, is modified. -/
theorem appView_misses :
    let cbs : AppCbs := ⟨true, false, false⟩
    (viewAfter cbs {} [.switchAdd 7 [⟨1, 0, 0, []⟩, ⟨1, 0, 1, []⟩]]).map (callsOf ·.calls 7 1) =
        some [true, true] ∧
      ((viewAfter cbs
        {} [.switchAdd 7 [⟨1, 0, 0, []⟩], .portStatus 7 .add ⟨65537, 0, 1, []⟩ {}]).bind fun view =>
        (view.switches 7).bind (·.shown 1)) = some ⟨0, 1, []⟩ ∧
      (viewAfter cbs {} [.switchAdd 7 [], .portStatus 7 .modify ⟨2, 0, 1, []⟩ {}]).isNone := by
  decide

end OpenMul
