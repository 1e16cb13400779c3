import OpenMul.Ha.Pair

namespace OpenMul.Ha

open Lib Hearing Function

/-- The stay a controller is in. -/
def CtrlHdl.current (hdl : CtrlHdl) : Stay HaState := ⟨hdl.stay, hdl.haState⟩

/-- The stay a message was sent in. -/
def HaMsg.told (msg : HaMsg) : Stay HaState := ⟨msg.stay, msg.haState⟩

/-- The controller goes on, and tells only of stays it passes. -/
structure Goes (hdl : CtrlHdl) (done : CtrlHdl × List HaMsg) : Prop where
  evolves : Evolves hdl.current done.1.current
  told : ∀ msg ∈ done.2, Evolves msg.told done.1.current

theorem Goes.silent (evolves : Evolves hdl.current after.current) : Goes hdl (after, []) :=
  ⟨evolves, by simp⟩

theorem Goes.then (one : Goes hdl first)
    (two : Goes first.1 second) : Goes hdl (second.1, first.2 ++ second.2) := by
  refine ⟨one.evolves.trans two.evolves, fun msg member => ?_⟩
  rcases List.mem_append.mp member with earlier | later
  · exact (one.told msg earlier).trans two.evolves
  · exact two.told msg later

namespace CtrlHdl

theorem enter_evolves (hdl : CtrlHdl) (new : HaState) :
    Evolves hdl.current (hdl.enter new).current := by
  by_cases same : hdl.haState = new
  · right
    simp [current, enter, same]
  · left
    simp [current, enter, same]

variable (hdl : CtrlHdl) (env : HaEnv)

theorem toNone_evolves : Evolves hdl.current (hdl.toNone env).current :=
  hdl.enter_evolves .none

theorem sendState_goes : Goes hdl (hdl.sendState env) := by
  unfold sendState
  split
  · exact .silent (hdl.toNone_evolves env)
  · refine ⟨.refl _, fun msg member => ?_⟩
    obtain rfl := List.mem_singleton.mp member
    exact .refl _

theorem stateTransition_goes (new : HaState) : Goes hdl (hdl.stateTransition env new) := by
  cases new with
  | none => exact .silent (hdl.toNone_evolves env)
  | connected =>
    have sent := (hdl.enter .connected).sendState_goes env
    exact ⟨(hdl.enter_evolves .connected).trans sent.evolves, sent.told⟩
  | master => exact .silent (hdl.enter_evolves .master)
  | slave => exact .silent (hdl.enter_evolves .slave)
  | conflict => exact .silent (hdl.enter_evolves .conflict)
  | noha => exact .silent (.refl _)

theorem connect_goes : Goes hdl (hdl.connect env) := by
  unfold connect
  split
  · have up := { hdl with connDead := false }.stateTransition_goes env .connected
    exact ⟨up.evolves, up.told⟩
  · exact .silent (.refl _)

theorem stateMachine_goes : Goes hdl (hdl.stateMachine env) := by
  unfold stateMachine
  cases hdl.haState with
  | none => exact hdl.connect_goes env
  | connected => exact (hdl.sendState_goes env).then (stateTransition_goes _ env _)
  | master => exact hdl.sendState_goes env
  | slave =>
    dsimp only
    split
    · exact (hdl.stateTransition_goes env .master).then (sendState_goes _ env)
    · exact (Goes.silent (.refl _)).then (hdl.sendState_goes env)
  | conflict =>
    have sent := hdl.sendState_goes env
    dsimp only
    split
    · have reset :=
        { (hdl.sendState env).1 with
          haRetries := (hdl.sendState env).1.haRetries + 1 }.stateTransition_goes env .none
      exact sent.then ⟨reset.evolves, reset.told⟩
    · exact ⟨sent.evolves, sent.told⟩
  | noha => exact .silent (.refl _)

theorem sockDead_goes : Goes hdl (hdl.sockDead env) := by
  unfold sockDead
  split
  · exact .silent (.refl _)
  · exact hdl.stateTransition_goes env .none

variable (msg : HaMsg) (now : Int)

theorem rcvPeerState_current : (hdl.rcvPeerState msg now).current =
      if hdl.conflicts msg && !hdl.conflictResolve then (hdl.enter .conflict).current
      else hdl.current := by
  unfold rcvPeerState
  cases hdl.conflicts msg with
  | false => rfl
  | true =>
    cases resolve : hdl.conflictResolve with
    | false | true => rfl

theorem rcvPeerState_evolves : Evolves hdl.current (hdl.rcvPeerState msg now).current := by
  rw [rcvPeerState_current]
  split
  · exact hdl.enter_evolves .conflict
  · exact .refl _

/-- A master that hears of a master gives up, if no conflict is being resolved. -/
theorem rcvPeerState_yields {hdl : CtrlHdl} {msg : HaMsg} (now : Int)
    (master : hdl.haState = .master) (other : msg.haState = .master)
    (clear : hdl.conflictResolve = false) : hdl.current ≠ (hdl.rcvPeerState msg now).current := by
  have conflicting : hdl.conflicts msg = true := by simp [conflicts, master, other]
  rw [rcvPeerState_current, conflicting, clear]
  simp [current, enter, master]

end CtrlHdl

namespace HaPair

/-- The pair as two parties that hear of each other. -/
def world (pair : HaPair) : World HaState where
  current who := (pair.ctrl who).current
  pending who := (pair.pending who).map HaMsg.told
  heard := pair.heard

theorem act_acts (pair : HaPair) (goes : Goes (pair.ctrl who) done) :
    Acts who pair.world (pair.act who done).world where
  evolves := by
    simp only [world, act, update_self]
    exact goes.evolves
  other := by simp [world, act, update_of_ne (Side.peer_ne who)]
  told stay member := by
    simp only [world, act, update_self, List.map_append, List.mem_append] at member ⊢
    rcases member with old | new
    · exact .inl old
    · obtain ⟨msg, sent, rfl⟩ := List.mem_map.mp new
      exact .inr (goes.told msg sent)
  pending stay member := by
    simpa [world, act, update_of_ne (Side.peer_ne who).symm] using member
  heard := rfl

theorem process_hears (pair : HaPair) {msg : HaMsg} (now : Int)
    (arrived : (pair.pending who)[index]? = some msg) :
    Hears who msg.told pair.world (pair.process who index now).world := by
  have eq : pair.process who index now =
      { ctrl := update pair.ctrl who ((pair.ctrl who).rcvPeerState msg now)
        pending := update pair.pending who ((pair.pending who).eraseIdx index)
        heard := update pair.heard who (pair.heard who ++ [msg.stay]) } := by
    rw [process, arrived]
  rw [eq]
  refine ⟨?_, ?_, List.mem_map_of_mem (List.mem_of_getElem? arrived), ?_, ?_, ?_⟩
  · simp only [world, update_self]
    exact (pair.ctrl who).rcvPeerState_evolves msg now
  · simp [world, update_of_ne (Side.peer_ne who)]
  · intro side stay member
    obtain ⟨left, inside, rfl⟩ := List.mem_map.mp member
    apply List.mem_map_of_mem
    by_cases here : side = who
    · subst here
      simp only [update_self] at inside
      exact List.mem_of_mem_eraseIdx inside
    · simpa only [update_of_ne here] using inside
  · simp [world, HaMsg.told]
  · simp [world, update_of_ne (Side.peer_ne who)]

theorem lose_acts (pair : HaPair) (who : Side) (index : Nat) :
    Acts who pair.world (pair.handle (.lose who index)).world where
  evolves := .refl _
  other := rfl
  told stay member := by
    simp only [world, handle, update_of_ne (Side.peer_ne who)] at member ⊢
    exact .inl member
  pending stay member := by
    simp only [world, handle, update_self] at member ⊢
    obtain ⟨msg, inside, rfl⟩ := List.mem_map.mp member
    exact List.mem_map_of_mem (List.mem_of_mem_eraseIdx inside)
  heard := rfl

/-- A master whose last conflict was never cleared processes the message of a
master: nothing happens. -/
def latched (pair : HaPair) : HaEvent → Bool
  | .deliver who index _ => (pair.ctrl who).haState == .master && (pair.ctrl who).conflictResolve &&
      ((pair.pending who)[index]?).any fun msg => msg.haState == .master
  | _ => false

theorem safe_handle {pair : HaPair} (safe : Safe (· = HaState.master) pair.world)
    (clear : pair.latched event = false) : Safe (· = HaState.master) (pair.handle event).world := by
  cases event with
  | timer who env => exact safe.acts (pair.act_acts ((pair.ctrl who).stateMachine_goes env))
  | sockDead who env => exact safe.acts (pair.act_acts ((pair.ctrl who).sockDead_goes env))
  | lose who index => exact safe.acts (pair.lose_acts who index)
  | deliver who index now =>
    cases arrived : (pair.pending who)[index]? with
    | none =>
      have same : pair.handle (.deliver who index now) = pair := by
        rw [handle, process, arrived]
      rwa [same]
    | some msg =>
      apply safe.hears (pair.process_hears now arrived)
      intro master other
      have resolved : (pair.ctrl who).conflictResolve = false := by
        have isMaster : (pair.ctrl who).haState = .master := master
        have tellsMaster : msg.haState = .master := other
        simpa [latched, arrived, isMaster, tellsMaster] using clear
      have yields := CtrlHdl.rcvPeerState_yields now master other resolved
      simpa [world, process, arrived] using yields

theorem safe_initial {pair : HaPair} (initial : pair.Initial) :
    Safe (· = HaState.master) pair.world := by
  obtain ⟨sysid, genId, -, rfl⟩ := initial
  refine ⟨by simp [world], by simp [world], fun masters => ?_⟩
  cases masters .left

end HaPair

/-- As long as no latched master hears of a master, the two are never masters that
know of each other. -/
theorem single_master {pair : HaPair}
    (reached : (haMachine.restrict fun pair event => pair.latched event = false).Reaches pair)
    (informed : pair.Informed) : ¬pair.BothMaster := by
  have safe : Safe (· = HaState.master) pair.world := by
    apply Machine.Reaches.invariant (fun pair => Safe (· = HaState.master) pair.world) _ _ reached
    · exact fun _ initial => HaPair.safe_initial initial
    · exact fun pair event _ safe admitted => HaPair.safe_handle safe admitted.2
  exact fun masters => safe.exclusive masters informed

/-- Two controllers with the system ids 10 and 20. -/
def startPair : HaPair where
  ctrl
    | .left => { haSysid := 10, genId := 0 }
    | .right => { haSysid := 20, genId := 0 }

theorem startPair_initial : startPair.Initial := by
  refine ⟨fun who => (startPair.ctrl who).haSysid, fun _ => 0, fun who => ?_, ?_⟩
  · cases who <;> decide
  · unfold startPair
    congr 1
    funext who
    cases who <;> rfl

/-- An event of the left controller and then the same one of the right one. -/
def onBoth (event : Side → HaEvent) : List HaEvent := [event .left, event .right]

/-- Both timers expire. A random id is drawn by a controller that leaves a conflict. -/
def timers (sends : Bool) : List HaEvent :=
  onBoth fun who =>
    .timer who { sends := sends, random := match who with | .left => 5 | .right => 6 }

/-- The oldest message to each of the two arrives. -/
def deliveries : List HaEvent := onBoth fun who => .deliver who 0 0

def losses : List HaEvent := onBoth fun who => .lose who 0

/-- They connect, exchange their ids and settle for a master and a slave. -/
def settling : List HaEvent :=
  timers true ++ deliveries ++ timers true ++ timers true ++ deliveries ++ deliveries

instance (pair : HaPair) (event : HaEvent) :
    Decidable
      ((haMachine.restrict fun pair event => pair.latched event = false).admits pair event) :=
  inferInstanceAs (Decidable (True ∧ pair.latched event = false))

theorem settled_reached : (haMachine.restrict fun pair event => pair.latched event = false).Reaches
    (haMachine.execAll startPair settling) :=
  (Machine.Reaches.start startPair_initial).execAll (by decide)

theorem settled_informed : (haMachine.execAll startPair settling).Informed := by
  intro who
  cases who <;> decide

theorem single_master_settled :
    ((haMachine.execAll startPair settling).ctrl .left).haState = .master ∧
      ((haMachine.execAll startPair settling).ctrl .right).haState = .slave ∧
      ¬(haMachine.execAll startPair settling).BothMaster :=
  ⟨by decide, by decide, single_master settled_reached settled_informed⟩

/-- Conflicts that latch both controllers, which then become masters on stale ids. -/
def latching : List HaEvent :=
  timers true ++ timers true ++ timers true ++ deliveries ++ deliveries ++ deliveries ++
  timers true ++ timers true ++ timers true ++ timers true ++ timers true ++
  losses ++ losses ++ losses ++ losses ++ losses ++
  timers true ++ timers true ++ losses ++ losses ++ timers false ++
  timers true ++ timers true ++ timers true ++ deliveries ++ deliveries ++ deliveries

theorem two_informed_masters :
    ∃ pair, haMachine.Reaches pair ∧ pair.Informed ∧ pair.BothMaster := by
  have admitted : ∀ (pair : HaPair) (events : List HaEvent), haMachine.AdmitsAll pair events := by
    intro pair events
    induction events generalizing pair with
    | nil => trivial
    | cons event rest ih => exact ⟨trivial, ih _⟩
  refine ⟨haMachine.execAll startPair latching,
    (Machine.Reaches.start startPair_initial).execAll (admitted startPair latching), fun who =>
      ?_, fun who => ?_⟩
  · cases who <;> decide
  · cases who <;> decide

end OpenMul.Ha
