import Mathlib.Logic.Basic

namespace OpenMul.Ha

/-- The values of `ha_state`, in the order of their numbers. -/
inductive HaState where
  | none
  | connected
  | master
  | slave
  | conflict
  | noha
  deriving DecidableEq, Repr

/-- `C_HA_STATE_NONE` and so on. -/
def HaState.code : HaState → Nat
  | .none => 0
  | .connected => 1
  | .master => 2
  | .slave => 3
  | .conflict => 4
  | .noha => 5

abbrev SysId := BitVec 32

/-- `c_ofp_ha_state_t`. The number of state changes of the sender is not part of
the message; it says which stay in a state the message was sent in. -/
structure HaMsg where
  haSysid : SysId
  genId : BitVec 64
  haState : HaState
  stay : Nat
  deriving DecidableEq, Repr

/-- `ctrl_hdl_t`, the part that belongs to high availability. `stay` counts the
changes of `haState`; the code does not have it. -/
structure CtrlHdl where
  haState : HaState := .none
  haSysid : SysId
  haPeerSysid : SysId := 0
  haPeerState : HaState := .none
  genId : BitVec 64
  conflictResolve : Bool := false
  haRetries : Nat := 0
  lastHaHearbeat : Int := 0
  connDead : Bool := false
  stay : Nat := 0
  deriving DecidableEq, Repr

def haMaxRetries : Nat := 5

def haTakeoverTimeo : Int := 10

/-- What the environment decides during one call: the clock, whether a connection
to the peer comes up, whether it carries the state message, and the number that
`random_uint32` returns. -/
structure HaEnv where
  now : Int := 0
  connects : Bool := true
  sends : Bool := true
  random : SysId := 0

namespace CtrlHdl

/-- `c_hdl->ha_state = new_state`. -/
def enter (hdl : CtrlHdl) (new : HaState) : CtrlHdl :=
  { hdl with haState := new, stay := if hdl.haState = new then hdl.stay else hdl.stay + 1 }

/-- `__c_ha_generation_id_update(c_hdl->gen_id+1)`. -/
def nextGenId (hdl : CtrlHdl) : CtrlHdl := { hdl with genId := hdl.genId + 1 }

/-- The case `C_HA_STATE_NONE` of `c_ha_state_transition`: the connection is
destroyed, and a role or a conflict costs the system id. -/
def toNone (hdl : CtrlHdl) (env : HaEnv) : CtrlHdl :=
  let sysid := match hdl.haState with
    | .slave | .master => 0
    | .conflict => env.random
    | _ => hdl.haSysid
  { hdl.enter .none with haRetries := 0, connDead := true, haSysid := sysid }

/-- `c_ha_mk_state_resp`. -/
def mkStateResp (hdl : CtrlHdl) : HaMsg := ⟨hdl.haSysid, hdl.genId, hdl.haState, hdl.stay⟩

/-- `c_ha_send_state`: the controller with the messages that leave it. -/
def sendState (hdl : CtrlHdl) (env : HaEnv) : CtrlHdl × List HaMsg :=
  if hdl.connDead || !env.sends then (hdl.toNone env, []) else (hdl, [hdl.mkStateResp])

/-- `c_ha_state_transition`. -/
def stateTransition (hdl : CtrlHdl) (env : HaEnv) : HaState → CtrlHdl × List HaMsg
  | .slave => ((hdl.enter .slave).nextGenId, [])
  | .conflict => ({ hdl.enter .conflict with conflictResolve := true }, [])
  | .none => (hdl.toNone env, [])
  | .master => ((hdl.enter .master).nextGenId, [])
  | .connected => (hdl.enter .connected).sendState env
  | .noha => (hdl, [])

/-- `c_ha_connect`. -/
def connect (hdl : CtrlHdl) (env : HaEnv) : CtrlHdl × List HaMsg :=
  if env.connects then { hdl with connDead := false }.stateTransition env .connected
  else ({ hdl with connDead := true }, [])

/-- The role that a connected controller takes. The comparison is with what the
last message said, from whichever connection it came. -/
def roleOf (hdl : CtrlHdl) : HaState :=
  if HaState.connected.code ≤ hdl.haPeerState.code then
    if hdl.haPeerSysid < hdl.haSysid then .slave
    else if hdl.haSysid < hdl.haPeerSysid then .master
    else .conflict
  else .conflict

/-- `c_ha_state_machine`. A connected controller goes on to a role even if
sending its state has just failed. -/
def stateMachine (hdl : CtrlHdl) (env : HaEnv) : CtrlHdl × List HaMsg :=
  match hdl.haState with
  | .none => hdl.connect env
  | .connected =>
    let sent := hdl.sendState env
    let role := sent.1.stateTransition env sent.1.roleOf
    (role.1, sent.2 ++ role.2)
  | .master => hdl.sendState env
  | .slave =>
    let late := decide (hdl.lastHaHearbeat + haTakeoverTimeo < env.now)
    let role := if late then hdl.stateTransition env .master else (hdl, [])
    let sent := role.1.sendState env
    (sent.1, role.2 ++ sent.2)
  | .conflict =>
    let sent := hdl.sendState env
    let tried : CtrlHdl := { sent.1 with haRetries := sent.1.haRetries + 1 }
    if haMaxRetries ≤ sent.1.haRetries ∧ tried.haPeerState = .conflict then
      let reset := tried.stateTransition env .none
      (reset.1, sent.2 ++ reset.2)
    else (tried, sent.2)
  | .noha => (hdl, [])

/-- `c_ha_thread_read` on a socket that turns out dead; without a connection
there is no read event. -/
def sockDead (hdl : CtrlHdl) (env : HaEnv) : CtrlHdl × List HaMsg :=
  if hdl.connDead then (hdl, []) else hdl.stateTransition env .none

/-- The condition that `c_ha_rcv_peer_state` takes for a conflict. -/
def conflicts (hdl : CtrlHdl) (msg : HaMsg) : Bool :=
  msg.haState == .slave && hdl.haState == .slave || msg.haState == .master && hdl.haState ==
    .master || hdl.haSysid == msg.haSysid || msg.haState == .conflict

/-- `c_ha_rcv_peer_state` on a message from the configured peer. -/
def rcvPeerState (hdl : CtrlHdl) (msg : HaMsg) (now : Int) : CtrlHdl :=
  let known := { hdl with
    haPeerSysid := msg.haSysid
    haPeerState := msg.haState
    genId := if hdl.genId < msg.genId then msg.genId else hdl.genId }
  let resolved :=
    if hdl.conflicts msg then
      if !known.conflictResolve then (known.stateTransition {} .conflict).1 else known
    else { known with conflictResolve := false }
  { resolved with lastHaHearbeat := now }

end CtrlHdl

end OpenMul.Ha
