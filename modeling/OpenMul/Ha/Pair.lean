import OpenMul.Ha.Controller
import OpenMul.Lib.Hearing
import OpenMul.Lib.Machine

namespace OpenMul.Ha

open Lib

/-- `pending who` are the messages on their way to a controller, `heard who` the
stays of its peer that it processed a message of. -/
structure HaPair where
  ctrl : Side → CtrlHdl
  pending : Side → List HaMsg := fun _ => []
  heard : Side → List Nat := fun _ => []

/-- Timer, socket death, and what the network does: a message arrives at any
time after it was sent, or is lost with its connection. -/
inductive HaEvent where
  | timer (who : Side) (env : HaEnv)
  | sockDead (who : Side) (env : HaEnv)
  | deliver (who : Side) (index : Nat) (now : Int)
  | lose (who : Side) (index : Nat)

namespace HaPair

/-- A controller did something and sent messages to its peer. -/
def act (pair : HaPair) (who : Side) (done : CtrlHdl × List HaMsg) : HaPair :=
  { pair with
    ctrl := Function.update pair.ctrl who done.1
    pending := Function.update pair.pending who.peer (pair.pending who.peer ++ done.2) }

/-- A controller processes a message that was on its way. -/
def process (pair : HaPair) (who : Side) (index : Nat) (now : Int) : HaPair :=
  match (pair.pending who)[index]? with
  | none => pair
  | some msg =>
    { ctrl := Function.update pair.ctrl who ((pair.ctrl who).rcvPeerState msg now)
      pending := Function.update pair.pending who ((pair.pending who).eraseIdx index)
      heard := Function.update pair.heard who (pair.heard who ++ [msg.stay]) }

def handle (pair : HaPair) : HaEvent → HaPair
  | .timer who env => pair.act who ((pair.ctrl who).stateMachine env)
  | .sockDead who env => pair.act who ((pair.ctrl who).sockDead env)
  | .deliver who index now => pair.process who index now
  | .lose who index =>
    { pair with pending := Function.update pair.pending who ((pair.pending who).eraseIdx index) }

/-- Both controllers as they start: `c_ha_init` insists on a system id. -/
def Initial (pair : HaPair) : Prop :=
  ∃ (sysid : Side → SysId) (genId : Side → BitVec 64), (∀ who, sysid who ≠ 0) ∧
    pair = { ctrl := fun who => { haSysid := sysid who, genId := genId who } }

/-- Each controller has processed a message of the other one's current stay. -/
def Informed (pair : HaPair) : Prop := ∀ who, (pair.ctrl who.peer).stay ∈ pair.heard who

def BothMaster (pair : HaPair) : Prop := ∀ who, (pair.ctrl who).haState = .master

end HaPair

def haMachine : Machine HaPair HaEvent where
  start := HaPair.Initial
  admits _ _ := True
  exec := HaPair.handle

end OpenMul.Ha
