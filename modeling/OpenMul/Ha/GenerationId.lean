import Mathlib.Algebra.Group.Nat.Defs
import Mathlib.Data.List.Chain
import OpenMul.Ha.Controller
import OpenMul.Lib.Machine

namespace OpenMul.Ha

open Lib

namespace CtrlHdl

/-- `of131_recv_role_reply`, the part that is not logging: all ones stands for a
switch without a generation id. -/
def recvRoleReply (hdl : CtrlHdl) (generationId : BitVec 64) : CtrlHdl :=
  if generationId ≠ BitVec.allOnes 64 ∧ hdl.genId < generationId then
    { hdl with genId := generationId }
  else hdl

end CtrlHdl

inductive GenOp where
  | transition (new : HaState) (env : HaEnv)
  | peerState (msg : HaMsg) (now : Int)
  | roleReply (generationId : BitVec 64)

namespace GenOp

def exec (hdl : CtrlHdl) : GenOp → CtrlHdl
  | .transition new env => (hdl.stateTransition env new).1
  | .peerState msg now => hdl.rcvPeerState msg now
  | .roleReply generationId => hdl.recvRoleReply generationId

/-- The transitions that take the next generation id. -/
def increments : GenOp → Bool
  | .transition .slave _ | .transition .master _ => true
  | _ => false

end GenOp

/-- A controller may start with any generation id: `c_ha_generation_id_init`
reads it from a file. -/
def genMachine : Machine CtrlHdl GenOp where
  start _ := True
  admits _ _ := True
  exec := GenOp.exec

/-- The successive values of `gen_id`. -/
def genIds : CtrlHdl → List GenOp → List Nat
  | hdl, [] => [hdl.genId.toNat]
  | hdl, op :: rest => hdl.genId.toNat :: genIds (genMachine.exec hdl op) rest

section Step

variable (hdl : CtrlHdl)

@[simp] theorem genId_enter (new : HaState) : (hdl.enter new).genId = hdl.genId := rfl

@[simp] theorem genId_toNone (env : HaEnv) : (hdl.toNone env).genId = hdl.genId := rfl

@[simp] theorem genId_sendState (env : HaEnv) : (hdl.sendState env).1.genId = hdl.genId := by
  unfold CtrlHdl.sendState
  split <;> simp

theorem genId_stateTransition (env : HaEnv) (new : HaState) :
    (hdl.stateTransition env new).1.genId =
      if (GenOp.transition new env).increments then hdl.genId + 1 else hdl.genId := by
  cases new <;> simp [CtrlHdl.stateTransition, CtrlHdl.nextGenId, GenOp.increments]

theorem genId_rcvPeerState (msg : HaMsg) (now : Int) :
    (hdl.rcvPeerState msg now).genId = if hdl.genId < msg.genId then msg.genId else hdl.genId := by
  simp only [CtrlHdl.rcvPeerState]
  split
  · split
    · simp [genId_stateTransition, GenOp.increments]
    · rfl
  · rfl

theorem genId_recvRoleReply (generationId : BitVec 64) : (hdl.recvRoleReply generationId).genId =
      if generationId ≠ BitVec.allOnes 64 ∧ hdl.genId < generationId then generationId
      else hdl.genId := by
  unfold CtrlHdl.recvRoleReply
  split <;> rfl

theorem toNat_le_toNat_add_one (genId : BitVec 64) :
    genId.toNat ≤ (genId + 1).toNat ↔ genId ≠ BitVec.allOnes 64 := by
  have largest : genId = BitVec.allOnes 64 ↔ genId.toNat = 2 ^ 64 - 1 := by
    rw [← BitVec.toNat_inj, BitVec.toNat_allOnes]
  have sum : (genId + 1).toNat = (genId.toNat + 1) % 2 ^ 64 := BitVec.toNat_add ..
  rw [ne_eq, largest]
  omega

/-- A step keeps the order of generation ids unless it adds to the largest one. -/
theorem genId_le_exec_iff (op : GenOp) : hdl.genId.toNat ≤ (genMachine.exec hdl op).genId.toNat ↔
      (op.increments → hdl.genId ≠ BitVec.allOnes 64) := by
  cases op with
  | transition new env =>
    change hdl.genId.toNat ≤ (hdl.stateTransition env new).1.genId.toNat ↔ _
    rw [genId_stateTransition]
    split
    · rename_i adds
      rw [toNat_le_toNat_add_one]
      exact ⟨fun below _ => below, fun below => below adds⟩
    · rename_i keeps
      simp [keeps]
  | peerState msg now =>
    change hdl.genId.toNat ≤ (hdl.rcvPeerState msg now).genId.toNat ↔ _
    rw [genId_rcvPeerState]
    split
    · rename_i later
      simpa [GenOp.increments] using Nat.le_of_lt (BitVec.lt_def.mp later)
    · simp [GenOp.increments]
  | roleReply generationId =>
    change hdl.genId.toNat ≤ (hdl.recvRoleReply generationId).genId.toNat ↔ _
    rw [genId_recvRoleReply]
    split
    · rename_i later
      simpa [GenOp.increments] using Nat.le_of_lt (BitVec.lt_def.mp later.2)
    · simp [GenOp.increments]

end Step

/-- The id is not the largest one when a transition adds to it. -/
def RoomForNext (hdl : CtrlHdl) (op : GenOp) : Prop :=
  op.increments → hdl.genId ≠ BitVec.allOnes 64

instance (hdl : CtrlHdl) (op : GenOp) : Decidable (RoomForNext hdl op) :=
  inferInstanceAs (Decidable (_ → _))

/-- The generation id never decreases exactly when every increment has room. -/
theorem genIds_isChain_iff (hdl : CtrlHdl) (ops : List GenOp) :
    (genIds hdl ops).IsChain (· ≤ ·) ↔ (genMachine.restrict RoomForNext).AdmitsAll hdl ops := by
  induction ops generalizing hdl with
  | nil => simp [genIds, Machine.AdmitsAll]
  | cons op rest ih =>
    obtain ⟨more, first⟩ : ∃ more, genIds (genMachine.exec hdl op) rest =
        (genMachine.exec hdl op).genId.toNat :: more := by
      cases rest <;> exact ⟨_, rfl⟩
    have later := ih (genMachine.exec hdl op)
    rw [first] at later
    rw [genIds, first, List.isChain_cons_cons, genId_le_exec_iff, later]
    simp [Machine.AdmitsAll, Machine.restrict, RoomForNext, genMachine]

/-- A peer sends the largest id and a takeover follows. -/
def wrapOps : List GenOp :=
  [.peerState ⟨1, BitVec.allOnes 64, .master, 0⟩ 0, .transition .master {}]

theorem genIds_wrap : genIds { haSysid := 2, genId := 7 } wrapOps = [7, 2 ^ 64 - 1, 0] := by
  decide

/-- The same takeover after an ordinary message. -/
theorem genIds_isChain_takeover : (genIds { haSysid := 2, genId := 7 }
      [.peerState ⟨1, 12, .master, 0⟩ 0, .roleReply 15, .transition .master {}]).IsChain (· ≤ ·) :=
  (genIds_isChain_iff _ _).mpr
    ⟨⟨trivial, by decide⟩, ⟨trivial, by decide⟩, ⟨trivial, by decide⟩, trivial⟩

end OpenMul.Ha
