import Mathlib.Logic.Basic

namespace OpenMul.Lib

universe u v

structure Machine (State : Type u) (Op : Type v) where
  start : State → Prop
  admits : State → Op → Prop
  exec : State → Op → State

namespace Machine

variable {State : Type u} {Op : Type v}

/-- States left by some finite sequence of admitted inputs. -/
inductive Reaches (machine : Machine State Op) : State → Prop where
  | start {state : State} (initial : machine.start state) : Reaches machine state
  | step {state : State} {op : Op} (earlier : Reaches machine state)
      (admitted : machine.admits state op) : Reaches machine (machine.exec state op)

/-- The runs in which every input also meets a condition on the state before it. -/
def restrict (machine : Machine State Op) (condition : State → Op → Prop) : Machine State Op where
  start := machine.start
  admits state op := machine.admits state op ∧ condition state op
  exec := machine.exec

theorem Reaches.of_restrict {condition : State → Op → Prop}
    {state : State} (reached : Reaches (machine.restrict condition) state) :
    Reaches machine state := by
  induction reached with
  | start initial => exact .start initial
  | step earlier admitted ih => exact .step ih admitted.1

/-- An invariant holds at the start and survives one admitted input. -/
theorem Reaches.invariant {machine : Machine State Op} (inv : State → Prop)
    (initially : ∀ state, machine.start state → inv state)
    (preserved : ∀ state op, Reaches machine state → inv state → machine.admits state op →
      inv (machine.exec state op)) {state : State} (reached : Reaches machine state) :
    inv state := by
  induction reached with
  | start initial => exact initially _ initial
  | step earlier admitted ih => exact preserved _ _ earlier ih admitted

/-- Execute a list of inputs from left to right. -/
def execAll (machine : Machine State Op) (state : State) (ops : List Op) : State :=
  ops.foldl machine.exec state

/-- Every input of the list is admitted where it is executed. -/
def AdmitsAll (machine : Machine State Op) : State → List Op → Prop
  | _, [] => True
  | state, op :: rest => machine.admits state op ∧ machine.AdmitsAll (machine.exec state op) rest

instance decidableAdmitsAll (machine : Machine State Op)
    [each : ∀ state op, Decidable (machine.admits state op)] (state : State) (ops : List Op) :
    Decidable (machine.AdmitsAll state ops) :=
  match ops with
  | [] => .isTrue trivial
  | op :: rest =>
    have := machine.decidableAdmitsAll (machine.exec state op) rest
    inferInstanceAs
      (Decidable (machine.admits state op ∧ machine.AdmitsAll (machine.exec state op) rest))

theorem Reaches.execAll {state : State} {ops : List Op}
    (reached : Reaches machine state) (admitted : machine.AdmitsAll state ops) :
    Reaches machine (machine.execAll state ops) := by
  induction ops generalizing state with
  | nil => exact reached
  | cons op rest ih => exact ih (.step reached admitted.1) admitted.2

end Machine

end OpenMul.Lib
