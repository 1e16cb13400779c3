import Mathlib.Data.List.Nodup
import OpenMul.Core.Flow
import OpenMul.Lib.Machine

namespace OpenMul.Conx

open Lib List

/-- `conx_ent_key_t`. -/
structure EntKey where
  srcDpid : BitVec 64
  dstDpid : BitVec 64
  deriving DecidableEq

/-- `user_fl_ent_t`, with the match and mask its `conx_uflow_add` was given. -/
structure UserFl where
  key : EntKey
  flow : Flow
  mask : Flow
  srcFlow : Bool
  valid : Bool
  inFl : Flow
  inMask : Flow
  deriving DecidableEq

def conxL1TableId : BitVec 8 := 1
def conxL2TableId : BitVec 8 := 2

/-- What the source switch or the destination answers. -/
inductive Reply where
  | ok
  | flowExist
  | failed
  deriving DecidableEq

/-- What an installation meets: whether the tunnel is an OpenFlow one, whether the switch is
known and the actions can be built, and the answers. -/
structure Meets where
  tunnelOf : Bool := true
  ctors : Bool := true
  actions : Bool := true
  src : Reply := .ok
  dst : Reply := .ok

namespace UserFl

variable (uflow : UserFl)

/-- `CONX_ENT_LOOPBACK`, of the entry and of its end points. -/
def loopback : Bool := uflow.key.srcDpid == uflow.key.dstDpid

def setTable (tableId : BitVec 8) : UserFl := { uflow with flow := { uflow.flow with tableId } }

/-- The mask after a request to the destination without its input port. -/
def resetInPort : UserFl :=
  if uflow.mask.inPort ≠ 0 then { uflow with mask := { uflow.mask with inPort := 0xffffffff } }
  else uflow

/-- The part of `conx_uflow_install` from `install_dst` on. -/
def installDst (meets : Meets) : UserFl × Bool :=
  let uflow := (uflow.setTable conxL2TableId).resetInPort
  (uflow.setTable conxL1TableId, meets.dst != .failed)

/-- `conx_uflow_install`, and whether it returns 0. -/
def install (meets : Meets) : UserFl × Bool :=
  if !meets.tunnelOf then (uflow, false)
  else
    let uflow := uflow.setTable conxL1TableId
    if !meets.ctors then (uflow, false)
    else if uflow.loopback then
      let uflow := uflow.setTable conxL2TableId
      (uflow.setTable conxL1TableId, meets.src == .ok)
    else if !meets.actions then (uflow, false)
    else
      match meets.src with
      | .failed => (uflow, false)
      | .flowExist => uflow.installDst meets
      | .ok => if uflow.srcFlow then (uflow, true) else uflow.installDst meets

/-- `conx_uflow_uninstall` with acknowledged requests. -/
def uninstall : UserFl :=
  if uflow.loopback then uflow.setTable conxL2TableId
  else
    let uflow := uflow.setTable conxL1TableId
    if uflow.srcFlow then uflow else uflow.resetInPort.setTable conxL1TableId

/-- `ufl_hent_list_elem_activate`. -/
def activate (meets : Meets) : UserFl :=
  if uflow.valid then uflow else { (uflow.install meets).1 with valid := (uflow.install meets).2 }

/-- `ufl_hent_list_elem_deactivate`. -/
def deactivate : UserFl := if uflow.valid then { uflow.uninstall with valid := false } else uflow

/-- What `conx_uflow_dup_finder` compares. -/
def ident : EntKey × Flow × Flow := (uflow.key, uflow.flow, uflow.mask)

end UserFl

/-- `conx_uflow_ent_alloc`. -/
def uflowEntAlloc (key : EntKey) (fl mask : Flow) (srcFlow : Bool) : UserFl :=
  ⟨key, { fl with tableId := conxL1TableId }, mask, srcFlow, false, fl, mask⟩

/-- The search for a user flow; the lists of all end points are one table. -/
def uflowFind (table : List UserFl) (key : EntKey) (fl mask : Flow) : Option UserFl :=
  table.find? fun uflow => uflow.ident = (uflowEntAlloc key fl mask false).ident

/-- The requests of the applications, and end points that come and go. An addition finds its
switch and its type or not, and the end points active or not. -/
inductive UflowOp where
  | add (key : EntKey) (fl mask : Flow) (srcFlow refused : Bool) (active : Option Meets)
  | del (key : EntKey) (fl mask : Flow)
  | scanActive (key : EntKey) (meets : UserFl → Meets)
  | scanInactive (key : EntKey)

/-- `conx_uflow_add`, `__conx_uflow_del` and `conx_uflow_scan`. -/
def uflowExec (table : List UserFl) : UflowOp → List UserFl
  | .add key fl mask srcFlow refused active =>
    if refused || (uflowFind table key fl mask).isSome then table
    else
      let uflow := uflowEntAlloc key fl mask srcFlow
      match active with
      | none => table ++ [uflow]
      | some meets =>
        if (uflow.install meets).2 then table ++ [{ (uflow.install meets).1 with valid := true }]
        else table
  | .del key fl mask => (uflowFind table key fl mask).elim table table.erase
  | .scanActive key meets =>
    table.map fun uflow => if uflow.key = key then uflow.activate (meets uflow) else uflow
  | .scanInactive key => table.map fun uflow => if uflow.key = key then uflow.deactivate else uflow

def uflowRuns : Machine (List UserFl) UflowOp where
  start table := table = []
  admits _ _ := True
  exec := uflowExec

/-- The input port is matched as a whole or not at all, and no valid flow of a loopback loses
its end points. -/
def Steady (table : List UserFl) : UflowOp → Prop
  | .add _ _ mask _ _ _ => mask.inPort = 0 ∨ mask.inPort = 0xffffffff
  | .scanInactive key =>
    key.srcDpid = key.dstDpid → ∀ uflow ∈ table, uflow.key = key → uflow.valid = false
  | .del .. | .scanActive .. => True

/-- A stored flow still has the key it was given. -/
structure UserFl.Intact (uflow : UserFl) : Prop where
  flow : uflow.flow = { uflow.inFl with tableId := conxL1TableId }
  mask : uflow.mask = uflow.inMask
  whole : uflow.mask.inPort = 0 ∨ uflow.mask.inPort = 0xffffffff

theorem UserFl.resetInPort_eq {uflow : UserFl}
    (whole : uflow.mask.inPort = 0 ∨ uflow.mask.inPort = 0xffffffff) :
    uflow.resetInPort = uflow := by
  unfold resetInPort
  split
  · rename_i matched
    rw [← whole.resolve_left matched]
  · rfl

namespace UserFl.Intact

variable {uflow : UserFl} (intact : uflow.Intact)
include intact

theorem setTable_eq : uflow.setTable conxL1TableId = uflow := by
  have tableId : uflow.flow.tableId = conxL1TableId := by rw [intact.flow]
  rw [← tableId]
  rfl

theorem installDst_eq (meets : Meets) : (uflow.installDst meets).1 = uflow := by
  have whole : (uflow.setTable conxL2TableId).resetInPort = uflow.setTable conxL2TableId :=
    resetInPort_eq intact.whole
  simp only [installDst, whole]
  exact intact.setTable_eq

theorem install_eq (meets : Meets) : (uflow.install meets).1 = uflow := by
  unfold install
  rw [intact.setTable_eq]
  split
  · rfl
  dsimp only
  split
  · rfl
  split
  · exact intact.setTable_eq
  split
  · rfl
  cases meets.src with
  | failed => rfl
  | flowExist => exact intact.installDst_eq meets
  | ok =>
    dsimp only
    split
    · rfl
    · exact intact.installDst_eq meets

theorem uninstall_eq (apart : uflow.loopback = false) : uflow.uninstall = uflow := by
  simp [uninstall, apart, intact.setTable_eq, resetInPort_eq intact.whole]

theorem activate_eq (meets : Meets) : ∃ valid, uflow.activate meets = { uflow with valid } := by
  unfold activate
  split
  · exact ⟨uflow.valid, rfl⟩
  · exact ⟨_, by rw [intact.install_eq]⟩

theorem deactivate_eq (steady : uflow.loopback = true → uflow.valid = false) :
    ∃ valid, uflow.deactivate = { uflow with valid } := by
  unfold deactivate
  split
  · rename_i valid
    have apart : uflow.loopback = false := by
      by_contra loop
      rw [steady (by simpa using loop)] at valid
      contradiction
    exact ⟨false, by rw [intact.uninstall_eq apart]⟩
  · exact ⟨uflow.valid, rfl⟩

end UserFl.Intact

/-- Distinct keys, none of them changed. -/
structure Kept (table : List UserFl) : Prop where
  once : (table.map UserFl.ident).Nodup
  intact : ∀ uflow ∈ table, uflow.Intact

namespace Kept

variable {table : List UserFl} (kept : Kept table)
include kept

theorem map (marks : ∀ uflow ∈ table, ∃ valid, change uflow = { uflow with valid }) :
    Kept (table.map change) := by
  have idents : (table.map change).map UserFl.ident = table.map UserFl.ident := by
    rw [map_map]
    apply map_congr_left
    intro uflow member
    obtain ⟨valid, same⟩ := marks uflow member
    rw [Function.comp_apply, same]
    rfl
  refine ⟨idents ▸ kept.once, ?_⟩
  intro changed mapped
  obtain ⟨uflow, member, rfl⟩ := mem_map.1 mapped
  obtain ⟨valid, same⟩ := marks uflow member
  obtain ⟨flow, mask, whole⟩ := kept.intact uflow member
  rw [same]
  exact ⟨flow, mask, whole⟩

theorem append {uflow : UserFl} (intact : uflow.Intact)
    (fresh : ∀ other ∈ table, other.ident ≠ uflow.ident) : Kept (table ++ [uflow]) := by
  constructor
  · rw [map_append, nodup_append]
    refine ⟨kept.once, nodup_singleton _, ?_⟩
    intro ident listed other single
    obtain ⟨before, member, rfl⟩ := mem_map.1 listed
    rw [mem_singleton.1 single]
    exact fresh before member
  · intro other member
    rcases mem_append.1 member with before | last
    · exact kept.intact other before
    · rwa [mem_singleton.1 last]

theorem sublist (part : rest.Sublist table) : Kept rest :=
  ⟨kept.once.sublist (part.map _), fun other member => kept.intact other (part.subset member)⟩

/-- A stored flow is found under what its addition was given. -/
theorem find (member : uflow ∈ table) :
    uflowFind table uflow.key uflow.inFl uflow.inMask = some uflow := by
  have sought : uflow.ident = (uflowEntAlloc uflow.key uflow.inFl uflow.inMask false).ident := by
    rw [UserFl.ident, (kept.intact uflow member).flow, (kept.intact uflow member).mask]
    rfl
  cases found : uflowFind table uflow.key uflow.inFl uflow.inMask with
  | none => simpa [sought] using find?_eq_none.1 found uflow member
  | some other =>
    have same : other.ident = uflow.ident := by simpa [sought] using find?_some found
    rw [inj_on_of_nodup_map kept.once (mem_of_find?_eq_some found) member same]

theorem exec (steady : Steady table op) : Kept (uflowExec table op) := by
  cases op with
  | add key fl mask srcFlow refused active =>
    simp only [uflowExec]
    split
    · exact kept
    have absent : uflowFind table key fl mask = none := by simp_all
    have fresh : ∀ other ∈ table, other.ident ≠ (uflowEntAlloc key fl mask srcFlow).ident := by
      intro other member same
      exact find?_eq_none.1 absent other member (decide_eq_true same)
    have intact : (uflowEntAlloc key fl mask srcFlow).Intact := ⟨rfl, rfl, steady⟩
    cases active with
    | none => exact kept.append intact fresh
    | some meets =>
      dsimp only
      rw [intact.install_eq]
      split
      · exact kept.append ⟨rfl, rfl, steady⟩ fresh
      · exact kept
  | del key fl mask =>
    simp only [uflowExec]
    cases uflowFind table key fl mask with
    | none => exact kept
    | some uflow => exact kept.sublist erase_sublist
  | scanActive key meets =>
    apply kept.map
    intro uflow member
    split
    · exact (kept.intact uflow member).activate_eq _
    · exact ⟨uflow.valid, rfl⟩
  | scanInactive key =>
    apply kept.map
    intro uflow member
    split
    · rename_i same
      apply (kept.intact uflow member).deactivate_eq
      intro loop
      exact steady (by simpa [UserFl.loopback, same] using loop) uflow member same
    · exact ⟨uflow.valid, rfl⟩

end Kept

/-- In a steady run no key is stored twice, and every stored flow is found and removed. -/
theorem userFlows_kept {table : List UserFl} (reached : (uflowRuns.restrict Steady).Reaches table) :
    (table.map UserFl.ident).Nodup ∧ ∀ uflow ∈ table,
      uflowFind table uflow.key uflow.inFl uflow.inMask = some uflow ∧
        uflowExec table (.del uflow.key uflow.inFl uflow.inMask) = table.erase uflow := by
  have kept : Kept table := by
    induction reached with
    | start initial => exact initial ▸ ⟨nodup_nil, by simp⟩
    | step _ admitted ih => exact ih.exec admitted.2
  refine ⟨kept.once, ?_⟩
  intro uflow member
  have found := kept.find member
  refine ⟨found, ?_⟩
  rw [uflowExec, found]
  rfl

/-- Two flows, the second without active end points, then the end points come and go. -/
def twoUflows : List UflowOp :=
  [.add ⟨1, 2⟩ {} {} false false (some {}),
    .add ⟨1, 2⟩ { inPort := 3 } { inPort := 0xffffffff } false false none,
    .scanActive ⟨1, 2⟩ fun _ => {}, .scanInactive ⟨1, 2⟩]

theorem userFlows_kept_two :
    let table := uflowRuns.execAll [] twoUflows
    let uflow : UserFl :=
      ⟨⟨1, 2⟩, { inPort := 3, tableId := 1 }, { inPort := 0xffffffff }, false, false,
      { inPort := 3 }, { inPort := 0xffffffff }⟩
    table.length = 2 ∧ uflow ∈ table ∧ (table.map UserFl.ident).Nodup ∧
      uflowFind table uflow.key uflow.inFl uflow.inMask = some uflow ∧
      uflowExec table (.del uflow.key uflow.inFl uflow.inMask) = table.erase uflow := by
  intro table uflow
  have reached : (uflowRuns.restrict Steady).Reaches table :=
    .execAll (.start rfl)
      ⟨⟨trivial, .inl rfl⟩, ⟨trivial, .inr rfl⟩, ⟨trivial, trivial⟩, ⟨trivial, nofun⟩, trivial⟩
  have member : uflow ∈ table := by decide
  obtain ⟨once, kept⟩ := userFlows_kept reached
  exact ⟨by decide, member, once, (kept uflow member).1, (kept uflow member).2⟩

/-- A loopback whose end points go leaves its flow in the other table, where it is not found;
added again it is stored twice. A mask of a part of the input port becomes a whole one. -/
theorem userFlows_lost :
    let loop : EntKey := ⟨1, 1⟩
    let added := uflowExec [] (.add loop {} {} false false (some {}))
    let left := uflowExec added (.scanInactive loop)
    let twice :=
      uflowExec (uflowExec left (.add loop {} {} false false none)) (.scanActive loop fun _ => {})
    added.length = 1 ∧ uflowFind left loop {} {} = none ∧ ¬(twice.map UserFl.ident).Nodup ∧
      uflowFind (uflowExec [] (.add ⟨1, 2⟩ {} { inPort := 1 } false false (some {}))) ⟨1, 2⟩ {}
        { inPort := 1 } =
        none := by
  decide

end OpenMul.Conx
