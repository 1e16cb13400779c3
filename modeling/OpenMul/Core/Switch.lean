import Mathlib.Logic.Function.Basic
import OpenMul.Core.Message
import OpenMul.Lib.RefTable

namespace OpenMul

open Lib

/-- `c_fl_entry_t` of a rule table. `FL_REF` is left out: every call that raises
it drops it again before it returns. `locked` is the writer side of `FL_LOCK`. -/
structure FlEntry where
  locked : Bool := false
  flags : BitVec 64
  prio : BitVec 16
  installed : Bool := false
  itimeo : BitVec 16
  htimeo : BitVec 16
  cookie : BitVec 64 := 0
  fl : Flow
  flMask : Flow
  /-- Shares its storage with `parent`. -/
  clonedList : List Nat := []
  appRef : Int := 0
  appOwnerList : List App := []
  actions : List Byte
  groups : List Nat := []
  meters : List Nat := []
  staleTime : Nat := 0
  lastRefresh : Nat := 0
  lastScan : Nat := 0
  deriving DecidableEq, Repr

/-- `c_flow_tbl_t` of a rule table. -/
structure FlowTbl where
  swActiveEntries : BitVec 32 := 0
  ruleFlTbl : List FlEntry := []
  deriving DecidableEq, Repr

/-- `struct c_switch_group`, less its id and reference count. -/
structure GroupBody where
  appOwner : App
  type : Byte
  flags : BitVec 8
  actVectors : List ActVecElem
  installed : Bool := false
  lastScan : Nat := 0
  lastSeen : Nat := 0
  staleTime : Nat := 0
  deriving DecidableEq, Repr

/-- `struct c_switch_meter`, less its id and reference count. -/
structure MeterBody where
  appOwner : App
  flags : BitVec 16
  cflags : BitVec 8
  meterBands : List (List Byte)
  installed : Bool := false
  lastScan : Nat := 0
  lastSeen : Nat := 0
  staleTime : Nat := 0
  deriving DecidableEq, Repr

abbrev Group := Counted (BitVec 32) GroupBody
abbrev Meter := Counted (BitVec 32) MeterBody

def maxRuleFlowTbls : Nat := 255
def ofMaxActVectors : Nat := 128
def ofMaxMeterVectors : Nat := 128

/-- `c_switch_t`. `master` is the controller's own role, `appRef` the reference
counts of the application records and `txQ` all that was written so far. -/
structure Switch where
  lock : Bool := false
  ofpCtors : OfpCtors
  master : Bool := true
  ruleFlowTbls : Nat → FlowTbl := fun _ => {}
  groups : List Group := []
  meters : List Meter := []
  flIdxCookie : BitVec 32 := 0
  appList : List App := []
  appRef : App → Int := fun _ => 0
  txQ : List OfpMsg := []

/-- `c_app_ref` and `c_app_unref`. -/
def countApp (appRef : App → Int) (app : App) (amount : Int) : App → Int :=
  Function.update appRef app (appRef app + amount)

/-- `c_app_put`. At zero the record is freed, which no count shows. -/
def appPut (appRef : App → Int) (app : App) : App → Int :=
  if appRef app = 0 then appRef else countApp appRef app (-1)

namespace Switch

def setRules (sw : Switch) (table : Nat) (rules : List FlEntry) : Switch :=
  { sw with
    ruleFlowTbls :=
      Function.update sw.ruleFlowTbls table { sw.ruleFlowTbls table with ruleFlTbl := rules } }

def rules (sw : Switch) (table : Nat) : List FlEntry := (sw.ruleFlowTbls table).ruleFlTbl

def switchTx (sw : Switch) (messages : List OfpMsg) : Switch :=
  { sw with txQ := sw.txQ ++ messages }

/-- What `__of_send_barrier_request` writes; OpenFlow 1.0 has no constructor for it. -/
def barrierRequest (sw : Switch) : List OfpMsg :=
  if sw.ofpCtors = .of10 then [] else [.barrierRequest]

/-- What `of_send_flow_add` writes. -/
def flowAddMsgs (sw : Switch) (ent : FlEntry) (bufferId : BitVec 32) (modify : Bool) :
    List OfpMsg :=
  if sw.master then
    .flowMod (sw.ofpCtors.flowAdd ent.fl ent.flMask bufferId ent.actions ent.itimeo ent.htimeo
        ent.prio ent.cookie modify) ::
      if hasFlag ent.flags flEntBarrier then sw.barrierRequest else []
  else []

def ofpgAny : BitVec 32 := 0xffffffff

/-- What `of_send_flow_del` and `of_send_flow_del_strict` write; both are called
for any port and any group. The copy for a standby controller is not part of
this state. -/
def flowDelMsgs (sw : Switch) (ent : FlEntry) (strict : Bool) : List OfpMsg :=
  if sw.master then
    [.flowMod (sw.ofpCtors.flowDel ent.fl ent.flMask 0 strict ent.prio ofpgAny)]
  else []

def sendFlowAdd (sw : Switch) (ent : FlEntry) (bufferId : BitVec 32) (modify : Bool) : Switch :=
  sw.switchTx (sw.flowAddMsgs ent bufferId modify)

def sendFlowDel (sw : Switch) (ent : FlEntry) (strict : Bool) : Switch :=
  sw.switchTx (sw.flowDelMsgs ent strict)

/-- `of_switch_table_supported`. -/
def tableSupported (sw : Switch) (table : BitVec 8) : Bool :=
  if table.toNat < maxRuleFlowTbls && sw.ofpCtors.multiTableSupport then true else table == 0

@[simp] theorem rules_setRules_same (sw : Switch) (table : Nat) (list : List FlEntry) :
    (sw.setRules table list).rules table = list := by
  simp [rules, setRules]

theorem rules_setRules (sw : Switch) (table other : Nat) (list : List FlEntry) :
    (sw.setRules table list).rules other = if other = table then list else sw.rules other := by
  by_cases same : other = table
  · subst other; simp
  · simp [rules, setRules, same]

end Switch

end OpenMul
