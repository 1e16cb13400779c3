import Mathlib.Logic.Function.Basic
import OpenMul.Core.Flow
import OpenMul.Lib.BucketChain
import OpenMul.Lib.Machine

namespace OpenMul

open Lib

/-- `C_FDB_HTIMEO`, in seconds. -/
def cFdbHtimeo : Int := 60 * 5

def cL2fdbSz : Nat := 524288

abbrev cFdbEntPerBkt : Nat := 2

def cMlpsDown : BitVec 32 := 0x1

def cMlpcDown : BitVec 32 := 0x1

structure L2fdbEnt where
  timestamp : Int := 0
  port : BitVec 32 := 0
  valid : Bool := false
  installed : Bool := false
  mac : BitVec 48 := 0
deriving DecidableEq, Repr

abbrev L2fdbChain := BucketChain L2fdbEnt cFdbEntPerBkt

/-- The flow the fast path sends to the switch for one MAC. -/
inductive FdbFlow where
  | del (dlDst : BitVec 48)
  | add (dlDst : BitVec 48) (port : BitVec 32)
deriving DecidableEq, Repr

structure Fdb where
  appFlowTbl : Nat → L2fdbChain
  sent : List FdbFlow := []

namespace Fdb

def putChain (fdb : Fdb) (key : Nat) (chain : L2fdbChain) (out : List FdbFlow) : Fdb where
  appFlowTbl := Function.update fdb.appFlowTbl key chain
  sent := fdb.sent ++ out

@[simp] theorem putChain_same (fdb : Fdb) (key : Nat) (chain : L2fdbChain)
    (out : List FdbFlow) : (fdb.putChain key chain out).appFlowTbl key = chain :=
  Function.update_self ..

theorem putChain_other (fdb : Fdb) (apart : other ≠ key) (chain : L2fdbChain) (out : List FdbFlow) :
    (fdb.putChain key chain out).appFlowTbl other = fdb.appFlowTbl other :=
  Function.update_of_ne apart ..

end Fdb

def macByte (mac : BitVec 48) (index : Nat) : BitVec 32 :=
  (mac.extractLsb' (8 * (5 - index)) 8).setWidth 32

def l2fdbKey (mac : BitVec 48) : Nat :=
  (macByte mac 4 <<< 24 ||| (macByte mac 3 ^^^ macByte mac 5) <<< 16 ||| macByte mac 2 <<< 8 |||
    macByte mac 1).toNat % cL2fdbSz

def l2fdbInit : Fdb where
  appFlowTbl _ := [Vector.replicate cFdbEntPerBkt {}]

/-- The port parameter is a `uint16_t`. -/
def l2fdbEntInit (ent : L2fdbEnt) (mac : BitVec 48) (port : BitVec 16) (now : Int) : L2fdbEnt :=
  { ent with mac := mac, port := port.setWidth 32, timestamp := now, valid := true }

def l2fdbUninstall (ent : L2fdbEnt) : L2fdbEnt × List FdbFlow :=
  ({ ent with installed := false }, [.del ent.mac])

def l2fdbInstall (ent : L2fdbEnt) : L2fdbEnt × List FdbFlow :=
  let (ent, out) := l2fdbUninstall ent
  ({ ent with installed := true }, out ++ [.add ent.mac ent.port])

/-- The port parameter is a `uint16_t` here too. -/
def l2fdbEvict (ent : L2fdbEnt) (mac : BitVec 48) (port : BitVec 16) (now : Int) :
    L2fdbEnt × List FdbFlow :=
  let (ent, out) := if ent.installed then l2fdbUninstall ent else (ent, [])
  (l2fdbEntInit ent mac port now, out)

/-- How the loop of `c_l2fdb_learn` over a chain ends: at the entry of the MAC,
or with the first empty entry and the first entry that may be evicted. -/
inductive LearnScan where
  | hit (slot : Slot) (ent : L2fdbEnt)
  | miss (empEnt evictEnt : Option (Slot × L2fdbEnt))

/-- The clock is read at every valid entry of another MAC until one is expired. -/
def learnScan (mac : BitVec 48) (clock : Slot → Int) :
    List (Slot × L2fdbEnt) → Option (Slot × L2fdbEnt) → Option (Slot × L2fdbEnt) → LearnScan
  | [], empEnt, evictEnt => .miss empEnt evictEnt
  | (slot, ent) :: rest, empEnt, evictEnt =>
    if !ent.valid then
      learnScan mac clock rest (empEnt.or (some (slot, ent))) evictEnt
    else if ent.mac = mac then
      .hit slot ent
    else if evictEnt.isNone ∧ clock slot > ent.timestamp + cFdbHtimeo + 10 then
      learnScan mac clock rest empEnt (some (slot, ent))
    else
      learnScan mac clock rest empEnt evictEnt

/-- `clock` gives the readings of the eviction check, `now` the one that stamps
the entry. -/
def l2fdbLearn (fdb : Fdb) (mac : BitVec 48) (port : BitVec 32) (clock : Slot → Int) (now : Int) :
    Fdb :=
  let key := l2fdbKey mac
  let chain := fdb.appFlowTbl key
  match learnScan mac clock chain.walk none none with
  | .hit slot ent =>
    let (ent, out) :=
      if ent.port ≠ port then l2fdbInstall { ent with port := port } else (ent, [])
    fdb.putChain key (chain.setSlot slot { ent with timestamp := now }) out
  | .miss (some (slot, ent)) _ =>
    fdb.putChain key (chain.setSlot slot (l2fdbEntInit ent mac (port.setWidth 16) now)) []
  | .miss none none =>
    -- A bucket from `calloc` is linked at the end and its first entry is used.
    let newBkt := (Vector.replicate cFdbEntPerBkt {}).setIfInBounds 0
      (l2fdbEntInit {} mac (port.setWidth 16) now)
    fdb.putChain key (chain ++ [newBkt]) []
  | .miss none (some (slot, ent)) =>
    let (ent, out) := l2fdbEvict ent mac (port.setWidth 16) now
    fdb.putChain key (chain.setSlot slot ent) out

/-- The entry found is refreshed and returned. -/
def l2fdbLookup (fdb : Fdb) (mac : BitVec 48) (now : Int) : Fdb × Option L2fdbEnt :=
  let key := l2fdbKey mac
  let chain := fdb.appFlowTbl key
  match chain.walk.find? (fun entry => entry.2.valid && entry.2.mac == mac) with
  | some (slot, ent) =>
    let ent := { ent with timestamp := now }
    (fdb.putChain key (chain.setSlot slot ent) [], some ent)
  | none => (fdb, none)

/-- The two words of a switch port that aging reads. -/
structure SwPortState where
  state : BitVec 32
  config : BitVec 32
deriving DecidableEq, Repr

/-- One call of `c_l2fdb_aging`, with the ports that are found. -/
structure Sweep where
  currTime : Int
  port : BitVec 32
  checkPort : Bool
  portFind : BitVec 32 → Option SwPortState

namespace Sweep

def onDownPort (sweep : Sweep) (ent : L2fdbEnt) : Bool :=
  match sweep.portFind ent.port with
  | some swPort => swPort.state &&& cMlpsDown != 0 || swPort.config &&& cMlpcDown != 0
  | none => false

def invalid (sweep : Sweep) (ent : L2fdbEnt) : Bool :=
  sweep.onDownPort ent || sweep.checkPort && ent.port == sweep.port

def agesOut (sweep : Sweep) (ent : L2fdbEnt) : Bool :=
  decide (sweep.currTime > ent.timestamp + cFdbHtimeo + 2) || sweep.invalid ent

end Sweep

/-- `find_new_entry`: the first invalid entry from an index on, through the
buckets that follow. -/
def findNewEntry : L2fdbChain → (newBkt newEntIdx : Nat) → Option Slot
  | [], _, _ => none
  | bkt :: next, newBkt, newEntIdx =>
    match (bkt.toList.zipIdx.drop newEntIdx).find? (fun (ent, _) => !ent.valid) with
    | some (_, idx) => some ⟨newBkt, idx⟩
    | none => findNewEntry next (newBkt + 1) 0

/-- Variables of the walk over one chain; a bucket is its number. -/
structure Aging where
  chain : L2fdbChain
  dstEnt : Option Slot := none
  dstBkt : Option Nat := none
  dstEntIdx : Int
  emptyBkt : Bool := true
  sent : List FdbFlow

namespace Aging

/-- The entry is aged out; its slot becomes the free one if there is none. -/
def ageOut (st : Aging) (sweep : Sweep) (slot : Slot) (ent : L2fdbEnt) : Aging :=
  let dead := { ent with valid := false }
  let (dead, out) := if sweep.invalid ent then l2fdbUninstall dead else (dead, [])
  let st := { st with chain := st.chain.setSlot slot dead, sent := st.sent ++ out }
  match st.dstEnt with
  | none => { st with dstEnt := some slot, dstBkt := some slot.bkt, dstEntIdx := slot.idx }
  | some _ => st

/-- The entry survives; it moves to the free slot if there is one. -/
def keep (st : Aging) (slot : Slot) (ent : L2fdbEnt) : Aging :=
  match st.dstEnt with
  | none => { st with emptyBkt := false }
  | some dst =>
    let chain := (st.chain.setSlot dst ent).setSlot slot { ent with valid := false }
    let found := st.dstBkt.bind fun newBkt =>
      findNewEntry (chain.drop newBkt) newBkt (st.dstEntIdx + 1).toNat
    { st with
      chain := chain
      emptyBkt := decide (st.dstBkt ≠ some slot.bkt)
      dstEnt := found
      dstBkt := found.map Slot.bkt
      dstEntIdx := (found.map fun dst => (dst.idx : Int)).getD st.dstEntIdx }

/-- The inner loop, with the number of entries left; it breaks at an invalid one. -/
def ageEnts (sweep : Sweep) (bkt : Nat) : (left entIdx : Nat) → Aging → Aging
  | 0, _, st => st
  | left + 1, entIdx, st =>
    match st.chain.slotAt ⟨bkt, entIdx⟩ with
    | none => st
    | some ent =>
      if ent.valid then
        ageEnts sweep bkt left (entIdx + 1)
          (if sweep.agesOut ent then st.ageOut sweep ⟨bkt, entIdx⟩ ent
          else st.keep ⟨bkt, entIdx⟩ ent)
      else
        st

/-- An empty bucket is unlinked; a free slot in it is forgotten. -/
def freeBkt (st : Aging) (bkt : Nat) : Aging :=
  let next := if bkt + 1 < st.chain.length then some bkt else none
  let st := if st.dstEntIdx = 0 ∧ st.dstBkt = some bkt then
    { st with dstEnt := none, dstBkt := next, dstEntIdx := -1 } else st
  { st with chain := st.chain.eraseIdx bkt }

/-- The walk over the buckets, with a bound on how many are left. Unlinking goes
back to the previous bucket, so the next one then has the same number. -/
def ageBkts (sweep : Sweep) : (left bkt : Nat) → (prevBkt : Option Nat) → Aging → Aging
  | 0, _, _, st => st
  | left + 1, bkt, prevBkt, st =>
    if bkt < st.chain.length then
      let st := ageEnts sweep bkt cFdbEntPerBkt 0 { st with emptyBkt := true }
      if prevBkt.isSome ∧ st.emptyBkt then
        ageBkts sweep left bkt prevBkt (st.freeBkt bkt)
      else
        ageBkts sweep left (bkt + 1) (some bkt) st
    else
      st

end Aging

/-- One chain of the table; `dst_ent_idx` is the only variable not reset. -/
def ageChain (sweep : Sweep) (before : Fdb × Int) (key : Nat) : Fdb × Int :=
  let chain := before.1.appFlowTbl key
  let st := Aging.ageBkts sweep chain.length 0 none
    { chain := chain, dstEntIdx := before.2, sent := [] }
  (before.1.putChain key st.chain st.sent, st.dstEntIdx)

def l2fdbAging (fdb : Fdb) (sweep : Sweep) : Fdb :=
  ((List.range cL2fdbSz).foldl (ageChain sweep) (fdb, -1)).1

/-- Calls that change the table of a switch. -/
inductive FdbOp where
  | learn (mac : BitVec 48) (port : BitVec 32) (clock : Slot → Int) (now : Int)
  | lookup (mac : BitVec 48) (now : Int)
  | aging (sweep : Sweep)

def FdbOp.exec (fdb : Fdb) : FdbOp → Fdb
  | .learn mac port clock now => l2fdbLearn fdb mac port clock now
  | .lookup mac now => (l2fdbLookup fdb mac now).1
  | .aging sweep => l2fdbAging fdb sweep

def fdbMachine : Machine Fdb FdbOp where
  start fdb := fdb = l2fdbInit
  admits _ _ := True
  exec := FdbOp.exec

end OpenMul
