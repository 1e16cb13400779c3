import Mathlib.Data.BitVec
import Mathlib.Logic.Function.Basic
import OpenMul.Lib.Machine

namespace OpenMul

open Lib

/-- `ipool_arr_t`. -/
structure IpoolArr (Ptr : Type) where
  nextIdx : Int
  priv : Option Ptr := none

/-- `ipool_hdl_t`; `idxArr` is the memory around the array. -/
structure Ipool (Ptr : Type) where
  startIdx : Int
  nextIdx : Int
  maxIdx : Int
  idxArr : Int → IpoolArr Ptr

namespace Ipool

variable {Ptr : Type} (pool : Ipool Ptr)

/-- `ipool_get`. -/
def get (priv : Option Ptr) : Ipool Ptr × Int :=
  if pool.nextIdx = -1 then (pool, -1)
  else
    ({ pool with
        nextIdx := (pool.idxArr pool.nextIdx).nextIdx
        idxArr := Function.update pool.idxArr pool.nextIdx { pool.idxArr pool.nextIdx with priv } },
      pool.nextIdx + pool.startIdx)

/-- `ipool_put`. -/
def put (retIdx : Int) : Ipool Ptr × Int :=
  if retIdx < 0 ∨ retIdx > pool.maxIdx then (pool, -1)
  else
    ({ pool with
        nextIdx := retIdx - pool.startIdx
        idxArr :=
          Function.update pool.idxArr (retIdx - pool.startIdx) { nextIdx := pool.nextIdx } }, 0)

/-- `ipool_idx_priv`. -/
def idxPriv (idx : Int) : Option Ptr := if idx > pool.maxIdx then none else (pool.idxArr idx).priv

/-- `ipool_create`. The last index is computed as a `size_t` and kept as an `int`. -/
def create (mem : Int → IpoolArr Ptr) (sz : Nat) (startIdx : BitVec 32) : Option (Ipool Ptr) :=
  if sz > 2 ^ 31 - 1 then none
  else some {
    startIdx := startIdx.toInt
    nextIdx := 0
    maxIdx := (BitVec.ofNat 32 (startIdx.toNat + sz - 1)).toInt
    idxArr := fun idx =>
      if 0 ≤ idx ∧ idx < sz then { nextIdx := if idx + 1 = sz then -1 else idx + 1 } else mem idx }

end Ipool

/-- A pool, and the pointers given for the indices that are handed out. -/
structure PoolRun (Ptr : Type) where
  pool : Ipool Ptr
  handed : Int → Option (Option Ptr) := fun _ => none

inductive PoolCall (Ptr : Type) where
  | get (priv : Option Ptr)
  | put (retIdx : Int)

def PoolRun.exec (run : PoolRun Ptr) : PoolCall Ptr → PoolRun Ptr
  | .get priv =>
    let (pool, ret) := run.pool.get priv
    { pool, handed := if ret = -1 then run.handed else Function.update run.handed ret (some priv) }
  | .put idx =>
    let (pool, ret) := run.pool.put idx
    { pool, handed := if ret = -1 then run.handed else Function.update run.handed idx none }

theorem toInt_last {first sz : Nat} (some : 0 < sz) (fits : first + sz ≤ 2 ^ 31) :
    (BitVec.ofNat 32 (first + sz - 1)).toInt = first + sz - 1 := by
  rw [BitVec.toInt_eq_toNat_of_lt] <;> rw [BitVec.toNat_ofNat] <;> omega

section Runs

variable {Ptr : Type} (mem : Int → IpoolArr Ptr) (sz first : Nat) (start : BitVec 32)

def InRange (idx : Int) : Prop := first ≤ idx ∧ idx < first + sz

/-- The calls on a pool. An index in range is only put while it is handed out. -/
def poolRuns : Machine (PoolRun Ptr) (PoolCall Ptr) where
  start run := Ipool.create mem sz start = some run.pool ∧ run.handed = fun _ => none
  admits run
    | .get _ => True
    | .put idx => InRange sz start.toNat idx → run.handed idx ≠ none
  exec := PoolRun.exec

/-- What the users of a pool rely on. Pointers are not asked for negative indices. -/
structure PoolRun.Reliable (run : PoolRun Ptr) : Prop where
  inRange : ∀ idx, run.handed idx ≠ none → InRange sz first idx
  answers : ∀ priv, if (run.pool.get priv).2 = -1 then ∀ idx, InRange sz first idx →
    run.handed idx ≠ none
    else InRange sz first (run.pool.get priv).2 ∧ run.handed (run.pool.get priv).2 = none
  refused : ∀ idx, ¬InRange sz first idx → run.pool.put idx = (run.pool, -1)
  priv : ∀ idx ≥ 0, run.pool.idxPriv idx = (run.handed idx).getD none

variable {mem sz} {free : List Int}

@[simp] theorem inRange_zero : InRange sz 0 idx ↔ 0 ≤ idx ∧ idx < sz := by simp [InRange]

/-- The free list has the indices in range that are not handed out. -/
structure PoolRun.Sound (sz : Nat) (run : PoolRun Ptr) (free : List Int) : Prop where
  start : run.pool.startIdx = 0
  last : run.pool.maxIdx = sz - 1
  next : run.pool.nextIdx = free.getD 0 (-1)
  links : ∀ pos idx, free[pos]? = some idx →
    (run.pool.idxArr idx).nextIdx = free.getD (pos + 1) (-1)
  once : free.Nodup
  kept : ∀ idx, (idx ∈ free ↔ InRange sz 0 idx ∧ run.handed idx = none) ∧
    (run.handed idx ≠ none → InRange sz 0 idx) ∧
    (InRange sz 0 idx → (run.pool.idxArr idx).priv = (run.handed idx).getD none)

theorem PoolRun.Sound.of_start (some : 0 < sz) (initial : (poolRuns mem sz 0).start run) :
    run.Sound sz ((List.range sz).map Nat.cast) := by
  obtain ⟨pool, handed⟩ := run
  obtain ⟨made, rfl⟩ := initial
  unfold Ipool.create at made
  split at made <;> cases made
  refine ⟨rfl, ?_, ?_, ?_, List.Nodup.map Nat.cast_injective List.nodup_range,
    fun idx => ⟨?_, absurd rfl, ?_⟩⟩
  · simpa using @toInt_last 0 sz some (by omega)
  · simp [some]
  · intro pos idx found
    obtain ⟨below, rfl⟩ : pos < sz ∧ (pos : Int) = idx := by
      simpa [List.getElem?_eq_some_iff] using found
    by_cases end_ : pos + 1 < sz <;> simp [below, end_] <;> omega
  · simp only [inRange_zero, List.mem_map, List.mem_range, and_true]
    exact ⟨fun ⟨ofs, inside, same⟩ => by omega, fun inside => ⟨idx.toNat, by omega, by omega⟩⟩
  · intro inside
    exact congrArg IpoolArr.priv (if_pos (inRange_zero.mp inside))

variable {run : PoolRun Ptr} (sound : run.Sound sz free)
include sound

/-- The first free index is handed out, if there is one. -/
theorem PoolRun.Sound.get (priv : Option Ptr) : (free = [] ∧ run.pool.get priv = (run.pool, -1)) ∨
      ∃ idx rest, free = idx :: rest ∧ 0 ≤ idx ∧ (run.pool.get priv).2 = idx ∧
        (run.exec (.get priv)).Sound sz rest := by
  cases free with
  | nil => exact .inl ⟨rfl, if_pos sound.next⟩
  | cons idx rest =>
    have next : run.pool.nextIdx = idx := sound.next
    obtain ⟨apart, once⟩ := List.nodup_cons.mp sound.once
    have inside := ((sound.kept idx).1.mp List.mem_cons_self).1
    rw [inRange_zero] at inside
    have some : idx ≠ -1 := by omega
    refine .inr ⟨idx, rest, rfl, inside.1, by simp [Ipool.get, next, some, sound.start], ?_⟩
    simp only [PoolRun.exec, Ipool.get, next, if_neg some, sound.start, Int.add_zero]
    refine ⟨rfl, sound.last, sound.links 0 idx rfl, fun pos other found => ?_, once,
      fun other => ?_⟩
    · have here : other ≠ idx := fun same => apart (same ▸ List.mem_of_getElem? found)
      simpa [here] using sound.links (pos + 1) other found
    · by_cases here : other = idx
      · simp [here, apart, inside]
      · simpa [here] using sound.kept other

theorem PoolRun.Sound.put_outside (outside : ¬InRange sz 0 idx) :
    run.pool.put idx = (run.pool, -1) := by
  apply if_pos
  rw [sound.last]
  rw [inRange_zero] at outside
  omega

/-- An index that is put is the next one to be handed out. -/
theorem PoolRun.Sound.put (inside : InRange sz 0 idx) (handed : run.handed idx ≠ none) :
    (run.exec (.put idx)).Sound sz (idx :: free) := by
  have apart : idx ∉ free := fun member => handed ((sound.kept idx).1.mp member).2
  rw [inRange_zero] at inside
  have accepted : ¬(idx < 0 ∨ idx > run.pool.maxIdx) := by
    rw [sound.last]
    omega
  simp only [PoolRun.exec, Ipool.put, if_neg accepted, sound.start, Int.sub_zero,
    if_neg (show (0 : Int) ≠ -1 by decide)]
  refine ⟨rfl, sound.last, rfl, fun pos other found => ?_, List.nodup_cons.mpr ⟨apart, sound.once⟩,
    fun other => ?_⟩
  · cases pos with
    | zero =>
      obtain rfl : idx = other := by simpa using found
      simpa using sound.next
    | succ pos =>
      have here : other ≠ idx := fun same => apart (same ▸ List.mem_of_getElem? found)
      simpa [here] using sound.links pos other found
  · by_cases here : other = idx
    · simp [here, inside]
    · simpa [here] using sound.kept other

theorem PoolRun.Sound.reliable : run.Reliable sz 0 := by
  refine ⟨fun idx => (sound.kept idx).2.1, fun priv => ?_, fun idx => sound.put_outside,
    fun idx nonneg => ?_⟩
  · rcases sound.get priv with ⟨rfl, none⟩ | ⟨idx, rest, rfl, nonneg, ret, -⟩
    · rw [if_pos (congrArg Prod.snd none)]
      exact fun idx inside held => List.not_mem_nil ((sound.kept idx).1.mpr ⟨inside, held⟩)
    · rw [if_neg (by omega), ret]
      exact (sound.kept idx).1.mp List.mem_cons_self
  · obtain ⟨-, held, priv⟩ := sound.kept idx
    rw [inRange_zero] at held priv
    rw [Ipool.idxPriv, sound.last]
    split
    · cases unused : run.handed idx with
      | none => rfl
      | some given => exact absurd (held (by simp [unused])).2 (by omega)
    · exact priv (by omega)

end Runs

/-- A pool can be relied on in every run exactly if its first index is 0. -/
theorem ipool_reliable_iff {Ptr : Type} (mem : Int → IpoolArr Ptr) (some : 0 < sz)
    (start : BitVec 32) (fits : start.toNat + sz ≤ 2 ^ 31) :
    (∀ run, (poolRuns mem sz start).Reaches run → run.Reliable sz start.toNat) ↔ start = 0 := by
  constructor
  · intro reliable
    by_contra first
    have above : 0 < start.toNat := Nat.pos_of_ne_zero fun zero =>
      first (BitVec.eq_of_toNat_eq zero)
    obtain ⟨pool, made⟩ : ∃ pool, Ipool.create mem sz start = .some pool := ⟨_, if_neg (by omega)⟩
    have refused := (reliable { pool } (.start ⟨made, rfl⟩)).refused 0 (by simp [InRange]; omega)
    have last : pool.maxIdx = start.toNat + sz - 1 := by
      rw [Ipool.create, if_neg (by omega)] at made
      cases made
      exact toInt_last some fits
    rw [Ipool.put, if_neg (show ¬(_ ∨ 0 > pool.maxIdx) by omega)] at refused
    cases congrArg Prod.snd refused
  · rintro rfl run reached
    suffices sound : ∃ free, run.Sound sz free from sound.choose_spec.reliable
    induction reached with
    | start initial => exact ⟨_, .of_start some initial⟩
    | @step run call _ admitted ih =>
      obtain ⟨free, sound⟩ := ih
      cases call with
      | get priv =>
        rcases sound.get priv with ⟨rfl, none⟩ | ⟨idx, rest, -, -, -, later⟩
        · exact ⟨[], by simpa [poolRuns, PoolRun.exec, none] using sound⟩
        · exact ⟨rest, later⟩
      | put idx =>
        by_cases inside : InRange sz 0 idx
        · exact ⟨_, sound.put inside (admitted inside)⟩
        · exact ⟨free, by simpa [poolRuns, PoolRun.exec, sound.put_outside inside] using sound⟩

theorem ipool_reliable_two : 0 + 2 ≤ 2 ^ 31 ∧
    ∀ run, (poolRuns (fun _ => ⟨0, some 9⟩) 2 0).Reaches run → run.Reliable 2 0 :=
  ⟨by decide, (ipool_reliable_iff _ (by decide) 0 (by decide)).mpr rfl⟩

/-- A pool from 5 on takes index 0 and does not find the pointer of index 5. A negative index is
looked for
before the array. -/
theorem ipool_first_index_missed :
    (∃ pool : Ipool Nat, Ipool.create (fun _ => ⟨0, some 9⟩) 1 5 = some pool ∧ (pool.put 0).2 = 0 ∧
      (pool.get (some 7)).2 = 5 ∧ (pool.get (some 7)).1.idxPriv 5 = some 9) ∧
    ∃ pool : Ipool Nat, Ipool.create (fun _ => ⟨0, some 9⟩) 1 0 = some pool ∧
      pool.idxPriv (-1) = some 9 :=
  ⟨⟨_, rfl, by decide, by decide, by decide⟩, ⟨_, rfl, by decide⟩⟩

end OpenMul
