import Mathlib.Algebra.Order.Ring.Int
import Mathlib.Data.List.Count
import Mathlib.Tactic.Ring

namespace OpenMul.Lib

open List

universe u v

/-- A counted heap object: its address, the key it is stored under and the
number of references it believes to have. -/
structure Counted (Key : Type u) (Body : Type v) where
  ptr : Nat
  key : Key
  ref : Int
  body : Body
  deriving DecidableEq, Repr

namespace RefTable

variable {Key : Type u} {Body : Type v} [DecidableEq Key]

def lookup (table : List (Counted Key Body)) (key : Key) : Option (Counted Key Body) :=
  table.find? fun object => object.key == key

/-- Add to the count of the object at one address. An address that is not in
the table is memory the table no longer owns; nothing in the table changes. -/
def adjust (table : List (Counted Key Body)) (ptr : Nat) (amount : Int) : List (Counted Key Body) :=
  table.map fun object =>
    if object.ptr = ptr then { object with ref := object.ref + amount } else object

/-- Drop one reference for each address held. -/
def release (table : List (Counted Key Body)) (held : List Nat) : List (Counted Key Body) :=
  held.foldl (fun current ptr => adjust current ptr (-1)) table

/-- Take one reference for each key in turn. The first key without an object
gives back everything held so far. -/
def associate (table : List (Counted Key Body)) (held : List Nat) :
    List Key → List (Counted Key Body) × List Nat × Bool
  | [] => (table, held, true)
  | key :: rest =>
    match lookup table key with
    | none => (release table held, [], false)
    | some object => associate (adjust table object.ptr 1) (held ++ [object.ptr]) rest

/-- Change every count by an amount that depends on the address alone. -/
def shift (table : List (Counted Key Body)) (amount : Nat → Int) : List (Counted Key Body) :=
  table.map fun object => { object with ref := object.ref + amount object.ptr }

/-- The addresses that a list of keys stands for, if all have an object. -/
def resolve (table : List (Counted Key Body)) (keys : List Key) : Option (List Nat) :=
  keys.mapM fun key => (lookup table key).map Counted.ptr

omit [DecidableEq Key] in
theorem shift_shift (table : List (Counted Key Body)) (first second : Nat → Int) :
    shift (shift table first) second = shift table (fun ptr => first ptr + second ptr) := by
  simp only [shift, map_map]
  congr 1
  funext object
  simp [Int.add_assoc]

omit [DecidableEq Key] in
theorem shift_zero (table : List (Counted Key Body)) (amount : Nat → Int)
    (zero : ∀ ptr, amount ptr = 0) : shift table amount = table := by
  simp [shift, zero]

omit [DecidableEq Key] in
theorem adjust_eq_shift (table : List (Counted Key Body)) (ptr : Nat) (amount : Int) :
    adjust table ptr amount = shift table (fun other => if other = ptr then amount else 0) := by
  unfold adjust shift
  congr 1
  funext object
  by_cases same : object.ptr = ptr <;> simp [same]

omit [DecidableEq Key] in
theorem release_eq_shift (table : List (Counted Key Body)) (held : List Nat) :
    release table held = shift table (fun ptr => -(held.count ptr : Int)) := by
  unfold release
  induction held generalizing table with
  | nil => simp [shift_zero]
  | cons ptr rest ih =>
    rw [foldl_cons, ih, adjust_eq_shift, shift_shift]
    congr 1
    funext other
    by_cases same : other = ptr
    · simp [same]
    · simp [same, count_cons_of_ne (Ne.symm same)]

theorem lookup_shift (table : List (Counted Key Body)) (amount : Nat → Int) (key : Key) :
    lookup (shift table amount) key =
      (lookup table key).map fun object =>
        { object with ref := object.ref + amount object.ptr } := by
  simp only [lookup, shift, find?_map]
  rfl

theorem resolve_shift (table : List (Counted Key Body)) (amount : Nat → Int) (keys : List Key) :
    resolve (shift table amount) keys = resolve table keys := by
  simp [resolve, lookup_shift, Function.comp_def]

theorem associate_eq (table : List (Counted Key Body)) (held : List Nat) (keys : List Key) :
    associate table held keys =
      match resolve table keys with
      | some taken => (shift table (fun ptr => (taken.count ptr : Int)), held ++ taken, true)
      | none => (shift table (fun ptr => -(held.count ptr : Int)), [], false) := by
  induction keys generalizing table held with
  | nil => simp [associate, resolve, shift_zero]
  | cons key rest ih =>
    cases found : lookup table key with
    | none => simp [associate, resolve, found, release_eq_shift]
    | some object =>
      simp only [associate, found]
      rw [ih, adjust_eq_shift, resolve_shift]
      simp only [resolve, mapM_cons, found, Option.map_some]
      cases taken : rest.mapM fun key => (lookup table key).map Counted.ptr with
      | none =>
        simp only [shift_shift, Option.pure_def, Option.bind_eq_bind, Option.bind_some,
          Option.bind_none]
        congr 2
        funext ptr
        by_cases same : ptr = object.ptr
        · simp [same]
        · simp [same, count_append, count_cons_of_ne (Ne.symm same)]
      | some addresses =>
        simp only [shift_shift, Option.pure_def, Option.bind_eq_bind, Option.bind_some,
          append_assoc, cons_append, nil_append]
        congr 2
        funext ptr
        by_cases same : ptr = object.ptr
        · simp [same, Int.add_comm]
        · simp [same, count_cons_of_ne (Ne.symm same)]

theorem mem_of_lookup {object : Counted Key Body}
    (found : lookup table key = some object) : object ∈ table :=
  mem_of_find?_eq_some found

theorem key_of_lookup {object : Counted Key Body} (found : lookup table key = some object) :
    object.key = key := by
  simpa using find?_some found

/-- Everything a resolved key list names is the address of a stored object. -/
theorem mem_of_resolve {table : List (Counted Key Body)} {keys : List Key} {taken : List Nat}
    (resolved : resolve table keys = some taken) {ptr : Nat} (member : ptr ∈ taken) :
    ∃ object ∈ table, object.ptr = ptr := by
  induction keys generalizing taken with
  | nil =>
    simp [resolve] at resolved
    simp [resolved] at member
  | cons key rest ih =>
    cases found : lookup table key with
    | none => simp [resolve, found] at resolved
    | some object =>
      cases tail : resolve table rest with
      | none => simp [resolve] at tail; simp [resolve, found, tail] at resolved
      | some addresses =>
        have split : taken = object.ptr :: addresses := by
          unfold resolve at tail
          simpa [resolve, found, tail] using resolved.symm
        subst taken
        rcases mem_cons.mp member with head | later
        · exact ⟨object, mem_of_lookup found, head.symm⟩
        · exact ih tail later

/-- Stored objects are distinct, and each count stands in a relation to what is held. -/
structure Tracked (rel : Int → Int → Prop) (table : List (Counted Key Body)) (held : List Nat) :
    Prop where
  distinct : (table.map Counted.ptr).Nodup
  keys : (table.map Counted.key).Nodup
  live : ∀ ptr ∈ held, ∃ object ∈ table, object.ptr = ptr
  counts : ∀ object ∈ table, rel object.ref (held.count object.ptr)

namespace Tracked

variable {rel : Int → Int → Prop} {table : List (Counted Key Body)} {held : List Nat}

omit [DecidableEq Key] in
theorem nil : Tracked rel ([] : List (Counted Key Body)) [] :=
  ⟨by simp, by simp, by simp, by simp⟩

omit [DecidableEq Key] in
/-- Counts and holders move together. -/
theorem shift (tracked : Tracked rel table held)
    (translates : ∀ ref count amount, rel ref count → rel (ref + amount) (count + amount))
    {next : List Nat} (moved : ∀ ptr, (next.count ptr : Int) = held.count ptr + amount ptr)
    (live : ∀ ptr ∈ next, ∃ object ∈ table, object.ptr = ptr) :
    Tracked rel (RefTable.shift table amount) next := by
  refine ⟨?_, ?_, ?_, ?_⟩
  · simpa [RefTable.shift, Function.comp_def] using tracked.distinct
  · simpa [RefTable.shift, Function.comp_def] using tracked.keys
  · intro ptr member
    obtain ⟨object, stored, address⟩ := live ptr member
    exact ⟨_, mem_map_of_mem stored, address⟩
  · intro object member
    obtain ⟨old, stored, rfl⟩ := mem_map.mp member
    rw [moved]
    exact translates _ _ _ (tracked.counts old stored)

omit [DecidableEq Key] in
/-- Any change of the objects that keeps addresses, keys and counts. -/
theorem map (tracked : Tracked rel table held) {change : Counted Key Body → Counted Key Body}
    (address : ∀ object, (change object).ptr = object.ptr)
    (key : ∀ object, (change object).key = object.key)
    (count : ∀ object, (change object).ref = object.ref) : Tracked rel (table.map change) held := by
  refine ⟨?_, ?_, ?_, ?_⟩
  · simpa [Function.comp_def, address] using tracked.distinct
  · simpa [Function.comp_def, key] using tracked.keys
  · intro ptr member
    obtain ⟨object, stored, same⟩ := tracked.live ptr member
    exact ⟨_, mem_map_of_mem stored, (address object).trans same⟩
  · intro object member
    obtain ⟨old, stored, rfl⟩ := mem_map.mp member
    rw [address, count]
    exact tracked.counts old stored

/-- A new object is at an address nobody holds, since what is held is stored. -/
theorem cons (tracked : Tracked rel table held) {object : Counted Key Body}
    (fresh : ∀ other ∈ table, other.ptr ≠ object.ptr) (absent : lookup table object.key = none)
    (start : rel object.ref 0) : Tracked rel (object :: table) held := by
  have unheld : object.ptr ∉ held := by
    intro member
    obtain ⟨other, stored, same⟩ := tracked.live _ member
    exact fresh other stored same
  refine ⟨?_, ?_, ?_, ?_⟩
  · refine nodup_cons.mpr ⟨?_, tracked.distinct⟩
    intro member
    obtain ⟨other, stored, same⟩ := mem_map.mp member
    exact fresh other stored same
  · refine nodup_cons.mpr ⟨?_, tracked.keys⟩
    intro member
    obtain ⟨other, stored, same⟩ := mem_map.mp member
    have different := find?_eq_none.mp absent other stored
    simp [same] at different
  · intro ptr member
    obtain ⟨other, stored, same⟩ := tracked.live ptr member
    exact ⟨other, mem_cons_of_mem _ stored, same⟩
  · intro other member
    rcases mem_cons.mp member with rfl | stored
    · simpa [count_eq_zero_of_not_mem unheld] using start
    · exact tracked.counts other stored

omit [DecidableEq Key] in
/-- Objects that nobody holds can go. -/
theorem filter (tracked : Tracked rel table held)
    (unheld : ∀ object ∈ table, keeps object = false → object.ptr ∉ held) :
    Tracked rel (table.filter keeps) held := by
  refine ⟨tracked.distinct.sublist (filter_sublist.map _),
    tracked.keys.sublist (filter_sublist.map _), ?_, ?_⟩
  · intro ptr member
    obtain ⟨object, stored, same⟩ := tracked.live ptr member
    refine ⟨object, mem_filter.mpr ⟨stored, ?_⟩, same⟩
    by_contra gone
    exact unheld object stored (by simpa using gone) (same ▸ member)
  · intro object member
    exact tracked.counts object (mem_filter.mp member).1

omit [DecidableEq Key] in
theorem forget (tracked : Tracked rel table held) {next : List Nat}
    (kept : ∀ ptr ∈ next, ptr ∈ held)
    (weakens : ∀ object ∈ table, rel object.ref (held.count object.ptr) →
      rel object.ref (next.count object.ptr)) : Tracked rel table next :=
  ⟨tracked.distinct, tracked.keys, fun ptr member => tracked.live ptr (kept ptr member),
    fun object member => weakens object member (tracked.counts object member)⟩

omit [DecidableEq Key] in
theorem not_held_of_zero (tracked : Tracked rel table held)
    (bounds : ∀ ref count, rel ref count → count ≤ ref) {object : Counted Key Body}
    (stored : object ∈ table) (zero : object.ref = 0) : object.ptr ∉ held := by
  have bound := bounds _ _ (tracked.counts object stored)
  rw [zero] at bound
  rw [← count_eq_zero]
  omega

end Tracked

end RefTable

end OpenMul.Lib
