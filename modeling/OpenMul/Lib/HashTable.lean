import Mathlib.Logic.Function.Basic
import Mathlib.Data.List.Basic

namespace OpenMul.Lib

universe u v w

variable {Key : Type u} {Query : Type v} {Value : Type w}

theorem find?_unique {list : List Value} (member : value ∈ list) (passes : test value = true)
    (only : ∀ other ∈ list, test other = true → other = value) : list.find? test = some value := by
  cases found : list.find? test with
  | none => exact absurd passes (List.find?_eq_none.mp found value member)
  | some other =>
    rw [only other (List.mem_of_find?_eq_some found) (List.find?_some found)]

theorem perm_cons_eraseP {list : List Value} (member : value ∈ list) (passes : test value = true)
    (only : ∀ other ∈ list, test other = true → other = value) :
    list.Perm (value :: list.eraseP test) := by
  obtain ⟨found, before, after, -, equal, split, removed⟩ := List.exists_of_eraseP member passes
  have here : found = value := only found (by simp [split]) equal
  rw [removed, split, here]
  exact List.perm_middle

namespace HashTable

variable (same : Key → Query → Bool)

def lookup (table : List (Key × Value)) (query : Query) : Option Value :=
  (table.find? fun node => same node.1 query).map Prod.snd

/-- A key that is already there stays and gets the new value. A new node goes
to some place in the order of search. -/
def insert (table : List (Key × Value)) (slot : Nat) (key : Key) (query : Query) (value : Value) :
    List (Key × Value) :=
  match table.findIdx? fun node => same node.1 query with
  | some index => table.modify index fun node => (node.1, value)
  | none => table.take slot ++ (key, value) :: table.drop slot

def remove (table : List (Key × Value)) (query : Query) : List (Key × Value) :=
  table.eraseP fun node => same node.1 query

variable {same} {table : List (Key × Value)} {query : Query} {node : Key × Value}

theorem lookup_unique (member : node ∈ table) (passes : same node.1 query = true)
    (only : ∀ other ∈ table, same other.1 query = true → other = node) :
    lookup same table query = some node.2 := by
  rw [lookup, find?_unique member passes only]
  rfl

theorem insert_fresh (fresh : ∀ other ∈ table, same other.1 query = false) (slot : Nat) (key : Key)
    (value : Value) : (insert same table slot key query value).Perm ((key, value) :: table) := by
  have absent : table.findIdx? (fun node => same node.1 query) = none :=
    List.findIdx?_eq_none_iff.mpr fresh
  rw [insert, absent]
  refine List.perm_middle.trans ?_
  rw [List.take_append_drop]

theorem remove_unique (member : node ∈ table) (passes : same node.1 query = true)
    (only : ∀ other ∈ table, same other.1 query = true → other = node) :
    table.Perm (node :: remove same table query) :=
  perm_cons_eraseP member passes only

end HashTable

section PartialMap

variable [DecidableEq Key] {map : Key → Option Value}

theorem update_some_iff : Function.update map key (some new) other = some value ↔
    other = key ∧ new = value ∨ other ≠ key ∧ map other = some value := by
  by_cases here : other = key <;> simp [here]

theorem update_none_iff :
    Function.update map key none other = some value ↔ other ≠ key ∧ map other = some value := by
  by_cases here : other = key <;> simp [here]

end PartialMap

end OpenMul.Lib
