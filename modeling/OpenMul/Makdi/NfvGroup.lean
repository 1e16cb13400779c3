import OpenMul.Core.Flow
import OpenMul.Lib.BigEndian
import OpenMul.Lib.Machine

namespace OpenMul.Makdi

open Lib List

/-- `nfv_key_t`. -/
structure NfvKey where
  dpid : BitVec 64
  oif : BitVec 16
  iif : BitVec 16
  deriving DecidableEq

/-- `nfv_group_ent_t`; `name` is the array in its key, and `nfvs` are the keys of its table. -/
structure NfvGroupEnt where
  name : List Byte
  nfvs : List NfvKey := []

/-- The bytes of a group's key where an NFV's key is expected. -/
def asNfvKey (order : ByteOrder) (name : List Byte) : NfvKey where
  dpid := order.swap (wordAt 64 name)
  oif := order.swap (wordAt 16 (name.drop 8))
  iif := order.swap (wordAt 16 (name.drop 10))

/-- `nfv_match_any_port`. -/
def nfvMatchAnyPort (keyEnt keyMatch : NfvKey) : Bool :=
  keyEnt.dpid = keyMatch.dpid && (keyEnt.iif = keyMatch.iif || keyEnt.oif = keyMatch.oif)

/-- `check_nfv_exists_in_group`. What is looked for is the key of the table of groups, not
the one of the new NFV. -/
def checkNfvExistsInGroup (order : ByteOrder) (owner : List Byte) (group : NfvGroupEnt) : Bool :=
  group.name ≠ owner && group.nfvs.any fun key => nfvMatchAnyPort key (asNfvKey order group.name)

/-- The table of the group under a name is rewritten. -/
def modifyGroup (name : List Byte) (change : List NfvKey → List NfvKey)
    (groups : List NfvGroupEnt) : List NfvGroupEnt :=
  groups.map fun group =>
    if group.name = name then { group with nfvs := change group.nfvs } else group

section

variable (order : ByteOrder) (groups : List NfvGroupEnt) (name : List Byte) (key : NfvKey)

/-- `__nfv_add`. -/
def nfvAdd : List NfvGroupEnt × Int :=
  match groups.find? (·.name = name) with
  | none => (groups, -1)
  | some group =>
    if key ∈ group.nfvs then (groups, -1)
    else if groups.any (checkNfvExistsInGroup order name) then (groups, -1)
    else (modifyGroup name (key :: ·) groups, 0)

/-- `nfv_del`. -/
def nfvDel : List NfvGroupEnt × Int :=
  match groups.find? (·.name = name) with
  | none => (groups, 0)
  | some group =>
    if key ∈ group.nfvs then (modifyGroup name (·.erase key) groups, 0) else (groups, -1)

inductive NfvOp where
  | add (name : List Byte) (key : NfvKey)
  | del (name : List Byte) (key : NfvKey)

/-- The calls for groups that have no NFVs at first. -/
def nfvRuns : Machine (List NfvGroupEnt) NfvOp where
  start groups := ∀ group ∈ groups, group.nfvs = []
  admits _ _ := True
  exec groups
    | .add name key => (nfvAdd order groups name key).1
    | .del name key => (nfvDel groups name key).1

/-- The NFVs, with the names of their groups. -/
def held : List (List Byte × NfvKey) :=
  groups.flatMap fun group => group.nfvs.map (group.name, ·)

/-- No two groups have NFVs on one switch that share a port. -/
def Exclusive : Prop :=
  ∀ one ∈ held groups, ∀ two ∈ held groups, one.1 ≠ two.1 → nfvMatchAnyPort one.2 two.2 = false

/-- The NFVs that are taken: the group is there and does not have it, and no NFV of another
group matches the bytes of that group's name. -/
def Accepts : Prop :=
  (∃ group, groups.find? (·.name = name) = some group ∧ key ∉ group.nfvs) ∧
    ∀ other ∈ groups, other.name ≠ name →
      ∀ near ∈ other.nfvs, nfvMatchAnyPort near (asNfvKey order other.name) = false

/-- An NFV that is taken shares no port with one of another group. -/
def Apart : NfvOp → Prop
  | .add name key => Accepts order groups name key →
      ∀ one ∈ held groups, one.1 ≠ name → nfvMatchAnyPort one.2 key = false
  | .del _ _ => True

end

section

variable {groups : List NfvGroupEnt} {name : List Byte} {key : NfvKey} {one : List Byte × NfvKey}

theorem mem_held : one ∈ held groups ↔
    ∃ group ∈ groups, group.name = one.1 ∧ one.2 ∈ group.nfvs := by
  obtain ⟨named, key⟩ := one
  simp [held, and_comm]

theorem mem_held_modifyGroup (change : List NfvKey → List NfvKey) :
    one ∈ held (modifyGroup name change groups) ↔ ∃ group ∈ groups, group.name = one.1 ∧
      one.2 ∈ if group.name = name then change group.nfvs else group.nfvs := by
  simp only [mem_held, modifyGroup, mem_map, exists_exists_and_eq_and]
  refine exists_congr fun group => and_congr_right fun _ => ?_
  split <;> rfl

theorem held_nfvDel : held (nfvDel groups name key).1 ⊆ held groups := by
  unfold nfvDel
  split
  · exact Subset.refl _
  split
  · intro one
    rw [mem_held_modifyGroup, mem_held]
    rintro ⟨group, known, named, there⟩
    refine ⟨group, known, named, ?_⟩
    split at there
    · exact mem_of_mem_erase there
    · exact there
  · exact Subset.refl _

theorem nfvAdd_eq [Decidable (Accepts order groups name key)] :
    (nfvAdd order groups name key).1 =
      if Accepts order groups name key then modifyGroup name (key :: ·) groups else groups := by
  have unchecked : groups.any (checkNfvExistsInGroup order name) = false ↔
      ∀ other ∈ groups, other.name ≠ name →
        ∀ near ∈ other.nfvs, nfvMatchAnyPort near (asNfvKey order other.name) = false := by
    simp [checkNfvExistsInGroup]
  simp only [nfvAdd, Accepts, ← unchecked]
  cases groups.find? (·.name = name) with
  | none => simp
  | some group =>
    by_cases there : key ∈ group.nfvs <;>
      cases groups.any (checkNfvExistsInGroup order name) <;> simp [there]

theorem mem_held_nfvAdd (accepts : Accepts order groups name key) :
    one ∈ held (nfvAdd order groups name key).1 ↔ one ∈ held groups ∨ one = (name, key) := by
  classical
  rw [nfvAdd_eq, if_pos accepts, mem_held_modifyGroup, mem_held]
  obtain ⟨⟨owner, found, -⟩, -⟩ := accepts
  constructor
  · rintro ⟨group, known, named, there⟩
    split at there
    · rename_i here
      rcases mem_cons.mp there with new | old
      · exact .inr (Prod.ext (named.symm.trans here) new)
      · exact .inl ⟨group, known, named, old⟩
    · exact .inl ⟨group, known, named, there⟩
  · rintro (⟨group, known, named, old⟩ | rfl)
    · refine ⟨group, known, named, ?_⟩
      split
      · exact mem_cons_of_mem _ old
      · exact old
    · have named : owner.name = name := by simpa using find?_some found
      exact ⟨owner, mem_of_find?_eq_some found, named, by simp [named]⟩

/-- Groups stay apart exactly as long as the NFVs that are taken do. -/
theorem Exclusive.step_iff (exclusive : Exclusive groups) (order : ByteOrder) (op : NfvOp) :
    Exclusive ((nfvRuns order).exec groups op) ↔ Apart order groups op := by
  cases op with
  | del name key =>
    refine iff_of_true ?_ trivial
    exact fun one first two second => exclusive one (held_nfvDel first) two (held_nfvDel second)
  | add name key =>
    by_cases accepts : Accepts order groups name key
    · simp only [Exclusive, nfvRuns, mem_held_nfvAdd accepts, Apart, accepts, true_imp_iff]
      constructor
      · exact fun after one member => after one (.inl member) (name, key) (.inr rfl)
      · rintro apart one (first | rfl) two (second | rfl) different
        · exact exclusive one first two second different
        · exact apart one first different
        · have missed := apart two second different.symm
          simpa only [nfvMatchAnyPort, eq_comm] using missed
        · exact absurd rfl different
    · refine iff_of_true ?_ fun accepted => absurd accepted accepts
      classical
      simpa [nfvRuns, nfvAdd_eq, accepts] using exclusive

end

/-- Without an NFV that is taken beside another of its port, no port is shared; with one, it is. -/
theorem nfv_exclusive_iff (reached : ((nfvRuns order).restrict (Apart order)).Reaches groups)
    (op : NfvOp) :
    Exclusive groups ∧ (Exclusive ((nfvRuns order).exec groups op) ↔ Apart order groups op) := by
  have exclusive : Exclusive groups := by
    refine reached.invariant Exclusive ?_ ?_
    · intro groups empty one member
      obtain ⟨group, known, -, there⟩ := mem_held.mp member
      rw [empty group known] at there
      cases there
    · exact fun groups op _ exclusive admitted => (exclusive.step_iff order op).mpr admitted.2
  exact ⟨exclusive, exclusive.step_iff order op⟩

/-- A name of one letter in its array. -/
def letter (code : Byte) : List Byte := code :: replicate 15 0

def twoGroups : List NfvGroupEnt := [{ name := letter 97 }, { name := letter 98 }]

theorem twoGroups_empty : (nfvRuns .little).start twoGroups := by
  rintro _ (_ | ⟨_, _ | ⟨_, ⟨⟩⟩⟩) <;> rfl

/-- An NFV on ports 2 of switch 1 joins one on its ports 1 in another group. -/
theorem nfv_exclusive_two : Exclusive ((nfvRuns .little).execAll twoGroups
    [.add (letter 97) ⟨1, 1, 1⟩, .add (letter 98) ⟨1, 2, 2⟩]) := by
  have start : ((nfvRuns .little).restrict (Apart .little)).Reaches twoGroups :=
    .start twoGroups_empty
  have alone : Apart .little twoGroups (.add (letter 97) ⟨1, 1, 1⟩) := fun _ => nofun
  exact (nfv_exclusive_iff (start.step ⟨trivial, alone⟩) (.add (letter 98) ⟨1, 2, 2⟩)).2.mpr
    fun _ => by decide

/-- Two NFVs on switch 1 with the same output port, in two groups. -/
theorem nfv_shared_port : ∃ groups, (nfvRuns .little).Reaches groups ∧ ¬Exclusive groups := by
  refine ⟨(nfvRuns .little).execAll twoGroups
      [.add (letter 97) ⟨1, 1, 1⟩, .add (letter 98) ⟨1, 1, 2⟩],
    (Machine.Reaches.start twoGroups_empty).execAll ⟨trivial, trivial, trivial⟩, ?_⟩
  intro exclusive
  have apart := exclusive (letter 97, ⟨1, 1, 1⟩) (by decide) (letter 98, ⟨1, 1, 2⟩) (by decide)
    (by decide)
  cases apart

end OpenMul.Makdi
