import OpenMul.Core.L2Fdb

namespace OpenMul

open Lib List

/-- An entry stored by `c_l2fdb_learn`. -/
structure Stored (ent : L2fdbEnt) (mac : BitVec 48) (port : BitVec 32) : Prop where
  valid : ent.valid = true
  mac : ent.mac = mac
  port : ent.port = port

section

variable (ent : L2fdbEnt) (mac : BitVec 48) (port : BitVec 16) (now : Int)

theorem stored_entInit : Stored (l2fdbEntInit ent mac port now) mac (port.setWidth 32) :=
  ⟨rfl, rfl, rfl⟩

theorem stored_evict : Stored (l2fdbEvict ent mac port now).1 mac (port.setWidth 32) :=
  ⟨rfl, rfl, rfl⟩

end

def isEntOf (mac : BitVec 48) (ent : L2fdbEnt) : Bool :=
  ent.valid && ent.mac == mac

theorem Stored.isEntOf {mac : BitVec 48} {port : BitVec 32}
    (stored : Stored ent mac port) : isEntOf mac ent = true := by
  simp [OpenMul.isEntOf, stored.valid, stored.mac]

theorem Stored.not_isEntOf {mac other : BitVec 48} {port : BitVec 32}
    (stored : Stored ent mac port) (apart : other ≠ mac) : OpenMul.isEntOf other ent = false := by
  simp [OpenMul.isEntOf, stored.mac, Ne.symm apart]

/-- The ways a chain changes when a MAC is learnt. The port of a new entry has
passed through a `uint16_t`. -/
inductive Learned (mac : BitVec 48) (port : BitVec 32) (clock : Slot → Int)
    (chain after : L2fdbChain) : Prop where
  | update {pre post : List L2fdbEnt} {ent ent' : L2fdbEnt}
      (before : chain.slots = pre ++ ent :: post) (fresh : ∀ other ∈ pre, isEntOf mac other = false)
      (known : isEntOf mac ent = true) (later : after.slots = pre ++ ent' :: post)
      (sameLength : after.length = chain.length) (stored : Stored ent' mac port)
  | fill {pre post : List L2fdbEnt} {ent ent' : L2fdbEnt}
      (before : chain.slots = pre ++ ent :: post)
      (fresh : ∀ other ∈ chain.slots, isEntOf mac other = false)
      (full : ∀ other ∈ pre, other.valid = true) (empty : ent.valid = false)
      (later : after.slots = pre ++ ent' :: post) (sameLength : after.length = chain.length)
      (stored : Stored ent' mac ((port.setWidth 16).setWidth 32))
  | evict {pre post : List L2fdbEnt} {slot : Slot} {ent ent' : L2fdbEnt}
      (before : chain.slots = pre ++ ent :: post) (there : chain.slotAt slot = some ent)
      (fresh : ∀ other ∈ chain.slots, isEntOf mac other = false)
      (full : ∀ other ∈ chain.slots, other.valid = true)
      (expired : clock slot > ent.timestamp + cFdbHtimeo + 10)
      (later : after.slots = pre ++ ent' :: post) (sameLength : after.length = chain.length)
      (replaced : after.slotAt slot = some ent')
      (stored : Stored ent' mac ((port.setWidth 16).setWidth 32))
  | grow {ent' : L2fdbEnt} (fresh : ∀ other ∈ chain.slots, isEntOf mac other = false)
      (full : ∀ other ∈ chain.slots, other.valid = true)
      (later : after.slots = chain.slots ++ [ent', {}])
      (stored : Stored ent' mac ((port.setWidth 16).setWidth 32))

/-- The entries the scan passed without finding the MAC. -/
def ScanPassed (mac : BitVec 48) (entries : List (Slot × L2fdbEnt)) : Prop :=
  ∀ entry ∈ entries, isEntOf mac entry.2 = false

section Scan

variable {mac : BitVec 48} {clock : Slot → Int} {entries rest : List (Slot × L2fdbEnt)}
  {entry : Slot × L2fdbEnt} {empEnt evictEnt : Option (Slot × L2fdbEnt)}

theorem learnScan_known (known : isEntOf mac entry.2 = true) :
    learnScan mac clock (entry :: rest) empEnt evictEnt = .hit entry.1 entry.2 := by
  simp only [isEntOf, Bool.and_eq_true, beq_iff_eq] at known
  simp [learnScan, known.1, known.2]

/-- The entry the scan may evict is valid and had expired when it was read. -/
def MayEvict (clock : Slot → Int) (entry : Slot × L2fdbEnt) : Prop :=
  entry.2.valid = true ∧ clock entry.1 > entry.2.timestamp + cFdbHtimeo + 10

theorem learnScan_passed (passed : isEntOf mac entry.2 = false) :
    ∃ evictEnt', (evictEnt' = evictEnt ∨ evictEnt' = some entry ∧ MayEvict clock entry) ∧
      learnScan mac clock (entry :: rest) empEnt evictEnt =
        learnScan mac clock rest (empEnt.or ([entry].find? fun entry => !entry.2.valid))
          evictEnt' := by
  cases isValid : entry.2.valid with
  | false => exact ⟨evictEnt, .inl rfl, by simp [learnScan, isValid]⟩
  | true =>
    have apart : entry.2.mac ≠ mac := by simpa [isEntOf, isValid] using passed
    by_cases expired : evictEnt.isNone ∧ clock entry.1 > entry.2.timestamp + cFdbHtimeo + 10
    · exact ⟨some entry,
        .inr ⟨rfl, isValid, expired.2⟩, by simp [learnScan, isValid, apart, expired]⟩
    · simp only [learnScan, isValid, apart, expired]
      simp [isValid]

theorem learnScan_hit
    (found : learnScan mac clock entries empEnt evictEnt = .hit slot ent) :
    ∃ before after, entries = before ++ (slot, ent) :: after ∧ ScanPassed mac before ∧
      isEntOf mac ent = true := by
  induction entries generalizing empEnt evictEnt with
  | nil => simp [learnScan] at found
  | cons entry rest ih =>
    cases known : isEntOf mac entry.2 with
    | true =>
      rw [learnScan_known known] at found
      cases found
      exact ⟨[], rest, rfl, by simp [ScanPassed], known⟩
    | false =>
      obtain ⟨evictEnt', -, next⟩ := learnScan_passed known
      rw [next] at found
      obtain ⟨before, after, rfl, passed, isEnt⟩ := ih found
      exact ⟨entry :: before, after, rfl, forall_mem_cons.mpr ⟨known, passed⟩, isEnt⟩

theorem learnScan_miss
    (missed : learnScan mac clock entries empEnt evictEnt = .miss empEnt' evictEnt') :
    ScanPassed mac entries ∧ empEnt' = empEnt.or (entries.find? fun entry => !entry.2.valid) ∧
      (evictEnt' = evictEnt ∨ ∃ entry ∈ entries, evictEnt' = some entry ∧
        MayEvict clock entry) := by
  induction entries generalizing empEnt evictEnt with
  | nil =>
    cases missed
    exact ⟨by simp [ScanPassed], by simp, .inl rfl⟩
  | cons entry rest ih =>
    cases known : isEntOf mac entry.2 with
    | true =>
      rw [learnScan_known known] at missed
      cases missed
    | false =>
      obtain ⟨evictEnt'', chosen, next⟩ := learnScan_passed known
      rw [next] at missed
      obtain ⟨passed, firstEmpty, evictable⟩ := ih missed
      refine ⟨forall_mem_cons.mpr ⟨known, passed⟩, ?_, ?_⟩
      · rw [firstEmpty, Option.or_assoc, ← find?_append, singleton_append]
      · rcases evictable with same | ⟨late, member, taken, expired⟩
        · rcases chosen with same' | ⟨taken, expired⟩
          · exact .inl (same.trans same')
          · exact .inr ⟨entry, mem_cons_self, same.trans taken, expired⟩
        · exact .inr ⟨late, mem_cons_of_mem entry member, taken, expired⟩

end Scan

theorem ScanPassed.slots {chain : L2fdbChain} (passed : ScanPassed mac chain.walk) :
    ∀ ent ∈ chain.slots, isEntOf mac ent = false := by
  intro ent member
  rw [← BucketChain.map_snd_walk] at member
  obtain ⟨entry, visited, rfl⟩ := mem_map.mp member
  exact passed entry visited

theorem full_of_find {chain : L2fdbChain}
    (none : chain.walk.find? (fun entry => !entry.2.valid) = none) :
    ∀ ent ∈ chain.slots, ent.valid = true := by
  intro ent member
  rw [← BucketChain.map_snd_walk] at member
  obtain ⟨entry, visited, rfl⟩ := mem_map.mp member
  simpa using find?_eq_none.mp none entry visited

theorem learned_l2fdbLearn (fdb : Fdb) (mac : BitVec 48) (port : BitVec 32) (clock : Slot → Int)
    (now : Int) :
    ∃ after out, l2fdbLearn fdb mac port clock now = fdb.putChain (l2fdbKey mac) after out ∧
      Learned mac port clock (fdb.appFlowTbl (l2fdbKey mac)) after := by
  generalize chain_eq : fdb.appFlowTbl (l2fdbKey mac) = chain
  simp only [l2fdbLearn, chain_eq]
  split
  · rename_i slot ent found
    obtain ⟨before, rest, visited, passed, known⟩ := learnScan_hit found
    obtain ⟨parts, -, written⟩ := BucketChain.walk_split Nat.zero_lt_two visited
    refine ⟨_, _, rfl, .update parts ?_ known (written _).1 (by simp) ?_⟩
    · intro other member
      obtain ⟨entry, inside, rfl⟩ := mem_map.mp member
      exact passed entry inside
    · simp only [isEntOf, Bool.and_eq_true, beq_iff_eq] at known
      by_cases same : ent.port = port
      · simp only [ne_eq, same, not_true_eq_false, if_false]
        exact ⟨known.1, known.2, rfl⟩
      · simp only [ne_eq, same, not_false_eq_true, if_true]
        exact ⟨known.1, known.2, rfl⟩
  · rename_i slot ent evictEnt missed
    obtain ⟨passed, firstEmpty, -⟩ := learnScan_miss missed
    obtain ⟨isEmpty, before, rest, visited, full⟩ :=
      find?_eq_some_iff_append.mp firstEmpty.symm
    obtain ⟨parts, -, written⟩ := BucketChain.walk_split Nat.zero_lt_two visited
    refine ⟨_, _, rfl, .fill parts passed.slots ?_ (by simpa using isEmpty) (written _).1 (by simp)
      (stored_entInit ..)⟩
    intro other member
    obtain ⟨entry, inside, rfl⟩ := mem_map.mp member
    simpa using full entry inside
  · rename_i missed
    obtain ⟨passed, noEmpty, -⟩ := learnScan_miss missed
    refine ⟨_, _, rfl, .grow passed.slots (full_of_find noEmpty.symm) ?_
      (stored_entInit {} mac _ now)⟩
    rw [BucketChain.slots_append]
    rfl
  · rename_i slot ent missed
    obtain ⟨passed, noEmpty, evictable⟩ := learnScan_miss missed
    rcases evictable with none | ⟨entry, visited, taken, expired⟩
    · cases none
    · cases taken
      obtain ⟨before, rest, visited⟩ := append_of_mem visited
      obtain ⟨parts, there, written⟩ := BucketChain.walk_split Nat.zero_lt_two visited
      exact ⟨_, _, rfl, .evict parts there passed.slots (full_of_find noEmpty.symm) expired.2
        (written _).1 (by simp) (written _).2 (stored_evict ..)⟩

/-- The first entry of a MAC in a chain. -/
def findEnt (chain : L2fdbChain) (mac : BitVec 48) : Option L2fdbEnt :=
  chain.slots.find? (isEntOf mac)

theorem l2fdbLookup_eq (fdb : Fdb) (mac : BitVec 48) (now : Int) : (l2fdbLookup fdb mac now).2 =
      (findEnt (fdb.appFlowTbl (l2fdbKey mac)) mac).map ({ · with timestamp := now }) := by
  rw [findEnt, ← BucketChain.map_snd_walk]
  simp only [l2fdbLookup]
  cases found : (fdb.appFlowTbl (l2fdbKey mac)).walk.find?
      (fun entry => entry.2.valid && entry.2.mac == mac) with
  | none | some entry => simp [Function.comp_def, isEntOf, found]

variable {pred : L2fdbEnt → Bool} {pre post : List L2fdbEnt}

theorem find_middle (none : ∀ other ∈ pre, pred other = false) (isHit : pred ent = true) :
    (pre ++ ent :: post).find? pred = some ent := by
  rw [find?_append, find?_eq_none.mpr (by simpa using none), Option.none_or,
    find?_cons_of_pos isHit]

theorem find_replaced (old : pred ent = false) (new : pred ent' = false) :
    (pre ++ ent' :: post).find? pred = (pre ++ ent :: post).find? pred := by
  simp [find?_append, old, new]

theorem setWidth_setWidth_eq_iff (port : BitVec 32) :
    (port.setWidth 16).setWidth 32 = port ↔ port.toNat < 2 ^ 16 := by
  rw [← BitVec.toNat_inj, BitVec.toNat_setWidth, BitVec.toNat_setWidth]
  omega

section Learned

variable {mac other : BitVec 48} {port : BitVec 32} {clock : Slot → Int} {chain after : L2fdbChain}

/-- The MAC is found afterwards, with its port if that fits or the MAC was known. -/
theorem Learned.findEnt_same (learned : Learned mac port clock chain after) :
    ∃ ent', findEnt after mac = some ent' ∧
      (ent'.port = port ↔ port.toNat < 2 ^ 16 ∨ ∃ ent ∈ chain.slots, isEntOf mac ent = true) := by
  have truncated : (∀ ent ∈ chain.slots, isEntOf mac ent = false) → ∀ {ent' : L2fdbEnt},
      Stored ent' mac ((port.setWidth 16).setWidth 32) →
      (ent'.port = port ↔ port.toNat < 2 ^ 16 ∨ ∃ ent ∈ chain.slots, isEntOf mac ent = true) := by
    intro fresh ent' stored
    rw [stored.port, setWidth_setWidth_eq_iff]
    refine ⟨.inl, Or.rec id ?_⟩
    rintro ⟨ent, member, known⟩
    rw [fresh ent member] at known
    cases known
  cases learned with
  | update before fresh known later sameLength stored =>
    refine ⟨_, by rw [findEnt, later]; exact find_middle fresh stored.isEntOf, ?_⟩
    rw [stored.port, before]
    exact iff_of_true rfl (.inr ⟨_, by simp, known⟩)
  | fill before fresh full empty later sameLength stored
  | evict before there fresh full expired later sameLength replaced stored =>
    refine ⟨_, ?_, truncated fresh stored⟩
    rw [findEnt, later]
    exact find_middle (fun other member => fresh other (by simp [before, member])) stored.isEntOf
  | grow fresh full later stored =>
    refine ⟨_, ?_, truncated fresh stored⟩
    rw [findEnt, later]
    exact find_middle fresh stored.isEntOf

/-- Any other MAC keeps its entry, unless its slot was evicted. -/
theorem Learned.findEnt_other (learned : Learned mac port clock chain after) (apart : other ≠ mac) :
    findEnt after other = findEnt chain other ∨
      ∃ slot ent ent', chain.slotAt slot = some ent ∧ isEntOf other ent = true ∧
        clock slot > ent.timestamp + cFdbHtimeo + 10 ∧
        after.slotAt slot = some ent' ∧ isEntOf mac ent' = true := by
  cases learned with
  | update before fresh known later sameLength stored =>
    left
    rw [findEnt, findEnt, before, later]
    refine find_replaced ?_ (stored.not_isEntOf apart)
    simp only [isEntOf, Bool.and_eq_true, beq_iff_eq] at known
    simp [isEntOf, known.2, Ne.symm apart]
  | fill before fresh full empty later sameLength stored =>
    left
    rw [findEnt, findEnt, before, later]
    exact find_replaced (by simp [isEntOf, empty]) (stored.not_isEntOf apart)
  | @evict pre post slot ent ent' before there fresh full expired later sameLength replaced
    stored =>
    cases mine : isEntOf other ent with
    | true => exact .inr ⟨slot, ent, ent', there, mine, expired, replaced, stored.isEntOf⟩
    | false =>
      left
      rw [findEnt, findEnt, before, later]
      exact find_replaced mine (stored.not_isEntOf apart)
  | grow fresh full later stored =>
    left
    have blank : isEntOf other {} = false := rfl
    rw [findEnt, findEnt, later, find?_append, find?_cons, stored.not_isEntOf apart,
      find?_cons, blank, find?_nil, Option.or_none]

end Learned

end OpenMul
