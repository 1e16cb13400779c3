import OpenMul.Core.L2Fdb

namespace OpenMul

open Lib
open List hiding count

def validEnts (chain : L2fdbChain) : List L2fdbEnt :=
  chain.slots.filter L2fdbEnt.valid

/-- A chain between two calls: its valid entries come before its invalid ones. -/
def InOrder (ents : List L2fdbEnt) : Prop :=
  ents.Pairwise fun earlier later => later.valid → earlier.valid

variable {chain : L2fdbChain}

theorem findNewEntry_here (present : chain.slotAt slot = some ent)
    (isFree : ent.valid = false) :
    findNewEntry (chain.drop slot.bkt) slot.bkt slot.idx = some slot := by
  obtain ⟨bkt, there, entry⟩ := Option.bind_eq_some_iff.mp present
  obtain ⟨inChain, read⟩ := List.getElem?_eq_some_iff.mp there
  have first : bkt.toList.zipIdx[slot.idx]? = some (ent, slot.idx) := by
    simpa using entry
  obtain ⟨inBkt, second⟩ := List.getElem?_eq_some_iff.mp first
  rw [List.drop_eq_getElem_cons inChain, findNewEntry, read, List.drop_eq_getElem_cons inBkt,
    second, List.find?_cons_of_pos (by simp [isFree])]

variable {bkt : Nat}

theorem findNewEntry_end (inChain : bkt < chain.length) :
    findNewEntry (chain.drop bkt) bkt cFdbEntPerBkt =
      findNewEntry (chain.drop (bkt + 1)) (bkt + 1) 0 := by
  rw [drop_eq_getElem_cons inChain, findNewEntry, drop_eq_nil_of_le (by simp)]
  rfl

theorem findNewEntry_next {slot : Slot} {ent : L2fdbEnt} (inside : slot.idx < cFdbEntPerBkt)
    (next : chain.slots[slot.place cFdbEntPerBkt + 1]? = some ent) (isFree : ent.valid = false) :
    ∃ found : Slot, found.idx < cFdbEntPerBkt ∧
      found.place cFdbEntPerBkt = slot.place cFdbEntPerBkt + 1 ∧
      findNewEntry (chain.drop slot.bkt) slot.bkt (slot.idx + 1) = some found := by
  by_cases last : slot.idx + 1 < cFdbEntPerBkt
  · have present : chain.slotAt ⟨slot.bkt, slot.idx + 1⟩ = some ent := by
      rwa [BucketChain.slotAt_eq _ last]
    exact ⟨⟨slot.bkt, slot.idx + 1⟩, last, rfl, findNewEntry_here present isFree⟩
  · have atEnd : slot.idx + 1 = cFdbEntPerBkt := Nat.le_antisymm inside (Nat.le_of_not_lt last)
    have there : Slot.place ⟨slot.bkt + 1, 0⟩ cFdbEntPerBkt = slot.place cFdbEntPerBkt + 1 := by
      simp [Slot.place, Nat.succ_mul, Nat.add_assoc, atEnd]
    have present : chain.slotAt ⟨slot.bkt + 1, 0⟩ = some ent := by
      rwa [BucketChain.slotAt_eq _ Nat.zero_lt_two, there]
    have inChain : slot.bkt < chain.length := by
      obtain ⟨bkt, found, -⟩ := Option.bind_eq_some_iff.mp present
      exact Nat.lt_of_succ_lt (List.getElem?_eq_some_iff.mp found).1
    refine ⟨⟨slot.bkt + 1, 0⟩, Nat.zero_lt_two, there, ?_⟩
    rw [atEnd, findNewEntry_end inChain]
    exact findNewEntry_here present isFree

namespace Aging

/-- `dst_ent`, `dst_bkt` and `dst_ent_idx` point at one slot. -/
def PointsAt (st : Aging) (place : Nat) : Prop :=
  ∃ slot : Slot, slot.idx < cFdbEntPerBkt ∧ slot.place cFdbEntPerBkt = place ∧
    st.dstEnt = some slot ∧ st.dstBkt = some slot.bkt ∧ st.dstEntIdx = slot.idx

/-- The free slot is the first one freed, or there is none. -/
def FirstFree (st : Aging) (front blanks : List L2fdbEnt) : Prop :=
  (blanks = [] → st.dstEnt = none) ∧ (blanks ≠ [] → st.PointsAt front.length)

/-- The walk has looked at `place` slots. -/
structure Walked (st : Aging) (place : Nat) (front blanks rest : List L2fdbEnt) : Prop where
  sifted : Sifted L2fdbEnt.valid st.chain.slots front blanks rest
  looked : front.length + blanks.length = place
  inOrder : InOrder rest
  free : (∃ ent ∈ rest, ent.valid) → st.FirstFree front blanks

variable {st : Aging} {place : Nat} {front blanks rest : List L2fdbEnt} {ent : L2fdbEnt}

theorem Walked.slotAt (walked : st.Walked place front blanks (ent :: rest)) (slot : Slot)
    (inside : slot.idx < cFdbEntPerBkt) (here : slot.place cFdbEntPerBkt = place) :
    st.chain.slotAt slot = some ent := by
  rw [BucketChain.slotAt_eq _ inside, here, ← walked.looked]
  exact walked.sifted.current

theorem Walked.firstFree (walked : st.Walked place front blanks (ent :: rest))
    (isValid : ent.valid = true) : st.FirstFree front blanks :=
  walked.free ⟨ent, mem_cons_self, isValid⟩

theorem ageOut_spec (st : Aging) (sweep : Sweep) (slot : Slot) (ent : L2fdbEnt) :
    (∃ dead : L2fdbEnt, dead.valid = false ∧
      (st.ageOut sweep slot ent).chain = st.chain.setSlot slot dead) ∧
    (st.ageOut sweep slot ent).emptyBkt = st.emptyBkt ∧
      (st.dstEnt = none → slot.idx < cFdbEntPerBkt →
      (st.ageOut sweep slot ent).PointsAt (slot.place cFdbEntPerBkt)) ∧
    (∀ place, st.PointsAt place → (st.ageOut sweep slot ent).PointsAt place) := by
  unfold ageOut
  cases chosen : st.dstEnt with
  | none =>
    refine ⟨?_, rfl, fun _ inside => ⟨slot, inside, rfl, rfl, rfl, rfl⟩, ?_⟩
    · cases sweep.invalid ent <;> exact ⟨_, rfl, rfl⟩
    · rintro place ⟨other, -, -, pointed, -⟩
      rw [chosen] at pointed
      cases pointed
  | some dst =>
    refine ⟨?_, rfl, by simp, fun place points => ?_⟩
    · cases sweep.invalid ent <;> exact ⟨_, rfl, rfl⟩
    · obtain ⟨other, inside, there, pointed, rest⟩ := points
      rw [chosen] at pointed
      exact ⟨other, inside, there, pointed, rest⟩

theorem Walked.ageOut (walked : st.Walked place front blanks (ent :: rest)) (sweep : Sweep)
    (slot : Slot) (inside : slot.idx < cFdbEntPerBkt) (here : slot.place cFdbEntPerBkt = place)
    (isValid : ent.valid = true) :
    ∃ dead, (st.ageOut sweep slot ent).Walked (place + 1) front (blanks ++ [dead]) rest := by
  obtain ⟨⟨dead, isDead, written⟩, -, fresh, kept⟩ := st.ageOut_spec sweep slot ent
  have free := walked.firstFree isValid
  refine ⟨dead, ?_, ?_, (pairwise_cons.mp walked.inOrder).2, fun _ => ⟨by simp, fun _ => ?_⟩⟩
  · rw [written, BucketChain.slots_setSlot _ inside, here, ← walked.looked]
    exact walked.sifted.expire isDead
  · simp [← walked.looked, Nat.add_assoc]
  · cases blanks with
    | nil =>
      have unset := free.1 rfl
      have := fresh unset inside
      rwa [here, ← walked.looked, length_nil] at this
    | cons blank more => exact kept _ (free.2 (by simp))

/-- A survivor stays, or goes to the free slot. -/
theorem Walked.keep (walked : st.Walked place front blanks (ent :: rest)) (slot : Slot)
    (inside : slot.idx < cFdbEntPerBkt) (here : slot.place cFdbEntPerBkt = place)
    (isValid : ent.valid = true) :
    (∃ blanks', (st.keep slot ent).Walked (place + 1) (front ++ [ent]) blanks' rest) ∧
    (st.keep slot ent).emptyBkt = decide (front.length + 1 ≤ slot.bkt * cFdbEntPerBkt) := by
  have inOrder := (pairwise_cons.mp walked.inOrder).2
  cases blanks with
  | nil =>
    have unset : st.dstEnt = none := (walked.firstFree isValid).1 rfl
    have stays : st.keep slot ent = { st with emptyBkt := false } := by
      simp [Aging.keep, unset]
    have full : front.length = place := walked.looked
    rw [stays]
    refine ⟨⟨[], walked.sifted.stay isValid, by simp [full], inOrder,
      fun _ => ⟨fun _ => unset, fun some => absurd rfl some⟩⟩, ?_⟩
    simp only [Slot.place, cFdbEntPerBkt] at here
    simp only [cFdbEntPerBkt, false_eq_decide_iff]
    omega
  | cons blank more =>
    obtain ⟨dst, dstInside, dstPlace, chosen, inBkt, atIdx⟩ :=
      (walked.firstFree isValid).2 (cons_ne_nil blank more)
    have isDead : ({ ent with valid := false } : L2fdbEnt).valid = false := rfl
    have moved := walked.sifted.move isValid isDead
    rw [walked.looked, ← dstPlace, ← here, ← BucketChain.slots_setSlot _ dstInside,
      ← BucketChain.slots_setSlot _ inside] at moved
    obtain ⟨freed, following, isFree⟩ := moved.firstFree (by simp)
    rw [length_append, ← dstPlace] at following
    obtain ⟨found, foundInside, foundPlace, search⟩ := findNewEntry_next dstInside following isFree
    have searched : (st.keep slot ent) = { st with
        chain := (st.chain.setSlot dst ent).setSlot slot { ent with valid := false }
        emptyBkt := decide (some dst.bkt ≠ some slot.bkt)
        dstEnt := some found
        dstBkt := some found.bkt
        dstEntIdx := found.idx } := by
      have nextIdx : (st.dstEntIdx + 1).toNat = dst.idx + 1 := by rw [atIdx]; rfl
      simp only [Aging.keep, chosen, inBkt, nextIdx, Option.bind_some, search]
      rfl
    rw [searched]
    have ahead : dst.place cFdbEntPerBkt < place := by
      rw [← walked.looked, length_cons]
      omega
    refine ⟨⟨_, moved, ?_, inOrder, fun _ => ⟨by simp, fun _ => ?_⟩⟩, ?_⟩
    · rw [← walked.looked]
      simp only [length_append, length_cons, length_nil]
      omega
    · exact ⟨found, foundInside, by simpa [← dstPlace] using foundPlace, rfl, rfl, rfl⟩
    · simp only [Slot.place, cFdbEntPerBkt] at *
      simp only [ne_eq, Option.some.injEq, decide_eq_decide]
      omega

/-- The entries a call keeps. -/
def survives (sweep : Sweep) (ent : L2fdbEnt) : Bool :=
  ent.valid && !sweep.agesOut ent

theorem filter_survives_invalid (sweep : Sweep) {ents : List L2fdbEnt}
    (dead : ∀ ent ∈ ents, ent.valid = false) : ents.filter (survives sweep) = [] := by
  apply filter_eq_nil_iff.mpr
  intro ent member
  simp [survives, dead ent member]

theorem Walked.all_invalid (walked : st.Walked place front blanks (ent :: rest))
    (isDead : ent.valid = false) : ∀ other ∈ ent :: rest, other.valid = false := by
  intro other member
  rcases mem_cons.mp member with rfl | later
  · exact isDead
  · have := (pairwise_cons.mp walked.inOrder).1 other later
    rw [isDead] at this
    simpa using this

/-- Where the walk breaks, the entries it leaves out count as free slots. -/
theorem Walked.skip (walked : st.Walked place front blanks rest)
    (dead : ∀ ent ∈ rest, ent.valid = false) (enough : count ≤ rest.length) :
    st.Walked (place + count) front (blanks ++ rest.take count) (rest.drop count) := by
  refine ⟨⟨?_, walked.sifted.kept, ?_⟩, ?_, walked.inOrder.drop, ?_⟩
  · rw [walked.sifted.parts]
    simp
  · intro other member
    rcases mem_append.mp member with earlier | later
    · exact walked.sifted.free other earlier
    · exact dead other (mem_of_mem_take later)
  · rw [length_append, length_take, Nat.min_eq_left enough, ← Nat.add_assoc, walked.looked]
  · rintro ⟨other, member, live⟩
    rw [dead other (mem_of_mem_drop member)] at live
    cases live

theorem Walked.ageEnts (walked : st.Walked (bkt * cFdbEntPerBkt + entIdx) front blanks rest)
    (sweep : Sweep) (toEnd : entIdx + left = cFdbEntPerBkt) (enough : left ≤ rest.length)
    (empty : st.emptyBkt = decide (front.length ≤ bkt * cFdbEntPerBkt)) :
    ∃ front' blanks', front' = front ++ (rest.take left).filter (survives sweep) ∧
      (ageEnts sweep bkt left entIdx st).Walked ((bkt + 1) * cFdbEntPerBkt) front' blanks'
        (rest.drop left) ∧ (ageEnts sweep bkt left entIdx st).emptyBkt =
        decide (front'.length ≤ bkt * cFdbEntPerBkt) := by
  induction left generalizing st entIdx front blanks rest with
  | zero =>
    refine ⟨front, blanks, by simp, ?_, empty⟩
    rw [Nat.add_zero] at toEnd
    rwa [toEnd, ← Nat.succ_mul] at walked
  | succ left ih =>
    obtain ⟨ent, rest, rfl⟩ := exists_cons_of_length_pos (Nat.lt_of_lt_of_le left.succ_pos enough)
    have inside : entIdx < cFdbEntPerBkt := by omega
    have present := walked.slotAt ⟨bkt, entIdx⟩ inside rfl
    have toEnd' : entIdx + 1 + left = cFdbEntPerBkt := by omega
    have enough' : left ≤ rest.length := Nat.le_of_succ_le_succ enough
    simp only [Aging.ageEnts, present]
    cases isValid : ent.valid with
    | true =>
      cases old : sweep.agesOut ent with
      | true =>
        obtain ⟨dead, aged⟩ := walked.ageOut sweep ⟨bkt, entIdx⟩ inside rfl isValid
        have untouched := (st.ageOut_spec sweep ⟨bkt, entIdx⟩ ent).2.1
        have := ih aged toEnd' enough' (by rw [untouched, empty])
        simpa [survives, old] using this
      | false =>
        obtain ⟨⟨blanks', kept⟩, emptied⟩ := walked.keep ⟨bkt, entIdx⟩ inside rfl isValid
        have := ih kept toEnd' enough' (by rw [emptied]; simp)
        simpa [survives, isValid, old] using this
    | false =>
      have dead := walked.all_invalid isValid
      have gone : ((ent :: rest).take (left + 1)).filter (survives sweep) = [] :=
        filter_survives_invalid sweep fun other member => dead other (mem_of_mem_take member)
      have skipped := walked.skip dead enough
      rw [Nat.add_assoc, toEnd, ← Nat.succ_mul] at skipped
      exact ⟨front, _, by rw [gone, append_nil], skipped, empty⟩

theorem freeBkt_chain (st : Aging) (bkt : Nat) :
    (st.freeBkt bkt).chain = st.chain.eraseIdx bkt := by
  simp only [Aging.freeBkt]
  split <;> rfl

/-- A free slot in the first entry of the bucket goes with it; one in an earlier
bucket stays. -/
theorem PointsAt.freeBkt (points : st.PointsAt place) (bkt : Nat) :
    (place = bkt * cFdbEntPerBkt → (st.freeBkt bkt).dstEnt = none) ∧
    (place < bkt * cFdbEntPerBkt → (st.freeBkt bkt).PointsAt place) := by
  obtain ⟨slot, inside, there, chosen, inBkt, atIdx⟩ := points
  simp only [Slot.place, cFdbEntPerBkt] at *
  refine ⟨fun same => ?_, fun before => ?_⟩
  · have first : st.dstEntIdx = 0 ∧ st.dstBkt = some bkt := by
      rw [inBkt, Option.some.injEq]
      omega
    simp [Aging.freeBkt, if_pos first]
  · have other : ¬(st.dstEntIdx = 0 ∧ st.dstBkt = some bkt) := by
      rw [inBkt, Option.some.injEq]
      omega
    simp only [Aging.freeBkt, if_neg other]
    exact ⟨slot, inside, there, chosen, inBkt, atIdx⟩

theorem Walked.freeBkt (walked : st.Walked ((bkt + 1) * cFdbEntPerBkt) front blanks rest)
    (empty : front.length ≤ bkt * cFdbEntPerBkt) :
    (st.freeBkt bkt).Walked (bkt * cFdbEntPerBkt) front
      (blanks.take (bkt * cFdbEntPerBkt - front.length)) rest := by
  have enough : bkt * cFdbEntPerBkt - front.length ≤ blanks.length := by
    have := walked.looked
    rw [Nat.succ_mul] at this
    omega
  refine ⟨⟨?_, walked.sifted.kept, ?_⟩, ?_, walked.inOrder, fun live => ?_⟩
  · have whole : (front ++ blanks).length = (bkt + 1) * cFdbEntPerBkt := by
      rw [length_append, walked.looked]
    rw [freeBkt_chain, BucketChain.slots_eraseIdx, walked.sifted.parts, ← whole, drop_left,
      append_assoc, take_append, take_of_length_le empty,
      take_append_of_le_length enough]
  · intro ent member
    exact walked.sifted.free ent (mem_of_mem_take member)
  · rw [length_take, Nat.min_eq_left enough, Nat.add_sub_cancel' empty]
  · have points : blanks ≠ [] → st.PointsAt front.length := (walked.free live).2
    have freed : blanks ≠ [] := by
      intro none
      have := walked.looked
      rw [none, length_nil, Nat.add_zero] at this
      rw [this] at empty
      exact absurd empty (by simp)
    obtain ⟨gone, kept⟩ := (points freed).freeBkt bkt
    refine ⟨fun none => ?_, fun some => ?_⟩
    · rcases take_eq_nil_iff.mp none with noneLeft | none
      · exact gone (Nat.le_antisymm empty (Nat.sub_eq_zero_iff_le.mp noneLeft))
      · exact absurd none freed
    · refine kept (Nat.lt_of_le_of_ne empty fun same => some ?_)
      rw [same, Nat.sub_self, take_zero]

theorem Walked.length (walked : st.Walked place front blanks rest) :
    st.chain.length * cFdbEntPerBkt = place + rest.length := by
  rw [← BucketChain.length_slots, walked.sifted.parts, length_append, length_append,
    walked.looked]

theorem Walked.atEnd (walked : st.Walked (bkt * cFdbEntPerBkt) front blanks rest)
    (beyond : st.chain.length ≤ bkt) : rest = [] := by
  have whole := walked.length
  have := Nat.mul_le_mul_right cFdbEntPerBkt beyond
  exact eq_nil_of_length_eq_zero (by omega)

theorem Walked.ageBkts (walked : st.Walked (bkt * cFdbEntPerBkt) front blanks rest)
    (enough : st.chain.length ≤ bkt + left) (sweep : Sweep) (prevBkt : Option Nat) :
    ∃ blanks', Sifted L2fdbEnt.valid (ageBkts sweep left bkt prevBkt st).chain.slots
      (front ++ rest.filter (survives sweep)) blanks' [] := by
  induction left generalizing st front blanks rest bkt prevBkt with
  | zero =>
    obtain rfl := walked.atEnd enough
    exact ⟨blanks, by simpa [Aging.ageBkts] using walked.sifted⟩
  | succ left ih =>
    by_cases inChain : bkt < st.chain.length
    · have whole := walked.length
      have bucketful : cFdbEntPerBkt ≤ rest.length := by
        simp only [cFdbEntPerBkt] at *
        omega
      have fresh :
          { st with emptyBkt := true }.Walked (bkt * cFdbEntPerBkt + 0) front blanks rest :=
        { walked with }
      have empty : front.length ≤ bkt * cFdbEntPerBkt :=
        Nat.le_trans (Nat.le_add_right _ _) (Nat.le_of_eq walked.looked)
      obtain ⟨front', blanks', grown, swept, emptied⟩ :=
        fresh.ageEnts sweep (Nat.zero_add _) bucketful (by simp [empty])
      have split : front ++ rest.filter (survives sweep) =
          front' ++ (rest.drop cFdbEntPerBkt).filter (survives sweep) := by
        rw [grown, append_assoc, ← filter_append, take_append_drop]
      have sameLength := swept.length
      rw [length_drop] at sameLength
      simp only [Aging.ageBkts, if_pos inChain, split]
      split
      · rename_i unlink
        rw [emptied, decide_eq_true_iff] at unlink
        apply ih (swept.freeBkt unlink.2)
        rw [freeBkt_chain, length_eraseIdx]
        simp only [cFdbEntPerBkt] at *
        split <;> omega
      · apply ih swept
        simp only [cFdbEntPerBkt] at *
        omega
    · obtain rfl := walked.atEnd (Nat.le_of_not_lt inChain)
      exact ⟨blanks, by simpa [Aging.ageBkts, inChain] using walked.sifted⟩

end Aging

/-- The chain that aging leaves. -/
def agedChain (sweep : Sweep) (chain : L2fdbChain) (dstEntIdx : Int) : L2fdbChain :=
  (Aging.ageBkts sweep chain.length 0 none { chain, dstEntIdx, sent := [] }).chain

theorem InOrder.of_sifted (sifted : Sifted L2fdbEnt.valid slots front blanks []) :
    InOrder slots := by
  rw [sifted.parts, append_nil]
  refine pairwise_append.mpr ⟨?_, ?_, ?_⟩
  · exact pairwise_of_forall_mem_list fun earlier member _ _ _ => sifted.kept earlier member
  · refine pairwise_of_forall_mem_list fun earlier _ later member live => ?_
    rw [sifted.free later member] at live
    cases live
  · exact fun earlier member _ _ _ => sifted.kept earlier member

theorem agedChain_spec (inOrder : InOrder chain.slots) (sweep : Sweep) (dstEntIdx : Int) :
    InOrder (agedChain sweep chain dstEntIdx).slots ∧ validEnts (agedChain sweep chain dstEntIdx) =
      (validEnts chain).filter fun ent => !sweep.agesOut ent := by
  have start : Aging.Walked { chain, dstEntIdx, sent := [] } (0 * cFdbEntPerBkt) [] []
      chain.slots :=
    ⟨⟨rfl, by simp, by simp⟩, rfl, inOrder, fun _ => ⟨fun _ => rfl, fun some => absurd rfl some⟩⟩
  obtain ⟨blanks, sifted⟩ := start.ageBkts (Nat.le_of_eq (Nat.zero_add _).symm) sweep none
  refine ⟨.of_sifted sifted, ?_⟩
  rw [validEnts, agedChain, sifted.filter, filter_nil, append_nil,
    validEnts, filter_filter]
  exact filter_congr fun ent _ => Bool.and_comm ..

end OpenMul
