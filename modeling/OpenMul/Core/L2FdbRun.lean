import OpenMul.Core.L2FdbAging
import OpenMul.Core.L2FdbLearn

namespace OpenMul

open Lib

/-- Every chain between two calls. -/
structure ChainInv (key : Nat) (chain : L2fdbChain) : Prop where
  inOrder : InOrder chain.slots
  keyed : ∀ ent ∈ validEnts chain, l2fdbKey ent.mac = key
  distinct : ((validEnts chain).map L2fdbEnt.mac).Nodup

def FdbInv (fdb : Fdb) : Prop :=
  ∀ key, ChainInv key (fdb.appFlowTbl key)

variable {fdb : Fdb}

theorem FdbInv.putChain (inv : FdbInv fdb) (kept : ChainInv key chain) (out : List FdbFlow) :
    FdbInv (fdb.putChain key chain out) := by
  intro other
  by_cases same : other = key
  · subst same
    rwa [Fdb.putChain_same]
  · rw [Fdb.putChain_other _ same]
    exact inv other

theorem fdbInv_init : FdbInv l2fdbInit := by
  intro key
  have none : validEnts (l2fdbInit.appFlowTbl key) = [] := rfl
  refine ⟨?_, by simp [none], by simp [none]⟩
  exact List.pairwise_of_forall_mem_list fun earlier _ later member live => by
    simp_all [l2fdbInit]

variable {mac : BitVec 48}

section Chain

variable {key : Nat} {chain after : L2fdbChain} {pre post : List L2fdbEnt} {ent ent' : L2fdbEnt}

theorem inOrder_of_full (full : ∀ ent ∈ front, ent.valid = true) (inOrder : InOrder back) :
    InOrder (front ++ back) := by
  refine List.pairwise_append.mpr ⟨?_, inOrder, fun ent member _ _ _ => full ent member⟩
  exact List.pairwise_of_forall_mem_list fun ent member _ _ _ => full ent member

theorem isEntOf_iff : isEntOf mac ent = true ↔ ent.valid = true ∧ ent.mac = mac := by
  simp [isEntOf]

theorem mac_notMem {ents : List L2fdbEnt} (fresh : ∀ ent ∈ ents, isEntOf mac ent = false) :
    mac ∉ (ents.filter L2fdbEnt.valid).map L2fdbEnt.mac := by
  intro member
  obtain ⟨other, inside, same⟩ := List.mem_map.mp member
  obtain ⟨inside, live⟩ := List.mem_filter.mp inside
  have := fresh other inside
  rw [isEntOf_iff.mpr ⟨live, same⟩] at this
  cases this

theorem ChainInv.fresh_others (inv : ChainInv key chain) (before : chain.slots = pre ++ ent :: post)
    (isValid : ent.valid = true) : ∀ other ∈ pre ++ post, isEntOf ent.mac other = false := by
  intro other member
  have distinct := inv.distinct
  rw [validEnts, before, List.filter_append, List.filter_cons_of_pos isValid, List.map_append,
    List.map_cons, List.nodup_middle, List.nodup_cons, ← List.map_append, ← List.filter_append]
    at distinct
  by_contra known
  obtain ⟨live, same⟩ := isEntOf_iff.mp (Bool.eq_true_of_not_eq_false known)
  exact distinct.1 (List.mem_map.mpr ⟨other, List.mem_filter.mpr ⟨member, live⟩, same⟩)

/-- An entry of a MAC that no other entry has may be written behind valid ones. -/
theorem ChainInv.replace (inv : ChainInv key chain) (before : chain.slots = pre ++ ent :: post)
    (later : after.slots = pre ++ ent' :: post) (full : ∀ other ∈ pre, other.valid = true)
    (isValid : ent'.valid = true) (here : l2fdbKey ent'.mac = key)
    (fresh : ∀ other ∈ pre ++ post, isEntOf ent'.mac other = false) : ChainInv key after := by
  have valids :
      validEnts after = pre.filter L2fdbEnt.valid ++ ent' :: post.filter L2fdbEnt.valid := by
    rw [validEnts, later, List.filter_append, List.filter_cons_of_pos isValid]
  have others :
      (pre.filter L2fdbEnt.valid ++ post.filter L2fdbEnt.valid).Sublist (validEnts chain) := by
    rw [← List.filter_append, validEnts, before]
    exact (List.Sublist.append_left (List.sublist_cons_self ..) _).filter _
  refine ⟨?_, ?_, ?_⟩
  · have inOrder := inv.inOrder
    rw [before] at inOrder
    have tail := (List.pairwise_cons.mp (List.pairwise_append.mp inOrder).2.1).2
    rw [later]
    exact inOrder_of_full full (List.pairwise_cons.mpr ⟨fun _ _ _ => isValid, tail⟩)
  · intro other member
    rw [valids, List.mem_append, List.mem_cons, or_left_comm, ← List.mem_append] at member
    rcases member with rfl | member
    · exact here
    · exact inv.keyed other (others.subset member)
  · rw [valids, List.map_append, List.map_cons, List.nodup_middle, List.nodup_cons,
      ← List.map_append]
    refine ⟨?_, inv.distinct.sublist (others.map _)⟩
    rw [← List.filter_append]
    exact mac_notMem fresh

theorem InOrder.full_before (inOrder : InOrder (pre ++ ent :: post)) (isValid : ent.valid = true) :
    ∀ other ∈ pre, other.valid = true :=
  fun other member =>
    (List.pairwise_append.mp inOrder).2.2 other member ent List.mem_cons_self isValid

theorem ChainInv.rewrite (inv : ChainInv key chain) (before : chain.slots = pre ++ ent :: post)
    (later : after.slots = pre ++ ent' :: post) (isValid : ent.valid = true)
    (isValid' : ent'.valid = true) (sameMac : ent'.mac = ent.mac) : ChainInv key after := by
  have member : ent ∈ validEnts chain := by simp [validEnts, before, isValid]
  refine inv.replace before later ?_ isValid' ?_ ?_
  · exact (before ▸ inv.inOrder).full_before isValid
  · rw [sameMac]
    exact inv.keyed ent member
  · rw [sameMac]
    exact inv.fresh_others before isValid

/-- A MAC that has no entry in its chain may take any slot behind valid ones. -/
theorem ChainInv.insert (inv : ChainInv (l2fdbKey mac) chain)
    (before : chain.slots = pre ++ ent :: post) (later : after.slots = pre ++ ent' :: post)
    (full : ∀ other ∈ pre, other.valid = true) (stored : Stored ent' mac port)
    (fresh : ∀ other ∈ chain.slots, isEntOf mac other = false) : ChainInv (l2fdbKey mac) after := by
  refine inv.replace before later full stored.valid (by rw [stored.mac]) ?_
  intro other member
  rw [before] at fresh
  rw [stored.mac]
  exact fresh other ((List.Sublist.append_left (List.sublist_cons_self ..) _).subset member)

theorem ChainInv.grow (inv : ChainInv key chain) (later : after.slots = chain.slots ++ [ent', {}])
    (full : ∀ other ∈ chain.slots, other.valid = true) (isValid : ent'.valid = true)
    (here : l2fdbKey ent'.mac = key)
    (fresh : ∀ other ∈ chain.slots, isEntOf ent'.mac other = false) : ChainInv key after := by
  have valids : validEnts after = validEnts chain ++ [ent'] := by
    rw [validEnts, later, List.filter_append, List.filter_cons_of_pos isValid]
    rfl
  refine ⟨?_, ?_, ?_⟩
  · rw [later]
    exact inOrder_of_full full
      (List.pairwise_cons.mpr ⟨fun _ _ _ => isValid, List.pairwise_singleton ..⟩)
  · intro other member
    rw [valids, List.mem_append, List.mem_singleton] at member
    rcases member with member | rfl
    · exact inv.keyed other member
    · exact here
  · rw [valids, List.map_append, List.map_singleton, List.nodup_append_comm,
      List.singleton_append, List.nodup_cons]
    exact ⟨mac_notMem fresh, inv.distinct⟩

end Chain

theorem Learned.inv (learned : Learned mac port clock chain after)
    (inv : ChainInv (l2fdbKey mac) chain) : ChainInv (l2fdbKey mac) after := by
  cases learned with
  | update before fresh known later sameLength stored =>
    obtain ⟨isValid, same⟩ := isEntOf_iff.mp known
    exact inv.rewrite before later isValid stored.valid (stored.mac.trans same.symm)
  | fill before fresh full empty later sameLength stored =>
    exact inv.insert before later full stored fresh
  | evict before there fresh full expired later sameLength replaced stored =>
    rw [before] at full
    exact inv.insert before later (fun other member => full other (List.mem_append_left _ member))
      stored fresh
  | grow fresh full later stored =>
    refine inv.grow later full stored.valid (by rw [stored.mac]) ?_
    rwa [stored.mac]

theorem FdbInv.l2fdbLearn (inv : FdbInv fdb) (mac : BitVec 48) (port : BitVec 32)
    (clock : Slot → Int) (now : Int) : FdbInv (l2fdbLearn fdb mac port clock now) := by
  obtain ⟨after, out, result, learned⟩ := learned_l2fdbLearn fdb mac port clock now
  rw [result]
  exact inv.putChain (learned.inv (inv _)) out

theorem FdbInv.l2fdbLookup (inv : FdbInv fdb) (mac : BitVec 48) (now : Int) :
    FdbInv (l2fdbLookup fdb mac now).1 := by
  simp only [OpenMul.l2fdbLookup]
  split
  · rename_i slot ent found
    obtain ⟨known, before, rest, visited, -⟩ := List.find?_eq_some_iff_append.mp found
    obtain ⟨parts, -, written⟩ := BucketChain.walk_split Nat.zero_lt_two visited
    obtain ⟨isValid, -⟩ := isEntOf_iff.mp known
    have rewritten : ({ ent with timestamp := now } : L2fdbEnt).valid = true := isValid
    exact inv.putChain ((inv _).rewrite parts (written _).1 isValid rewritten rfl) []
  · exact inv

theorem ageChain_foldl (sweep : Sweep) (keys : List Nat) (nodup : keys.Nodup) (before : Fdb × Int) :
    (∀ key ∈ keys, ∃ dstEntIdx, (keys.foldl (ageChain sweep) before).1.appFlowTbl key =
      agedChain sweep (before.1.appFlowTbl key) dstEntIdx) ∧
    ∀ key ∉ keys,
      (keys.foldl (ageChain sweep) before).1.appFlowTbl key = before.1.appFlowTbl key := by
  induction keys generalizing before with
  | nil => simp
  | cons first rest ih =>
    obtain ⟨absent, nodup⟩ := List.nodup_cons.mp nodup
    obtain ⟨swept, kept⟩ := ih nodup (ageChain sweep before first)
    have others : ∀ key ≠ first,
        (ageChain sweep before first).1.appFlowTbl key = before.1.appFlowTbl key :=
      fun key apart => Fdb.putChain_other _ apart _ _
    refine ⟨fun key member => ?_, fun key missing => ?_⟩
    · rcases List.mem_cons.mp member with rfl | later
      · refine ⟨before.2, ?_⟩
        rw [List.foldl_cons, kept key absent]
        exact Fdb.putChain_same ..
      · obtain ⟨dstEntIdx, result⟩ := swept key later
        rw [others key fun same => absent (same ▸ later)] at result
        exact ⟨dstEntIdx, result⟩
    · obtain ⟨apart, missing⟩ := not_or.mp (mt List.mem_cons.mpr missing)
      rw [List.foldl_cons, kept key missing, others key apart]

-- Stated for any size: at the size of the table the kernel would write out its range.
private theorem walked_chain {walk : Fdb → Sweep → Fdb}
    (walks : walk = fun fdb sweep => ((List.range size).foldl (ageChain sweep) (fdb, -1)).1)
    (fdb : Fdb) (sweep : Sweep) (key : Nat) :
    (key < size → ∃ dstEntIdx,
      (walk fdb sweep).appFlowTbl key = agedChain sweep (fdb.appFlowTbl key) dstEntIdx) ∧
    (¬key < size → (walk fdb sweep).appFlowTbl key = fdb.appFlowTbl key) := by
  obtain ⟨swept, kept⟩ := ageChain_foldl sweep (List.range size) List.nodup_range (fdb, -1)
  rw [walks]
  exact ⟨fun inside => swept key (List.mem_range.mpr inside),
    fun outside => kept key (mt List.mem_range.mp outside)⟩

theorem l2fdbAging_chain (fdb : Fdb) (sweep : Sweep) (key : Nat) :
    (key < cL2fdbSz → ∃ dstEntIdx, (l2fdbAging fdb sweep).appFlowTbl key =
      agedChain sweep (fdb.appFlowTbl key) dstEntIdx) ∧
    (¬key < cL2fdbSz → (l2fdbAging fdb sweep).appFlowTbl key = fdb.appFlowTbl key) :=
  @walked_chain cL2fdbSz l2fdbAging rfl fdb sweep key

theorem FdbInv.l2fdbAging (inv : FdbInv fdb) (sweep : Sweep) : FdbInv (l2fdbAging fdb sweep) := by
  intro key
  obtain ⟨swept, kept⟩ := l2fdbAging_chain fdb sweep key
  by_cases inside : key < cL2fdbSz
  · obtain ⟨dstEntIdx, result⟩ := swept inside
    obtain ⟨inOrder, survivors⟩ := agedChain_spec (inv key).inOrder sweep dstEntIdx
    rw [result]
    refine ⟨inOrder, ?_, ?_⟩
    · intro ent member
      rw [survivors] at member
      exact (inv key).keyed ent (List.mem_filter.mp member).1
    · rw [survivors]
      exact (inv key).distinct.sublist (List.filter_sublist.map _)
  · rw [kept inside]
    exact inv key

theorem fdbInv_of_reaches (reached : fdbMachine.Reaches fdb) : FdbInv fdb := by
  apply Machine.Reaches.invariant FdbInv _ _ reached
  · rintro fdb rfl
    exact fdbInv_init
  · intro fdb op _ inv _
    rw [fdbMachine]
    cases op with
    | learn mac port clock now => exact inv.l2fdbLearn mac port clock now
    | lookup mac now => exact inv.l2fdbLookup mac now
    | aging sweep =>
      simp only [FdbOp.exec]
      exact inv.l2fdbAging sweep

/-- No two valid entries of the table have one MAC. -/
def MacsUnique (fdb : Fdb) : Prop :=
  ∀ (key₁ key₂ place₁ place₂ : Nat) (ent₁ ent₂ : L2fdbEnt),
    (fdb.appFlowTbl key₁).slots[place₁]? = some ent₁ →
    (fdb.appFlowTbl key₂).slots[place₂]? = some ent₂ → ent₁.valid = true → ent₂.valid = true →
    ent₁.mac = ent₂.mac → key₁ = key₂ ∧ place₁ = place₂

theorem ChainInv.place_unique (inv : ChainInv key chain) {place₁ place₂ : Nat}
    {ent₁ ent₂ : L2fdbEnt} (first : chain.slots[place₁]? = some ent₁)
    (second : chain.slots[place₂]? = some ent₂) (valid₁ : ent₁.valid = true)
    (valid₂ : ent₂.valid = true) (sameMac : ent₁.mac = ent₂.mac) : ¬place₁ < place₂ := by
  intro before
  obtain ⟨inside₁, rfl⟩ := List.getElem?_eq_some_iff.mp first
  obtain ⟨inside₂, rfl⟩ := List.getElem?_eq_some_iff.mp second
  have apart := List.pairwise_filter.mp (List.pairwise_map.mp inv.distinct)
  exact List.pairwise_iff_getElem.mp apart place₁ place₂ inside₁ inside₂ before valid₁ valid₂
    sameMac

theorem FdbInv.macsUnique (inv : FdbInv fdb) : MacsUnique fdb := by
  intro key₁ key₂ place₁ place₂ ent₁ ent₂ first second valid₁ valid₂ sameMac
  have member₁ : ent₁ ∈ validEnts (fdb.appFlowTbl key₁) :=
    List.mem_filter.mpr ⟨List.mem_of_getElem? first, valid₁⟩
  have member₂ : ent₂ ∈ validEnts (fdb.appFlowTbl key₂) :=
    List.mem_filter.mpr ⟨List.mem_of_getElem? second, valid₂⟩
  obtain rfl : key₁ = key₂ := by
    rw [← (inv key₁).keyed ent₁ member₁, ← (inv key₂).keyed ent₂ member₂, sameMac]
  refine ⟨rfl, Nat.le_antisymm ?_ ?_⟩
  · exact Nat.le_of_not_lt ((inv key₁).place_unique second first valid₂ valid₁ sameMac.symm)
  · exact Nat.le_of_not_lt ((inv key₁).place_unique first second valid₁ valid₂ sameMac)

theorem InOrder.bucket {chain : L2fdbChain} (inOrder : InOrder chain.slots)
    {bkt : Vector L2fdbEnt cFdbEntPerBkt} (member : bkt ∈ chain) : InOrder bkt.toList := by
  apply List.Pairwise.sublist _ inOrder
  exact List.sublist_flatten_of_mem (List.mem_map_of_mem member)

/-- Chains of whole runs are packed and distinct, and aging keeps exactly the fresh entries. -/
theorem l2fdbAging_exact {fdb : Fdb} (reached : fdbMachine.Reaches fdb) :
    (∀ key, ∀ bkt ∈ fdb.appFlowTbl key, InOrder bkt.toList) ∧ MacsUnique fdb ∧
    ∀ sweep : Sweep, ∀ key < cL2fdbSz, validEnts ((l2fdbAging fdb sweep).appFlowTbl key) =
        (validEnts (fdb.appFlowTbl key)).filter fun ent =>
          ¬sweep.currTime > ent.timestamp + cFdbHtimeo + 2 ∧ ¬sweep.onDownPort ent ∧
            ¬(sweep.checkPort ∧ ent.port = sweep.port) := by
  have inv := fdbInv_of_reaches reached
  refine ⟨fun key bkt member => (inv key).inOrder.bucket member, inv.macsUnique, ?_⟩
  intro sweep key inside
  obtain ⟨dstEntIdx, result⟩ := (l2fdbAging_chain fdb sweep key).1 inside
  rw [result, (agedChain_spec (inv key).inOrder sweep dstEntIdx).2]
  apply List.filter_congr
  intro ent _
  apply Bool.eq_iff_iff.mpr
  simp [Sweep.agesOut, Sweep.invalid]

/-- Two MACs that share a chain; the first is learnt long before the second. -/
def sharedChainOps : List FdbOp :=
  [.learn 0x000000000001 7 (fun _ => 0) 0, .learn 0x010000000001 8 (fun _ => 400) 400]

theorem l2fdbAging_exact_shared :
    validEnts ((l2fdbAging (fdbMachine.execAll l2fdbInit sharedChainOps)
        { currTime := 401, port := 0, checkPort := false, portFind := fun _ => none }).appFlowTbl
      65536) = [{ timestamp := 400, port := 8, valid := true, mac := 0x010000000001 }] := by
  have reached : fdbMachine.Reaches (fdbMachine.execAll l2fdbInit sharedChainOps) :=
    .execAll (.start rfl) ⟨trivial, trivial, trivial⟩
  have aged := (l2fdbAging_exact reached).2.2
    { currTime := 401, port := 0, checkPort := false, portFind := fun _ => none } 65536 (by decide)
  exact aged.trans (by decide)

/-- The entry of `other` had expired, and the learnt MAC was given its slot. -/
def EvictedBy (fdb after : Fdb) (clock : Slot → Int) (mac other : BitVec 48) : Prop :=
  ∃ slot ent ent', (fdb.appFlowTbl (l2fdbKey other)).slotAt slot = some ent ∧
    isEntOf other ent = true ∧ clock slot > ent.timestamp + cFdbHtimeo + 10 ∧
    (after.appFlowTbl (l2fdbKey other)).slotAt slot = some ent' ∧ isEntOf mac ent' = true

/-- Lookup after learning, exactly when the port fits or the MAC was known. -/
theorem l2fdbLookup_l2fdbLearn (fdb : Fdb) (mac : BitVec 48) (port : BitVec 32) (clock : Slot → Int)
    (now lookupTime : Int) :
    ((l2fdbLookup (l2fdbLearn fdb mac port clock now) mac lookupTime).2.map L2fdbEnt.port =
      some port ∧
      ∀ other ≠ mac,
        (l2fdbLookup (l2fdbLearn fdb mac port clock now) other lookupTime).2.map L2fdbEnt.port =
          (l2fdbLookup fdb other lookupTime).2.map L2fdbEnt.port ∨
        EvictedBy fdb (l2fdbLearn fdb mac port clock now) clock mac other) ↔ port.toNat < 2 ^ 16 ∨
        ∃ ent ∈ (fdb.appFlowTbl (l2fdbKey mac)).slots, ent.valid = true ∧ ent.mac = mac := by
  obtain ⟨after, out, result, learned⟩ := learned_l2fdbLearn fdb mac port clock now
  obtain ⟨ent', found, exactPort⟩ := learned.findEnt_same
  simp only [isEntOf_iff] at exactPort
  have others : ∀ other ≠ mac,
      (l2fdbLookup (fdb.putChain (l2fdbKey mac) after out) other lookupTime).2.map L2fdbEnt.port =
        (l2fdbLookup fdb other lookupTime).2.map L2fdbEnt.port ∨
      EvictedBy fdb (fdb.putChain (l2fdbKey mac) after out) clock mac other := by
    intro other apart
    rw [l2fdbLookup_eq, l2fdbLookup_eq]
    by_cases shared : l2fdbKey other = l2fdbKey mac
    · simp only [EvictedBy, shared, Fdb.putChain_same]
      exact (learned.findEnt_other apart).imp_left fun same => by rw [same]
    · rw [Fdb.putChain_other _ shared]
      exact .inl rfl
  rw [result, and_iff_left others, l2fdbLookup_eq, Fdb.putChain_same, found, ← exactPort]
  simp

/-- A port above 16 bits is learnt for a MAC seen again. -/
theorem l2fdbLookup_l2fdbLearn_known :
    (l2fdbLookup (l2fdbLearn (fdbMachine.execAll l2fdbInit sharedChainOps) 0x000000000001 0x10001
      (fun _ => 401) 401) 0x000000000001 402).2.map L2fdbEnt.port = some 0x10001 :=
  ((l2fdbLookup_l2fdbLearn _ _ _ _ _ _).mpr (.inr (by decide))).1

/-- For a new MAC it is cut to its low 16 bits. -/
theorem l2fdbLearn_cuts_port : fdbMachine.Reaches l2fdbInit ∧
    (l2fdbLookup (l2fdbLearn l2fdbInit 0x000000000001 0x10001 (fun _ => 0) 0) 0x000000000001
      1).2.map L2fdbEnt.port = some 1 :=
  ⟨.start rfl, by decide⟩

end OpenMul
