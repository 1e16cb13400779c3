import OpenMul.Core.AppBalance
import OpenMul.Core.InstSound

namespace OpenMul

open Lib
open List hiding elem

/-- The constructors are those of the version the switch speaks. Groups and meters
need 1.3. -/
def CtrlSwitch.Versioned (node : CtrlSwitch) : Prop :=
  node.sw.ofpCtors ≠ .of10 → node.cmd.validateActs = some of131ValidateActs

/-- A bucket as it lies in a message. -/
def ActVecElem.encode (elem : ActVecElem) (pad : List Byte) : List Byte :=
  toBytes 2 elem.weight.toNat ++ (toBytes 2 elem.actions.length ++ (toBytes 4 elem.ffPort.toNat ++
    (toBytes 4 elem.ffGroup.toNat ++ (pad ++ elem.actions))))

/-- The buckets a payload begins with, and the bytes left behind them. -/
inductive BucketsSplit : List ActVecElem → List Byte → List Byte → Prop where
  | nil (rest : List Byte) : BucketsSplit [] rest rest
  | cons {elem : ActVecElem} {elems : List ActVecElem} {pad bytes rest : List Byte}
      (padded : pad.length = 4) (short : elem.actions.length < 2 ^ 16)
      (later : BucketsSplit elems bytes rest) :
      BucketsSplit (elem :: elems) (elem.encode pad ++ bytes) rest

/-- A meter band with the length it says. -/
def BandWhole (band : List Byte) : Prop := 12 ≤ band.length ∧
    (wordAt 16 (band.drop 2)).toNat = band.length

variable {bytes : List Byte} {room : Nat} {p done : GroupModParams}

section Buckets

variable {node : CtrlSwitch}

theorem validateBucket_actions (versioned : node.Versioned) (supported : node.sw.ofpCtors ≠ .of10)
    (actions : List Byte) : (node.validateBucket actions).actions = actions := by
  unfold CtrlSwitch.validateBucket
  rw [versioned supported]
  unfold of131ValidateActs of131ValidateActions of131ParseInstructions
  have none : (if BitVec.ofNat 64 actions.length = 0 then of131CheckInstParsers.noInst else none) =
      none := by
    split <;> rfl
  simp only [none]
  exact (checkActions_keeps _ _ _ _).1

/-- The bucket a memory begins with. -/
def ActVecElem.read (bytes : List Byte) : ActVecElem :=
  ⟨wordAt 16 bytes, wordAt 32 (bytes.drop 4), wordAt 32 (bytes.drop 8),
    (bytes.drop 16).take (wordAt 16 (bytes.drop 2)).toNat⟩

theorem encode_read (head : 16 ≤ bytes.length)
    (inside : (wordAt 16 (bytes.drop 2)).toNat ≤ bytes.length - 16) :
    (ActVecElem.read bytes).encode ((bytes.drop 12).take 4) ++
      bytes.drop (16 + (wordAt 16 (bytes.drop 2)).toNat) = bytes := by
  have length : ((bytes.drop 16).take (wordAt 16 (bytes.drop 2)).toNat).length =
      (wordAt 16 (bytes.drop 2)).toNat := by
    rw [length_take, length_drop]
    exact Nat.min_eq_left inside
  have room : ∀ start size, start + size ≤ 16 → size ≤ (bytes.drop start).length := by
    intro start size within
    rw [length_drop]
    omega
  -- every field is the bytes it was read from, and the fields follow each other
  simp only [ActVecElem.encode, ActVecElem.read, length]
  rw [toBytes_wordAt rfl (show 2 ≤ bytes.length by omega),
    toBytes_wordAt rfl (room 2 2 (by decide)), toBytes_wordAt rfl (room 4 4 (by decide)),
      toBytes_wordAt rfl (room 8 4 (by decide))]
  have tail : ∀ start size,
      (bytes.drop start).take size ++ bytes.drop (start + size) = bytes.drop start := by
    intro start size
    rw [← drop_drop, take_append_drop]
  simp only [append_assoc]
  rw [tail 16, tail 12 4, tail 8 4, tail 4 4, tail 2 2, take_append_drop]

theorem groupModBuckets_group
    (taken : groupModBuckets node room bytes p = some done) : done.group = p.group := by
  induction room generalizing bytes p with
  | zero =>
    cases taken
    rfl
  | succ room ih =>
    simp only [groupModBuckets] at taken
    split at taken
    · cases taken
      rfl
    split at taken
    · cases taken
    split at taken
    · cases taken
    · have same := ih taken
      exact same

theorem groupModBuckets_split (versioned : node.Versioned) (supported : node.sw.ofpCtors ≠ .of10)
    (taken : groupModBuckets node room bytes p = some done) :
    ∃ elems rest, done.actVectors = p.actVectors ++ elems ∧
      BucketsSplit elems bytes rest ∧ (rest.length < 16 ∨ elems.length = room) ∧
      ∀ elem ∈ elems, (node.validateBucket elem.actions).ret = 0 := by
  induction room generalizing bytes p with
  | zero =>
    cases taken
    exact ⟨[], bytes, by simp, .nil bytes, .inr rfl, forall_mem_nil _⟩
  | succ room ih =>
    simp only [groupModBuckets] at taken
    split at taken
    · rename_i ended
      cases taken
      exact ⟨[], bytes, by simp, .nil bytes, .inl ended, forall_mem_nil _⟩
    rename_i head
    split at taken
    · cases taken
    rename_i inside
    split at taken
    · cases taken
    · rename_i passed
      obtain ⟨elems, rest, stored, split, stopped, accepted⟩ := ih taken
      rw [validateBucket_actions versioned supported] at stored
      refine ⟨ActVecElem.read bytes :: elems, rest, ?_, ?_, ?_, ?_⟩
      · rw [stored, append_assoc]
        rfl
      · have whole := encode_read (Nat.le_of_not_lt head) (Nat.le_of_not_lt inside)
        refine (congrArg (BucketsSplit _ · rest) whole).mp (.cons ?_ ?_ split)
        · rw [length_take, length_drop]
          omega
        · exact Nat.lt_of_le_of_lt (length_take_le _ _) (wordAt 16 (bytes.drop 2)).isLt
      · exact stopped.imp id (congrArg Nat.succ)
      · exact forall_mem_cons.mpr ⟨Decidable.not_not.mp passed, accepted⟩

private theorem toBytes_inj (small : value < 256 ^ size) (otherSmall : other < 256 ^ size)
    (same : toBytes size value = toBytes size other) : value = other := by
  have numbers := congrArg ofBytes same
  rwa [ofBytes_toBytes, ofBytes_toBytes, Nat.mod_eq_of_lt small, Nat.mod_eq_of_lt otherSmall]
    at numbers

theorem encode_inj {other : ActVecElem} {pad otherPad otherBytes : List Byte}
    (padded : pad.length = 4) (otherPadded : otherPad.length = 4)
    (short : elem.actions.length < 2 ^ 16) (otherShort : other.actions.length < 2 ^ 16)
    (same : elem.encode pad ++ bytes = other.encode otherPad ++ otherBytes) :
    elem = other ∧ bytes = otherBytes := by
  simp only [ActVecElem.encode, append_assoc] at same
  obtain ⟨weight, same⟩ := append_inj same (by simp)
  obtain ⟨length, same⟩ := append_inj same (by simp)
  obtain ⟨ffPort, same⟩ := append_inj same (by simp)
  obtain ⟨ffGroup, same⟩ := append_inj same (by simp)
  obtain ⟨_, same⟩ := append_inj same (padded.trans otherPadded.symm)
  obtain ⟨actions, same⟩ := append_inj same (toBytes_inj short otherShort length)
  have weights := BitVec.eq_of_toNat_eq (toBytes_inj elem.weight.isLt other.weight.isLt weight)
  have ports := BitVec.eq_of_toNat_eq (toBytes_inj elem.ffPort.isLt other.ffPort.isLt ffPort)
  have groups := BitVec.eq_of_toNat_eq (toBytes_inj elem.ffGroup.isLt other.ffGroup.isLt ffGroup)
  refine ⟨?_, same⟩
  cases elem
  cases other
  exact (ActVecElem.mk.injEq ..).mpr ⟨weights, ports, groups, actions⟩

theorem BucketsSplit.length
    (split : BucketsSplit elems bytes rest) :
    bytes.length = (elems.map fun elem => 16 + elem.actions.length).sum + rest.length := by
  induction split with
  | nil => simp
  | cons padded _ _ ih =>
    simp only [ActVecElem.encode, length_append, length_toBytes, padded, map_cons, sum_cons, ih]
    omega

theorem BucketsSplit.unique {rest : List Byte}
    (split : BucketsSplit elems bytes rest) (filled : BucketsSplit intended bytes [])
    (stopped : rest.length < 16 ∨ intended.length ≤ elems.length) :
    elems = intended ∧ rest = [] := by
  induction split generalizing intended with
  | nil rest =>
    cases filled with
    | nil => exact ⟨rfl, rfl⟩
    | cons padded _ _ =>
      simp [ActVecElem.encode, padded] at stopped
      omega
  | @cons elem elems pad bytes rest padded short later ih =>
    generalize whole : elem.encode pad ++ bytes = payload at filled
    cases filled with
    | nil => simp [ActVecElem.encode, toBytes] at whole
    | cons otherPadded otherShort otherLater =>
      obtain ⟨rfl, rfl⟩ := encode_inj padded otherPadded short otherShort whole
      obtain ⟨rfl, ended⟩ := ih otherLater (by simpa using stopped)
      exact ⟨rfl, ended⟩

end Buckets

theorem meterModBands_split {done : List (List Byte)}
    (taken : meterModBands room bytes bands = some done) :
    ∃ more rest, done = bands ++ more ∧ more.flatten ++ rest = bytes ∧
      (rest.length < 12 ∨ more.length = room) := by
  induction room generalizing bytes bands with
  | zero =>
    cases taken
    exact ⟨[], bytes, by simp, rfl, .inr rfl⟩
  | succ room ih =>
    simp only [meterModBands] at taken
    split at taken
    · rename_i ended
      cases taken
      exact ⟨[], bytes, by simp, rfl, .inl ended⟩
    split at taken
    · cases taken
    · obtain ⟨more, rest, stored, split, stopped⟩ := ih taken
      refine ⟨bytes.take (wordAt 16 (bytes.drop 2)).toNat :: more, rest, ?_, ?_,
        stopped.imp id (congrArg Nat.succ)⟩
      · rw [stored, append_assoc]
        rfl
      · rw [flatten_cons, append_assoc, split, take_append_drop]

theorem meterModBands_whole (whole : ∀ band ∈ intended, BandWhole band)
    (few : intended.length ≤ room) :
    meterModBands room intended.flatten bands = some (bands ++ intended) := by
  induction intended generalizing room bands with
  | nil => cases room <;> simp [meterModBands]
  | cons band intended ih =>
    cases room with
    | zero => cases few
    | succ room =>
      obtain ⟨head, told⟩ := whole band mem_cons_self
      have later := @ih room (bands ++ [band])
        (fun other member => whole other (mem_cons_of_mem _ member)) (Nat.le_of_succ_le_succ few)
      have length : (wordAt 16 ((band ++ intended.flatten).drop 2)).toNat = band.length := by
        rw [drop_append_of_le_length (by omega), wordAt_append (by rw [length_drop]; omega), told]
      simp only [meterModBands, flatten_cons, length, take_left, drop_left]
      rw [if_neg (by rw [length_append]; omega), if_neg (by rw [length_append]; omega), later,
        append_assoc]
      rfl

section Table

variable {Body : Type} {table : List (Counted (BitVec 32) Body)} {object : Counted (BitVec 32) Body}
  {key : BitVec 32}

theorem lookup_setBody (found : RefTable.lookup table key = some object) (body : Body) :
    RefTable.lookup (setBody table object.ptr body) key = some { object with body } := by
  have keyed : ∀ other : Counted (BitVec 32) Body,
      (if other.ptr = object.ptr then { other with body } else other).key = other.key := by
    intro other
    split <;> rfl
  have searched : ((fun other : Counted (BitVec 32) Body => other.key == key) ∘
      fun other => if other.ptr = object.ptr then { other with body } else other) =
      fun other => other.key == key := by
    funext other
    simp [keyed]
  unfold RefTable.lookup setBody at *
  rw [find?_map, searched, found, Option.map_some, if_pos rfl]

/-- Tables that differ in the bodies of one id, in the way given. -/
def SameBut (key : BitVec 32) (change : Body → Body → Prop)
    (table after : List (Counted (BitVec 32) Body)) : Prop :=
  List.Forall₂ (fun before now => now = before ∨
    before.key = key ∧ ∃ body, change before.body body ∧ now = { before with body }) table after

theorem SameBut.refl (key : BitVec 32) (change : Body → Body → Prop)
    (table : List (Counted (BitVec 32) Body)) : SameBut key change table table :=
  forall₂_same.mpr fun _ _ => .inl rfl

theorem SameBut.setBody (distinct : (table.map Counted.ptr).Nodup)
    (found : RefTable.lookup table key = some object) (changed : change object.body body) :
    SameBut key change table (setBody table object.ptr body) := by
  have member : object ∈ table := mem_of_find?_eq_some found
  have keyed : object.key = key := by simpa using find?_some found
  refine forall₂_map_right_iff.mpr (forall₂_same.mpr fun before there => ?_)
  split
  · rename_i at_ptr
    have same := inj_on_of_nodup_map distinct there member at_ptr
    subst same
    exact .inr ⟨keyed, body, changed, rfl⟩
  · exact .inl rfl

/-- What adding an object under a key can come to. -/
inductive AddResult (key : BitVec 32) (holds : Body → Prop) (cleared : Body → Body)
    (table : List (Counted (BitVec 32) Body)) : List (Counted (BitVec 32) Body) → Int → Prop where
  | refused {ret : Int} (error : ret ≠ 0) : AddResult key holds cleared table table ret
  | kept {object : Counted (BitVec 32) Body}
    {ret : Int} (found : RefTable.lookup table key = some object)
      (error : ret ≠ 0) :
        AddResult key holds cleared table (setBody table object.ptr (cleared object.body)) ret
  | changed {object : Counted (BitVec 32) Body} {body : Body}
      (found : RefTable.lookup table key = some object) (stored : holds body) :
      AddResult key holds cleared table (setBody table object.ptr body) 0
  | added
    {object : Counted (BitVec 32) Body} (keyed : object.key = key) (stored : holds object.body) :
      AddResult key holds cleared table (object :: table) 0

variable {holds : Body → Prop} {cleared : Body → Body} {after : List (Counted (BitVec 32) Body)}
    {ret : Int}

theorem AddResult.stored (result : AddResult key holds cleared table after ret)
    (success : ret = 0) :
    ∃ object, RefTable.lookup after key = some object ∧ holds object.body := by
  cases result with
  | refused error | kept _ error => exact absurd success error
  | changed found stored => exact ⟨_, lookup_setBody found _, stored⟩
  | @added object keyed stored =>
    exact ⟨object, find?_cons_of_pos (by rw [keyed, beq_self_eq_true]), stored⟩

theorem AddResult.unchanged (result : AddResult key holds cleared table after ret)
    (failure : ret ≠ 0) (distinct : (table.map Counted.ptr).Nodup) {change : Body → Body → Prop}
    (allowed : ∀ body, change body (cleared body)) : SameBut key change table after := by
  cases result with
  | refused => exact .refl ..
  | kept found => exact .setBody distinct found (allowed _)
  | changed | added => exact absurd rfl failure

end Table

/-- A group whose addition is refused is not stale any more. -/
def StaleCleared (before after : GroupBody) : Prop :=
  after = { before with flags := clearFlag before.flags grpStale }

def FlagsChanged (before after : MeterBody) : Prop := ∃ flags, after = { before with flags }

section Request

variable {sw : Switch} {ptr now : Nat}

theorem groupAdd_result (p : GroupModParams) :
    AddResult p.group (fun body => body.actVectors = p.actVectors)
      (fun body => { body with flags := clearFlag body.flags grpStale })
      sw.groups (groupAdd sw p ptr now).1.groups (groupAdd sw p ptr now).2 := by
  unfold groupAdd
  split
  · exact .refused (show (-1 : Int) ≠ 0 by decide)
  split
  · dsimp only
    split
    · rename_i group found
      split
      · exact .kept found (show -eexist ≠ 0 by decide)
      · exact .changed found rfl
    · exact .added rfl rfl
  · exact .refused (show (-1 : Int) ≠ 0 by decide)

theorem meterAdd_result (p : MeterModParams) :
    AddResult p.meter (fun body => body.meterBands = p.meterBands)
      (fun body => { body with flags := clearFlag body.flags (grpStale.zeroExtend 16) })
      sw.meters (meterAdd sw p ptr now).1.meters (meterAdd sw p ptr now).2 := by
  unfold meterAdd
  split
  · exact .refused (show (-1 : Int) ≠ 0 by decide)
  dsimp only
  split
  · rename_i meter found
    split
    · exact .kept found (show -eexist ≠ 0 by decide)
    · exact .changed found rfl
  · exact .added rfl rfl

theorem groupDel_refused (refused : (groupDel sw p).2 ≠ 0) :
    (groupDel sw p).1.groups = sw.groups := by
  revert refused
  unfold groupDel
  split
  · exact fun _ => rfl
  split
  · split
    · exact fun _ => rfl
    split
    · exact fun _ => rfl
    split
    · exact fun refused => absurd rfl refused
    · exact fun _ => rfl
  · exact fun _ => rfl

theorem meterDel_refused {p : MeterModParams} (refused : (meterDel sw p).2 ≠ 0) :
    (meterDel sw p).1.meters = sw.meters := by
  revert refused
  unfold meterDel
  split
  · exact fun _ => rfl
  split
  · exact fun _ => rfl
  split
  · exact fun _ => rfl
  split
  · exact fun refused => absurd rfl refused
  · exact fun _ => rfl

end Request

/-- Objects that exist at one time are at different addresses. -/
def CtrlSwitch.Allocated (node : CtrlSwitch) : Prop :=
  (node.sw.groups.map Counted.ptr).Nodup ∧ (node.sw.meters.map Counted.ptr).Nodup

/-- The buckets stored for a payload: those it begins with, and all of a well-formed one. -/
structure GroupDecoded (node : CtrlSwitch) (payload : List Byte) (stored : List ActVecElem) :
    Prop where
  split : ∃ rest, BucketsSplit stored payload rest ∧
    (rest.length < 16 ∨ stored.length = ofMaxActVectors)
  whole : ∀ intended, BucketsSplit intended payload [] → intended.length ≤ ofMaxActVectors →
    stored = intended
  accepted : ∀ elem ∈ stored, (node.validateBucket elem.actions).ret = 0

/-- The bands stored for a payload. -/
structure MeterDecoded (payload : List Byte) (stored : List (List Byte)) : Prop where
  split : ∃ rest, stored.flatten ++ rest = payload ∧
    (rest.length < 12 ∨ stored.length = ofMaxMeterVectors)
  whole : ∀ intended : List (List Byte), intended.flatten = payload →
    (∀ band ∈ intended, BandWhole band) →
    intended.length ≤ ofMaxMeterVectors → stored = intended

section Command

variable {node : CtrlSwitch} {app : App} {ptr now : Nat}

theorem groupModBuckets_decoded (versioned : node.Versioned) (supported : node.sw.ofpCtors ≠ .of10)
    (empty : p.actVectors = [])
    (taken : groupModBuckets node ofMaxActVectors payload p = some done) :
    GroupDecoded node payload done.actVectors := by
  obtain ⟨elems, rest, stored, split, stopped, accepted⟩ :=
    groupModBuckets_split versioned supported taken
  rw [empty] at stored
  rw [stored]
  refine ⟨⟨rest, split, stopped⟩, ?_, accepted⟩
  intro intended filled few
  apply (split.unique filled _).1
  rcases stopped with short | full
  · exact .inl short
  · exact .inr (full ▸ few)

theorem meterModBands_decoded {done : List (List Byte)}
    (taken : meterModBands ofMaxMeterVectors payload [] = some done) :
    MeterDecoded payload done := by
  obtain ⟨more, rest, stored, split, stopped⟩ := meterModBands_split taken
  subst stored
  refine ⟨⟨rest, split, stopped⟩, ?_⟩
  intro intended filled whole few
  have all := @meterModBands_whole _ intended [] whole few
  rw [filled, taken] at all
  exact Option.some.inj all

theorem groupAdd_supported (added : (groupAdd sw p ptr now).2 = 0) : sw.ofpCtors ≠ .of10 := by
  intro old
  rw [groupAdd, if_pos old] at added
  cases added

variable (sw : Switch)

theorem groupModOnSwitch_stored (versioned : node.Versioned)
    (speaks : sw.ofpCtors = node.sw.ofpCtors) {msg : GroupModMsg}
    (success : (groupModOnSwitch node msg true app ptr now sw).2 = 0) :
    ∃ group, RefTable.lookup (groupModOnSwitch node msg true app ptr now sw).1.groups msg.groupId =
      some group ∧ GroupDecoded node msg.buckets group.body.actVectors := by
  simp only [groupModOnSwitch, if_true] at success ⊢
  cases taken : groupModBuckets node ofMaxActVectors msg.buckets
      { appOwner := app, group := msg.groupId, type := msg.type, flags := msg.flags } with
  | none => simp [taken] at success
  | some p =>
    simp only [taken] at success ⊢
    split at success
    · rename_i error
      exact absurd success error
    · rename_i passed
      rw [if_neg passed]
      have supported := groupAdd_supported success
      have decoded := groupModBuckets_decoded versioned (speaks ▸ supported) rfl taken
      obtain ⟨group, found, stored⟩ := (groupAdd_result p).stored success
      rw [groupModBuckets_group taken] at found
      exact ⟨group, found, stored ▸ decoded⟩

theorem groupModOnSwitch_refused (distinct : (sw.groups.map Counted.ptr).Nodup) {msg : GroupModMsg}
    {add : Bool} (failure : (groupModOnSwitch node msg add app ptr now sw).2 ≠ 0) :
    SameBut msg.groupId StaleCleared sw.groups
      (groupModOnSwitch node msg add app ptr now sw).1.groups := by
  revert failure
  unfold groupModOnSwitch
  dsimp only
  split
  · exact fun _ => .refl ..
  rename_i p taken
  split
  · split
    · exact fun _ => .refl ..
    · intro failure
      have unchanged :=
        @AddResult.unchanged _ _ _ _ _ _ _ (groupAdd_result p) failure distinct StaleCleared
        fun _ => rfl
      rwa [groupModBuckets_group taken] at unchanged
  · intro failure
    rw [groupDel_refused failure]
    exact .refl ..

theorem meterModOnSwitch_stored
    (success : (meterModOnSwitch node msg true app ptr now sw).2 = 0) :
    ∃ meter, RefTable.lookup (meterModOnSwitch node msg true app ptr now sw).1.meters msg.meterId =
      some meter ∧ MeterDecoded msg.bands meter.body.meterBands := by
  simp only [meterModOnSwitch, if_true] at success ⊢
  cases taken : meterModBands ofMaxMeterVectors msg.bands [] with
  | none => simp [taken] at success
  | some bands =>
    simp only [taken] at success ⊢
    split at success
    · rename_i error
      exact absurd success error
    · rename_i passed
      rw [if_neg passed]
      obtain ⟨meter, found, stored⟩ := (meterAdd_result _).stored success
      exact ⟨meter, found, stored ▸ meterModBands_decoded taken⟩

theorem meterModOnSwitch_refused (distinct : (sw.meters.map Counted.ptr).Nodup) {msg : MeterModMsg}
    (failure : (meterModOnSwitch node msg add app ptr now sw).2 ≠ 0) :
    SameBut msg.meterId FlagsChanged sw.meters
      (meterModOnSwitch node msg add app ptr now sw).1.meters := by
  revert failure
  unfold meterModOnSwitch
  split
  · exact fun _ => .refl ..
  dsimp only
  split
  · split
    · exact fun _ => .refl ..
    · exact fun failure => (meterAdd_result _).unchanged failure distinct (fun _ => ⟨_, rfl⟩)
  · intro failure
    rw [meterDel_refused failure]
    exact .refl ..

end Command

namespace Controller

variable {ctrl : Controller} {app : App}

/-- The groups or the meters of the switch at a position. -/
def tableAt {Body : Type} (ctrl : Controller) (field : Switch → List (Counted (BitVec 32) Body))
    (pos : Nat) : List (Counted (BitVec 32) Body) :=
  (ctrl.switches[pos]?).elim [] fun node => field node.sw

/-- A command is refused at once, or is a request on the switch it names. -/
theorem appObjectCommand_cases (whole : Bool) (command : ModCommand) (dpid : BitVec 64)
    (request : CtrlSwitch → Bool → App → Switch → Switch × Int) :
    ctrl.appObjectCommand app whole command dpid request = (ctrl, -1) ∨
    ∃ pos node owner appRef, ctrl.deref (ctrl.swHashTbl dpid) = some (pos, node) ∧
      (ctrl.appObjectCommand app whole command dpid request).1.switches = ctrl.switches.modify pos
    (fun other =>
          { other with sw := (request node (command = .add) owner (node.sw.withRef appRef)).1 }) ∧
      (ctrl.appObjectCommand app whole command dpid request).2 =
        (request node (command = .add) owner (node.sw.withRef appRef)).2 := by
  unfold appObjectCommand
  split
  · exact .inl rfl
  cases known : ctrl.deref (ctrl.swHashTbl dpid) with
  | none => exact .inl rfl
  | some found =>
    obtain ⟨pos, node⟩ := found
    refine .inr ⟨pos, node, (ctrl.commandApp app).2, ctrl.heldRef app, rfl, ?_⟩
    simp only [commandApp_switchGet, onSwitch_settled, and_true]
    unfold dropApp
    split <;> rfl

section Table

variable {Body : Type} {field : Switch → List (Counted (BitVec 32) Body)}

theorem tableAt_modify {after : Controller} {pos : Nat} {node : CtrlSwitch} {sw : Switch}
    (there : ctrl.switches[pos]? = some node)
    (switches : after.switches = ctrl.switches.modify pos fun node => { node with sw })
    (other : Nat) :
    after.tableAt field other = if pos = other then field sw else ctrl.tableAt field other := by
  unfold tableAt
  rw [switches, getElem?_modify]
  split
  · rename_i same
    rw [← same, there]
    rfl
  · cases ctrl.switches[other]? <;> rfl

/-- What holds of every request holds of the command. -/
theorem appObjectCommand_decoded
    {decoded : CtrlSwitch → Body → Prop} {change : Body → Body → Prop}
    (stored : ∀ node ∈ ctrl.switches, ∀ owner appRef,
      (request node true owner (node.sw.withRef appRef)).2 = 0 →
      ∃ object, RefTable.lookup (field (request node true owner (node.sw.withRef appRef)).1) key =
        some object ∧
        decoded node object.body) (refused : ∀ node ∈ ctrl.switches, ∀ add owner appRef,
      (request node add owner (node.sw.withRef appRef)).2 ≠ 0 →
        SameBut key change (field node.sw)
          (field (request node add owner (node.sw.withRef appRef)).1))
    (whole : Bool) (command : ModCommand) (dpid : BitVec 64) :
    ((ctrl.appObjectCommand app whole command dpid request).2 = 0 → command = .add →
      ∃ pos node object, ctrl.deref (ctrl.swHashTbl dpid) = some (pos, node) ∧
        RefTable.lookup ((ctrl.appObjectCommand app whole command dpid request).1.tableAt field pos)
          key = some object ∧ decoded node object.body) ∧
    ((ctrl.appObjectCommand app whole command dpid request).2 ≠ 0 → ∀ pos, SameBut key change
      (ctrl.tableAt field pos)
    ((ctrl.appObjectCommand app whole command dpid request).1.tableAt field pos)) := by
  rcases @appObjectCommand_cases ctrl app whole command dpid request with
    early | ⟨pos, node, owner, appRef, known, switches, ret⟩
  · rw [early]
    exact ⟨fun success => absurd success (show (-1 : Int) ≠ 0 by decide), fun _ pos => .refl ..⟩
  · have there := deref_some known
    have member := mem_of_getElem? there
    constructor
    · intro success add
      subst add
      rw [ret] at success
      obtain ⟨object, found, held⟩ := stored node member owner appRef success
      refine ⟨pos, node, object, known, ?_, held⟩
      rw [tableAt_modify there switches, if_pos rfl]
      exact found
    · intro failure other
      rw [ret] at failure
      rw [tableAt_modify there switches]
      split
      · rename_i same
        rw [← same, tableAt, there]
        exact refused node member _ owner appRef failure
      · exact .refl ..

end Table

/-- An added group or meter holds the records of its message; a refused command
changes at most a mark. -/
theorem objectCommands_decoded (ctrl : Controller)
    (allocated : ∀ node ∈ ctrl.switches, node.Allocated)
    (versioned : ∀ node ∈ ctrl.switches, node.Versioned) (app : App) (ptr now : Nat) :
    (∀ msg : GroupModMsg, ((ctrl.appGroupModCommand app msg ptr now).2 = 0 → msg.command = .add →
        ∃ pos node group, ctrl.deref (ctrl.swHashTbl msg.datapathId) = some (pos, node) ∧
          RefTable.lookup ((ctrl.appGroupModCommand app msg ptr now).1.tableAt Switch.groups pos)
            msg.groupId = some group ∧ GroupDecoded node msg.buckets group.body.actVectors) ∧
      ((ctrl.appGroupModCommand app msg ptr now).2 ≠ 0 → ∀ pos, SameBut msg.groupId StaleCleared
        (ctrl.tableAt Switch.groups pos)
    ((ctrl.appGroupModCommand app msg ptr now).1.tableAt Switch.groups pos))) ∧
    ∀ msg : MeterModMsg, ((ctrl.appMeterModCommand app msg ptr now).2 = 0 → msg.command = .add →
        ∃ pos node meter, ctrl.deref (ctrl.swHashTbl msg.datapathId) = some (pos, node) ∧
          RefTable.lookup ((ctrl.appMeterModCommand app msg ptr now).1.tableAt Switch.meters pos)
            msg.meterId = some meter ∧ MeterDecoded msg.bands meter.body.meterBands) ∧
      ((ctrl.appMeterModCommand app msg ptr now).2 ≠ 0 → ∀ pos, SameBut msg.meterId FlagsChanged
        (ctrl.tableAt Switch.meters pos)
    ((ctrl.appMeterModCommand app msg ptr now).1.tableAt Switch.meters pos)) := by
  constructor
  · intro msg
    apply @appObjectCommand_decoded ctrl app GroupBody Switch.groups
      (fun node add owner => groupModOnSwitch node msg add owner ptr now) msg.groupId
      (fun node body => GroupDecoded node msg.buckets body.actVectors) StaleCleared
    · intro node member owner appRef success
      exact groupModOnSwitch_stored (node.sw.withRef appRef) (versioned node member) rfl success
    · intro node member add owner appRef failure
      exact groupModOnSwitch_refused (node.sw.withRef appRef) (allocated node member).1 failure
  · intro msg
    apply @appObjectCommand_decoded ctrl app MeterBody Switch.meters
      (fun node add owner => meterModOnSwitch node msg add owner ptr now) msg.meterId
      (fun _ body => MeterDecoded msg.bands body.meterBands) FlagsChanged
    · intro node member owner appRef success
      exact meterModOnSwitch_stored _ success
    · intro node member add owner appRef failure
      exact meterModOnSwitch_refused (node.sw.withRef appRef) (allocated node member).2 failure

private theorem oneSwitch_deref
    (known : oneSwitch.deref (oneSwitch.swHashTbl 1) = some (pos, node)) : pos = 0 :=
  (congrArg Prod.fst (Option.some.inj known)).symm

/-- One bucket that sends to port 1. -/
def outputBucket : ActVecElem := ⟨0, 0, 0, [0, 0, 0, 16, 0, 0, 0, 1, 0, 0, 0, 0, 0, 0, 0, 0]⟩

def outputGroup : GroupModMsg :=
  { datapathId := 1, groupId := 1, buckets := outputBucket.encode [0, 0, 0, 0] }

/-- The same with a weight and a watched port. -/
def watchedBucket : ActVecElem := { outputBucket with weight := 5, ffPort := 1 }

def twoBuckets : GroupModMsg :=
  { outputGroup with
      buckets := outputBucket.encode [0, 0, 0, 0] ++ watchedBucket.encode [0, 0, 0, 0] }

/-- A band that drops and one that marks. -/
def meterBands : List (List Byte) :=
  [[0, 1, 0, 16, 0, 0, 0, 100, 0, 0, 0, 0, 0, 0, 0, 0],
    [0, 2, 0, 16, 0, 0, 0, 50, 0, 0, 0, 0, 1, 0, 0, 0]]

def twoBands : MeterModMsg := { datapathId := 1, meterId := 1, bands := meterBands.flatten }

private theorem twoBuckets_split :
    BucketsSplit [outputBucket, watchedBucket] twoBuckets.buckets [] :=
  .cons rfl (by decide) ((congrArg (BucketsSplit [watchedBucket] · []) (append_nil _)).mp
    (.cons rfl (by decide) (.nil [])))

theorem twoObjects_decoded :
    (∀ node ∈ oneSwitch.switches, node.Allocated) ∧ (∀ node ∈ oneSwitch.switches, node.Versioned) ∧
    (oneSwitch.appGroupModCommand 7 twoBuckets 9 0).2 = 0 ∧
      (oneSwitch.appMeterModCommand 7 twoBands 9 0).2 = 0 ∧
    (∃ pos group,
      RefTable.lookup ((oneSwitch.appGroupModCommand 7 twoBuckets 9 0).1.tableAt Switch.groups pos)
        1 = some group ∧ group.body.actVectors = [outputBucket, watchedBucket]) ∧
    ∃ pos meter, RefTable.lookup
      ((oneSwitch.appMeterModCommand 7 twoBands 9 0).1.tableAt Switch.meters pos) 1 =
        some meter ∧ meter.body.meterBands = meterBands := by
  have allocated : ∀ node ∈ oneSwitch.switches, node.Allocated := by
    intro node member
    cases mem_singleton.mp member
    exact ⟨nodup_nil, nodup_nil⟩
  have versioned : ∀ node ∈ oneSwitch.switches, node.Versioned := by
    intro node member
    cases mem_singleton.mp member
    exact fun _ => rfl
  have added : (oneSwitch.appGroupModCommand 7 twoBuckets 9 0).2 = 0 := by decide +kernel
  have metered : (oneSwitch.appMeterModCommand 7 twoBands 9 0).2 = 0 := by decide +kernel
  obtain ⟨groups, meters⟩ := objectCommands_decoded oneSwitch allocated versioned 7 9 0
  obtain ⟨pos, node, group, -, found, decoded⟩ := (groups twoBuckets).1 added rfl
  obtain ⟨place, other, meter, -, there, whole⟩ := (meters twoBands).1 metered rfl
  refine ⟨allocated, versioned, added, metered,
    ⟨pos, group, found, decoded.whole _ twoBuckets_split (by decide)⟩,
    place, meter, there, whole.whole _ rfl ?_ (by decide)⟩
  unfold BandWhole
  decide

/-- The tables after a group command are exactly what the message says. -/
def GroupModExact (ctrl : Controller) (app : App) (msg : GroupModMsg) (ptr now : Nat) : Prop :=
  ((ctrl.appGroupModCommand app msg ptr now).2 = 0 → msg.command = .add →
    ∃ pos node group, ctrl.deref (ctrl.swHashTbl msg.datapathId) = some (pos, node) ∧
      RefTable.lookup ((ctrl.appGroupModCommand app msg ptr now).1.tableAt Switch.groups pos)
        msg.groupId = some group ∧ BucketsSplit group.body.actVectors msg.buckets [] ∧
        ∀ elem ∈ group.body.actVectors, (node.validateBucket elem.actions).ret = 0) ∧
  ((ctrl.appGroupModCommand app msg ptr now).2 ≠ 0 → ∀ pos,
    (ctrl.appGroupModCommand app msg ptr now).1.tableAt Switch.groups pos =
      ctrl.tableAt Switch.groups pos)

def MeterModExact (ctrl : Controller) (app : App) (msg : MeterModMsg) (ptr now : Nat) : Prop :=
  ((ctrl.appMeterModCommand app msg ptr now).2 = 0 → msg.command = .add →
    ∃ pos node meter, ctrl.deref (ctrl.swHashTbl msg.datapathId) = some (pos, node) ∧
      RefTable.lookup ((ctrl.appMeterModCommand app msg ptr now).1.tableAt Switch.meters pos)
        msg.meterId = some meter ∧ meter.body.meterBands.flatten = msg.bands ∧
        ∀ band ∈ meter.body.meterBands, 12 ≤ band.length) ∧
  ((ctrl.appMeterModCommand app msg ptr now).2 ≠ 0 → ∀ pos,
    (ctrl.appMeterModCommand app msg ptr now).1.tableAt Switch.meters pos =
      ctrl.tableAt Switch.meters pos)

/-- The group is there, marked stale. -/
def staleGroup : Controller :=
  { oneSwitch with
    switches := oneSwitch.switches.map fun node =>
      { node with
        sw := { node.sw with
          groups :=
            [⟨3, 1, 0,
              { appOwner := 7, type := 0, flags := grpStale, actVectors := [outputBucket] }⟩] } } }

/-- The group with a byte behind its bucket. -/
def trailingGroup : GroupModMsg := { outputGroup with buckets := outputGroup.buckets ++ [0] }

/-- A meter whose only band has length zero. -/
def zeroBand : MeterModMsg := { datapathId := 1, meterId := 1, bands := List.replicate 12 0 }

/-- A refused group loses its mark, a byte is passed over, and a band is taken again. -/
theorem objectCommands_not_exact :
    ¬GroupModExact staleGroup 7 outputGroup 9 0 ∧ ¬GroupModExact oneSwitch 7 trailingGroup 9 0 ∧
      ¬MeterModExact oneSwitch 7 zeroBand 9 0 := by
  refine ⟨?_, ?_, ?_⟩
  · intro exactly
    exact absurd (exactly.2 (by decide) 0) (by decide)
  · intro exactly
    obtain ⟨pos, node, group, known, found, split, _⟩ := exactly.1 (by decide) rfl
    rw [oneSwitch_deref known] at found
    have stored : (RefTable.lookup
        ((oneSwitch.appGroupModCommand 7 trailingGroup 9 0).1.tableAt Switch.groups 0)
        1).map (fun group => group.body.actVectors) = some [outputBucket] := by decide
    rw [show RefTable.lookup _ 1 = some group from found] at stored
    have only : group.body.actVectors = [outputBucket] := Option.some.inj stored
    rw [only] at split
    exact absurd split.length (by decide)
  · intro exactly
    obtain ⟨pos, node, meter, known, found, _, long⟩ := exactly.1 (by decide) rfl
    rw [oneSwitch_deref known] at found
    have stored :
        (RefTable.lookup ((oneSwitch.appMeterModCommand 7 zeroBand 9 0).1.tableAt Switch.meters 0)
        1).map (fun meter => meter.body.meterBands.head?) = some (some []) := by decide +kernel
    rw [show RefTable.lookup _ 1 = some meter from found] at stored
    have first := mem_of_head? (Option.some.inj stored)
    exact absurd (long [] first) (by decide)

end Controller

end OpenMul
