import OpenMul.Core.ActBuilder

namespace OpenMul

open List hiding after

open Lib (toBytes wordAt)

/-- The two instructions that hold actions. -/
inductive ActsInst where
  | write
  | apply
  deriving DecidableEq, Repr

def ActsInst.type : ActsInst → InstType
  | .write => .writeActions
  | .apply => .applyActions

/-- A call on one `mul_act_mdata_t`. The types are those the builders assert. -/
inductive BuilderCall where
  | setInstActionType (inst : ActsInst)
  | makeInstActions (inst : ActsInst)
  | goto (tableId : Byte)
  | meter (meterId : BitVec 32)
  | wrMeta (metadata metadataMask : BitVec 64)
  | clearAct
  | action (req : ActReq)
  deriving DecidableEq, Repr

def BuilderCall.run (mdata : ActMdata) : BuilderCall → ActMdata
  | .setInstActionType inst => (of131SetInstActionType mdata inst.type).1
  | .makeInstActions inst => (of131MakeInstActions mdata inst.type).1
  | .goto tableId => (of131MakeInstGoto mdata tableId).1
  | .meter meterId => (of131MakeInstMeter mdata meterId).1
  | .wrMeta metadata metadataMask => (of131MakeInstWrMeta mdata metadata metadataMask).1
  | .clearAct => (of131MakeInstClearAct mdata).1
  | .action req => (req.run mdata).1

def builds (calls : List BuilderCall) : ActMdata := calls.foldl BuilderCall.run ofMactAlloc

/-- An instruction on the wire: what follows its type and length, and its actions. -/
structure WireInst where
  type : InstType
  body : List Byte
  acts : List WireAct := []
  deriving DecidableEq, Repr

namespace WireInst

def actsSize (acts : List WireAct) : Nat := (acts.map WireAct.size).sum

def size (inst : WireInst) : Nat := 4 + inst.body.length + actsSize inst.acts

def bytes (inst : WireInst) : List Byte :=
  toBytes 2 inst.type.num.toNat ++ toBytes 2 inst.size ++ inst.body ++
    inst.acts.flatMap WireAct.bytes

def empty (type : InstType) : WireInst := ⟨type, List.replicate 4 0, []⟩

end WireInst

/-- What has been asked for: the current target, the marks and the instructions in order. -/
structure Request where
  cur : ActsInst := .apply
  marks : List ActMark := []
  insts : List WireInst := []
  deriving DecidableEq, Repr

namespace Request

def has (request : Request) (type : InstType) : Bool := request.insts.any fun inst =>
    inst.type = type

def size (request : Request) : Nat := (request.insts.map WireInst.size).sum

/-- An instruction is started once; a second request for it is refused. -/
def once (request : Request) (inst : WireInst) : Request :=
  if request.has inst.type then request else { request with insts := request.insts ++ [inst] }

def addAct (request : Request) (type : InstType) (act : WireAct) : Request :=
  { request with
    insts := request.insts.map fun inst =>
      if inst.type = type then { inst with acts := inst.acts ++ [act] } else inst }

/-- A write instruction has each kind of action at most once. -/
def refuses (request : Request) (mark : ActMark) : Bool :=
  request.cur = .write && request.marks.contains mark

def note (request : Request) (mark : ActMark) : Request :=
  if request.cur = .write then { request with marks := mark :: request.marks } else request

def start (request : Request) : Request := request.once (.empty request.cur.type)

def action (request : Request) (mark : ActMark) (act : WireAct) : Request :=
  if request.refuses mark then request.start
  else (request.start.note mark).addAct request.cur.type act

end Request

/-- Every action builder is the shared one at the action's own values. -/
theorem ActReq.run_eq (req : ActReq) (mdata : ActMdata) : req.run mdata =
      match req.wire with
      | none => (mdata, 0)
      | some (mark, act) => makeAction mdata mark act := by
  cases req with
  | push ethType =>
    simp only [ActReq.run, ActReq.wire, of131MakeActionPush]
    cases pushType ethType <;> rfl
  | _ => rfl

namespace Request

def step (request : Request) : BuilderCall → Request
  | .setInstActionType inst =>
    if request.has inst.type then request else { request with cur := inst }
  | .makeInstActions inst => request.once (.empty inst.type)
  | .goto tableId => request.once ⟨.gotoTable, tableId :: List.replicate 3 0, []⟩
  | .meter meterId => request.once ⟨.meter, toBytes 4 meterId.toNat, []⟩
  | .wrMeta metadata metadataMask =>
    request.once ⟨.writeMetadata,
      List.replicate 4 0 ++ toBytes 8 metadata.toNat ++ toBytes 8 metadataMask.toNat, []⟩
  | .clearAct => request.once (.empty .clearActions)
  | .action req =>
    match req.wire with
    | none => request
    | some (mark, act) => request.action mark act

end Request

def requests (calls : List BuilderCall) : Request := calls.foldl Request.step {}

namespace WireAct

@[simp] theorem length_bytes (act : WireAct) : act.bytes.length = act.size := by
  simp only [bytes, size, length_append, Lib.length_toBytes]

end WireAct

namespace WireInst

@[simp] theorem length_acts (acts : List WireAct) :
    (acts.flatMap WireAct.bytes).length = actsSize acts := by
  simp [actsSize, length_flatMap]

@[simp] theorem length_bytes (inst : WireInst) : inst.bytes.length = inst.size := by
  simp only [bytes, size, length_append, Lib.length_toBytes, length_acts]

end WireInst

theorem Request.length_bytes (request : Request) :
    (request.insts.flatMap WireInst.bytes).length = request.size := by
  simp [Request.size, length_flatMap]

/-- A new length takes the place of the two bytes behind the type. -/
theorem patchLen_at (before type len rest : List Byte) (two : type.length = 2)
    (more : len.length = 2) (value : Nat) :
    patchLen (before ++ (type ++ len ++ rest)) before.length value =
      before ++ (type ++ toBytes 2 value ++ rest) := by
  have front : (before ++ (type ++ len ++ rest)).take (before.length + 2) = before ++ type := by
    rw [take_append, ← two]
    simp
  have back : (before ++ (type ++ len ++ rest)).drop (before.length + 4) = rest := by
    have length : (before ++ (type ++ len)).length = before.length + 4 := by
      simp [two, more]
    rw [← append_assoc, ← length]
    exact drop_left
  rw [patchLen, front, back]
  simp

/-- The buffer of a builder that has done what was asked. -/
structure Built (request : Request) (mdata : ActMdata) : Prop where
  bytes : mdata.bytes = request.insts.flatMap WireInst.bytes
  bufLen : mdata.bufLen = mulActBufSz
  gen : mdata.gen = 0
  sound : mdata.fault = false
  insts : mdata.onlyActs = false
  cur : actType mdata = request.cur.type
  started : ∀ inst : ActsInst, (mdata.instPtr inst.type).isSome = request.has inst.type
  off : ∀ (inst : ActsInst) (before after : List WireInst) (found : WireInst),
    request.insts = before ++ found :: after → found.type = inst.type →
      mdata.instPtr inst.type = some ⟨0, (before.flatMap WireInst.bytes).length⟩
  once : ∀ type : InstType, type.hasActions = false →
    mdata.instBm.getLsbD type.num.toNat = request.has type
  marks : ∀ mark : ActMark, mdata.marked mark = request.marks.contains mark

/-- Each type of instruction comes once, and only the two with actions have any. -/
structure Request.Sound (request : Request) : Prop where
  nodup : (request.insts.map WireInst.type).Nodup
  shape : ∀ inst ∈ request.insts, 4 ≤ inst.body.length ∧
    (if inst.type.hasActions then inst.body.length = 4 else inst.acts = [])

theorem InstType.num_injective {second : InstType} (same : first.num.toNat = second.num.toNat) :
    first = second := by
  cases first <;> cases second <;> first | rfl | exact absurd same (by decide)

theorem ActType.num_injective {second : ActType} (same : first.num.toNat = second.num.toNat) :
    first = second := by
  cases first <;> cases second <;> first | rfl | exact absurd same (by decide)

theorem ActsInst.hasActions (inst : ActsInst) : inst.type.hasActions = true := by
  cases inst <;> rfl

theorem ActsInst.type_injective {second : ActsInst} (same : first.type = second.type) :
    first = second := by
  cases first <;> cases second <;> first | rfl | cases same

theorem Request.has_once (request : Request) (inst : WireInst) (type : InstType) :
    (request.once inst).has type = (request.has type || decide (inst.type = type)) := by
  by_cases held : request.has inst.type = true
  · by_cases same : inst.type = type
    · subst same
      simp [Request.once, held]
    · simp [Request.once, held, same]
  · rw [Request.once, if_neg held]
    simp [Request.has]

theorem Request.mem_types {request : Request} :
    type ∈ request.insts.map WireInst.type ↔ request.has type = true := by
  simp [Request.has, any_eq_true]

theorem Request.Sound.once {request : Request} (sound : request.Sound) {inst : WireInst}
    (shape : 4 ≤ inst.body.length ∧
      (if inst.type.hasActions then inst.body.length = 4 else inst.acts = [])) :
    (request.once inst).Sound := by
  unfold Request.once
  split_ifs with held
  · exact sound
  · refine ⟨?_, ?_⟩
    · rw [map_append, nodup_append]
      refine ⟨sound.nodup, by simp, ?_⟩
      intro type member other last
      simp only [map_cons, map_nil, mem_singleton] at last
      subst last
      intro same
      subst same
      exact held (Request.mem_types.mp member)
    · intro other member
      rcases mem_append.mp member with earlier | last
      · exact sound.shape other earlier
      · rw [mem_singleton.mp last]
        exact shape

variable {before : List WireInst} {last : WireInst}

section Calls

variable {request : Request} {mdata : ActMdata}

theorem Built.length (built : Built request mdata) : mdata.bytes.length = request.size := by
  rw [built.bytes, request.length_bytes]

theorem Built.fits (built : Built request mdata) {len : Nat}
    (fits : request.size + len ≤ mulActBufSz) : mdata.checkRealloc len = mdata := by
  have room : ¬ mdata.room < len := by
    rw [ActMdata.room, built.bufLen, built.length]
    omega
  rw [ActMdata.checkRealloc, if_neg room]

theorem ActMdata.marked_mark (mdata : ActMdata) (mark other : ActMark) :
    (mdata.mark mark).marked other = (mdata.marked other || decide (mark = other)) := by
  cases mark with
  | act type =>
    have small : type.num.toNat < 32 := by cases type <;> decide
    cases other with
    | act second =>
      by_cases same : type = second
      · subst same
        simp [ActMdata.mark, ActMdata.marked, small]
      · have apart : type.num.toNat ≠ second.num.toNat := fun equal =>
          same (ActType.num_injective equal)
        simp [ActMdata.mark, ActMdata.marked, same, apart]
    | cpTtl =>
      have two : 2 ≠ type.num.toNat := by cases type <;> decide
      have three : 3 ≠ type.num.toNat := by cases type <;> decide
      simp [ActMdata.mark, ActMdata.marked, two, three]
    | setf field => simp [ActMdata.mark, ActMdata.marked]
  | cpTtl =>
    cases other with
    | act type =>
      have clear : (12#32).getLsbD type.num.toNat = false := by cases type <;> decide
      simp [ActMdata.mark, ActMdata.marked, BitVec.getLsbD_or, clear]
    | cpTtl | setf field => simp [ActMdata.mark, ActMdata.marked]
  | setf field =>
    cases other with
    | act type | cpTtl => simp [ActMdata.mark, ActMdata.marked]
    | setf second =>
      have small := field.isLt
      by_cases same : field = second
      · subst same
        simp [ActMdata.mark, ActMdata.marked, small]
      · have apart : second.val ≠ field.val := fun equal => same (Fin.ext equal.symm)
        simp [ActMdata.mark, ActMdata.marked, same, apart]

/-- An instruction other than the last has its place among the earlier ones. -/
theorem split_append (split : insts ++ [last] = before ++ found :: after) :
    (before = insts ∧ found = last) ∨ ∃ rest, insts = before ++ found :: rest := by
  rcases eq_nil_or_concat after with rfl | ⟨rest, tail, rfl⟩
  · left
    have same := append_inj' split rfl
    exact ⟨same.1.symm, (singleton_inj.mp same.2).symm⟩
  · right
    refine ⟨rest, ?_⟩
    have moved : insts ++ [last] = (before ++ found :: rest) ++ [tail] := by
      simpa using split
    exact (append_inj' moved rfl).1

theorem Built.instOnce (built : Built request mdata) {type : InstType}
    (plain : type.hasActions = false) (known : type ≠ .experimenter)
    (fits : (request.once ⟨type, body, []⟩).size ≤ mulActBufSz) :
    Built (request.once ⟨type, body, []⟩) (makeInstOnce mdata type body).1 := by
  have small : type.num.toNat < 32 := by
    cases type <;> first | decide | exact absurd rfl known
  have apart : ∀ inst : ActsInst, type ≠ inst.type := by
    intro inst same
    rw [same, inst.hasActions] at plain
    cases plain
  have held := built.once type plain
  by_cases again : request.has type = true
  · rw [again] at held
    rw [makeInstOnce, if_pos held, Request.once, if_pos again]
    exact built
  · have added : request.once ⟨type, body, []⟩ =
        { request with insts := request.insts ++ [⟨type, body, []⟩] } := by
      rw [Request.once, if_neg again]
    rw [added] at fits
    have sizes : request.size + (4 + body.length) ≤ mulActBufSz := by
      simpa [Request.size, WireInst.size, WireInst.actsSize] using fits
    have length : (toBytes 2 type.num.toNat ++ toBytes 2 (4 + body.length) ++ body).length =
        4 + body.length := by
      simp only [length_append, Lib.length_toBytes]
    rw [makeInstOnce, if_neg (by rw [held]; exact again)]
    have roomy : ∀ noted : BitVec 32, ({ mdata with instBm := noted } : ActMdata).checkRealloc
        (4 + body.length) = { mdata with instBm := noted } := by
      intro noted
      have room : ¬ mdata.room < 4 + body.length := by
        rw [ActMdata.room, built.bufLen, built.length]
        omega
      rw [ActMdata.checkRealloc, if_neg]
      exact room
    simp only [ActMdata.put, length, roomy]
    rw [added]
    refine { built with bytes := ?_, started := ?_, off := ?_, once := ?_ }
    · simp [built.bytes, WireInst.bytes, WireInst.size, WireInst.actsSize]
    · intro inst
      rw [← added, Request.has_once]
      simp only [apart inst, decide_false, Bool.or_false]
      exact built.started inst
    · intro inst before after found split same
      rcases split_append split with ⟨_, rfl⟩ | ⟨rest, earlier⟩
      · exact absurd same (apart inst)
      · exact built.off inst before rest found earlier same
    · intro other bare
      rw [← added, Request.has_once, ← built.once other bare]
      by_cases same : type = other
      · subst same
        simp [small]
      · have apart : type.num.toNat ≠ other.num.toNat := fun equal =>
          same (InstType.num_injective equal)
        simp [same, apart]

theorem ActMdata.setInstPtr_spec (mdata : ActMdata) (inst : ActsInst) (ptr : ActPtr) :
    ∃ wr app,
      mdata.setInstPtr inst.type ptr = { mdata with actInstWrPtr := wr, actInstAppPtr := app } ∧
      ∀ other : ActsInst,
        ({ mdata with actInstWrPtr := wr, actInstAppPtr := app } : ActMdata).instPtr other.type =
          if inst = other then some ptr else mdata.instPtr other.type := by
  cases inst with
  | write =>
    refine ⟨some ptr, mdata.actInstAppPtr, rfl, ?_⟩
    intro other
    cases other <;> rfl
  | apply =>
    refine ⟨mdata.actInstWrPtr, some ptr, rfl, ?_⟩
    intro other
    cases other <;> rfl

/-- `of131_make_inst_actions` starts an instruction that is not there. -/
theorem Built.makeInst (built : Built request mdata) (inst : ActsInst)
    (fits : (request.once (.empty inst.type)).size ≤ mulActBufSz) :
    Built (request.once (.empty inst.type)) (of131MakeInstActions mdata inst.type).1 := by
  have held := built.started inst
  by_cases again : request.has inst.type = true
  · have skip : (mdata.onlyActs || (mdata.instPtr inst.type).isSome) = true := by
      rw [held, again, Bool.or_true]
    rw [of131MakeInstActions, if_pos skip, Request.once, WireInst.empty, if_pos again]
    exact built
  · have added : request.once (.empty inst.type) =
        { request with insts := request.insts ++ [.empty inst.type] } := by
      rw [Request.once, WireInst.empty, if_neg again]
    rw [added] at fits
    have sizes : request.size + 8 ≤ mulActBufSz := by
      simpa [Request.size, WireInst.size, WireInst.actsSize, WireInst.empty] using fits
    have begin : ¬(mdata.onlyActs || (mdata.instPtr inst.type).isSome) = true := by
      rw [held, built.insts]
      exact again
    obtain ⟨wr, app, placed, ptrs⟩ :=
      mdata.setInstPtr_spec inst { gen := mdata.gen, off := mdata.bytes.length }
    rw [of131MakeInstActions, if_neg begin]
    simp only [built.fits sizes, placed]
    rw [added]
    refine { built with bytes := ?_, started := ?_, off := ?_, once := ?_ }
    · simp [built.bytes, WireInst.bytes, WireInst.size, WireInst.actsSize, WireInst.empty,
        instActionsHdr]
    · intro other
      rw [← added, Request.has_once, ← built.started other]
      refine (congrArg Option.isSome (ptrs other)).trans ?_
      by_cases same : inst = other
      · simp [same, WireInst.empty]
      · have apart : inst.type ≠ other.type := fun equal => same (ActsInst.type_injective equal)
        simp [same, apart, WireInst.empty]
    · intro other before after found split same
      refine (ptrs other).trans ?_
      rcases split_append split with ⟨rfl, rfl⟩ | ⟨rest, earlier⟩
      · rw [if_pos (ActsInst.type_injective same), built.gen, built.bytes]
      · have apart : inst ≠ other := by
          rintro rfl
          apply again
          apply Request.mem_types.mp
          rw [earlier, ← same]
          simp
        rw [if_neg apart]
        exact built.off other before rest found earlier same
    · intro type bare
      have apart : inst.type ≠ type := by
        rintro rfl
        rw [inst.hasActions] at bare
        cases bare
      rw [← added, Request.has_once, ← built.once type bare]
      simp [apart, WireInst.empty]

/-- Writing to a full last instruction only changes its length and its actions. -/
theorem Request.addAct_last (nodup : (request.insts.map WireInst.type).Nodup)
    (split : request.insts = before ++ [last]) (act : WireAct) :
    (request.addAct last.type act).insts =
      before ++ [{ last with acts := last.acts ++ [act] }] := by
  rw [split, map_append, nodup_append] at nodup
  have others : ∀ inst ∈ before, inst.type ≠ last.type := by
    intro inst member
    exact nodup.2.2 inst.type (mem_map_of_mem member) last.type (by simp)
  have kept : before.map (fun inst =>
      if inst.type = last.type then { inst with acts := inst.acts ++ [act] }
      else inst) = before := by
    refine (map_congr_left ?_).trans (map_id before)
    intro inst member
    exact if_neg (others inst member)
  simp [Request.addAct, split, kept]

theorem Request.types_addAct (request : Request) (added : InstType) (act : WireAct) :
    (request.addAct added act).insts.map WireInst.type = request.insts.map WireInst.type := by
  simp only [Request.addAct, map_map]
  apply map_congr_left
  intro inst _
  simp only [Function.comp_apply]
  split_ifs <;> rfl

theorem Request.has_addAct (request : Request) (added type : InstType) (act : WireAct) :
    (request.addAct added act).has type = request.has type := by
  rw [Bool.eq_iff_iff, ← Request.mem_types, ← Request.mem_types, request.types_addAct]

theorem fini_at (insts : mdata.onlyActs = false)
    (found : mdata.actInstType.bind mdata.instPtr = some ptr) (live : ptr.gen = mdata.gen) :
    of131FiniInstActions mdata =
      { mdata with bytes := patchLen mdata.bytes ptr.off (mdata.bytes.length - ptr.off) } := by
  simp [of131FiniInstActions, insts, found, live]

theorem Built.putAct (built : Built request mdata) (sound : request.Sound)
    (cur : mdata.actInstType = some request.cur.type)
    (split : request.insts = before ++ [last]) (same : last.type = request.cur.type) (act : WireAct)
    (fits : request.size + act.size ≤ mulActBufSz) :
    Built (request.addAct request.cur.type act) (of131FiniInstActions (mdata.put act.bytes)) := by
  have place := built.off request.cur before [] last split same
  have written : mdata.put act.bytes = { mdata with bytes := mdata.bytes ++ act.bytes } := by
    simp [ActMdata.put, act.length_bytes, built.fits fits]
  have finished : of131FiniInstActions (mdata.put act.bytes) =
      { mdata with
        bytes := patchLen (mdata.bytes ++ act.bytes) (before.flatMap WireInst.bytes).length
          ((mdata.bytes ++ act.bytes).length - (before.flatMap WireInst.bytes).length) } := by
    have found : (mdata.put act.bytes).actInstType.bind (mdata.put act.bytes).instPtr =
        some ⟨0, (before.flatMap WireInst.bytes).length⟩ := by
      rw [written]
      simp only [cur, Option.bind_some]
      exact place
    rw [written] at found ⊢
    exact @fini_at { mdata with bytes := mdata.bytes ++ act.bytes } _ built.insts found
      built.gen.symm
  have insts := Request.addAct_last sound.nodup split act
  rw [finished, ← same]
  refine { built with bytes := ?_, started := ?_, off := ?_, once := ?_ }
  · have longer : ({ last with acts := last.acts ++ [act] } : WireInst).size =
        last.size + act.size := by
      simp [WireInst.size, WireInst.actsSize]
      omega
    have whole : mdata.bytes ++ act.bytes = before.flatMap WireInst.bytes ++
        (toBytes 2 last.type.num.toNat ++ toBytes 2 last.size ++
          (last.body ++ last.acts.flatMap WireAct.bytes ++ act.bytes)) := by
      rw [built.bytes, split]
      simp [WireInst.bytes]
    have length : (mdata.bytes ++ act.bytes).length - (before.flatMap WireInst.bytes).length =
        last.size + act.size := by
      rw [built.bytes, split]
      simp only [flatMap_append, flatMap_singleton, length_append,
        WireInst.length_bytes, WireAct.length_bytes]
      omega
    rw [length, whole, patchLen_at _ _ _ _ (Lib.length_toBytes _ _) (Lib.length_toBytes _ _), insts,
      ← longer]
    simp [WireInst.bytes]
  · intro inst
    rw [Request.has_addAct]
    exact built.started inst
  · intro inst earlier after found divided typed
    rw [insts] at divided
    rcases split_append divided with ⟨rfl, rfl⟩ | ⟨rest, inside⟩
    · exact built.off inst earlier [] last split typed
    · apply built.off inst earlier (rest ++ [last]) found _ typed
      rw [split, inside]
      simp
  · intro type bare
    rw [Request.has_addAct]
    exact built.once type bare

theorem Built.note (built : Built request mdata) (write : request.cur = .write) (mark : ActMark) :
    Built (request.note mark) (mdata.mark mark) := by
  have noted : request.note mark = { request with marks := mark :: request.marks } := by
    rw [Request.note, if_pos write]
  rw [noted]
  have marks : ∀ other,
      (mdata.mark mark).marked other = (mark :: request.marks).contains other := by
    intro other
    rw [ActMdata.marked_mark, built.marks other]
    by_cases same : mark = other
    · simp [same]
    · simp [same, Ne.symm same]
  cases mark with
  | act type | cpTtl | setf field => exact { built with marks := marks }

/-- Actions go to the apply instruction unless another was chosen. -/
theorem Built.settle (built : Built request mdata) :
    Built request { mdata with actInstType := some (actType mdata) } :=
  { built with }

theorem makeInst_cur (mdata : ActMdata) (inst : ActsInst) :
    (of131MakeInstActions mdata inst.type).1.actInstType = mdata.actInstType := by
  unfold of131MakeInstActions
  split_ifs
  · rfl
  · unfold ActMdata.checkRealloc
    cases inst <;> split_ifs <;> rfl

theorem Request.start_cur (request : Request) :
    request.start.cur = request.cur ∧ request.start.marks = request.marks := by
  unfold Request.start Request.once
  split_ifs <;> exact ⟨rfl, rfl⟩

theorem Request.note_insts (request : Request) (mark : ActMark) :
    (request.note mark).insts = request.insts ∧ (request.note mark).cur = request.cur := by
  unfold Request.note
  split_ifs <;> exact ⟨rfl, rfl⟩

theorem Request.Sound.note (sound : request.Sound) (mark : ActMark) :
    (request.note mark).Sound := by
  unfold Request.note
  split_ifs
  · exact { sound with }
  · exact sound

theorem Request.Sound.start (sound : request.Sound) : request.start.Sound := by
  apply sound.once
  simp [WireInst.empty, request.cur.hasActions]

theorem Request.size_addAct (nodup : (request.insts.map WireInst.type).Nodup)
    (split : request.insts = before ++ [last])
    (act : WireAct) : (request.addAct last.type act).size = request.size + act.size := by
  rw [Request.size, Request.addAct_last nodup split act, Request.size, split]
  simp [WireInst.size, WireInst.actsSize]
  omega

/-- The instruction an action goes to is the last one, or is not there yet. -/
def Request.EndsWithCur (request : Request) : Prop :=
  ∃ before last, request.start.insts = before ++ [last] ∧ last.type = request.cur.type

theorem Request.endsWithCur_of_last
    (type : request.start.insts.getLast?.map WireInst.type = some request.cur.type) :
    request.EndsWithCur := by
  obtain ⟨last, final, same⟩ := Option.map_eq_some_iff.mp type
  obtain ⟨before, split⟩ := getLast?_eq_some_iff.mp final
  exact ⟨before, last, split, same⟩

theorem Built.action (built : Built request mdata) (sound : request.Sound)
    (last : request.refuses mark = false → request.EndsWithCur)
    (fits : (request.action mark act).size ≤ mulActBufSz) :
    Built (request.action mark act) (makeAction mdata mark act).1 := by
  have current : (makeCurInstActions mdata).actInstType = some request.cur.type := by
    rw [makeCurInstActions, built.cur, makeInst_cur]
  have begun : request.start.size ≤ mulActBufSz →
      Built request.start (makeCurInstActions mdata) := by
    intro roomy
    have settled := built.settle.makeInst request.cur roomy
    rw [makeCurInstActions]
    rw [built.cur] at settled ⊢
    exact settled
  obtain ⟨sameCur, sameMarks⟩ := request.start_cur
  by_cases refused : request.refuses mark = true
  · have roomy : request.start.size ≤ mulActBufSz := by
      rwa [Request.action, if_pos refused] at fits
    have started := begun roomy
    obtain ⟨write, held⟩ : request.cur = .write ∧ request.marks.contains mark = true := by
      simpa [Request.refuses] using refused
    have marked : (makeCurInstActions mdata).marked mark = true := by
      rw [started.marks]
      exact (congrArg (fun marks => contains marks mark) sameMarks).trans held
    rw [Request.action, if_pos refused, makeAction]
    simp only [current, write, ActsInst.type, if_true, marked]
    exact started
  · have admitted : request.refuses mark = false := by simpa using refused
    obtain ⟨before, final, split, typed⟩ := last admitted
    have noted := (request.start.note_insts mark)
    have noting := (sound.start).note mark
    have divided : (request.start.note mark).insts = before ++ [final] := noted.1.trans split
    have size := Request.size_addAct noting.nodup divided act
    rw [Request.action, if_neg refused, ← typed] at fits
    have sizes : (request.start.note mark).size = request.start.size := by
      rw [Request.size, Request.size, noted.1]
    have started := begun (by omega)
    have kept : (request.start.note mark).cur = request.cur := noted.2.trans sameCur
    rw [Request.action, if_neg refused, makeAction]
    by_cases write : request.cur = .write
    · have unmarked : (makeCurInstActions mdata).marked mark = false := by
        rw [started.marks]
        refine (congrArg (fun marks => contains marks mark) sameMarks).trans ?_
        simpa [Request.refuses, write] using admitted
      have marking := started.note (sameCur.trans write) mark
      simp only [current, write, ActsInst.type, if_true, unmarked, Bool.false_eq_true, if_false]
      have put :=
        marking.putAct noting (by cases mark <;> simp [ActMdata.mark, current, kept]) divided
        (by rw [kept]; exact typed) act (by omega)
      rwa [kept, write] at put
    · have same : request.start.note mark = request.start := by
        rw [Request.note, if_neg (fun equal => write (sameCur.symm.trans equal))]
      have other : request.cur.type ≠ .writeActions := by
        cases cur : request.cur with
        | write => exact absurd cur write
        | apply => decide
      rw [same] at divided noting ⊢
      simp only [current, Option.some.injEq, other, if_false]
      have put := started.putAct noting (by rw [current, sameCur]) divided
        (by rw [sameCur]; exact typed) act (by omega)
      rwa [sameCur] at put

/-- The result fits the buffer, an action is for the last instruction, and no
instruction has too many actions. -/
structure Tidy (request : Request) (call : BuilderCall) : Prop where
  fits : (request.step call).size ≤ mulActBufSz
  few : ∀ inst ∈ (request.step call).insts, inst.acts.length ≤ ofpMaxActions + 1
  last : ∀ req mark act, call = .action req → req.wire = some (mark, act) →
    request.refuses mark = false → request.EndsWithCur

def TidyRun : Request → List BuilderCall → Prop
  | _, [] => True
  | request, call :: calls => Tidy request call ∧ TidyRun (request.step call) calls

theorem Built.step (built : Built request mdata) (sound : request.Sound) {call : BuilderCall}
    (tidy : Tidy request call) : Built (request.step call) (call.run mdata) := by
  have fits := tidy.fits
  cases call with
  | setInstActionType inst =>
    have held := built.started inst
    simp only [Request.step, BuilderCall.run, of131SetInstActionType, held]
    split_ifs
    · exact built
    · exact { built with cur := rfl }
  | makeInstActions inst => exact built.makeInst inst fits
  | goto tableId | meter meterId | wrMeta metadata metadataMask | clearAct =>
    exact built.instOnce rfl (by decide) fits
  | action req =>
    cases wire : req.wire with
    | none =>
      simp only [Request.step, BuilderCall.run, req.run_eq, wire]
      exact built
    | some asked =>
      obtain ⟨mark, act⟩ := asked
      simp only [Request.step, wire] at fits
      simp only [Request.step, BuilderCall.run, req.run_eq, wire]
      exact built.action sound (tidy.last req mark act rfl wire) fits

theorem Request.Sound.addAct (sound : request.Sound) {inst : ActsInst}
    (act : WireAct) : (request.addAct inst.type act).Sound := by
  refine ⟨?_, ?_⟩
  · rw [request.types_addAct]
    exact sound.nodup
  · intro changed member
    obtain ⟨other, earlier, rfl⟩ := mem_map.mp member
    have shape := sound.shape other earlier
    by_cases same : other.type = inst.type
    · simp only [if_pos same]
      rw [same, inst.hasActions] at shape ⊢
      exact shape
    · simp only [if_neg same]
      exact shape

theorem Request.Sound.step (sound : request.Sound) (call : BuilderCall) :
    (request.step call).Sound := by
  cases call with
  | setInstActionType inst =>
    simp only [Request.step]
    split_ifs
    · exact sound
    · exact { sound with }
  | makeInstActions inst => exact sound.once (by simp [WireInst.empty, inst.hasActions])
  | goto tableId | meter meterId | wrMeta metadata metadataMask =>
    exact sound.once (by simp [InstType.hasActions])
  | clearAct => exact sound.once (by simp [WireInst.empty, InstType.hasActions])
  | action req =>
    simp only [Request.step]
    split
    · exact sound
    · simp only [Request.action]
      split_ifs
      · exact sound.start
      · exact (sound.start.note _).addAct _

/-- What the buffer and the request have in common after any tidy run. -/
structure RunBuilt (request : Request) (mdata : ActMdata) : Prop where
  built : Built request mdata
  sound : request.Sound
  fits : request.size ≤ mulActBufSz
  few : ∀ inst ∈ request.insts, inst.acts.length ≤ ofpMaxActions + 1

theorem RunBuilt.run (reached : RunBuilt request mdata) {calls : List BuilderCall}
    (tidy : TidyRun request calls) :
    RunBuilt (calls.foldl Request.step request) (calls.foldl BuilderCall.run mdata) := by
  induction calls generalizing request mdata with
  | nil => exact reached
  | cons call calls ih =>
    obtain ⟨now, later⟩ := tidy
    exact ih ⟨reached.built.step reached.sound now, reached.sound.step call, now.fits,
      now.few⟩ later

theorem runBuilt_alloc : RunBuilt {} ofMactAlloc where
  built := {
    bytes := rfl
    bufLen := rfl
    gen := rfl
    sound := rfl
    insts := rfl
    cur := rfl
    started := fun inst => by cases inst <;> rfl
    off := fun _ before _ _ split => by simp at split
    once := fun type _ => by simp [ofMactAlloc, Request.has]
    marks := fun mark => by cases mark <;> simp [ofMactAlloc, ActMdata.marked] }
  sound := ⟨nodup_nil, fun _ member => by simp at member⟩
  fits := by decide
  few := fun _ member => by simp at member

/-- Every tidy run leaves the request in the buffer. -/
theorem builds_requests (tidy : TidyRun {} calls) : RunBuilt (requests calls) (builds calls) :=
  runBuilt_alloc.run tidy

end Calls

end OpenMul
