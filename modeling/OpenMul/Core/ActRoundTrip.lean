import OpenMul.Core.ActBuilt

namespace OpenMul

open List

open Lib (toBytes wordAt)

/-- An instruction as the parser finds it. -/
structure ParsedInst where
  type : InstType
  len : Nat
  body : List Byte
  acts : List WireAct := []
  deriving DecidableEq, Repr

def slice (msg : List Byte) (pos count : Nat) : List Byte := (msg.drop pos).take count

def ParsedInst.add (act : WireAct) (inst : ParsedInst) : ParsedInst :=
  { inst with acts := inst.acts ++ [act] }

/-- An action is added to the instruction that was found last. -/
def collectAct (type : ActType) : Handler (List ParsedInst) := fun pos arg =>
  let act : WireAct := ⟨type, slice arg.msg (pos + 4) ((headLen arg.msg pos).toNat - 4)⟩
  { arg with user := arg.user.modify (arg.user.length - 1) (ParsedInst.add act) }

def collectInst (type : InstType) : Handler (List ParsedInst) := fun pos arg =>
  let len := headLen arg.msg pos
  if type.hasActions then
    let found := { arg with user := arg.user ++ [⟨type, len.toNat, slice arg.msg (pos + 4) 4, []⟩] }
    if len.toNat ≤ 8 then found
    else of131ParseActions collectAct (pos + 8) (len.setWidth 64 - 8) found
  else
    { arg with
      user := arg.user ++ [⟨type, len.toNat, slice arg.msg (pos + 4) (len.toNat - 4), []⟩] }

def collectParsers : InstParsers (List ParsedInst) where
  inst := collectInst

/-- The instructions `of131_parse_instructions` finds in a buffer. -/
def parsed (bytes : List Byte) : List ParsedInst :=
  (of131ParseInstructions collectParsers collectAct (BitVec.ofNat 64 bytes.length) false
    { msg := bytes, user := [] }).user

/-- What should be found of an instruction: its own length and its own actions. -/
def WireInst.parsed (inst : WireInst) : ParsedInst := ⟨inst.type, inst.size, inst.body, inst.acts⟩

section Header

variable {before after : List Byte}

theorem drop_before (before rest : List Byte) (count : Nat) :
    (before ++ rest).drop (before.length + count) = rest.drop count := by
  rw [← drop_drop, drop_left]

/-- The type and the length that stand at the front of an instruction or action. -/
theorem header_at (before rest : List Byte) (type : BitVec 16) (short : len < 2 ^ 16) :
    headType (before ++ (toBytes 2 type.toNat ++ toBytes 2 len ++ rest)) before.length = type ∧
      (headLen (before ++ (toBytes 2 type.toNat ++ toBytes 2 len ++ rest)) before.length).toNat =
        len := by
  have first : wordAt 16 (toBytes 2 type.toNat ++ (toBytes 2 len ++ rest)) = type := by
    rw [Lib.wordAt_toBytes (by decide)]
    simp
  have second : (toBytes 2 type.toNat ++ (toBytes 2 len ++ rest)).drop 2 = toBytes 2 len ++ rest :=
    drop_left' (Lib.length_toBytes _ _)
  refine ⟨?_, ?_⟩
  · rw [headType, drop_left]
    exact first
  · rw [headLen, drop_before, append_assoc, second, Lib.wordAt_toBytes (by decide)]
    exact Nat.mod_eq_of_lt short

theorem slice_at (before type len body rest : List Byte) (two : type.length = 2)
    (more : len.length = 2) :
    slice (before ++ (type ++ len ++ (body ++ rest))) (before.length + 4) body.length = body := by
  have skip : (type ++ len ++ (body ++ rest)).drop 4 = body ++ rest := by
    apply drop_left'
    simp [two, more]
  rw [slice, drop_before, skip]
  exact take_left

end Header

theorem ActType.ofNum_num (type : ActType) : ActType.ofNum type.num = some type := by
  cases type <;> decide

theorem InstType.ofNum_num (type : InstType) : InstType.ofNum type.num = some type := by
  cases type <;> decide

theorem left_after {len : BitVec 16} (read : len.toNat = size) :
    BitVec.ofNat 64 (size + rest) - len.setWidth 64 = BitVec.ofNat 64 rest := by
  apply BitVec.eq_of_toNat_eq
  have width : (len.setWidth 64).toNat = size := by
    rw [BitVec.toNat_setWidth_of_le (by decide), read]
  rw [BitVec.toNat_sub, BitVec.toNat_ofNat, BitVec.toNat_ofNat]
  omega

theorem left_pos (positive : 0 < size) (short : size + rest < 2 ^ 16) :
    BitVec.ofNat 64 (size + rest) ≠ 0 := by
  intro zero
  have value := congrArg BitVec.toNat zero
  simp at value
  omega

theorem modify_last (done : List ParsedInst) (last : ParsedInst)
    (change : ParsedInst → ParsedInst) :
    (done ++ [last]).modify ((done ++ [last]).length - 1) change = done ++ [change last] := by
  induction done with
  | nil => rfl
  | cons first rest ih =>
    have length : ((first :: rest) ++ [last]).length - 1 = ((rest ++ [last]).length - 1) + 1 := by
      simp
    rw [length, cons_append, modify_succ_cons, ih, cons_append]

theorem collect_acts (acts : List WireAct) (after : List Byte) (before : List Byte)
    (done : List ParsedInst) (last : ParsedInst) (enough : acts.length ≤ room)
    (short : WireInst.actsSize acts < 2 ^ 16) :
    parseActionsLoop collectAct room before.length (BitVec.ofNat 64 (WireInst.actsSize acts))
        { msg := before ++ (acts.flatMap WireAct.bytes ++ after), user := done ++ [last] } =
      { msg := before ++ (acts.flatMap WireAct.bytes ++ after),
        user := done ++ [{ last with acts := last.acts ++ acts }] } := by
  induction acts generalizing room before last with
  | nil =>
    cases room with
    | zero => simp [parseActionsLoop]
    | succ room => simp [parseActionsLoop, WireInst.actsSize]
  | cons act acts ih =>
    obtain ⟨room, rfl⟩ : ∃ fewer, room = fewer + 1 :=
      Nat.exists_eq_succ_of_ne_zero (by simp at enough; omega)
    have sizes : WireInst.actsSize (act :: acts) = act.size + WireInst.actsSize acts := by
      simp [WireInst.actsSize]
    rw [sizes] at short ⊢
    have positive : 0 < act.size := by simp [WireAct.size]
    have layout : before ++ ((act :: acts).flatMap WireAct.bytes ++ after) =
        before ++ (toBytes 2 act.type.num.toNat ++ toBytes 2 act.size ++
          (act.body ++ (acts.flatMap WireAct.bytes ++ after))) := by
      simp [WireAct.bytes]
    have further : before ++ ((act :: acts).flatMap WireAct.bytes ++ after) =
        (before ++ act.bytes) ++ (acts.flatMap WireAct.bytes ++ after) := by
      simp
    obtain ⟨type, len⟩ := header_at before (act.body ++ (acts.flatMap WireAct.bytes ++ after))
      act.type.num (show act.size < 2 ^ 16 by omega)
    have body := slice_at before (toBytes 2 act.type.num.toNat) (toBytes 2 act.size) act.body
      (acts.flatMap WireAct.bytes ++ after) (Lib.length_toBytes _ _) (Lib.length_toBytes _ _)
    rw [← layout] at type len body
    have found : collectAct act.type before.length
        { msg := before ++ ((act :: acts).flatMap WireAct.bytes ++ after)
          user := done ++ [last] } =
        { msg := before ++ ((act :: acts).flatMap WireAct.bytes ++ after),
          user := done ++ [last.add act] } := by
      have width : act.size - 4 = act.body.length := by simp [WireAct.size]
      simp only [collectAct, len, width, body, modify_last]
    have going : ¬(BitVec.ofNat 64 (act.size + WireInst.actsSize acts) = 0 ∨ (0 : Int) ≠ 0) := by
      simp only [ne_eq, not_true_eq_false, or_false]
      exact left_pos positive short
    rw [parseActionsLoop, if_neg going]
    simp only [type, ActType.ofNum_num, found, len, left_after len]
    have place : before.length + act.size = (before ++ act.bytes).length := by simp
    rw [place, further, ih (before ++ act.bytes) (last.add act) (by simpa using enough) (by omega)]
    simp [ParsedInst.add]

theorem acts_nil (none : WireInst.actsSize acts = 0) : acts = [] := by
  cases acts with
  | nil => rfl
  | cons act acts => simp [WireInst.actsSize, WireAct.size] at none

theorem collect_inst (inst : WireInst) (before after : List Byte) (done : List ParsedInst)
    (shape : 4 ≤ inst.body.length ∧
      (if inst.type.hasActions then inst.body.length = 4 else inst.acts = []))
    (few : inst.acts.length ≤ ofpMaxActions + 1) (short : inst.size < 2 ^ 16) :
    collectInst inst.type before.length { msg := before ++ (inst.bytes ++ after), user := done } =
      { msg := before ++ (inst.bytes ++ after), user := done ++ [inst.parsed] } := by
  have layout : before ++ (inst.bytes ++ after) =
      before ++ (toBytes 2 inst.type.num.toNat ++ toBytes 2 inst.size ++
        (inst.body ++ (inst.acts.flatMap WireAct.bytes ++ after))) := by
    simp [WireInst.bytes]
  obtain ⟨_, len⟩ := header_at before (inst.body ++ (inst.acts.flatMap WireAct.bytes ++ after))
    inst.type.num short
  have body := slice_at before (toBytes 2 inst.type.num.toNat) (toBytes 2 inst.size) inst.body
    (inst.acts.flatMap WireAct.bytes ++ after) (Lib.length_toBytes _ _) (Lib.length_toBytes _ _)
  rw [← layout] at len body
  by_cases has : inst.type.hasActions = true
  · have four : inst.body.length = 4 := by simpa [has] using shape.2
    have total : inst.size = 8 + WireInst.actsSize inst.acts := by
      rw [WireInst.size, four]
    rw [four] at body
    simp only [collectInst, has, if_true, len, body]
    split_ifs with bare
    · have none : inst.acts = [] := acts_nil (by omega)
      simp [WireInst.parsed, none]
    · have further : before ++ (inst.bytes ++ after) =
          (before ++ (toBytes 2 inst.type.num.toNat ++ toBytes 2 inst.size ++ inst.body)) ++
            (inst.acts.flatMap WireAct.bytes ++ after) := by
        simp [WireInst.bytes]
      have place : before.length + 8 =
          (before ++
            (toBytes 2 inst.type.num.toNat ++ toBytes 2 inst.size ++ inst.body)).length := by
        simp [four]
      have left : (headLen (before ++ (inst.bytes ++ after)) before.length).setWidth 64 - 8 =
          BitVec.ofNat 64 (WireInst.actsSize inst.acts) := by
        apply BitVec.eq_of_toNat_eq
        have width : ((headLen (before ++ (inst.bytes ++ after)) before.length).setWidth 64).toNat =
            inst.size := by
          rw [BitVec.toNat_setWidth_of_le (by decide), len]
        have eight : (8 : BitVec 64).toNat = 8 := rfl
        rw [BitVec.toNat_sub, BitVec.toNat_ofNat]
        omega
      rw [left, of131ParseActions, place, further]
      rw [collect_acts inst.acts after _ done _ few (by omega)]
      simp [WireInst.parsed]
  · have bare : inst.acts = [] := by simpa [has] using shape.2
    have width : inst.size - 4 = inst.body.length := by
      simp [WireInst.size, bare, WireInst.actsSize]
    simp only [collectInst, has, Bool.false_eq_true, if_false, len, width, body]
    simp [WireInst.parsed, bare]

def instsSize (insts : List WireInst) : Nat := (insts.map WireInst.size).sum

theorem collect_insts (insts : List WireInst) (before : List Byte) (done : List ParsedInst)
    (enough : insts.length ≤ room) (short : instsSize insts < 2 ^ 16)
    (shape : ∀ inst ∈ insts, 4 ≤ inst.body.length ∧
      (if inst.type.hasActions then inst.body.length = 4 else inst.acts = []))
    (few : ∀ inst ∈ insts, inst.acts.length ≤ ofpMaxActions + 1) :
    parseInstLoop collectParsers room before.length (BitVec.ofNat 64 (instsSize insts))
        { msg := before ++ insts.flatMap WireInst.bytes, user := done } =
      { msg := before ++ insts.flatMap WireInst.bytes
        user := done ++ insts.map WireInst.parsed } := by
  induction insts generalizing room before done with
  | nil =>
    cases room with
    | zero | succ room => simp [parseInstLoop, collectParsers, instsSize]
  | cons inst insts ih =>
    obtain ⟨room, rfl⟩ : ∃ fewer, room = fewer + 1 :=
      Nat.exists_eq_succ_of_ne_zero (by simp at enough; omega)
    have sizes : instsSize (inst :: insts) = inst.size + instsSize insts := by
      simp [instsSize]
    rw [sizes] at short ⊢
    have positive : 0 < inst.size := by
      rw [WireInst.size]
      omega
    have layout : before ++ (inst :: insts).flatMap WireInst.bytes =
        before ++ (inst.bytes ++ insts.flatMap WireInst.bytes) := by
      simp
    have further : before ++ (inst.bytes ++ insts.flatMap WireInst.bytes) =
        (before ++ inst.bytes) ++ insts.flatMap WireInst.bytes := by
      simp
    obtain ⟨type, len⟩ := header_at before
      (inst.body ++ inst.acts.flatMap WireAct.bytes ++ insts.flatMap WireInst.bytes)
      inst.type.num (show inst.size < 2 ^ 16 by omega)
    have written : before ++ (toBytes 2 inst.type.num.toNat ++ toBytes 2 inst.size ++
        (inst.body ++ inst.acts.flatMap WireAct.bytes ++ insts.flatMap WireInst.bytes)) =
          before ++ (inst.bytes ++ insts.flatMap WireInst.bytes) := by
      simp [WireInst.bytes]
    rw [written] at type len
    have found := collect_inst inst before (insts.flatMap WireInst.bytes) done
      (shape inst mem_cons_self) (few inst mem_cons_self) (by omega)
    rw [layout, parseInstLoop, if_neg (left_pos positive short)]
    simp only [ne_eq, not_true_eq_false, if_false, type, InstType.ofNum_num, collectParsers, found,
      len, left_after len]
    have place : before.length + inst.size = (before ++ inst.bytes).length := by simp
    rw [place, further]
    refine (ih (before ++ inst.bytes) _ (by simpa using enough) (by omega) ?_ ?_).trans ?_
    · exact fun other member => shape other (mem_cons_of_mem _ member)
    · exact fun other member => few other (mem_cons_of_mem _ member)
    · simp

/-- After a tidy run the parser finds exactly what was asked for. -/
theorem builds_parsed {calls : List BuilderCall} (tidy : TidyRun {} calls) :
    (builds calls).fault = false ∧
      parsed (builds calls).bytes = (requests calls).insts.map WireInst.parsed := by
  have reached := builds_requests tidy
  refine ⟨reached.built.sound, ?_⟩
  have short : instsSize (requests calls).insts < 2 ^ 16 :=
    Nat.lt_of_le_of_lt reached.fits (by decide)
  have enough : (requests calls).insts.length ≤ ofpMaxInstructions + 1 := by
    have turns := types_le_turns reached.sound.nodup
    rwa [length_map] at turns
  have length : (builds calls).bytes.length = instsSize (requests calls).insts :=
    reached.built.length
  have loop :=
    collect_insts (requests calls).insts [] [] enough short reached.sound.shape reached.few
  have whole : of131ParseInstructions collectParsers collectAct
      (BitVec.ofNat 64 (builds calls).bytes.length) false
        { msg := (builds calls).bytes, user := [] } =
      parseInstLoop collectParsers (ofpMaxInstructions + 1) 0
        (BitVec.ofNat 64 (instsSize (requests calls).insts))
        { msg := (requests calls).insts.flatMap WireInst.bytes, user := [] } := by
    rw [length, reached.built.bytes]
    simp [of131ParseInstructions, collectParsers]
  rw [parsed, whole]
  exact congrArg ParserArg.user loop

/-- A VLAN and a port into the apply instruction, then a table. -/
def vlanThenGoto : List BuilderCall :=
  [.action (.setVid 10), .action (.output 3), .goto 5]

theorem vlanThenGoto_parsed : TidyRun {} vlanThenGoto ∧
      parsed (builds vlanThenGoto).bytes = (requests vlanThenGoto).insts.map WireInst.parsed := by
  have tidy : TidyRun {} vlanThenGoto := by
    refine ⟨⟨by decide, by decide, ?_⟩, ⟨by decide, by decide, ?_⟩,
      ⟨by decide, by decide, ?_⟩, trivial⟩
    · intro _ _ _ _ _ _
      exact Request.endsWithCur_of_last (by decide)
    · intro _ _ _ _ _ _
      exact Request.endsWithCur_of_last (by decide)
    · intro req mark act call
      cases call
  exact ⟨tidy, (builds_parsed tidy).2⟩

/-- The second output belongs to the apply instruction, which the table follows. -/
def outputAfterGoto : List BuilderCall :=
  [.action (.output 1), .goto 5, .action (.output 2)]

theorem outputAfterGoto_misparsed :
    parsed (builds outputAfterGoto).bytes ≠
      (requests outputAfterGoto).insts.map WireInst.parsed := by
  decide

end OpenMul
