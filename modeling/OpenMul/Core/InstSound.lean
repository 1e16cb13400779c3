import OpenMul.Core.InstCheck

namespace OpenMul

open List hiding after

def lenAt (msg : List Byte) (pos : Nat) : Nat := (headLen msg pos).toNat

/-- The bytes between two offsets are known actions, one after the other. -/
inductive ActionsSplit (msg : List Byte) : Nat → Nat → Prop where
  | done (pos : Nat) : ActionsSplit msg pos pos
  | next {pos stop : Nat} {type : ActType} (known : ActType.ofNum (headType msg pos) = some type)
      (long : type.size ≤ lenAt msg pos) (aligned : 8 ∣ lenAt msg pos)
      (more : ActionsSplit msg (pos + lenAt msg pos) stop) : ActionsSplit msg pos stop

/-- The bytes between two offsets are instructions of the types listed. -/
inductive InstsSplit (msg : List Byte) : Nat → Nat → List InstType → Prop where
  | done (pos : Nat) : InstsSplit msg pos pos []
  | next {pos stop : Nat} {type : InstType} {types : List InstType}
      (known : InstType.ofNum (headType msg pos) = some type) (long : type.size ≤ lenAt msg pos)
      (body : type.hasActions →
        ActionsSplit msg (pos + instActionsSz) (pos + lenAt msg pos))
      (more : InstsSplit msg (pos + lenAt msg pos) stop types) :
      InstsSplit msg pos stop (type :: types)

/-- The first `instLen` bytes are instructions, with no type twice. -/
def InstsWellFormed (msg : List Byte) (instLen : Nat) : Prop :=
  ∃ types, InstsSplit msg 0 instLen types ∧ types.Nodup

theorem ActType.size_pos (type : ActType) : 8 ≤ type.size := by
  cases type <;> simp [ActType.size]

theorem InstType.size_pos (type : InstType) : 8 ≤ type.size := by
  cases type <;> simp [InstType.size]

theorem ActionsSplit.le (split : ActionsSplit msg pos stop) : pos ≤ stop := by
  induction split with
  | done => exact Nat.le_refl _
  | next _ _ _ _ ih => omega

theorem InstsSplit.le (split : InstsSplit msg pos stop types) : pos ≤ stop := by
  induction split with
  | done => exact Nat.le_refl _
  | next _ _ _ _ ih => omega

section Ahead

variable {msg other : List Byte} {pos : Nat}

theorem drop_ahead (same : msg.drop pos = other.drop pos) (after : pos ≤ later) :
    msg.drop later = other.drop later := by
  obtain ⟨gap, rfl⟩ := Nat.exists_eq_add_of_le after
  rw [← drop_drop, ← drop_drop, same]

theorem headType_ahead (same : msg.drop pos = other.drop pos) :
    headType msg pos = headType other pos := by
  rw [headType, headType, same]

theorem lenAt_ahead (same : msg.drop pos = other.drop pos) : lenAt msg pos = lenAt other pos := by
  rw [lenAt, lenAt, headLen, headLen, drop_ahead same (Nat.le_add_right pos 2)]

theorem ActionsSplit.ahead (split : ActionsSplit msg pos stop)
    (same : msg.drop pos = other.drop pos) : ActionsSplit other pos stop := by
  induction split with
  | done pos => exact .done pos
  | next known long aligned _ ih =>
    rw [headType_ahead same] at known
    have rest := ih (drop_ahead same (Nat.le_add_right _ _))
    rw [lenAt_ahead same] at long aligned rest
    exact .next known long aligned rest

theorem InstsSplit.ahead (split : InstsSplit msg pos stop types)
    (same : msg.drop pos = other.drop pos) : InstsSplit other pos stop types := by
  induction split with
  | done pos => exact .done pos
  | next known long body _ ih =>
    rw [headType_ahead same] at known
    have rest := ih (drop_ahead same (Nat.le_add_right _ _))
    have inner := fun has => (body has).ahead (drop_ahead same (Nat.le_add_right _ _))
    rw [lenAt_ahead same] at long rest inner
    exact .next known long inner rest

end Ahead

/-- No action handler writes the list or the marks of the instructions. -/
def Keeps (arg after : CheckArg) : Prop := after.msg = arg.msg ∧ after.user.seen = arg.user.seen

theorem Keeps.trans (first : Keeps arg after) (second : Keeps after last) : Keeps arg last :=
  ⟨second.1.trans first.1, second.2.trans first.2⟩

theorem keeps_refuse (arg : CheckArg) : Keeps arg arg.refuse := ⟨rfl, rfl⟩

theorem keeps_require (arg : CheckArg) (passed : Bool) : Keeps arg (arg.require passed) := by
  cases passed
  · exact keeps_refuse arg
  · exact ⟨rfl, rfl⟩

theorem setf_keeps (found : of131CheckModSetf field = some handler) (oxm : OxmHdr)
    (arg : CheckArg) : Keeps arg (handler oxm arg) := by
  unfold of131CheckModSetf at found
  split at found <;> cases found
  all_goals apply keeps_require

theorem act_keeps (type : ActType) (pos : Nat) (arg : CheckArg) :
    Keeps arg (of131CheckModActParsers type pos arg) := by
  cases type with
  | output | popVlan | popPbb | popMpls =>
    simp only [of131CheckModActParsers, of131CheckActOutput, of131CheckPopVlanAction,
      of131CheckPopPbbAction, of131CheckPopMplsAction]
    split_ifs <;> exact ⟨rfl, rfl⟩
  | group =>
    simp only [of131CheckModActParsers, of131CheckGroupAct]
    split_ifs
    · exact ⟨rfl, rfl⟩
    · split
      · exact ⟨rfl, rfl⟩
      · split_ifs <;> exact ⟨rfl, rfl⟩
  | setField =>
    simp only [of131CheckModActParsers, of131CheckActSetField]
    split_ifs
    · exact ⟨rfl, rfl⟩
    · cases found : of131CheckModSetf (OxmHdr.ntoh (arg.msg.drop (pos + 4))).field with
      | none => exact ⟨rfl, rfl⟩
      | some handler => exact setf_keeps found _ arg
  | pushVlan => exact keeps_require { arg with user.pushVlan := arg.user.pushVlan + 1 } _
  | pushMpls => exact keeps_require { arg with user.pushMpls := arg.user.pushMpls + 1 } _
  | pushPbb => exact keeps_require { arg with user.pushPbb := arg.user.pushPbb + 1 } _
  | copyTtlOut | copyTtlIn | mplsTtl | decMplsTtl | setQueue | setNwTtl | decNwTtl =>
    apply keeps_require

section Actions

variable {room pos stop : Nat} {actLen : BitVec 64} {arg : CheckArg}

abbrev checkActions := parseActionsLoop of131CheckModActParsers

theorem checkActions_refused (refused : arg.res ≠ 0) : checkActions room pos actLen arg = arg := by
  cases room with
  | zero => rfl
  | succ room => simp [checkActions, parseActionsLoop, refused]

theorem checkActions_next (left : actLen ≠ 0) (running : arg.res = 0)
    (known : ActType.ofNum (headType arg.msg pos) = some type) :
    checkActions (room + 1) pos actLen arg =
      checkActions room (pos + lenAt arg.msg pos) (actLen - (headLen arg.msg pos).setWidth 64)
        (of131CheckModActParsers type pos arg) := by
  have kept := (act_keeps type pos arg).1
  have going : ¬(actLen = 0 ∨ arg.res ≠ 0) := by
    intro ended
    exact ended.elim left (absurd running)
  simp only [checkActions, parseActionsLoop, if_neg going, known, kept, lenAt]

theorem checkActions_keeps (room pos : Nat) (actLen : BitVec 64) (arg : CheckArg) :
    Keeps arg (checkActions room pos actLen arg) := by
  induction room generalizing pos actLen arg with
  | zero => exact ⟨rfl, rfl⟩
  | succ room ih =>
    simp only [checkActions, parseActionsLoop]
    split_ifs
    · exact ⟨rfl, rfl⟩
    · cases known : ActType.ofNum (headType arg.msg pos) with
      | none => exact ⟨rfl, rfl⟩
      | some type =>
        exact (act_keeps type pos arg).trans (ih _ _ _)

theorem left_sub (left : pos + actLen.toNat = stop) (fits : pos + lenAt msg pos ≤ stop) :
    pos + lenAt msg pos + (actLen - (headLen msg pos).setWidth 64).toNat = stop := by
  have width : ((headLen msg pos).setWidth 64).toNat = lenAt msg pos :=
    BitVec.toNat_setWidth_of_le (by decide)
  rw [BitVec.toNat_sub_of_le]
  · omega
  · rw [BitVec.le_def]
    omega

/-- Up to the first refused action, each is known, long enough and inside its instruction. -/
inductive ActsOrderly : Nat → Nat → Nat → CheckArg → Prop where
  | done (room pos : Nat) (arg : CheckArg) : ActsOrderly room pos pos arg
  | unvisited {pos stop : Nat} {arg : CheckArg} (split : ActionsSplit arg.msg pos stop) :
      ActsOrderly 0 pos stop arg
  | refused {room pos stop : Nat} {arg : CheckArg} {type : ActType} (inside : pos < stop)
      (known : ActType.ofNum (headType arg.msg pos) = some type)
      (refuses : (of131CheckModActParsers type pos arg).res ≠ 0) :
      ActsOrderly (room + 1) pos stop arg
  | next {room pos stop : Nat} {arg : CheckArg} {type : ActType}
      (known : ActType.ofNum (headType arg.msg pos) = some type)
      (long : type.size ≤ lenAt arg.msg pos) (aligned : 8 ∣ lenAt arg.msg pos)
      (fits : pos + lenAt arg.msg pos ≤ stop)
      (more : ActsOrderly room (pos + lenAt arg.msg pos) stop
        (of131CheckModActParsers type pos arg)) :
      ActsOrderly (room + 1) pos stop arg

/-- A later refusal ends the walk, so an accepted walk was never refused. -/
theorem act_running (left : actLen ≠ 0) (running : arg.res = 0)
    (known : ActType.ofNum (headType arg.msg pos) = some type)
    (accepted : (checkActions (room + 1) pos actLen arg).res = 0) :
    (of131CheckModActParsers type pos arg).res = 0 := by
  by_contra refuses
  rw [checkActions_next left running known, checkActions_refused refuses] at accepted
  exact refuses accepted

theorem left_ne_zero (left : pos + actLen.toNat = stop) (inside : pos < stop) : actLen ≠ 0 := by
  intro zero
  simp [zero] at left
  omega

theorem ActsOrderly.split (orderly : ActsOrderly room pos stop arg) (running : arg.res = 0)
    (left : pos + actLen.toNat = stop)
    (accepted : (checkActions room pos actLen arg).res = 0) : ActionsSplit arg.msg pos stop := by
  induction orderly generalizing actLen with
  | done room pos arg => exact .done pos
  | unvisited split => exact split
  | refused inside known refuses =>
    exact absurd (act_running (left_ne_zero left inside) running known accepted) refuses
  | @next room pos stop arg type known long aligned fits _ ih =>
    have sized := type.size_pos
    have nonzero := left_ne_zero left (by omega)
    have passed := act_running nonzero running known accepted
    rw [checkActions_next nonzero running known] at accepted
    have rest := ih passed (left_sub left fits) accepted
    rw [(act_keeps type pos arg).1] at rest
    exact .next known long aligned rest

theorem ActionsSplit.orderly (split : ActionsSplit msg pos stop) (same : arg.msg = msg)
    (running : arg.res = 0) (left : pos + actLen.toNat = stop)
    (accepted : (checkActions room pos actLen arg).res = 0) : ActsOrderly room pos stop arg := by
  induction split generalizing room actLen arg with
  | done pos => exact .done room pos arg
  | @next pos stop type known long aligned more ih =>
    subst same
    cases room with
    | zero => exact .unvisited (.next known long aligned more)
    | succ room =>
      have sized := type.size_pos
      have fits := more.le
      have nonzero := left_ne_zero left (by omega)
      have passed := act_running nonzero running known accepted
      rw [checkActions_next nonzero running known] at accepted
      exact .next known long aligned fits
        (ih (act_keeps type pos arg).1 passed (left_sub left fits) accepted)

end Actions

/-- The mark of an instruction type; experimenters leave none. -/
def InstSeen.has (seen : InstSeen) : InstType → Bool
  | .gotoTable => seen.instGoto
  | .writeMetadata => seen.instWrMeta
  | .writeActions => seen.instWr
  | .applyActions => seen.instApp
  | .clearActions => seen.instClear
  | .meter => seen.instMeter
  | .experimenter => false

/-- The header of the instruction and everything behind its first eight bytes. -/
structure KeepsList (pos : Nat) (msg after : List Byte) : Prop where
  len : headLen after pos = headLen msg pos
  ahead : after.drop (pos + 8) = msg.drop (pos + 8)

/-- What a handler that has not refused tells of the marks. -/
structure Passed (type : InstType) (before after : InstSeen) : Prop where
  fresh : type ≠ .applyActions → before.has type = false
  keeps : ∀ {other : InstType}, before.has other = true → after.has other = true
  marks : type ≠ .experimenter → after.has type = true

theorem keepsList_set (pos : Nat) (msg : List Byte) (value : Byte) :
    KeepsList pos msg (msg.set (pos + 4) value) where
  len := by
    have behind : (msg.set (pos + 4) value).drop (pos + 2) = (msg.drop (pos + 2)).set 2 value := by
      rw [drop_set, if_neg (by omega)]
      congr 1
      omega
    rw [headLen, headLen, behind, Lib.wordAt, Lib.wordAt, take_set_of_le (by decide)]
  ahead := drop_set_of_lt (by omega)

variable {room pos stop : Nat} {instLen : BitVec 64} {arg : CheckArg} {type : InstType}

theorem enterActInst_msg (type : InstType) (arg : CheckArg) :
    (enterActInst type arg).msg = arg.msg := by
  unfold enterActInst
  split_ifs
  · rfl
  all_goals exact (keeps_require _ _).1

theorem enterActInst_passed (has : type.hasActions) (passed : (enterActInst type arg).res = 0) :
    Passed type arg.user.seen (enterActInst type arg).user.seen := by
  unfold enterActInst at passed ⊢
  by_cases again : arg.user.seen.instWr = true
  · simp [again, ParserArg.refuse] at passed
  · have first : arg.user.seen.instWr = false := by simpa using again
    cases type with
    | writeActions | applyActions =>
      simp only [again, if_false, if_true, Bool.false_eq_true, reduceCtorEq]
      rw [(keeps_require _ _).2]
      refine ⟨fun _ => by simp_all [InstSeen.has], ?_, fun _ => rfl⟩
      intro other seen
      cases other <;> simp_all [InstSeen.has]
    | gotoTable | writeMetadata | clearActions | meter | experimenter =>
      simp [InstType.hasActions] at has

theorem inst_hasActions (has : type.hasActions) :
    of131CheckInstParsers.inst type = of131CheckActInst type := by
  cases type <;> first | rfl | simp [InstType.hasActions] at has

theorem actInst_keeps (type : InstType) (pos : Nat) (arg : CheckArg) :
    Keeps (enterActInst type arg) (of131CheckActInst type pos arg) := by
  simp only [of131CheckActInst]
  split_ifs
  · exact ⟨rfl, rfl⟩
  · exact checkActions_keeps _ _ _ _

/-- An instruction that is accepted has been entered, and its actions were. -/
theorem actInst_accepted (long : instActionsSz ≤ lenAt arg.msg pos)
    (accepted : (of131CheckActInst type pos arg).res = 0) :
    (enterActInst type arg).res = 0 ∧ ∃ actLen : BitVec 64,
      pos + instActionsSz + actLen.toNat = pos + lenAt arg.msg pos ∧
      (checkActions (ofpMaxActions + 1) (pos + instActionsSz) actLen (enterActInst type arg)).res =
        0 := by
  have width : ((headLen arg.msg pos).setWidth 64).toNat = lenAt arg.msg pos :=
    BitVec.toNat_setWidth_of_le (by decide)
  have entered : (enterActInst type arg).res = 0 := by
    by_contra refused
    simp [of131CheckActInst, refused] at accepted
  refine ⟨entered, (headLen arg.msg pos).setWidth 64 - BitVec.ofNat 64 instActionsSz, ?_, ?_⟩
  · rw [BitVec.toNat_sub_of_le]
    · have size : (BitVec.ofNat 64 instActionsSz).toNat = instActionsSz := rfl
      omega
    · exact long
  · simp only [of131CheckActInst] at accepted
    split_ifs at accepted with short
    · have equal : lenAt arg.msg pos = instActionsSz := by
        rcases short with refused | short
        · exact absurd entered refused
        · exact Nat.le_antisymm short long
      have none : (headLen arg.msg pos).setWidth 64 - BitVec.ofNat 64 instActionsSz = 0 := by
        apply BitVec.eq_of_toNat_eq
        rw [BitVec.toNat_sub_of_le, width, equal]
        · rfl
        · exact long
      simpa [parseActionsLoop, none] using entered
    · exact accepted

theorem inst_keepsList (type : InstType) (pos : Nat) (arg : CheckArg) :
    KeepsList pos arg.msg (of131CheckInstParsers.inst type pos arg).msg := by
  cases type with
  | gotoTable =>
    simp only [of131CheckInstParsers, of131CheckGotoInst]
    split_ifs
    · exact ⟨rfl, rfl⟩
    · cases arg.user.uArg.getV2pTbl with
      | none => exact ⟨rfl, rfl⟩
      | some getV2pTbl => apply keepsList_set
  | writeMetadata | clearActions =>
    simp only [of131CheckInstParsers, of131CheckWrMetaInst, of131CheckClearInst]
    split_ifs <;> exact ⟨rfl, rfl⟩
  | meter =>
    simp only [of131CheckInstParsers, of131CheckMeterInst]
    split_ifs
    · exact ⟨rfl, rfl⟩
    · split
      · exact ⟨rfl, rfl⟩
      · split_ifs <;> exact ⟨rfl, rfl⟩
  | experimenter => exact ⟨rfl, rfl⟩
  | writeActions | applyActions =>
    rw [inst_hasActions rfl, (actInst_keeps _ pos arg).1, enterActInst_msg]
    exact ⟨rfl, rfl⟩

theorem inst_passed (passed : (of131CheckInstParsers.inst type pos arg).res = 0) :
    Passed type arg.user.seen (of131CheckInstParsers.inst type pos arg).user.seen := by
  cases type with
  | gotoTable | writeMetadata | clearActions =>
    simp only [of131CheckInstParsers, of131CheckGotoInst, of131CheckWrMetaInst, of131CheckClearInst]
      at passed ⊢
    split_ifs at passed ⊢ with again
    · simp [ParserArg.refuse] at passed
    · refine ⟨fun _ => by simp_all [InstSeen.has], ?_, fun _ => rfl⟩
      intro other seen
      cases other <;> simp_all [InstSeen.has]
  | meter =>
    simp only [of131CheckInstParsers, of131CheckMeterInst] at passed ⊢
    split_ifs at passed ⊢ with again
    · simp [ParserArg.refuse] at passed
    · have marked : Passed .meter arg.user.seen { arg.user.seen with instMeter := true } := by
        refine ⟨fun _ => by simpa [InstSeen.has] using again, ?_, fun _ => rfl⟩
        intro other seen
        cases other <;> simp_all [InstSeen.has]
      split at passed
      · exact marked
      · split_ifs at passed ⊢
        · exact marked
        · simp [ParserArg.refuse] at passed
  | experimenter => exact ⟨fun _ => rfl, fun seen => seen, fun other => absurd rfl other⟩
  | writeActions | applyActions =>
    rw [inst_hasActions rfl] at passed ⊢
    rw [(actInst_keeps _ pos arg).2]
    apply enterActInst_passed rfl
    by_contra refused
    simp [of131CheckActInst, refused] at passed

abbrev checkInsts := parseInstLoop of131CheckInstParsers

theorem checkInsts_refused (refused : arg.res ≠ 0) : checkInsts room pos instLen arg = arg := by
  cases room with
  | zero => simp [checkInsts, parseInstLoop, of131CheckInstParsers]
  | succ room => simp [checkInsts, parseInstLoop, of131CheckInstParsers, refused]

section

variable (left : instLen ≠ 0) (running : arg.res = 0)
    (known : InstType.ofNum (headType arg.msg pos) = some type)
include left running known

theorem checkInsts_next : checkInsts (room + 1) pos instLen arg =
      checkInsts room (pos + lenAt arg.msg pos) (instLen - (headLen arg.msg pos).setWidth 64)
        (of131CheckInstParsers.inst type pos arg) := by
  have kept := (inst_keepsList type pos arg).len
  simp only [checkInsts, parseInstLoop, if_neg left, if_neg (not_not.mpr running), known, kept,
    lenAt]

theorem inst_running (accepted : (checkInsts (room + 1) pos instLen arg).res = 0) :
    (of131CheckInstParsers.inst type pos arg).res = 0 := by
  by_contra refuses
  rw [checkInsts_next left running known, checkInsts_refused refuses] at accepted
  exact refuses accepted

end

/-- Up to the first refused instruction, each is known, long enough, inside and orderly. -/
inductive InstsOrderly : Nat → Nat → Nat → List InstType → CheckArg → Prop where
  | done (room pos : Nat) (seen : List InstType) (arg : CheckArg) :
    InstsOrderly room pos pos seen arg
  | refused {room pos stop : Nat} {seen : List InstType} {arg : CheckArg} {type : InstType}
      (inside : pos < stop) (known : InstType.ofNum (headType arg.msg pos) = some type)
      (refuses : (of131CheckInstParsers.inst type pos arg).res ≠ 0) :
      InstsOrderly (room + 1) pos stop seen arg
  | next {room pos stop : Nat} {seen : List InstType} {arg : CheckArg} {type : InstType}
      (known : InstType.ofNum (headType arg.msg pos) = some type)
      (long : type.size ≤ lenAt arg.msg pos) (fits : pos + lenAt arg.msg pos ≤ stop)
      (single : type = .applyActions ∨ type = .experimenter → type ∉ seen)
      (body : type.hasActions → ActsOrderly (ofpMaxActions + 1) (pos + instActionsSz)
        (pos + lenAt arg.msg pos) (enterActInst type arg))
      (more : InstsOrderly room (pos + lenAt arg.msg pos) stop (type :: seen)
        (of131CheckInstParsers.inst type pos arg)) :
      InstsOrderly (room + 1) pos stop seen arg

/-- The marks cover the instructions that were met. -/
def Marked (seen : List InstType) (arg : CheckArg) : Prop :=
  ∀ type ∈ seen, type ≠ .experimenter → arg.user.seen.has type = true

variable {seen : List InstType}

theorem Marked.next (marked : Marked seen arg)
    (passed : (of131CheckInstParsers.inst type pos arg).res = 0) :
    Marked (type :: seen) (of131CheckInstParsers.inst type pos arg) := by
  intro other member plain
  rcases mem_cons.mp member with rfl | earlier
  · exact (inst_passed passed).marks plain
  · exact (inst_passed passed).keeps (marked other earlier plain)

theorem Marked.fresh (marked : Marked seen arg)
    (passed : (of131CheckInstParsers.inst type pos arg).res = 0)
    (single : type = .applyActions ∨ type = .experimenter → type ∉ seen) : type ∉ seen := by
  intro earlier
  by_cases apart : type = .applyActions ∨ type = .experimenter
  · exact single apart earlier
  · rw [not_or] at apart
    have unmarked := (inst_passed passed).fresh apart.1
    rw [marked type earlier apart.2] at unmarked
    exact Bool.noConfusion unmarked

theorem inst_ahead (long : type.size ≤ lenAt arg.msg pos) :
    (of131CheckInstParsers.inst type pos arg).msg.drop (pos + lenAt arg.msg pos) =
      arg.msg.drop (pos + lenAt arg.msg pos) := by
  have sized := type.size_pos
  exact drop_ahead (inst_keepsList type pos arg).ahead (by omega)

theorem InstsOrderly.split (orderly : InstsOrderly room pos stop seen arg) (running : arg.res = 0)
    (marked : Marked seen arg) (left : pos + instLen.toNat = stop)
    (accepted : (checkInsts room pos instLen arg).res = 0) :
    ∃ types, InstsSplit arg.msg pos stop types ∧ types.Nodup ∧ ∀ type ∈ types, type ∉ seen := by
  induction orderly generalizing instLen with
  | done room pos seen arg => exact ⟨[], .done pos, nodup_nil, by simp⟩
  | refused inside known refuses =>
    exact absurd (inst_running (left_ne_zero left inside) running known accepted) refuses
  | @next room pos stop seen arg type known long fits single body _ ih =>
    have sized := type.size_pos
    have nonzero := left_ne_zero left (by omega)
    have passed := inst_running nonzero running known accepted
    rw [checkInsts_next nonzero running known] at accepted
    obtain ⟨types, rest, nodup, apart⟩ :=
      ih passed (marked.next passed) (left_sub left fits) accepted
    have inner : type.hasActions →
        ActionsSplit arg.msg (pos + instActionsSz) (pos + lenAt arg.msg pos) := by
      intro has
      rw [inst_hasActions has] at passed
      obtain ⟨entered, actLen, length, bodyAccepted⟩ :=
        actInst_accepted (Nat.le_trans sized long) passed
      have split := (body has).split entered length bodyAccepted
      rwa [enterActInst_msg] at split
    refine ⟨type :: types, .next known long inner (rest.ahead (inst_ahead long)), ?_, ?_⟩
    · apply nodup_cons.mpr
      exact ⟨fun member => apart type member mem_cons_self, nodup⟩
    · intro other member
      rcases mem_cons.mp member with rfl | later
      · exact marked.fresh passed single
      · exact fun earlier => apart other later (mem_cons_of_mem _ earlier)

theorem InstsSplit.orderly
    (split : InstsSplit msg pos stop types) (same : arg.msg.drop pos = msg.drop pos)
    (running : arg.res = 0) (nodup : types.Nodup) (apart : ∀ type ∈ types, type ∉ seen)
    (enough : types.length ≤ room) (left : pos + instLen.toNat = stop)
    (accepted : (checkInsts room pos instLen arg).res = 0) :
    InstsOrderly room pos stop seen arg := by
  induction split generalizing room instLen arg seen with
  | done pos => exact .done room pos seen arg
  | @next pos stop type types known long body more ih =>
    obtain ⟨room, rfl⟩ : ∃ fewer, room = fewer + 1 := by
      exact Nat.exists_eq_succ_of_ne_zero (by simp at enough; omega)
    have fits := more.le
    have inner := fun has => (body has).ahead (drop_ahead same.symm (Nat.le_add_right _ _))
    rw [← headType_ahead same] at known
    rw [← lenAt_ahead same] at long fits inner ih
    have sized := type.size_pos
    have nonzero := left_ne_zero left (by omega)
    have passed := inst_running nonzero running known accepted
    rw [checkInsts_next nonzero running known] at accepted
    obtain ⟨notLater, rest⟩ := nodup_cons.mp nodup
    refine .next known long fits (fun _ => apart type mem_cons_self) ?_ ?_
    · intro has
      rw [inst_hasActions has] at passed
      obtain ⟨entered, actLen, length, bodyAccepted⟩ :=
        actInst_accepted (Nat.le_trans sized long) passed
      exact (inner has).orderly (enterActInst_msg type arg) entered length bodyAccepted
    · apply ih ((inst_ahead long).trans (drop_ahead same (Nat.le_add_right _ _))) passed rest
      · intro other member earlier
        rcases mem_cons.mp earlier with rfl | before
        · exact notLater member
        · exact apart other (mem_cons_of_mem _ member) before
      · simpa using enough
      · exact left_sub left fits
      · exact accepted

/-- The argument the instruction loop of `of131_validate_actions` starts from. -/
def checkStart (fl mask : Option Flow) (msg : List Byte) (uArg : InstCheckArgs) : CheckArg :=
  ofCheckInstParserPreProc { msg := msg, user := { fl := fl, mask := mask, uArg := uArg } }

theorem checkStart_msg (fl mask : Option Flow) (msg : List Byte) (uArg : InstCheckArgs) :
    (checkStart fl mask msg uArg).msg = msg ∧ (checkStart fl mask msg uArg).res = 0 := by
  cases fl <;> cases mask <;> exact ⟨rfl, rfl⟩

/-- The order the validator relies on and does not check. -/
def ListOrderly (fl mask : Option Flow) (msg : List Byte) (instLen : BitVec 64)
    (uArg : InstCheckArgs) : Prop :=
  InstsOrderly (ofpMaxInstructions + 1) 0 instLen.toNat [] (checkStart fl mask msg uArg)

/-- An accepted list is well formed exactly when it was orderly to begin with. -/
theorem of131ValidateActions_wellFormed_iff (fl mask : Option Flow) (msg : List Byte)
    (instLen : BitVec 64) (uArg : InstCheckArgs)
    (accepted : (of131ValidateActions fl mask msg instLen false uArg).res = 0) :
    InstsWellFormed msg instLen.toNat ↔ ListOrderly fl mask msg instLen uArg := by
  obtain ⟨kept, running⟩ := checkStart_msg fl mask msg uArg
  have walked : (checkInsts (ofpMaxInstructions + 1) 0 instLen (checkStart fl mask msg uArg)).res =
      0 := by
    simpa [of131ValidateActions, of131ParseInstructions, of131CheckInstParsers, checkInsts,
      checkStart] using accepted
  constructor
  · intro ⟨types, split, nodup⟩
    apply split.orderly (by rw [kept]) running nodup (by simp) (types_le_turns nodup)
      (Nat.zero_add _) walked
  · intro orderly
    obtain ⟨types, split, nodup, _⟩ :=
      InstsOrderly.split orderly running (by simp [Marked]) (Nat.zero_add _) walked
    rw [kept] at split
    exact ⟨types, split, nodup⟩

/-- A goto and an apply with one output, which is accepted. -/
def gotoAndOutput : List Byte :=
  [0, 1, 0, 8, 2, 0, 0, 0, 0, 4, 0, 24, 0, 0, 0, 0, 0, 0, 0, 16, 0, 0, 0, 3, 0, 0, 0, 0, 0, 0, 0, 0]

theorem gotoAndOutput_split : InstsWellFormed gotoAndOutput 32 := by
  refine ⟨[.gotoTable, .applyActions], ?_, by decide⟩
  refine .next (by decide) (by decide) (fun has => absurd has (by decide)) ?_
  refine .next (by decide) (by decide) (fun _ => ?_) (.done 32)
  exact .next (show _ = some ActType.output by decide) (by decide) (by decide) (.done 32)

theorem gotoAndOutput_orderly : (of131ValidateActions none none gotoAndOutput 32 false {}).res = 0 ∧
      ListOrderly none none gotoAndOutput 32 {} := by
  have accepted : (of131ValidateActions none none gotoAndOutput 32 false {}).res = 0 := by
    decide
  refine ⟨accepted, ?_⟩
  exact (of131ValidateActions_wellFormed_iff none none gotoAndOutput 32 {} accepted).mp
    gotoAndOutput_split

/-- An instruction of no known type ends the walk with the verdict still good. -/
def unknownInst : List Byte := [0, 9, 0, 8, 0, 0, 0, 0]

/-- The second apply instruction is tested against the mark of a write. -/
def twoApplies : List Byte := [0, 4, 0, 8, 0, 0, 0, 0, 0, 4, 0, 8, 0, 0, 0, 0]

theorem unknown_and_repeated_accepted :
    ((of131ValidateActions none none unknownInst 8 false {}).res = 0 ∧
        ¬ InstsWellFormed unknownInst 8) ∧
          (of131ValidateActions none none twoApplies 16 false {}).res = 0 ∧
        ¬ InstsWellFormed twoApplies 16 := by
  refine ⟨⟨by decide, ?_⟩, by decide, ?_⟩
  · intro ⟨types, split, _⟩
    cases split with
    | next known _ _ _ => cases known
  · intro ⟨types, split, nodup⟩
    have first : InstType.ofNum (headType twoApplies 0) = some .applyActions := by decide
    have second : InstType.ofNum (headType twoApplies 8) = some .applyActions := by decide
    have length : lenAt twoApplies 0 = 8 := by decide
    cases split with
    | next known _ _ more =>
      rw [length] at more
      cases more with
      | next again _ _ _ =>
        cases known
        cases again
        simp at nodup

end OpenMul
