import OpenMul.Core.Oxm
import OpenMul.Lib.RecordWalk

namespace OpenMul

open Lib

namespace OxmCase

/-- The output the loop goes on with, unless the case returns an error. -/
def next (out : OxmOut) : OxmCase → Option OxmOut
  | fail => none
  | skip => some out
  | store _ stored => some stored

/-- Nothing past the field's own data is read. -/
def Within (length : Nat) : OxmCase → Prop
  | store reads _ => reads ≤ length
  | _ => True

theorem within_given {inner : OxmCase} (admitted : Bool) (within : inner.Within length) :
    (given admitted inner).Within length := by
  cases admitted with
  | true => exact within
  | false => trivial

theorem within_lenient {inner : OxmCase} (within : inner.Within length) :
    inner.lenient.Within length := by
  cases inner with
  | fail | skip => trivial
  | store => exact within

theorem within_checked (checked : refused = false → reads ≤ length) :
    (if refused then fail else store reads stored : OxmCase).Within length := by
  cases refused with
  | true => trivial
  | false => exact checked rfl

end OxmCase

section Cases

variable (oxm : OxmHdr) (len : Int) (data : List Byte) (out : OxmOut)

private theorem oxmExact_within (field : FlowField) :
    (oxmExact oxm len data out field).Within oxm.length.toNat := by
  apply OxmCase.within_checked
  intro passed
  simp only [Bool.or_eq_false_iff, bne_eq_false_iff_eq] at passed
  exact passed.2.ge

private theorem oxmMasked_within (field : FlowField) :
    (oxmMasked oxm len data out field).Within oxm.length.toNat := by
  apply OxmCase.within_checked
  intro passed
  simp only [Bool.or_eq_false_iff, bne_eq_false_iff_eq] at passed
  exact passed.2.ge

private theorem oxmVlanVid_within : (oxmVlanVid oxm len data out).Within oxm.length.toNat := by
  apply OxmCase.within_checked
  intro passed
  simp only [Bool.or_eq_false_iff, bne_eq_false_iff_eq] at passed
  exact passed.2.ge

private theorem oxmMplsLabel_within : (oxmMplsLabel oxm len data out).Within oxm.length.toNat := by
  apply OxmCase.within_checked
  intro passed
  simp only [Bool.or_eq_false_iff, decide_eq_false_iff_not] at passed
  split <;> omega

/-- Every case of the switch keeps to the field it is for. -/
theorem oxmCase_within : (oxmCase oxm len data out).Within oxm.length.toNat := by
  have exact := oxmExact_within oxm len data out
  have masked := oxmMasked_within oxm len data out
  unfold oxmCase
  dsimp only
  split
  case h_1 | h_5 | h_6 => exact exact _
  case h_2 | h_3 | h_22 | h_23 => exact masked _
  case h_4 => exact oxmVlanVid_within oxm len data out
  case h_7 => exact OxmCase.within_given _ (oxmMplsLabel_within oxm len data out)
  case h_8 | h_9 | h_16 | h_17 | h_20 | h_21 => exact OxmCase.within_given _ (exact _)
  case h_10 | h_11 | h_12 | h_13 | h_14 | h_15 => exact OxmCase.within_given _ (masked _)
  case h_18 | h_19 =>
    split
    · exact OxmCase.within_lenient (exact _)
    · trivial
  case h_24 => trivial

end Cases

section Scan

variable (ofx : List Byte)

/-- The whole size of the field at an offset, by its header. -/
def oxmFieldSize (pos : Nat) : Nat := (OxmHdr.ntoh (ofx.drop pos)).length.toNat + oxmHdrSz

/-- What the checks make of a field: the output to go on with, or nothing. -/
def oxmAdmits (stop pos : Nat) (out : OxmOut) : Option OxmOut :=
  let bytes := ofx.drop pos
  let oxm := OxmHdr.ntoh bytes
  if oxm.oxmClass ≠ ofpxmcOpenflowBasic then none
  else (oxmCase oxm ((stop : Int) - pos) (bytes.drop oxmHdrSz) out).next out

/-- Up to the first refused field every field ends within the match. -/
inductive OxmFits (stop : Nat) : Nat → Nat → OxmOut → Prop where
  | padding {room pos : Nat} {out : OxmOut} (inside : pos ≤ stop) (few : stop < pos + oxmHdrSz) :
      OxmFits stop room pos out
  | full {pos : Nat} {out : OxmOut} (more : pos + oxmHdrSz < stop) : OxmFits stop 0 pos out
  | refused {room pos : Nat} {out : OxmOut} (more : pos + oxmHdrSz < stop)
      (refused : oxmAdmits ofx stop pos out = none) : OxmFits stop (room + 1) pos out
  | field {room pos : Nat} {out taken : OxmOut} (more : pos + oxmHdrSz < stop)
      (admitted : oxmAdmits ofx stop pos out = some taken)
      (inside : pos + oxmFieldSize ofx pos ≤ stop)
      (rest : OxmFits stop room (pos + oxmFieldSize ofx pos) taken) :
      OxmFits stop (room + 1) pos out

variable {ofx} {stop room : Nat} {scan : OxmScan}

theorem oxmLoop_done (done : ¬scan.len > oxmHdrSz) : oxmLoop ofx room scan = (0, scan) := by
  rw [oxmLoop, if_neg done]

theorem oxmLoop_full (more : scan.len > oxmHdrSz) :
    oxmLoop ofx 0 scan = (-1, scan.look 0 oxmHdrSz) := by
  rw [oxmLoop, if_pos more]

theorem oxmLoop_turn (more : scan.len > oxmHdrSz) :
    let oxm := OxmHdr.ntoh (ofx.drop scan.oxmPtr)
    let found := oxmCase oxm scan.len ((ofx.drop scan.oxmPtr).drop oxmHdrSz) scan.out
    oxmLoop ofx (room + 1) scan =
      if oxm.oxmClass ≠ ofpxmcOpenflowBasic then (-1, scan.look 0 oxmHdrSz)
      else match found with
        | .fail => (-1, scan.look 0 oxmHdrSz)
        | .skip => oxmLoop ofx room ((scan.look 0 oxmHdrSz).advance oxm.length.toNat)
        | .store reads out => oxmLoop ofx room
            ({ (scan.look 0 oxmHdrSz).look oxmHdrSz reads with out := out }.advance
              oxm.length.toNat) := by
  rw [oxmLoop, if_pos more]
  rfl

theorem oxmLoop_refused (more : scan.len > oxmHdrSz) (ends : scan.len = (stop : Int) - scan.oxmPtr)
    (refused : oxmAdmits ofx stop scan.oxmPtr scan.out = none) :
    oxmLoop ofx (room + 1) scan = (-1, scan.look 0 oxmHdrSz) := by
  rw [oxmAdmits, ← ends] at refused
  rw [oxmLoop_turn more]
  split
  · rfl
  · rename_i basic
    rw [if_neg basic] at refused
    cases found : oxmCase (OxmHdr.ntoh (ofx.drop scan.oxmPtr)) scan.len
        ((ofx.drop scan.oxmPtr).drop oxmHdrSz) scan.out with
    | fail => rfl
    | skip | store => rw [found] at refused; cases refused

/-- One turn of the loop over a field that the checks let pass. -/
theorem oxmLoop_admitted (more : scan.len > oxmHdrSz) (ends : scan.len = (stop : Int) - scan.oxmPtr)
    (admitted : oxmAdmits ofx stop scan.oxmPtr scan.out = some taken) :
    ∃ reads, oxmHdrSz ≤ reads ∧ reads ≤ oxmFieldSize ofx scan.oxmPtr ∧
      oxmLoop ofx (room + 1) scan = oxmLoop ofx room
        { len := scan.len - oxmFieldSize ofx scan.oxmPtr
          oxmPtr := scan.oxmPtr + oxmFieldSize ofx scan.oxmPtr
          out := taken
          reach := max scan.reach (scan.oxmPtr + reads) } := by
  rw [oxmAdmits, ← ends] at admitted
  rw [oxmLoop_turn more]
  split
  · rename_i other
    rw [if_pos other] at admitted
    cases admitted
  · rename_i basic
    rw [if_neg basic] at admitted
    have within := oxmCase_within (OxmHdr.ntoh (ofx.drop scan.oxmPtr)) scan.len
      ((ofx.drop scan.oxmPtr).drop oxmHdrSz) scan.out
    cases found : oxmCase (OxmHdr.ntoh (ofx.drop scan.oxmPtr)) scan.len
        ((ofx.drop scan.oxmPtr).drop oxmHdrSz) scan.out with
    | fail => rw [found] at admitted; cases admitted
    | skip =>
      rw [found] at admitted
      cases admitted
      exact ⟨oxmHdrSz, Nat.le_refl _, Nat.le_add_left _ _, rfl⟩
    | store reads stored =>
      rw [found] at admitted within
      cases admitted
      refine ⟨oxmHdrSz + reads, Nat.le_add_right _ _, ?_, ?_⟩
      · rw [Nat.add_comm]
        exact Nat.add_le_add_right within _
      · -- The header and the data are looked at one after the other.
        have reach :
            max (max scan.reach (scan.oxmPtr + 0 + oxmHdrSz)) (scan.oxmPtr + oxmHdrSz + reads) =
            max scan.reach (scan.oxmPtr + (oxmHdrSz + reads)) := by omega
        rw [← reach]
        rfl

/-- No byte past `stop` is read, and what is accepted is a row of whole fields. -/
structure StaysInside (ofx : List Byte) (start stop : Nat) (result : Int × OxmScan) : Prop where
  reads : result.2.reach ≤ stop
  whole : result.1 = 0 → ∃ starts, Tiles (oxmFieldSize ofx) start result.2.oxmPtr starts
  padding : result.1 = 0 → result.2.oxmPtr ≤ stop ∧ stop < result.2.oxmPtr + oxmHdrSz

theorem oxmFieldSize_pos (pos : Nat) : 0 < oxmFieldSize ofx pos :=
  Nat.lt_of_lt_of_le (by decide : 0 < oxmHdrSz) (Nat.le_add_left _ _)

private theorem look_inside (inside : scan.reach ≤ stop) (more : scan.oxmPtr + oxmHdrSz < stop)
    (start : Nat) : StaysInside ofx start stop (-1, scan.look 0 oxmHdrSz) := by
  have failed : ¬(-1 : Int) = 0 := by decide
  refine ⟨?_, fun accepted => absurd accepted failed, fun accepted => absurd accepted failed⟩
  show max scan.reach (scan.oxmPtr + 0 + oxmHdrSz) ≤ stop
  omega

private theorem StaysInside.after_field
    (later : StaysInside ofx (pos + oxmFieldSize ofx pos) stop result) :
    StaysInside ofx pos stop result := by
  refine ⟨later.reads, ?_, later.padding⟩
  intro accepted
  obtain ⟨starts, tiles⟩ := later.whole accepted
  exact ⟨_, .cons (oxmFieldSize_pos _) tiles⟩

theorem OxmFits.staysInside (fits : OxmFits ofx stop room pos out)
    (place : scan.oxmPtr = pos) (output : scan.out = out) (ends : scan.len = (stop : Int) - pos)
    (inside : scan.reach ≤ stop) : StaysInside ofx pos stop (oxmLoop ofx room scan) := by
  induction fits generalizing scan with
  | padding within few =>
    subst place
    rw [oxmLoop_done (by omega)]
    exact ⟨inside, fun _ => ⟨[], .nil _⟩, fun _ => ⟨within, few⟩⟩
  | full more =>
    subst place
    rw [oxmLoop_full (by omega)]
    exact look_inside inside more _
  | refused more refused =>
    subst place output
    rw [oxmLoop_refused (by omega) ends refused]
    exact look_inside inside more _
  | field more admitted within rest ih =>
    subst place output
    obtain ⟨reads, -, own, turn⟩ := oxmLoop_admitted (by omega) ends admitted
    rw [turn]
    apply StaysInside.after_field
    apply ih rfl rfl
    · dsimp only
      omega
    · dsimp only
      omega

/-- A match that does not fit is accepted with its end missed. -/
theorem oxmLoop_misses (ends : scan.len = (stop : Int) - scan.oxmPtr) (inside : scan.oxmPtr ≤ stop)
    (unfit : ¬OxmFits ofx stop room scan.oxmPtr scan.out) : (oxmLoop ofx room scan).1 = 0 ∧
      ¬((oxmLoop ofx room scan).2.oxmPtr ≤ stop ∧
        stop < (oxmLoop ofx room scan).2.oxmPtr + oxmHdrSz) := by
  induction room generalizing scan with
  | zero =>
    by_cases more : scan.len > oxmHdrSz
    · exact absurd (OxmFits.full (by omega)) unfit
    · rw [oxmLoop_done more]
      exact ⟨rfl, fun row => unfit (.padding row.1 row.2)⟩
  | succ room ih =>
    by_cases more : scan.len > oxmHdrSz
    · cases admitted : oxmAdmits ofx stop scan.oxmPtr scan.out with
      | none => exact absurd (OxmFits.refused (by omega) admitted) unfit
      | some taken =>
        obtain ⟨reads, -, -, turn⟩ := oxmLoop_admitted more ends admitted
        rw [turn]
        by_cases whole : scan.oxmPtr + oxmFieldSize ofx scan.oxmPtr ≤ stop
        · apply ih (by dsimp only; omega) whole
          exact fun rest => unfit (.field (by omega) admitted whole rest)
        · -- The field ends past the match, and the loop ends with it.
          rw [oxmLoop_done (by dsimp only; omega)]
          exact ⟨rfl, fun row => whole row.1⟩
    · rw [oxmLoop_done more]
      exact ⟨rfl, fun row => unfit (.padding row.1 row.2)⟩

end Scan

/-- Where a match ends by its header, which is there in any case. -/
def matchEnd (ofx : List Byte) : Nat := max ofpxMatchHdrSz (wordAt 16 (ofx.drop 2)).toNat

/-- The decoder stays inside a match that it has nothing to read from, or whose
fields fit. -/
theorem of131OfpxMatchToFlow_inside_iff (ofx : List Byte) :
    StaysInside ofx ofpxMatchHdrSz (matchEnd ofx) (of131OfpxMatchToFlow ofx) ↔
      matchEnd ofx < 8 ∨ (wordAt 16 ofx).toNat ≠ ofpmtOxm ∨
        OxmFits ofx (matchEnd ofx) ofpMaxOxmTlvs ofpxMatchHdrSz {} := by
  have header : ofpxMatchHdrSz = 4 := rfl
  have oxmHeader : oxmHdrSz = 4 := rfl
  unfold matchEnd of131OfpxMatchToFlow
  generalize (wordAt 16 (ofx.drop 2)).toNat = len
  by_cases short : len < 8
  · rw [if_pos short]
    refine iff_of_true ⟨?_, fun _ => ⟨[], .nil _⟩, fun _ => ?_⟩ (.inl (by omega))
    · dsimp only
      omega
    · dsimp only
      omega
  · have whole : max ofpxMatchHdrSz len = len := by omega
    rw [if_neg short, whole]
    by_cases other : (wordAt 16 ofx).toNat ≠ ofpmtOxm
    · have failed : ¬(-1 : Int) = 0 := by decide
      rw [if_pos other]
      refine iff_of_true ⟨?_, fun accepted => absurd accepted failed,
        fun accepted => absurd accepted failed⟩ (.inr (.inl other))
      dsimp only
      omega
    · rw [if_neg other]
      constructor
      · intro inside
        apply Or.inr
        apply Or.inr
        apply Classical.byContradiction
        intro unfit
        obtain ⟨accepted, missed⟩ := @oxmLoop_misses ofx len ofpMaxOxmTlvs
          { len := (len : Int) - ofpxMatchHdrSz, oxmPtr := ofpxMatchHdrSz, reach := ofpxMatchHdrSz }
          rfl (by dsimp only; omega) unfit
        exact missed (inside.padding accepted)
      · intro condition
        rcases condition with tooShort | notOxm | fits
        · exact absurd tooShort short
        · exact absurd notOxm other
        · exact fits.staysInside rfl rfl rfl (by dsimp only; omega)

/-- A match of nine bytes with an ingress port field, of which it holds one byte. -/
def cutMatch : List Byte := [0, 1, 0, 9, 0x80, 0, 0, 4, 7]

/-- Three bytes past the match are read and the match is accepted. -/
theorem cut_field_read_past_match :
    matchEnd cutMatch = 9 ∧ (of131OfpxMatchToFlow cutMatch).1 = 0 ∧
      (of131OfpxMatchToFlow cutMatch).2.reach = 12 ∧
      ¬StaysInside cutMatch ofpxMatchHdrSz (matchEnd cutMatch) (of131OfpxMatchToFlow cutMatch) := by
  have reach : (of131OfpxMatchToFlow cutMatch).2.reach = 12 := by decide
  refine ⟨by decide, by decide, reach, ?_⟩
  intro inside
  have short := inside.reads
  exact absurd short (by decide)

/-- A whole port field and nothing else. -/
theorem whole_field_stays_inside :
    matchEnd [0, 1, 0, 12, 0x80, 0, 0, 4, 0, 0, 0, 7] = 12 ∧
      StaysInside [0, 1, 0, 12, 0x80, 0, 0, 4, 0, 0, 0, 7] ofpxMatchHdrSz 12
        (of131OfpxMatchToFlow [0, 1, 0, 12, 0x80, 0, 0, 4, 0, 0, 0, 7]) := by
  refine ⟨by
    decide, (of131OfpxMatchToFlow_inside_iff [0, 1, 0, 12, 0x80, 0, 0, 4, 0, 0, 0, 7]).mpr ?_⟩
  apply Or.inr
  apply Or.inr
  apply OxmFits.field (by decide) rfl (by decide)
  exact .padding (by decide) (by decide)

end OpenMul
