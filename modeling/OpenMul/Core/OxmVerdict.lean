import OpenMul.Core.OxmBounds

namespace OpenMul

open Lib

/-- Two cases that end in the same way, and with the same output if the data
agrees. -/
inductive OxmCase.Alike (agree : Prop) : OxmCase → OxmCase → Prop where
  | fail : Alike agree .fail .fail
  | skip : Alike agree .skip .skip
  | store {reads : Nat} {out other : OxmOut} (same : agree → out = other) :
      Alike agree (.store reads out) (.store reads other)

namespace OxmCase.Alike

variable {agree : Prop} {case other : OxmCase}

theorem given (admitted : Bool) (alike : Alike agree case other) :
    Alike agree (OxmCase.given admitted case) (OxmCase.given admitted other) := by
  cases admitted with
  | true => exact alike
  | false => exact .skip

theorem lenient (alike : Alike agree case other) : Alike agree case.lenient other.lenient := by
  cases alike with
  | fail | skip => exact .skip
  | store same => exact .store same

theorem checked {out stored : OxmOut}
    (same : refused = false → agree → out = stored) :
    Alike agree (if refused then .fail else .store reads out)
      (if refused then .fail else .store reads stored) := by
  cases refused with
  | true => exact .fail
  | false => exact .store (same rfl)

end OxmCase.Alike

section Cases

variable (oxm : OxmHdr) (len : Int) (data other : List Byte) (out : OxmOut)

/-- The same data, as far as the header says it goes. -/
def SameData : Prop := data.take oxm.length.toNat = other.take oxm.length.toNat

variable {oxm len data other out}

private theorem SameData.word (same : SameData oxm data other) {width skip : Nat}
    (inside : skip + width / 8 ≤ oxm.length.toNat) :
    wordAt width (data.drop skip) = wordAt width (other.drop skip) := by
  have cut : ∀ bytes : List Byte,
      (bytes.drop skip).take (width / 8) = ((bytes.take oxm.length.toNat).drop skip).take
        (width / 8) := by
    intro bytes
    rw [List.drop_take, List.take_take, Nat.min_eq_left (by omega)]
  have agree : data.take oxm.length.toNat = other.take oxm.length.toNat := same
  rw [wordAt, wordAt, cut, agree, ← cut]

private theorem SameData.value (same : SameData oxm data other) {field : FlowField}
    (inside : field.size ≤ oxm.length.toNat) :
    wordAt field.width data = wordAt field.width other := by
  have bytes := field.width_eq
  exact @SameData.word oxm data other same field.width 0 (by omega)

private theorem SameData.mask (same : SameData oxm data other) {field : FlowField}
    (inside : 2 * field.size ≤ oxm.length.toNat) :
    wordAt field.width (data.drop field.size) = wordAt field.width (other.drop field.size) := by
  have bytes := field.width_eq
  exact same.word (by omega)

private theorem oxmExact_alike (field : FlowField) :
    (oxmExact oxm len data out field).Alike (SameData oxm data other)
    (oxmExact oxm len other out field) := by
  apply OxmCase.Alike.checked
  intro passed same
  simp only [Bool.or_eq_false_iff, bne_eq_false_iff_eq] at passed
  rw [same.value passed.2.ge]

private theorem oxmMasked_alike (field : FlowField) :
    (oxmMasked oxm len data out field).Alike (SameData oxm data other)
    (oxmMasked oxm len other out field) := by
  apply OxmCase.Alike.checked
  intro passed same
  simp only [Bool.or_eq_false_iff, bne_eq_false_iff_eq] at passed
  cases masked : oxm.hm with
  | false =>
    rw [masked] at passed
    rw [same.value passed.2.ge]
    rfl
  | true =>
    have size : oxm.length.toNat = 2 * field.size := by simpa [masked] using passed.2
    rw [same.value (by omega), same.mask (by omega)]

private theorem oxmVlanVid_alike :
    (oxmVlanVid oxm len data out).Alike (SameData oxm data other)
    (oxmVlanVid oxm len other out) := by
  apply OxmCase.Alike.checked
  intro passed same
  simp only [Bool.or_eq_false_iff, bne_eq_false_iff_eq] at passed
  cases masked : oxm.hm with
  | false =>
    have size : oxm.length.toNat = 2 := by simpa [masked] using passed.2
    rw [show wordAt 16 data = wordAt 16 other
      from @SameData.value oxm data other same .dlVlan size.ge]
    rfl
  | true =>
    have size : oxm.length.toNat = 4 := by simpa [masked] using passed.2
    rw [show wordAt 16 data = wordAt 16 other from
        @SameData.value oxm data other same .dlVlan (by rw [size]; decide),
      show wordAt 16 (data.drop 2) = wordAt 16 (other.drop 2) from
        @SameData.mask oxm data other same .dlVlan size.ge]

private theorem oxmMplsLabel_alike :
    (oxmMplsLabel oxm len data out).Alike (SameData oxm data other)
    (oxmMplsLabel oxm len other out) := by
  apply OxmCase.Alike.checked
  intro passed same
  simp only [Bool.or_eq_false_iff, decide_eq_false_iff_not] at passed
  have label : ofGetMplsLabelOxm data oxm.length.toNat =
      ofGetMplsLabelOxm other oxm.length.toNat := by
    unfold ofGetMplsLabelOxm
    split
    · rename_i three
      have agree : data.take oxm.length.toNat = other.take oxm.length.toNat := same
      rw [three] at agree
      simp [wordAt, agree]
    · exact @SameData.value oxm data other same .mplsLabel (show 4 ≤ _ by omega)
  rw [label]

/-- Every case of the switch looks at the header first, and then at the data. -/
theorem oxmCase_alike :
    (oxmCase oxm len data out).Alike (SameData oxm data other) (oxmCase oxm len other out) := by
  have exact := @oxmExact_alike oxm len data other out
  have masked := @oxmMasked_alike oxm len data other out
  unfold oxmCase
  dsimp only
  split
  case h_1 | h_5 | h_6 => exact exact _
  case h_2 | h_3 | h_22 | h_23 => exact masked _
  case h_4 => exact oxmVlanVid_alike
  case h_7 => exact oxmMplsLabel_alike.given _
  case h_8 | h_9 | h_16 | h_17 | h_20 | h_21 => exact (exact _).given _
  case h_10 | h_11 | h_12 | h_13 | h_14 | h_15 => exact (masked _).given _
  case h_18 | h_19 =>
    split
    · exact (exact _).lenient
    · exact .fail
  case h_24 => exact .skip

end Cases

section Scan

variable {ofx other : List Byte} {stop room : Nat} {scan : OxmScan}

section

variable (same : ofx.take stop = other.take stop)
include same

private theorem drop_take_agree (inside : pos + count ≤ stop) :
    (ofx.drop pos).take count = (other.drop pos).take count := by
  have cut : ∀ bytes : List Byte,
      (bytes.drop pos).take count = ((bytes.take stop).drop pos).take count := by
    intro bytes
    rw [List.drop_take, List.take_take, Nat.min_eq_left (by omega)]
  rw [cut, same, ← cut]

private theorem ntoh_agree (inside : pos + oxmHdrSz ≤ stop) :
    OxmHdr.ntoh (ofx.drop pos) = OxmHdr.ntoh (other.drop pos) := by
  have header := drop_take_agree same inside
  have byte : ∀ index, index < oxmHdrSz →
      (ofx.drop pos).getD index 0 = (other.drop pos).getD index 0 := by
    intro index below
    have at_index := congrArg (fun bytes => bytes.getD index (0 : Byte)) header
    simpa [below] using at_index
  simp only [OxmHdr.ntoh, byte 0 (by decide), byte 1 (by decide), byte 2 (by decide),
    byte 3 (by decide)]

/-- The loop accepts a match or not, whatever comes behind its end. -/
theorem oxmLoop_verdict (ends : scan.len = (stop : Int) - scan.oxmPtr) :
    (oxmLoop ofx room scan).1 = (oxmLoop other room scan).1 := by
  induction room generalizing scan with
  | zero =>
    by_cases more : scan.len > oxmHdrSz
    · rw [oxmLoop_full more, oxmLoop_full more]
    · rw [oxmLoop_done more, oxmLoop_done more]
  | succ room ih =>
    by_cases more : scan.len > oxmHdrSz
    · have header : OxmHdr.ntoh (ofx.drop scan.oxmPtr) = OxmHdr.ntoh (other.drop scan.oxmPtr) :=
        ntoh_agree same (by omega)
      have alike := @oxmCase_alike (OxmHdr.ntoh (other.drop scan.oxmPtr)) scan.len
        ((ofx.drop scan.oxmPtr).drop oxmHdrSz) ((other.drop scan.oxmPtr).drop oxmHdrSz) scan.out
      rw [oxmLoop_turn more, oxmLoop_turn more]
      simp only [header]
      generalize OxmHdr.ntoh (other.drop scan.oxmPtr) = oxm at alike
      split
      · rfl
      generalize oxmCase oxm scan.len ((ofx.drop scan.oxmPtr).drop oxmHdrSz) scan.out = case
        at alike
      generalize oxmCase oxm scan.len ((other.drop scan.oxmPtr).drop oxmHdrSz) scan.out = case'
        at alike
      cases alike with
      | fail => rfl
      | skip =>
        apply ih
        simp only [OxmScan.advance, OxmScan.look]
        omega
      | @store reads out stored agree =>
        by_cases inside : scan.oxmPtr + oxmHdrSz + oxm.length.toNat ≤ stop
        · have data : SameData oxm ((ofx.drop scan.oxmPtr).drop oxmHdrSz)
              ((other.drop scan.oxmPtr).drop oxmHdrSz) := by
            rw [List.drop_drop, List.drop_drop]
            exact drop_take_agree same inside
          rw [agree data]
          apply ih
          simp only [OxmScan.advance, OxmScan.look]
          omega
        · -- A field that does not end inside is the last one.
          have last : ∀ out, ¬({ (scan.look 0 oxmHdrSz).look oxmHdrSz reads with out }.advance
              oxm.length.toNat).len > (oxmHdrSz : Int) := by
            intro out
            simp only [OxmScan.advance, OxmScan.look]
            omega
          dsimp only
          rw [oxmLoop_done (last out), oxmLoop_done (last stored)]
    · rw [oxmLoop_done more, oxmLoop_done more]

end

end Scan

/-- The decoder accepts a match or not, whatever comes behind it. -/
theorem of131OfpxMatchToFlow_verdict (header : ofpxMatchHdrSz ≤ ofx.length)
    (whole : (wordAt 16 (ofx.drop 2)).toNat ≤ ofx.length) (rest : List Byte) :
    (of131OfpxMatchToFlow (ofx ++ rest)).1 = (of131OfpxMatchToFlow ofx).1 := by
  have four : ofpxMatchHdrSz = 4 := rfl
  have length : wordAt 16 ((ofx ++ rest).drop 2) = wordAt 16 (ofx.drop 2) := by
    rw [List.drop_append_of_le_length (by omega), wordAt_append (by rw [List.length_drop]; omega)]
  have type : wordAt 16 (ofx ++ rest) = wordAt 16 ofx := wordAt_append (by omega) rest
  unfold of131OfpxMatchToFlow
  simp only [length, type]
  split
  · rfl
  split
  · rfl
  · apply @oxmLoop_verdict _ _ (wordAt 16 (ofx.drop 2)).toNat
    · exact List.take_append_of_le_length whole
    · rfl

end OpenMul
