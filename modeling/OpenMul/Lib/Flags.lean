import Mathlib.Data.BitVec

namespace OpenMul.Lib

variable {width : Nat}

/-- `word & bit`, read as a condition. -/
def hasFlag (word bit : BitVec width) : Bool := (word &&& bit) != 0

/-- `word &= ~bit`. -/
def clearFlag (word bit : BitVec width) : BitVec width := word &&& ~~~bit

/-- `word |= bit`. -/
def setFlag (word bit : BitVec width) : BitVec width := word ||| bit

theorem hasFlag_clearFlag (word bit other : BitVec width) (disjoint : ~~~bit &&& other = other) :
    hasFlag (clearFlag word bit) other = hasFlag word other := by
  simp [hasFlag, clearFlag, BitVec.and_assoc, disjoint]

theorem hasFlag_setFlag (word bit other : BitVec width) (disjoint : bit &&& other = 0) :
    hasFlag (setFlag word bit) other = hasFlag word other := by
  have distributed : (word ||| bit) &&& other = (word &&& other) ||| (bit &&& other) := by
    ext index
    simp [Bool.and_or_distrib_right]
  simp [hasFlag, setFlag, distributed, disjoint]

theorem hasFlag_setFlag_same (word bit : BitVec width) :
    hasFlag (setFlag word bit) bit = (bit != 0) := by
  have absorbed : (word ||| bit) &&& bit = bit := by
    ext index
    simp only [BitVec.getElem_and, BitVec.getElem_or]
    cases word[index] <;> cases bit[index] <;> rfl
  simp [hasFlag, setFlag, absorbed]

variable (word bit : BitVec width)

theorem clearFlag_clearFlag : clearFlag (clearFlag word bit) bit = clearFlag word bit := by
  simp [clearFlag, BitVec.and_assoc]

theorem clearFlag_eq_iff : clearFlag word bit = word ↔ hasFlag word bit = false := by
  simp only [hasFlag, clearFlag, bne_eq_false_iff_eq]
  constructor
  · intro same
    rw [← same]
    simp [BitVec.and_assoc]
  · intro apart
    ext index inside
    have both : (word[index] && bit[index]) = false := by
      simpa using congrArg (fun bits : BitVec width => bits[index]) apart
    simp only [BitVec.getElem_and, BitVec.getElem_not]
    cases set : word[index]
    · rfl
    · rw [set, Bool.true_and] at both
      rw [both]
      rfl

theorem setFlag_eq_iff (word : BitVec width) (inside : index < width) :
    setFlag word (BitVec.twoPow width index) = word ↔
      hasFlag word (BitVec.twoPow width index) = true := by
  constructor
  · intro same
    rw [← same, hasFlag_setFlag_same, bne_iff_ne]
    intro zero
    have bit := congrArg (BitVec.getLsbD · index) zero
    simp [inside] at bit
  · intro set
    have bit : word.getLsbD index = true := by
      cases unset : word.getLsbD index with
      | true => rfl
      | false => simp [hasFlag, BitVec.and_twoPow, unset] at set
    ext other within
    rw [setFlag, BitVec.getElem_or]
    by_cases same : other = index
    · subst same
      simp [bit]
    · simp [same]

end OpenMul.Lib
