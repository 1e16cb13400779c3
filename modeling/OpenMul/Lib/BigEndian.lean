import Mathlib.Data.List.Basic
import Mathlib.Algebra.Order.Group.Nat

namespace OpenMul.Lib

/-- The `count` low bytes of a number, the highest first. -/
def toBytes : Nat → Nat → List (BitVec 8)
  | 0, _ => []
  | count + 1, value => BitVec.ofNat 8 (value / 256 ^ count) :: toBytes count value

def ofBytes : List (BitVec 8) → Nat
  | [] => 0
  | byte :: rest => byte.toNat * 256 ^ rest.length + ofBytes rest

/-- The word that the first bytes of a memory make up. -/
def wordAt (width : Nat) (bytes : List (BitVec 8)) : BitVec width :=
  BitVec.ofNat width (ofBytes (bytes.take (width / 8)))

@[simp] theorem length_toBytes (count value : Nat) : (toBytes count value).length = count := by
  induction count with
  | zero => rfl
  | succ count ih => simp [toBytes, ih]

theorem ofBytes_toBytes (count value : Nat) :
    ofBytes (toBytes count value) = value % 256 ^ count := by
  induction count with
  | zero => simp [toBytes, ofBytes, Nat.mod_one]
  | succ count ih =>
    have top : value % 256 ^ (count + 1) =
        value % 256 ^ count + 256 ^ count * (value / 256 ^ count % 256) := Nat.mod_pow_succ
    rw [toBytes, ofBytes, ih, length_toBytes, BitVec.toNat_ofNat, top, Nat.add_comm, Nat.mul_comm]

theorem ofBytes_lt (bytes : List (BitVec 8)) : ofBytes bytes < 256 ^ bytes.length := by
  induction bytes with
  | nil => exact Nat.one_pos
  | cons byte rest ih =>
    have top : (byte.toNat + 1) * 256 ^ rest.length ≤ 256 * 256 ^ rest.length :=
      Nat.mul_le_mul_right _ byte.isLt
    rw [Nat.add_mul] at top
    rw [ofBytes, List.length_cons]
    omega

theorem toBytes_add (count extra value : Nat) :
    toBytes count (extra * 256 ^ count + value) = toBytes count value := by
  induction count generalizing extra with
  | zero => rfl
  | succ count ih =>
    have split : extra * 256 ^ (count + 1) + value = extra * 256 * 256 ^ count + value := by
      rw [Nat.pow_succ', Nat.mul_assoc]
    have byte : BitVec.ofNat 8 (extra * 256 + value / 256 ^ count) =
        BitVec.ofNat 8 (value / 256 ^ count) := by
      apply BitVec.eq_of_toNat_eq
      simp [Nat.add_mod]
    rw [split, toBytes, toBytes, ih, Nat.add_comm,
      Nat.add_mul_div_right _ _ (Nat.pow_pos (by decide)), Nat.add_comm, byte]

theorem toBytes_ofBytes (bytes : List (BitVec 8)) :
    toBytes bytes.length (ofBytes bytes) = bytes := by
  induction bytes with
  | nil => rfl
  | cons byte rest ih =>
    have top : (byte.toNat * 256 ^ rest.length + ofBytes rest) / 256 ^ rest.length =
        byte.toNat := by
      rw [Nat.add_comm, Nat.add_mul_div_right _ _ (Nat.pow_pos (by decide)),
        Nat.div_eq_of_lt (ofBytes_lt rest), Nat.zero_add]
    rw [ofBytes, List.length_cons, toBytes, top, toBytes_add, ih]
    simp

theorem toBytes_wordAt (whole : width = 8 * size) {bytes : List (BitVec 8)}
    (inside : size ≤ bytes.length) : toBytes size (wordAt width bytes).toNat = bytes.take size := by
  have count : width / 8 = size := by omega
  have length : (bytes.take size).length = size := by simpa using inside
  have small : ofBytes (bytes.take size) < 2 ^ width := by
    have bound := ofBytes_lt (bytes.take size)
    rwa [length, show 256 ^ size = 2 ^ width by rw [whole, Nat.pow_mul]] at bound
  have again := toBytes_ofBytes (bytes.take size)
  rw [length] at again
  rw [wordAt, count, BitVec.toNat_ofNat, Nat.mod_eq_of_lt small, again]

theorem wordAt_toBytes (whole : width = 8 * size) (value : Nat)
    (rest : List (BitVec 8)) :
    wordAt width (toBytes size value ++ rest) = BitVec.ofNat width value := by
  have count : width / 8 = size := by omega
  have power : 256 ^ size = 2 ^ width := by
    rw [whole, Nat.pow_mul]
  rw [wordAt, count, List.take_left' (length_toBytes _ _), ofBytes_toBytes, power]
  apply BitVec.eq_of_toNat_eq
  simp

theorem wordAt_append (whole : width / 8 ≤ bytes.length) (rest : List (BitVec 8)) :
    wordAt width (bytes ++ rest) = wordAt width bytes := by
  rw [wordAt, wordAt, List.take_append_of_le_length whole]

section Store

variable {Value : Type}

/-- A memory with some of its values overwritten. -/
def store (mem : List Value) (ofs : Nat) (values : List Value) : List Value :=
  mem.take ofs ++ values ++ mem.drop (ofs + values.length)

theorem store_behind (gap : Nat) (place : filled.length + gap = ofs)
    (rest values : List Value) :
    store (filled ++ rest) ofs values = filled ++ rest.take gap ++ values ++
      rest.drop (gap + values.length) := by
  subst place
  rw [store, Nat.add_assoc, List.take_length_add_append, List.drop_length_add_append]

theorem store_next (place : filled.length = ofs) (rest values : List Value) :
    store (filled ++ rest) ofs values = filled ++ values ++ rest.drop values.length := by
  rw [store_behind 0 place, List.take_zero, List.append_nil, Nat.zero_add]

end Store

section ByteOrder

inductive ByteOrder where
  | little
  | big
  deriving DecidableEq, Repr

/-- The word whose bytes are those of another word read backwards. -/
def swapBytes {width : Nat} (word : BitVec width) : BitVec width :=
  wordAt width (toBytes (width / 8) word.toNat).reverse

/-- What `hton` and `ntoh` make of a word; one is the other. -/
def ByteOrder.swap {width : Nat} : ByteOrder → BitVec width → BitVec width
  | .little, word => swapBytes word
  | .big, word => word

theorem swapBytes_swapBytes (whole : width = 8 * size) (word : BitVec width) :
    swapBytes (swapBytes word) = word := by
  have count : width / 8 = size := by omega
  have length : (toBytes size word.toNat).reverse.length = size := by simp
  have bytes := toBytes_wordAt whole (Nat.le_of_eq length.symm)
  rw [List.take_of_length_le (Nat.le_of_eq length)] at bytes
  have again := wordAt_toBytes whole word.toNat []
  rw [List.append_nil] at again
  rw [swapBytes, swapBytes, count, bytes, List.reverse_reverse, again, BitVec.ofNat_toNat,
    BitVec.setWidth_eq]

theorem ByteOrder.swap_swap (order : ByteOrder) (whole : width = 8 * size)
    (word : BitVec width) : order.swap (order.swap word) = word := by
  cases order with
  | little => exact swapBytes_swapBytes whole word
  | big => rfl

end ByteOrder

end OpenMul.Lib
