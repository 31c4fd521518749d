import Mathlib.Data.BitVec
import Mathlib.Tactic

namespace Ossim
namespace WordFields

/-!
# Bit fields of a machine word

A word of width `w` is edited through masks of a possibly smaller width `m`,
as in C when an unsigned 32-bit mask meets a 64-bit lvalue.  Complementing the
mask happens at its own width, so clearing a field also clears every bit of
the word above the mask.  Reading back is done on the low `m` bits.

Each law describes one edit by what it does to a single low bit.  Round trips
of a whole field follow by comparing bits.
-/

variable {w m : Nat}

/-- The contiguous mask from bit `lo` to bit `hi`, both included. -/
def fieldMask (m hi lo : Nat) : BitVec m :=
  (BitVec.allOnes m <<< lo) &&& (BitVec.allOnes m >>> (m - hi - 1))

/-- The mask of a single bit. -/
def bitMask (m index : Nat) : BitVec m := 1#m <<< index

def setBits (word : BitVec w) (mask : BitVec m) : BitVec w :=
  word ||| mask.setWidth w

def clearBits (word : BitVec w) (mask : BitVec m) : BitVec w :=
  word &&& (~~~mask).setWidth w

/-- Replace the masked bits by the shifted value. -/
def putField (word value : BitVec w) (mask : BitVec m) (offst : Nat) : BitVec w :=
  clearBits word mask ||| ((value <<< offst) &&& mask.setWidth w)

def takeField (word mask : BitVec m) (offst : Nat) : BitVec m :=
  (word &&& mask) >>> offst

/-! ## Masks bit by bit -/

theorem getLsbD_fieldMask (hi lo i : Nat) (bounded : hi < m) :
    (fieldMask m hi lo).getLsbD i = decide (lo ≤ i ∧ i ≤ hi) := by
  simp only [fieldMask, BitVec.getLsbD_and, BitVec.getLsbD_shiftLeft,
    BitVec.getLsbD_ushiftRight, BitVec.getLsbD_allOnes]
  rw [Bool.eq_iff_iff]
  simp only [Bool.and_eq_true, decide_eq_true_eq, Bool.not_eq_true', decide_eq_false_iff_not]
  omega

theorem getLsbD_bitMask (index i : Nat) (bounded : index < m) :
    (bitMask m index).getLsbD i = decide (i = index) := by
  simp only [bitMask, BitVec.getLsbD_shiftLeft, BitVec.getLsbD_one]
  rw [Bool.eq_iff_iff]
  simp only [Bool.and_eq_true, decide_eq_true_eq, Bool.not_eq_true', decide_eq_false_iff_not]
  omega

/-- Testing a word against a one-bit mask reads exactly that bit. -/
theorem and_bitMask_ne_zero_iff (word : BitVec m) (index : Nat) (bounded : index < m) :
    word &&& bitMask m index ≠ 0#m ↔ word.getLsbD index = true := by
  constructor
  · intro nonzero
    by_contra clear
    apply nonzero
    apply BitVec.eq_of_getLsbD_eq
    intro i _
    rw [BitVec.getLsbD_and, getLsbD_bitMask index i bounded, BitVec.getLsbD_zero]
    by_cases same : i = index
    · subst same
      simpa using clear
    · simp [same]
  · intro selected zero
    have bit := congrArg (fun word : BitVec m => word.getLsbD index) zero
    simp [BitVec.getLsbD_and, getLsbD_bitMask index index bounded, selected] at bit

/-! ## Edits bit by bit, on the low half of the word -/

theorem getLsbD_setBits (word : BitVec w) (mask : BitVec m) (i : Nat) (wide : m ≤ w) :
    ((setBits word mask).setWidth m).getLsbD i =
      ((word.setWidth m).getLsbD i || mask.getLsbD i) := by
  by_cases short : i < m
  · have long : i < w := by omega
    simp [setBits, short, long]
  · simp [short, BitVec.getLsbD_of_ge mask i (Nat.not_lt.mp short)]

theorem getLsbD_clearBits (word : BitVec w) (mask : BitVec m) (i : Nat) (wide : m ≤ w) :
    ((clearBits word mask).setWidth m).getLsbD i =
      ((word.setWidth m).getLsbD i && !mask.getLsbD i) := by
  by_cases short : i < m
  · have long : i < w := by omega
    simp [clearBits, short, long]
  · simp [short, BitVec.getLsbD_of_ge mask i (Nat.not_lt.mp short)]

theorem getLsbD_putField (word value : BitVec w) (hi lo i : Nat) (bounded : hi < m)
    (wide : m ≤ w) :
    ((putField word value (fieldMask m hi lo) lo).setWidth m).getLsbD i =
      if lo ≤ i ∧ i ≤ hi then value.getLsbD (i - lo) else (word.setWidth m).getLsbD i := by
  simp only [putField, clearBits, BitVec.getLsbD_setWidth, BitVec.getLsbD_or, BitVec.getLsbD_and,
    BitVec.getLsbD_not, BitVec.getLsbD_shiftLeft, getLsbD_fieldMask hi lo _ bounded]
  by_cases inside : lo ≤ i ∧ i ≤ hi
  · have short : i < m := by omega
    have long : i < w := by omega
    have above : ¬ i < lo := by omega
    simp [inside, short, long, above]
  · by_cases short : i < m
    · have long : i < w := by omega
      simp [inside, short, long]
    · simp [inside, short]

theorem getLsbD_takeField (word : BitVec m) (hi lo i : Nat) (bounded : hi < m) :
    (takeField word (fieldMask m hi lo) lo).getLsbD i =
      (decide (lo + i ≤ hi) && word.getLsbD (lo + i)) := by
  rw [takeField, BitVec.getLsbD_ushiftRight, BitVec.getLsbD_and,
    getLsbD_fieldMask hi lo _ bounded, Bool.and_comm]
  simp

/-! ## Edits of the low half alone

The low half of an edited word is the edited low half, so an edit may as well
be made on a word of the width of the mask. -/

theorem setWidth_setBits (word : BitVec w) (mask : BitVec m) (wide : m ≤ w) :
    (setBits word mask).setWidth m = setBits (word.setWidth m) mask := by
  apply BitVec.eq_of_getLsbD_eq
  intro i _
  rw [getLsbD_setBits word mask i wide, setBits, BitVec.getLsbD_or, BitVec.setWidth_eq]

theorem setWidth_clearBits (word : BitVec w) (mask : BitVec m) (wide : m ≤ w) :
    (clearBits word mask).setWidth m = clearBits (word.setWidth m) mask := by
  apply BitVec.eq_of_getLsbD_eq
  intro i inside
  rw [getLsbD_clearBits word mask i wide, clearBits, BitVec.getLsbD_and, BitVec.setWidth_eq,
    BitVec.getLsbD_not, decide_eq_true inside, Bool.true_and]

theorem setWidth_putField (word value : BitVec w) (mask : BitVec m) (offst : Nat) (wide : m ≤ w) :
    (putField word value mask offst).setWidth m =
      putField (word.setWidth m) (value.setWidth m) mask offst := by
  have cleared := setWidth_clearBits word mask wide
  apply BitVec.eq_of_getLsbD_eq
  intro i inside
  have long : i < w := Nat.lt_of_lt_of_le inside wide
  have bit := congrArg (fun word : BitVec m => word.getLsbD i) cleared
  simp only [BitVec.getLsbD_setWidth, inside, decide_true, Bool.true_and] at bit
  simp only [putField, BitVec.getLsbD_setWidth, BitVec.getLsbD_or, BitVec.getLsbD_and,
    BitVec.getLsbD_shiftLeft, inside, long, decide_true, Bool.true_and, bit]
  by_cases below : i < offst
  · simp [below]
  · have short : i - offst < m := by omega
    simp [below, short]

/-! ## Round trips of a whole field -/

/-- A field read back after it was written holds the value cut to the width
of the field, and nothing of the previous word. -/
theorem takeField_putField_same (word value : BitVec w) (hi lo : Nat) (bounded : hi < m)
    (wide : m ≤ w) :
    (takeField ((putField word value (fieldMask m hi lo) lo).setWidth m)
        (fieldMask m hi lo) lo).toNat = value.toNat % 2 ^ (hi + 1 - lo) := by
  apply Nat.eq_of_testBit_eq
  intro i
  rw [BitVec.testBit_toNat, getLsbD_takeField _ hi lo i bounded,
    getLsbD_putField _ _ hi lo _ bounded wide, Nat.testBit_mod_two_pow, BitVec.testBit_toNat]
  by_cases inside : lo + i ≤ hi
  · have reached : lo ≤ lo + i ∧ lo + i ≤ hi := ⟨Nat.le_add_right lo i, inside⟩
    have short : i < hi + 1 - lo := by omega
    rw [if_pos reached, Nat.add_sub_cancel_left]
    simp [inside, short]
  · have long : ¬ i < hi + 1 - lo := by omega
    simp [inside, long]

end WordFields
end Ossim
