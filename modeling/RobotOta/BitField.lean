import Mathlib.Tactic.IntervalCases
import Mathlib.Tactic.SplitIfs

/-!
# Masked bit fields of fixed-width words

A narrow value is placed into a word by masking it and shifting it to its
offset, and read back by masking the word and shifting down. The laws below
describe one field, two disjoint fields, and the reassembly of a word from
the fields that cover it. Nothing here mentions a particular layout.
-/

namespace RobotOta.BitField

variable {n w : ℕ}

/-- The word mask of a field: its narrow mask moved to the field's offset. -/
def place (w : ℕ) (mask : BitVec n) (offset : ℕ) : BitVec w := mask.setWidth w <<< offset

/-- Mask a narrow value and move it to its offset in a word. -/
def put (w : ℕ) (mask : BitVec n) (offset : ℕ) (value : BitVec n) : BitVec w :=
  (value &&& mask).setWidth w <<< offset

/-- Mask a word, move the field down and narrow it. -/
def get (n : ℕ) (mask : BitVec w) (offset : ℕ) (word : BitVec w) : BitVec n :=
  ((word &&& mask) >>> offset).setWidth n

/-- Masking by a union of masks is the union of the masked words. -/
theorem and_or_mask (word a b : BitVec w) : word &&& a ||| word &&& b = word &&& (a ||| b) := by
  ext i hi
  simp only [BitVec.getElem_or, BitVec.getElem_and, Bool.and_or_distrib_left]

/-- Reading a field is bitwise, so it distributes over a union of words. -/
theorem get_or (mask : BitVec w) (offset : ℕ) (a b : BitVec w) :
    get n mask offset (a ||| b) = get n mask offset a ||| get n mask offset b := by
  ext i hi
  simp only [get, BitVec.getElem_setWidth, BitVec.getLsbD_ushiftRight, BitVec.getLsbD_and,
    BitVec.getLsbD_or, BitVec.getElem_or, Bool.and_or_distrib_right]

/-- A word restricted to a mask that keeps the whole field has the same field. -/
theorem get_and {mask keep : BitVec w} (h : keep &&& mask = mask) (offset : ℕ)
    (word : BitVec w) : get n mask offset (word &&& keep) = get n mask offset word := by
  rw [get, BitVec.and_assoc, h, get]

/-- A field whose mask fits the word reads back the masked value put there.
The narrow type itself may reach past the end of the word. -/
theorem get_put {mask : BitVec n} {offset : ℕ}
    (h : (place w mask offset >>> offset).setWidth n = mask) (value : BitVec n) :
    get n (place w mask offset) offset (put w mask offset value) = value &&& mask := by
  ext i hi
  have hb : mask.getLsbD i = (decide (offset + i < w) && (decide (i < w) && mask.getLsbD i)) := by
    have hbit := congrArg (fun bits : BitVec n => bits.getLsbD i) h
    simpa [place, BitVec.getLsbD_setWidth, BitVec.getLsbD_ushiftRight, BitVec.getLsbD_shiftLeft,
      hi] using hbit.symm
  simp only [get, put, place, BitVec.getLsbD_ushiftRight, BitVec.getLsbD_and,
    BitVec.getLsbD_shiftLeft, BitVec.getLsbD_setWidth, Nat.add_sub_cancel_left,
    ← BitVec.getLsbD_eq_getElem]
  rw [hb]
  by_cases hw : offset + i < w
  · have hi' : i < w := by omega
    cases mask.getLsbD i <;> simp [hw, hi', hi]
  · simp [hw]

/-- The word of one field vanishes under a mask disjoint from the field. -/
theorem put_and_eq_zero {mask : BitVec n} {offset : ℕ} {other : BitVec w}
    (h : place w mask offset &&& other = 0#w) (value : BitVec n) :
    put w mask offset value &&& other = 0#w := by
  ext i hi
  have hb : (place w mask offset &&& other).getLsbD i = false := by rw [h]; simp
  rw [← BitVec.getLsbD_eq_getElem]
  simp only [place, put, BitVec.getLsbD_and, BitVec.getLsbD_shiftLeft,
    BitVec.getLsbD_setWidth, BitVec.getElem_zero] at hb ⊢
  revert hb
  cases value.getLsbD (i - offset) <;> simp

/-- Reading a field disjoint from the one put gives zero. -/
theorem get_put_disjoint {mask : BitVec n} {offset : ℕ} {other : BitVec w}
    (h : place w mask offset &&& other = 0#w) (shift : ℕ) (value : BitVec n) :
    get n other shift (put w mask offset value) = 0#n := by
  rw [get, put_and_eq_zero h]
  simp

/-- Putting back the field that was read restricts the word to that field. -/
theorem put_get (mask : BitVec n) (offset : ℕ) (word : BitVec w) :
    put w mask offset (get n (place w mask offset) offset word) =
      word &&& place w mask offset := by
  ext i hi
  rw [← BitVec.getLsbD_eq_getElem, ← BitVec.getLsbD_eq_getElem]
  simp only [get, put, place, BitVec.getLsbD_setWidth, BitVec.getLsbD_ushiftRight,
    BitVec.getLsbD_and, BitVec.getLsbD_shiftLeft]
  by_cases ho : i < offset
  · simp [ho]
  · have hi' : offset + (i - offset) = i := by omega
    by_cases hn : i - offset < n
    · simp only [hi', hn, hi, ho, decide_true, decide_false, Bool.not_false, Bool.true_and]
      cases word.getLsbD i <;> simp
    · simp [hn, BitVec.getLsbD_of_ge mask (i - offset) (by omega)]

/-- A field that was read lies inside its own narrow mask. -/
theorem get_and_mask (mask : BitVec n) (offset : ℕ) (word : BitVec w) :
    get n (place w mask offset) offset word &&& mask =
      get n (place w mask offset) offset word := by
  ext i hi
  simp only [get, place, BitVec.getLsbD_ushiftRight, BitVec.getLsbD_and,
    BitVec.getLsbD_shiftLeft, BitVec.getLsbD_setWidth, Nat.add_sub_cancel_left,
    ← BitVec.getLsbD_eq_getElem]
  cases mask.getLsbD i <;> simp

/-- Bits outside the mask do not reach the word. -/
theorem put_or_of_disjoint {mask b : BitVec n} (h : b &&& mask = 0#n) (offset : ℕ)
    (a : BitVec n) : put w mask offset (a ||| b) = put w mask offset a := by
  have hm : (a ||| b) &&& mask = a &&& mask := by
    rw [BitVec.and_comm, ← and_or_mask, BitVec.and_comm mask b, h, BitVec.or_zero,
      BitVec.and_comm]
  rw [put, hm, put]

/-- A word has a single-bit mask either wholly or not at all. -/
theorem and_twoPow_eq_of_ne_zero {word : BitVec w} {i : ℕ}
    (h : word &&& BitVec.twoPow w i ≠ 0#w) : word &&& BitVec.twoPow w i = BitVec.twoPow w i := by
  rw [BitVec.and_twoPow] at h ⊢
  split_ifs at h ⊢ with hbit
  · rfl
  · exact absurd rfl h

/-- A word with no bit outside a mask is its own restriction to the mask. -/
theorem and_eq_self {mask rest word : BitVec w} (hcover : mask ||| rest = BitVec.allOnes w)
    (h : word &&& rest = 0#w) : word &&& mask = word := by
  have hall : word &&& (mask ||| rest) = word := by rw [hcover, BitVec.and_allOnes]
  rw [← and_or_mask, h, BitVec.or_zero] at hall
  exact hall

end RobotOta.BitField
