import Mathlib.Data.List.Basic
import Mathlib.Logic.Function.Iterate
import Mathlib.Tactic.SplitIfs

/-!
# Feedback shift registers

A register moves down one place and adds a polynomial for the bit that falls
out. Where the polynomial has its top bit, no step loses anything, and bits
fed one at a time are what a whole word of them is. So two streams that differ
only inside a window as wide as the register leave it in different states.
-/

namespace RobotOta.ShiftRegister

variable {w : ℕ}

/-- One step of the register. -/
def advance (poly register : BitVec w) : BitVec w :=
  if register.getLsbD 0 then (register >>> 1) ^^^ poly else register >>> 1

/-- Bits as a word, the first one lowest. -/
def pack (w : ℕ) (bits : List Bool) : BitVec w := (BitVec.ofBoolListLE bits).setWidth w

/-- A bit is added at the low end and the register moves on. -/
def shiftIn (poly register : BitVec w) (bit : Bool) : BitVec w :=
  advance poly (register ^^^ pack w [bit])

/-- A stream of bits goes through the register. -/
def feed (poly register : BitVec w) (bits : List Bool) : BitVec w :=
  bits.foldl (shiftIn poly) register

theorem getLsbD_pack (bits : List Bool) (i : ℕ) :
    (pack w bits).getLsbD i = (decide (i < w) && bits.getD i false) := by
  rw [pack, BitVec.getLsbD_setWidth, BitVec.getLsbD_ofBoolListLE]

/-- A packed word is its first bit and the others one place up. -/
theorem pack_cons (bit : Bool) (bits : List Bool) :
    pack w (bit :: bits) = pack w [bit] ^^^ (pack w bits <<< 1) := by
  apply BitVec.eq_of_getLsbD_eq
  intro i hi
  rw [BitVec.getLsbD_xor, BitVec.getLsbD_shiftLeft]
  simp only [getLsbD_pack]
  cases i with
  | zero => simp
  | succ i =>
    have hi' : i < w := by omega
    simp [hi, hi']

/-- Words that fit hold all of their bits. -/
theorem pack_injective {bits bits' : List Bool} (hlen : bits.length = bits'.length)
    (hfit : bits.length ≤ w) (h : pack w bits = pack w bits') : bits = bits' := by
  apply List.ext_getElem hlen
  intro i hi hi'
  have hbit := congrArg (fun word : BitVec w => word.getLsbD i) h
  have hw : i < w := by omega
  simp only [getLsbD_pack] at hbit
  simpa [hw, hi, hi'] using hbit

/-- What is one place up and does not touch the top arrives one place down. -/
theorem advance_xor_shiftLeft (poly register word : BitVec w)
    (htop : ∀ i, w ≤ i + 1 → word.getLsbD i = false) :
    advance poly (register ^^^ (word <<< 1)) = advance poly register ^^^ word := by
  have hlow : (register ^^^ (word <<< 1)).getLsbD 0 = register.getLsbD 0 := by
    simp
  have hshift : (register ^^^ (word <<< 1)) >>> 1 = (register >>> 1) ^^^ word := by
    apply BitVec.eq_of_getLsbD_eq
    intro i hi
    rw [BitVec.getLsbD_ushiftRight, BitVec.getLsbD_xor, BitVec.getLsbD_shiftLeft,
      BitVec.getLsbD_xor, BitVec.getLsbD_ushiftRight, Nat.add_comm 1 i]
    by_cases hin : i + 1 < w
    · simp only [hin, decide_true, Nat.add_sub_cancel, Nat.not_lt.mpr (Nat.le_add_left 1 i),
        decide_false, Bool.not_false, Bool.true_and]
    · simp only [hin, decide_false, Bool.false_and, htop i (by omega)]
  unfold advance
  rw [hlow, hshift]
  split_ifs
  · rw [BitVec.xor_assoc, BitVec.xor_comm word poly, ← BitVec.xor_assoc]
  · rfl

/-- Bits that fit the register may be added all at once. -/
theorem feed_eq_iterate (poly register : BitVec w) {bits : List Bool} (hfit : bits.length ≤ w) :
    feed poly register bits = (advance poly)^[bits.length] (register ^^^ pack w bits) := by
  induction bits generalizing register with
  | nil =>
    have hnone : pack w [] = 0#w := by
      apply BitVec.eq_of_getLsbD_eq
      intro i hi
      simp [getLsbD_pack]
    rw [hnone, BitVec.xor_zero]
    rfl
  | cons bit bits ih =>
    rw [List.length_cons] at hfit
    have htop : ∀ i, w ≤ i + 1 → (pack w bits).getLsbD i = false := by
      intro i hi
      rw [getLsbD_pack, List.getD_eq_getElem?_getD, List.getElem?_eq_none (by omega),
        Option.getD_none, Bool.and_false]
    rw [feed, List.foldl_cons, ← feed, ih _ (by omega), List.length_cons,
      Function.iterate_succ_apply, shiftIn, pack_cons bit bits, ← BitVec.xor_assoc,
      advance_xor_shiftLeft poly _ _ htop]

/-- With the top bit in the polynomial a step can be undone. -/
theorem advance_injective {poly : BitVec w} (hpoly : poly.msb = true) :
    Function.Injective (advance poly) := by
  intro x y h
  have hw : 0 < w := by
    rcases Nat.eq_zero_or_pos w with rfl | hw
    · simp [BitVec.of_length_zero] at hpoly
    · exact hw
  have htop : ∀ z : BitVec w, (z >>> 1).msb = false := by
    intro z
    rw [BitVec.msb_eq_getLsbD_last, BitVec.getLsbD_ushiftRight]
    exact BitVec.getLsbD_of_ge _ _ (by omega)
  -- The top bit behind the step is the one that fell out.
  have hmsb : ∀ z : BitVec w, (advance poly z).msb = z.getLsbD 0 := by
    intro z
    unfold advance
    split_ifs with hlow
    · rw [BitVec.msb_xor, htop, hpoly, hlow, Bool.false_xor]
    · rw [htop, (Bool.not_eq_true _).mp hlow]
  have hlow : x.getLsbD 0 = y.getLsbD 0 := by rw [← hmsb, ← hmsb, h]
  have hshift : x >>> 1 = y >>> 1 := by
    unfold advance at h
    rw [hlow] at h
    split_ifs at h
    · exact (BitVec.xor_left_inj poly).mp h
    · exact h
  apply BitVec.eq_of_getLsbD_eq
  intro i hi
  cases i with
  | zero => exact hlow
  | succ i =>
    have hbit := congrArg (fun word : BitVec w => word.getLsbD i) hshift
    simpa [BitVec.getLsbD_ushiftRight, Nat.add_comm 1 i] using hbit

/-- A stream keeps different registers apart. -/
theorem feed_injective {poly : BitVec w} (hpoly : poly.msb = true) (bits : List Bool) :
    Function.Injective fun register => feed poly register bits := by
  induction bits with
  | nil => exact fun _ _ h => h
  | cons bit bits ih =>
    intro x y h
    exact (BitVec.xor_left_inj _).mp (advance_injective hpoly (ih h))

/-- Different bits that fit the register leave it different. -/
theorem feed_ne_of_ne {poly : BitVec w} (hpoly : poly.msb = true) (register : BitVec w)
    {bits bits' : List Bool} (hlen : bits.length = bits'.length) (hfit : bits.length ≤ w)
    (hne : bits ≠ bits') : feed poly register bits ≠ feed poly register bits' := by
  intro h
  rw [feed_eq_iterate poly register hfit, feed_eq_iterate poly register (hlen ▸ hfit),
    ← hlen] at h
  have hword := (advance_injective hpoly).iterate bits.length h
  exact hne (pack_injective hlen hfit ((BitVec.xor_right_inj register).mp hword))

/-- Streams of one length that differ, but only inside a window as wide as the
register, leave it different. -/
theorem feed_ne_of_window {poly : BitVec w} (hpoly : poly.msb = true) (register : BitVec w)
    {bits bits' : List Bool} (hlen : bits.length = bits'.length) (hne : bits ≠ bits') {start : ℕ}
    (hwindow : ∀ i, bits[i]? ≠ bits'[i]? → start ≤ i ∧ i < start + w) :
    feed poly register bits ≠ feed poly register bits' := by
  have hfront : bits.take start = bits'.take start := by
    apply List.ext_getElem?
    intro i
    rw [List.getElem?_take, List.getElem?_take]
    split_ifs with hi
    · by_contra hdiff
      have h := hwindow i hdiff
      omega
    · rfl
  have hbehind : (bits.drop start).drop w = (bits'.drop start).drop w := by
    apply List.ext_getElem?
    intro i
    rw [List.drop_drop, List.drop_drop, List.getElem?_drop, List.getElem?_drop]
    by_contra hdiff
    have h := hwindow _ hdiff
    omega
  have hsplit : ∀ stream : List Bool, feed poly register stream =
      feed poly (feed poly (feed poly register (stream.take start)) ((stream.drop start).take w))
        ((stream.drop start).drop w) := by
    intro stream
    unfold feed
    rw [← List.foldl_append, ← List.foldl_append, List.take_append_drop, List.take_append_drop]
  rw [hsplit bits, hsplit bits', hfront, hbehind]
  refine (feed_injective hpoly _).ne (feed_ne_of_ne hpoly _ ?_ ?_ ?_)
  · rw [List.length_take, List.length_take, List.length_drop, List.length_drop, hlen]
  · exact List.length_take_le _ _
  · intro hmiddle
    apply hne
    rw [← List.take_append_drop start bits, ← List.take_append_drop w (bits.drop start), hfront,
      hmiddle, hbehind, List.take_append_drop, List.take_append_drop]

end RobotOta.ShiftRegister
