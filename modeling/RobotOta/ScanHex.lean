import Mathlib.Data.List.TakeWhile
import Mathlib.Tactic.Common
import Mathlib.Tactic.IntervalCases
import Mathlib.Tactic.Linarith
import Mathlib.Tactic.Ring

/-!
# Scanning hexadecimal fields

The `%x` conversion with a field width, as the C standard describes it: white
space is skipped, then the longest input that is or begins a hexadecimal number
is consumed, sign and `0x` included. When it is no number the conversion fails,
and what was consumed stays consumed. A field here is what a reader expects
such a conversion to meet: white space and the full number of digits.
-/

namespace RobotOta.ScanHex

/-- `isspace`. -/
def isSpace (c : Char) : Bool := c = ' ' ∨ '\t' ≤ c ∧ c ≤ '\r'

/-- The value of a hexadecimal digit. -/
def hexDigit (c : Char) : Option ℕ :=
  if '0' ≤ c ∧ c ≤ '9' then some (c.toNat - 48)
  else if 'a' ≤ c ∧ c ≤ 'f' then some (c.toNat - 87)
  else if 'A' ≤ c ∧ c ≤ 'F' then some (c.toNat - 55)
  else none

/-- The character is a hexadecimal digit. -/
def isHex (c : Char) : Bool := (hexDigit c).isSome

/-- The number a digit sequence stands for. -/
def hexValue (digits : List Char) : ℕ :=
  digits.foldl (fun value c => 16 * value + (hexDigit c).getD 0) 0

/-- The sign of the input item and its length. -/
def scanSign : List Char → Bool × ℕ
  | '-' :: _ => (true, 1)
  | '+' :: _ => (false, 1)
  | _ => (false, 0)

/-- The length of the `0x` in front of the digits. -/
def scanPrefix : List Char → ℕ
  | '0' :: 'x' :: _ => 2
  | '0' :: 'X' :: _ => 2
  | _ => 0

/-- `fscanf` with `%x` and a width: the number stored, if the conversion
succeeds, and the text left unread. -/
def scanHex (width : ℕ) (text : List Char) : Option (BitVec 32) × List Char :=
  let input := text.dropWhile isSpace
  let (negative, signLength) := scanSign (input.take width)
  let body := (input.take width).drop signLength
  let prefixLength := scanPrefix body
  let digits := (body.drop prefixLength).takeWhile isHex
  let rest := input.drop (signLength + prefixLength + digits.length)
  if digits = [] then (none, rest)
  else
    let value := BitVec.ofNat 32 (hexValue digits)
    (some (if negative then -value else value), rest)

/-- White space and exactly `n` hexadecimal digits. -/
def HexField (n : ℕ) (text : List Char) (value : ℕ) : Prop :=
  ∃ space digits, text = space ++ digits ∧ (∀ c ∈ space, isSpace c) ∧ digits.length = n ∧
    (∀ c ∈ digits, isHex c) ∧ hexValue digits = value

/-- Scanning never adds to the text. -/
theorem length_scanHex_le (width : ℕ) (text : List Char) :
    (scanHex width text).2.length ≤ text.length := by
  have hdrop : (text.dropWhile isSpace).length ≤ text.length :=
    (List.dropWhile_suffix _).length_le
  unfold scanHex
  dsimp only
  split <;> simp only [List.length_drop] <;> omega

/-- One more digit in front. -/
theorem hexValue_foldl (start : ℕ) (digits : List Char) :
    digits.foldl (fun value c => 16 * value + (hexDigit c).getD 0) start =
      16 ^ digits.length * start + hexValue digits := by
  induction digits generalizing start with
  | nil => simp [hexValue]
  | cons c digits ih =>
    rw [hexValue, List.foldl_cons, List.foldl_cons, ih, ih (16 * 0 + (hexDigit c).getD 0),
      List.length_cons]
    ring

/-- A digit is below sixteen. -/
theorem hexDigit_lt (c : Char) : (hexDigit c).getD 0 < 16 := by
  unfold hexDigit
  split_ifs with h1 h2 h3
  · have := Char.le_def.mp h1.2
    have hc := UInt32.le_iff_toNat_le.mp this
    simp only [Option.getD_some, Char.toNat]
    have h9 : ('9' : Char).val.toNat = 57 := rfl
    omega
  · have := Char.le_def.mp h2.2
    have hc := UInt32.le_iff_toNat_le.mp this
    simp only [Option.getD_some, Char.toNat]
    have hf : ('f' : Char).val.toNat = 102 := rfl
    omega
  · have := Char.le_def.mp h3.2
    have hc := UInt32.le_iff_toNat_le.mp this
    simp only [Option.getD_some, Char.toNat]
    have hf : ('F' : Char).val.toNat = 70 := rfl
    omega
  · simp

/-- A number of `n` digits is below `16 ^ n`. -/
theorem hexValue_lt (digits : List Char) : hexValue digits < 16 ^ digits.length := by
  induction digits with
  | nil => simp [hexValue]
  | cons c digits ih =>
    rw [hexValue, List.foldl_cons, hexValue_foldl, List.length_cons, pow_succ]
    have hc := hexDigit_lt c
    have hle : 16 ^ digits.length * (16 * 0 + (hexDigit c).getD 0) ≤ 16 ^ digits.length * 15 :=
      Nat.mul_le_mul_left _ (by omega)
    omega

/-- The value of a field of `n` digits is below `16 ^ n`. -/
theorem HexField.value_lt {n value : ℕ} {text : List Char} (h : HexField n text value) :
    value < 16 ^ n := by
  obtain ⟨_, digits, -, -, hlen, -, rfl⟩ := h
  rw [← hlen]
  exact hexValue_lt digits

/-- A digit is neither white space nor part of a sign or prefix. -/
theorem isHex_ne {c : Char} (h : isHex c) :
    isSpace c = false ∧ c ≠ '-' ∧ c ≠ '+' ∧ c ≠ 'x' ∧ c ≠ 'X' := by
  have hne : ∀ d : Char, isHex d = false → c ≠ d := by
    rintro d hd rfl
    rw [h] at hd
    cases hd
  refine ⟨?_, hne _ (by decide), hne _ (by decide), hne _ (by decide), hne _ (by decide)⟩
  rw [isSpace, decide_eq_false_iff_not, not_or]
  refine ⟨hne ' ' (by decide), ?_⟩
  rintro ⟨-, hhi⟩
  have hhi' := UInt32.le_iff_toNat_le.mp (Char.le_def.mp hhi)
  have hr : ('\r' : Char).val.toNat = 13 := rfl
  have hlow : ∀ d : Char, 48 ≤ d.val.toNat → ¬d ≤ c := by
    intro d hd hle
    have := UInt32.le_iff_toNat_le.mp (Char.le_def.mp hle)
    omega
  have h0 : ¬ '0' ≤ c := hlow '0' (by decide)
  have ha : ¬ 'a' ≤ c := hlow 'a' (by decide)
  have hA : ¬ 'A' ≤ c := hlow 'A' (by decide)
  simp [isHex, hexDigit, h0, ha, hA] at h

/-- A conversion of the field's width reads the field and nothing behind it. -/
theorem scanHex_field {n value : ℕ} {text : List Char} (hn : 0 < n) (h : HexField n text value)
    (rest : List Char) : scanHex n (text ++ rest) = (some (BitVec.ofNat 32 value), rest) := by
  obtain ⟨space, digits, rfl, hspace, hlen, hhex, rfl⟩ := h
  obtain ⟨d, ds, rfl⟩ : ∃ d ds, digits = d :: ds :=
    List.exists_cons_of_length_pos (by omega)
  obtain ⟨hd, hminus, hplus, -, -⟩ := isHex_ne (hhex d List.mem_cons_self)
  have hinput : (space ++ (d :: ds) ++ rest).dropWhile isSpace = d :: ds ++ rest := by
    rw [List.append_assoc, List.dropWhile_append_of_pos hspace, List.cons_append,
      List.dropWhile_cons_of_neg (by simp [hd])]
  have htake : (d :: ds ++ rest).take n = d :: ds := List.take_left' hlen
  have hsign : scanSign (d :: ds) = (false, 0) := by
    unfold scanSign
    split
    · next heq => exact absurd (List.cons.inj heq).1 hminus
    · next heq => exact absurd (List.cons.inj heq).1 hplus
    · rfl
  have hprefix : scanPrefix (d :: ds) = 0 := by
    have hx : ∀ x, x ∈ ds → x ≠ 'x' ∧ x ≠ 'X' := fun x hx =>
      (isHex_ne (hhex x (List.mem_cons_of_mem _ hx))).2.2.2
    unfold scanPrefix
    split
    · next heq =>
      obtain ⟨-, rfl⟩ := List.cons.inj heq
      exact absurd rfl (hx 'x' List.mem_cons_self).1
    · next heq =>
      obtain ⟨-, rfl⟩ := List.cons.inj heq
      exact absurd rfl (hx 'X' List.mem_cons_self).2
    · rfl
  have hdigits : (d :: ds).takeWhile isHex = d :: ds :=
    List.takeWhile_eq_self_iff.mpr hhex
  unfold scanHex
  dsimp only
  rw [hinput, htake, hsign]
  dsimp only
  rw [List.drop_zero, hprefix, List.drop_zero, hdigits, if_neg (List.cons_ne_nil _ _),
    Nat.zero_add, List.drop_left]
  rfl

/-- The hexadecimal digit of a number below sixteen. -/
def digitOf (value : ℕ) : Char :=
  if value < 10 then Char.ofNat (48 + value) else Char.ofNat (55 + value)

/-- The last `n` hexadecimal digits of a number. -/
def hexDigits : (n value : ℕ) → List Char
  | 0, _ => []
  | n + 1, value => hexDigits n (value / 16) ++ [digitOf (value % 16)]

/-- A printed digit reads back as its value. -/
theorem hexDigit_digitOf {value : ℕ} (h : value < 16) : hexDigit (digitOf value) = some value := by
  interval_cases value <;> rfl

theorem length_hexDigits (n value : ℕ) : (hexDigits n value).length = n := by
  induction n generalizing value with
  | zero => rfl
  | succ n ih => rw [hexDigits, List.length_append, ih, List.length_singleton]

/-- Printed digits are digits. -/
theorem isHex_of_mem_hexDigits {n value : ℕ} {c : Char} (h : c ∈ hexDigits n value) : isHex c := by
  induction n generalizing value with
  | zero => cases h
  | succ n ih =>
    rw [hexDigits, List.mem_append, List.mem_singleton] at h
    rcases h with h | rfl
    · exact ih h
    · rw [isHex, hexDigit_digitOf (by omega)]
      rfl

/-- Printed digits read back as the number, if it fits. -/
theorem hexValue_hexDigits {n value : ℕ} (h : value < 16 ^ n) :
    hexValue (hexDigits n value) = value := by
  induction n generalizing value with
  | zero =>
    rw [pow_zero, Nat.lt_one_iff] at h
    rw [h]
    rfl
  | succ n ih =>
    have hdiv : value / 16 < 16 ^ n := by
      rw [pow_succ] at h
      omega
    rw [hexDigits, hexValue, List.foldl_append, ← hexValue, ih hdiv, List.foldl_cons,
      List.foldl_nil, hexDigit_digitOf (by omega), Option.getD_some]
    omega

/-- The printed digits of a number that fits are a field of its value. -/
theorem hexField_hexDigits {n value : ℕ} (h : value < 16 ^ n) :
    HexField n (hexDigits n value) value :=
  ⟨[], hexDigits n value, rfl, by simp, length_hexDigits n value, fun _ => isHex_of_mem_hexDigits,
    hexValue_hexDigits h⟩

end RobotOta.ScanHex
