import RobotOta.ByteBuffer
import RobotOta.CanFrameCodec
import RobotOta.OtaDownload
import Mathlib.Data.Nat.Digits.Lemmas

/-!
# The digest of the update package

`Util.getFileMD5` reads a file to its end and turns the digest into text by way
of a `BigInteger`, whose text has no leading zeros. `installUpdate` compares
that text with the 32 digits the server gave. `MessageDigest` is a parameter.
-/

namespace RobotOta.PackageDigest

open ByteBuffer OtaDownload
open CanFrameCodec (Byte)

/-- `MessageDigest.getInstance("MD5")`: the digest of everything it was updated
with. -/
structure MessageDigest where
  /-- The digest of a stream of bytes. -/
  digest : List Byte → List Byte
  /-- A digest has 16 bytes. -/
  length_digest : ∀ bytes, (digest bytes).length = 16

/-- What the calls of `in.read(buffer)` return, up to the one that ends the
loop. A file that cannot be opened is one whose first read fails. -/
inductive FileReads where
  | bytes (buffer : List Byte) (next : FileReads)
  | endOfFile
  | exception

/-- `new BigInteger(1, bytes)`. -/
def bigInteger (bytes : List Byte) : ℕ := bytes.foldl (fun value byte => 256 * value + byte.toNat) 0

/-- `toString(16)`. -/
def toString16 (value : ℕ) : List Char := Nat.toDigits 16 value

/-- `toLowerCase` on the digits. -/
def toLowerCase (text : List Char) : List Char := text.map Char.toLower

/-- The loop of `getFileMD5`: the bytes that `md5.update` has taken. -/
def updateLoop (updated : List Byte) : FileReads → Option (List Byte)
  | .bytes buffer next =>
    if 0 < buffer.length then updateLoop (updated ++ buffer) next else some updated
  | .endOfFile => some updated
  | .exception => none

/-- `Util.getFileMD5`. -/
def Util.getFileMD5 (md5 : MessageDigest) (isFile : Bool) (reads : FileReads) : Option String :=
  if !isFile then none
  else (updateLoop [] reads).map fun updated =>
    String.ofList (toLowerCase (toString16 (bigInteger (md5.digest updated))))

/-- The length of `buffer`. -/
def bufferLength : ℕ := 8192

/-- Reads that deliver the content of a file, in pieces of any size. -/
inductive Delivers : List Byte → FileReads → Prop where
  | endOfFile : Delivers [] .endOfFile
  | bytes {buffer content : List Byte} {next : FileReads} : 0 < buffer.length →
      buffer.length ≤ bufferLength → Delivers content next →
      Delivers (buffer ++ content) (.bytes buffer next)

/-- The two digits of a byte. -/
def hexByte (byte : Byte) : List Char :=
  [Nat.digitChar (byte.toNat / 16), Nat.digitChar (byte.toNat % 16)]

/-- The standard form of a digest: two lower-case digits for every byte. -/
def hexForm (digest : List Byte) : String := String.ofList (digest.flatMap hexByte)

/-- The check is right for a file: its digest comes out in the standard form,
and of all digests in that form `installUpdate` takes the file's own only. -/
structure DigestRight (md5 : MessageDigest) (content : List Byte) : Prop where
  /-- The text has two digits for every byte, whatever the reads deliver. -/
  standard : ∀ reads, Delivers content reads →
    Util.getFileMD5 md5 true reads = some (hexForm (md5.digest content))
  /-- The check passes just for the digest of the content. -/
  comparison : ∀ reads advertised state deleted entries unzipped, Delivers content reads →
    advertised.length = 16 → state.installPackage.isSome → state.mError = errorNone →
    state.mNewVerMD5 = some (hexForm advertised) →
    ((checkAndUnzip (Util.getFileMD5 md5 true reads) deleted entries unzipped state).mError =
      errorNone ↔ advertised = md5.digest content)

/-- Every file can be read. -/
theorem exists_delivers (content : List Byte) : ∃ reads, Delivers content reads := by
  induction content with
  | nil => exact ⟨_, Delivers.endOfFile⟩
  | cons byte content ih =>
    obtain ⟨reads, hreads⟩ := ih
    have hread : Delivers ([byte] ++ content) (.bytes [byte] reads) :=
      Delivers.bytes Nat.one_pos (by rw [List.length_singleton]; decide) hreads
    exact ⟨_, hread⟩

/-- The digest is taken of the whole content, however it was read. -/
theorem updateLoop_delivers {content : List Byte} {reads : FileReads} (h : Delivers content reads)
    (updated : List Byte) : updateLoop updated reads = some (updated ++ content) := by
  induction h generalizing updated with
  | endOfFile => rw [updateLoop, List.append_nil]
  | bytes hpos hle _ ih => rw [updateLoop, if_pos hpos, ih, List.append_assoc]

theorem getFileMD5_delivers (md5 : MessageDigest) {content : List Byte} {reads : FileReads}
    (h : Delivers content reads) : Util.getFileMD5 md5 true reads =
      some (String.ofList (toLowerCase (toString16 (bigInteger (md5.digest content))))) := by
  simp only [Util.getFileMD5, updateLoop_delivers h, Bool.not_true, Bool.false_eq_true, if_false,
    Option.map_some, List.nil_append]

/-- A positive number in front of a byte shows both digits of the byte. -/
theorem toString16_byte {value : ℕ} (h : 0 < value) (byte : Byte) :
    toString16 (256 * value + byte.toNat) = toString16 value ++ hexByte byte := by
  have hlow : byte.toNat % 16 < 16 := Nat.mod_lt _ (by decide)
  have hhigh : byte.toNat / 16 < 16 := by
    have hbyte := byte.isLt
    omega
  have hvalue : 256 * value + byte.toNat =
      16 * (16 * value + byte.toNat / 16) + byte.toNat % 16 := by omega
  rw [toString16, toString16, hvalue,
    ← Nat.toDigits_append_toDigits (by decide) (by omega) hlow,
    ← Nat.toDigits_append_toDigits (by decide) h hhigh, Nat.toDigits_of_lt_base hlow,
    Nat.toDigits_of_lt_base hhigh, List.append_assoc]
  rfl

/-- So do all the bytes behind it. -/
theorem toString16_foldl {value : ℕ} (h : 0 < value) (bytes : List Byte) :
    toString16 (bytes.foldl (fun value byte => 256 * value + byte.toNat) value) =
      toString16 value ++ bytes.flatMap hexByte := by
  induction bytes generalizing value with
  | nil => simp
  | cons byte bytes ih =>
    rw [List.foldl_cons, ih (by omega), toString16_byte h, List.flatMap_cons, List.append_assoc]

/-- A first byte without a leading zero shows both of its digits. -/
theorem toString16_first {first : Byte} (h : 16 ≤ first.toNat) :
    toString16 first.toNat = hexByte first := by
  have hfirst := first.isLt
  rw [toString16, Nat.toDigits_of_base_le (by decide) h, Nat.toDigits_of_lt_base (by omega)]
  rfl

/-- The digits are lower-case already. -/
theorem toLowerCase_flatMap (bytes : List Byte) :
    toLowerCase (bytes.flatMap hexByte) = bytes.flatMap hexByte := by
  have hdigit : ∀ d < 16, (Nat.digitChar d).toLower = Nat.digitChar d := by decide
  have hbyte : ∀ byte : Byte, (hexByte byte).map Char.toLower = hexByte byte := by
    intro byte
    have hlt := byte.isLt
    rw [hexByte, List.map_cons, List.map_singleton, hdigit _ (by omega), hdigit _ (by omega)]
  rw [toLowerCase, List.map_flatMap]
  exact congrArg (fun spell => bytes.flatMap spell) (funext hbyte)

theorem length_hexByte (byte : Byte) : (hexByte byte).length = 2 := rfl

theorem length_flatMap_hexByte (bytes : List Byte) :
    (bytes.flatMap hexByte).length = 2 * bytes.length := by
  induction bytes with
  | nil => rfl
  | cons byte bytes ih =>
    rw [List.flatMap_cons, List.length_append, ih, List.length_cons, length_hexByte]
    omega

/-- Different digests have different forms. -/
theorem hexForm_injective : Function.Injective hexForm := by
  have hdigit : ∀ d < 16, ∀ e < 16, Nat.digitChar d = Nat.digitChar e → d = e := by decide
  have hspell : Function.Injective hexByte := by
    intro byte byte' h
    obtain ⟨hhigh, htail⟩ := List.cons.inj h
    obtain ⟨hlow, -⟩ := List.cons.inj htail
    have hlt := byte.isLt
    have hlt' := byte'.isLt
    have hdiv := hdigit _ (by omega) _ (by omega) hhigh
    have hmod := hdigit _ (by omega) _ (by omega) hlow
    apply BitVec.eq_of_toNat_eq
    omega
  intro digest digest' h
  exact flatMap_injective Nat.two_pos length_hexByte hspell (String.ofList_injective h)

/-- Where the first digit is not zero, the text is the standard form. -/
theorem toString16_eq_hexForm {digest : List Byte} (h : 16 ≤ (digest.getD 0 0).toNat) :
    String.ofList (toLowerCase (toString16 (bigInteger digest))) = hexForm digest := by
  cases digest with
  | nil => exact absurd h (by decide)
  | cons first rest =>
    rw [List.getD_cons_zero] at h
    rw [bigInteger, List.foldl_cons, Nat.mul_zero, Nat.zero_add, toString16_foldl (by omega),
      toString16_first h, ← List.flatMap_cons, toLowerCase_flatMap]
    rfl

/-- The value of so many bytes. -/
theorem foldl_lt (value : ℕ) (bytes : List Byte) :
    bytes.foldl (fun value byte => 256 * value + byte.toNat) value <
      (value + 1) * 256 ^ bytes.length := by
  induction bytes generalizing value with
  | nil => simp
  | cons byte bytes ih =>
    have hbyte := byte.isLt
    rw [List.foldl_cons, List.length_cons, pow_succ', ← Nat.mul_assoc]
    refine lt_of_lt_of_le (ih _) (Nat.mul_le_mul_right _ ?_)
    omega

/-- Where it is zero, a digit is missing. -/
theorem toString16_ne_hexForm {digest : List Byte} (hlen : digest.length = 16)
    (h : ¬16 ≤ (digest.getD 0 0).toNat) :
    String.ofList (toLowerCase (toString16 (bigInteger digest))) ≠ hexForm digest := by
  intro heq
  have hdigits := congrArg List.length (String.ofList_injective heq)
  rw [length_flatMap_hexByte, hlen, toLowerCase, List.length_map] at hdigits
  have hvalue : bigInteger digest < 16 ^ 31 := by
    cases digest with
    | nil => exact absurd hlen (by decide)
    | cons first rest =>
      rw [List.getD_cons_zero] at h
      rw [List.length_cons] at hlen
      have hlt := foldl_lt first.toNat rest
      rw [Nat.succ.inj hlen] at hlt
      rw [bigInteger, List.foldl_cons, Nat.mul_zero, Nat.zero_add]
      refine lt_of_lt_of_le hlt ?_
      calc (first.toNat + 1) * 256 ^ 15 ≤ 16 * 256 ^ 15 := Nat.mul_le_mul_right _ (by omega)
        _ = 16 ^ 31 := by norm_num
  have hshort := (Nat.length_toDigits_le_iff (by decide) (by decide)).mpr hvalue
  rw [toString16] at hdigits
  omega

/-- A package goes on behind the comparison when its digest is the advertised one. -/
theorem checkAndUnzip_mError {state : OtaState} {md5 advertised : String} (deleted : Bool)
    (entries : List String) (unzipped : Bool) (hpackage : state.installPackage.isSome)
    (herror : state.mError = errorNone) (hadvertised : state.mNewVerMD5 = some advertised) :
    (checkAndUnzip (some md5) deleted entries unzipped state).mError = errorNone ↔
      md5 = advertised := by
  have hend : ∀ other : OtaState, (installEnd other).mError = other.mError := by
    intro other
    unfold installEnd
    split_ifs <;> rfl
  have hfiles : (entries.foldl writeEntry state).mError = errorNone := by
    obtain ⟨tmpFile, package, hfiles⟩ := foldl_writeEntry_files entries state
    rw [hfiles]
    exact herror
  unfold checkAndUnzip getFileMD5
  rw [hadvertised, if_neg (by simp), if_pos hpackage]
  dsimp only
  split_ifs with hne hunzip
  · rw [hend]
    refine iff_of_false (by decide : ¬errorCheckFailed = errorNone) ?_
    rintro rfl
    exact hne rfl
  · rw [hend]
    exact iff_of_true hfiles (Option.some.inj (not_not.mp hne))
  · rw [hend]
    exact iff_of_true hfiles (Option.some.inj (not_not.mp hne))

/-- The check is right for exactly the files whose digest does not begin with
the digit zero. -/
theorem digestRight_iff (md5 : MessageDigest) (content : List Byte) :
    DigestRight md5 content ↔ 16 ≤ ((md5.digest content).getD 0 0).toNat := by
  constructor
  · intro h
    obtain ⟨reads, hreads⟩ := exists_delivers content
    have hform := h.standard reads hreads
    rw [getFileMD5_delivers md5 hreads] at hform
    by_contra hzero
    exact toString16_ne_hexForm (md5.length_digest content) hzero (Option.some.inj hform)
  · intro h
    have hform : ∀ reads, Delivers content reads →
        Util.getFileMD5 md5 true reads = some (hexForm (md5.digest content)) := by
      intro reads hreads
      rw [getFileMD5_delivers md5 hreads, toString16_eq_hexForm h]
    refine ⟨hform, ?_⟩
    intro reads advertised state deleted entries unzipped hreads hlen hpackage herror hadvertised
    rw [hform reads hreads, checkAndUnzip_mError deleted entries unzipped hpackage herror
      hadvertised]
    exact ⟨fun heq => (hexForm_injective heq).symm, fun heq => heq ▸ rfl⟩

/-- MD5 as far as the file "a" is concerned. -/
def digestOfA : MessageDigest where
  digest := fun _ => [0x0C, 0xC1, 0x75, 0xB9, 0xC0, 0xF1, 0xB6, 0xA8, 0x31, 0xC3, 0x99, 0xE2, 0x69,
    0x77, 0x26, 0x61]
  length_digest := fun _ => rfl

/-- The right file "a" fails the check. -/
theorem not_digestRight_a : ¬DigestRight digestOfA [0x61] := by
  intro h
  obtain ⟨reads, hreads⟩ := exists_delivers [0x61]
  have hform := h.standard reads hreads
  rw [getFileMD5_delivers digestOfA hreads] at hform
  exact toString16_ne_hexForm (digestOfA.length_digest _) (by decide) (Option.some.inj hform)

end RobotOta.PackageDigest
