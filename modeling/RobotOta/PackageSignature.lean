import Mathlib.Tactic.IntervalCases
import RobotOta.CanFrameCodec
import RobotOta.StreamingUpdate

/-!
# The signature of an update package

`RecoverySystem.verifyPackage` finds the signature in the comment at the end of the
archive, insists that no second end record follows the first, and feeds all but the
comment to the signature of a trusted key. Decoding of the signature block, the
keys and the signature itself are parameters.
-/

namespace RobotOta.PackageSignature

open StreamingUpdate
open CanFrameCodec (Byte)

/-- What `verifyPackage` throws, with its text where it has one. -/
inductive Failure
  | IOException (text : String)
  | SignatureException (text : String)
  | GeneralSecurityException
  | RuntimeException
  deriving DecidableEq, Repr

/-- `SignerInfo`: the algorithm names, where they can be had, and the signature. -/
structure SignerInfo where
  /-- `getDigestAlgorithm`. -/
  digestAlgorithm : Option String
  /-- `getDigestEncryptionAlgorithm`. -/
  digestEncryptionAlgorithm : Option String
  /-- `getEncryptedDigest`. -/
  encryptedDigest : List Byte

/-- `SignedData`. -/
structure SignedData (Cert : Type*) where
  /-- `getCertificates`. -/
  certificates : List Cert
  /-- `getSignerInfos`. -/
  signerInfos : List SignerInfo

/-- The security classes of the platform. -/
structure Crypto (Key Cert Sig : Type*) where
  /-- `ContentInfo.ASN1.decode` on the bytes from an offset, and `getSignedData`. -/
  decode : List Byte → (offset : ℤ) → (length : ℕ) → Except Failure (Option (SignedData Cert))
  /-- The key of a certificate. -/
  publicKey : Cert → Key
  /-- `getSigAlgName`. -/
  sigAlgName : Cert → String
  /-- The keys of `getTrustedCerts`. -/
  trusted : Except Failure (List Key)
  /-- `Signature.getInstance` and `initVerify`. -/
  initVerify : String → Cert → Except Failure Sig
  /-- A signature that has been fed more bytes. -/
  update : Sig → List Byte → Sig
  /-- Whether the signature matches what it was fed. -/
  verify : Sig → List Byte → Except Failure Bool

/-- The bytes that mark an end-of-central-directory record. -/
def eocdMarker : List Byte := [0x50, 0x4b, 0x05, 0x06]

/-- The marker stands at a place. -/
def markerAt (bytes : List Byte) (i : ℕ) : Bool := (bytes.drop i).take 4 == eocdMarker

/-- The loop that looks for a second marker, over `count` places from `i` on. -/
def markerFrom (eocd : List Byte) : (count i : ℕ) → Bool
  | 0, _ => false
  | count + 1, i => if markerAt eocd i then true else markerFrom eocd count (i + 1)

/-- A 16-bit number, low byte first. -/
def uint16 (bytes : List Byte) (i : ℕ) : ℕ :=
  (bytes.getD i 0).toNat ||| ((bytes.getD (i + 1) 0).toNat <<< 8)

section Verify

variable {Key Cert Sig : Type} [DecidableEq Key]

/-- The algorithm of the signature, or of the certificate where the signature names none. -/
def algorithm (crypto : Crypto Key Cert Sig) (cert : Cert) (sigInfo : SignerInfo) : String :=
  match sigInfo.digestAlgorithm, sigInfo.digestEncryptionAlgorithm with
  | some da, some dea => da ++ "with" ++ dea
  | _, _ => crypto.sigAlgName cert

/-- What is left to do once the signature has been found: the signature to update,
the number of bytes to feed and what to verify them against. -/
structure Found (Sig : Type*) where
  /-- The signature, ready to be updated. -/
  sig : Sig
  /-- The number of bytes it covers. -/
  toRead : ℕ
  /-- What to verify them against. -/
  encryptedDigest : List Byte

/-- `verifyPackage` from the signature block to the signature ready to be updated. -/
def openSigner (crypto : Crypto Key Cert Sig) (eocd : List Byte)
    (commentSize signatureStart : ℕ) : Except Failure (Sig × List Byte) :=
  match crypto.decode eocd ((commentSize : ℤ) + 22 - signatureStart) signatureStart with
  | .error failure => .error failure
  | .ok none => .error (.IOException "signedData is null")
  | .ok (some ⟨[], _⟩) => .error (.IOException "encCerts is empty")
  | .ok (some ⟨_ :: _, []⟩) => .error (.IOException "no signer infos!")
  | .ok (some ⟨cert :: _, sigInfo :: _⟩) =>
    match crypto.trusted with
    | .error failure => .error failure
    | .ok trusted =>
      if crypto.publicKey cert ∉ trusted then
        .error (.SignatureException "signature doesn't match any trusted key")
      else
        match crypto.initVerify (algorithm crypto cert sigInfo) cert with
        | .error failure => .error failure
        | .ok sig => .ok (sig, sigInfo.encryptedDigest)

/-- `verifyPackage` up to the loop. -/
def findSignature (crypto : Crypto Key Cert Sig) (content : List Byte) :
    Except Failure (Found Sig) :=
  let fileLen := content.length
  if fileLen < 6 then .error (.IOException "offset < 0")
  else
    let footer := content.drop (fileLen - 6)
    if footer.getD 2 0 ≠ 0xff ∨ footer.getD 3 0 ≠ 0xff then
      .error (.SignatureException "no signature in file (no footer)")
    else
      let commentSize := uint16 footer 4
      let signatureStart := uint16 footer 0
      if fileLen < commentSize + 22 then .error (.IOException "offset < 0")
      else
        let eocd := content.drop (fileLen - (commentSize + 22))
        if ¬ markerAt eocd 0 then .error (.SignatureException "no signature in file (bad footer)")
        else if markerFrom eocd (eocd.length - 3 - 4) 4 then
          .error (.SignatureException "EOCD marker found after start of EOCD")
        else
          match openSigner crypto eocd commentSize signatureStart with
          | .error failure => .error failure
          | .ok (sig, encryptedDigest) =>
            .ok ⟨sig, fileLen - commentSize - 2, encryptedDigest⟩

/-- What the passes of the loop meet: whether the thread is interrupted, how many
bytes a read of some size gets, and the clock. -/
structure Passes where
  /-- Whether the thread is interrupted in a pass. -/
  interrupted : ℕ → Bool
  /-- How many bytes the read of a pass gets. -/
  read : ℕ → (size : ℕ) → ℕ
  /-- The time in a pass. -/
  now : ℕ → ℕ

/-- Reads of a file that is not at its end get something, but no more than asked for. -/
def Passes.Reads (passes : Passes) : Prop :=
  ∀ pass size, 0 < size → 0 < passes.read pass size ∧ passes.read pass size ≤ size

/-- `PUBLISH_PROGRESS_INTERVAL_MS`. -/
def PUBLISH_PROGRESS_INTERVAL_MS : ℕ := 500

/-- The variables of the loop, and what the listener has been told. -/
structure Verifying (Sig : Type*) where
  /-- The signature with what it has been fed. -/
  sig : Sig
  /-- The number of bytes it has been fed. -/
  soFar : ℕ
  /-- The percentage published last. -/
  lastPercent : ℕ
  /-- When it was published. -/
  lastPublishTime : ℕ
  /-- The loop was left by an interruption. -/
  interrupted : Bool
  /-- What the listener has been told. -/
  progress : List ℕ

/-- The listener's part of a pass. -/
def publish (listener : Bool) (toRead now : ℕ) (state : Verifying Sig) : Verifying Sig :=
  let p := state.soFar * 100 / toRead
  if listener ∧ p > state.lastPercent ∧
      now - state.lastPublishTime > PUBLISH_PROGRESS_INTERVAL_MS then
    { state with lastPercent := p, lastPublishTime := now, progress := state.progress ++ [p] }
  else state

/-- The loop that feeds the signature, with fuel for its passes. -/
def verifyLoop (update : Sig → List Byte → Sig) (content : List Byte) (toRead : ℕ)
    (listener : Bool) (passes : Passes) : (fuel pass : ℕ) → Verifying Sig → Option (Verifying Sig)
  | 0, _, state => if state.soFar < toRead then none else some state
  | fuel + 1, pass, state =>
    if state.soFar < toRead then
      if passes.interrupted pass then some { state with interrupted := true }
      else
        let size := if state.soFar + 4096 > toRead then toRead - state.soFar else 4096
        let read := passes.read pass size
        let state := { state with
          sig := update state.sig ((content.drop state.soFar).take read)
          soFar := state.soFar + read }
        verifyLoop update content toRead listener passes fuel (pass + 1)
          (publish listener toRead (passes.now pass) state)
    else some state

/-- `RecoverySystem.verifyPackage`: what the listener is told, and how it ends. A loop
that does not end is `none`. -/
def verifyPackage (crypto : Crypto Key Cert Sig) (content : List Byte) (listener : Bool)
    (startTime : ℕ) (passes : Passes) : Option (List ℕ × Except Failure Unit) :=
  let progress := if listener then [0] else []
  match findSignature crypto content with
  | .error failure => some (progress, .error failure)
  | .ok found =>
    match verifyLoop crypto.update content found.toRead listener passes found.toRead 0
        ⟨found.sig, 0, 0, startTime, false, progress⟩ with
    | none => none
    | some state =>
      let progress := if listener then state.progress ++ [100] else state.progress
      if state.interrupted then
        some (progress, .error (.SignatureException "verification was interrupted"))
      else
        match crypto.verify state.sig found.encryptedDigest with
        | .error failure => some (progress, .error failure)
        | .ok false =>
          some (progress, .error (.SignatureException "signature digest verification failed"))
        | .ok true => some (progress, .ok ())

end Verify

section Marker

variable {bytes : List Byte}

theorem markerFrom_iff (eocd : List Byte) (count i : ℕ) :
    markerFrom eocd count i = true ↔ ∃ j, i ≤ j ∧ j < i + count ∧ markerAt eocd j = true := by
  induction count generalizing i with
  | zero =>
    refine ⟨fun h => absurd h Bool.false_ne_true, fun ⟨j, hlow, hlt, _⟩ => ?_⟩
    omega
  | succ count ih =>
    rw [markerFrom]
    by_cases hat : markerAt eocd i = true
    · rw [if_pos hat]
      exact ⟨fun _ => ⟨i, le_rfl, by omega, hat⟩, fun _ => rfl⟩
    · rw [if_neg hat, ih]
      constructor
      · rintro ⟨j, hlow, hlt, hj⟩
        exact ⟨j, by omega, by omega, hj⟩
      · rintro ⟨j, hlow, hlt, hj⟩
        have hne : j ≠ i := fun heq => hat (heq ▸ hj)
        exact ⟨j, by omega, by omega, hj⟩

theorem markerAt_drop (bytes : List Byte) (n i : ℕ) :
    markerAt (bytes.drop n) i = markerAt bytes (n + i) := by
  rw [markerAt, markerAt, List.drop_drop]

/-- A marker needs four bytes. -/
theorem markerAt_length {i : ℕ} (h : markerAt bytes i = true) : i + 4 ≤ bytes.length := by
  have heq : (bytes.drop i).take 4 = eocdMarker := by simpa [markerAt] using h
  have hlength := congrArg List.length heq
  rw [List.length_take, List.length_drop] at hlength
  have : eocdMarker.length = 4 := rfl
  omega

/-- No marker starts inside another. -/
theorem markerAt_apart {i : ℕ} (h : markerAt bytes 0 = true) (hpos : 0 < i) (hlt : i < 4) :
    markerAt bytes i = false := by
  have heq : bytes.take 4 = eocdMarker := by simpa [markerAt] using h
  obtain ⟨rest, rfl⟩ : ∃ rest, bytes = eocdMarker ++ rest :=
    ⟨bytes.drop 4, by rw [← heq, List.take_append_drop]⟩
  have hfirst : ((eocdMarker ++ rest).drop i).take 4 ≠ eocdMarker := by
    intro hcontra
    have hhead := congrArg (·[0]?) hcontra
    interval_cases i <;> simp [eocdMarker] at hhead
  simpa [markerAt] using hfirst

/-- After a marker at the start the loop finds every later one. -/
theorem markerFrom_later (h : markerAt bytes 0 = true) :
    markerFrom bytes (bytes.length - 3 - 4) 4 = true ↔ ∃ j, 0 < j ∧ markerAt bytes j = true := by
  rw [markerFrom_iff]
  constructor
  · rintro ⟨j, hlow, -, hj⟩
    exact ⟨j, by omega, hj⟩
  · rintro ⟨j, hpos, hj⟩
    have hlength := markerAt_length hj
    refine ⟨j, ?_, by omega, hj⟩
    by_contra hlt
    rw [markerAt_apart h hpos (not_le.mp hlt)] at hj
    cases hj

end Marker

section Accepted

variable {Key Cert Sig : Type} [DecidableEq Key]

/-- The size of the archive comment, as the last two bytes give it. -/
def commentSize (content : List Byte) : ℕ := uint16 (content.drop (content.length - 6)) 4

/-- The bytes of the signature block, counted from the end. -/
def signatureStart (content : List Byte) : ℕ := uint16 (content.drop (content.length - 6)) 0

/-- The archive ends in one end record, whose comment ends in a footer. -/
structure Ended (content : List Byte) : Prop where
  /-- There is room for a footer. -/
  footer : 6 ≤ content.length
  /-- It has its mark. -/
  mark : content[content.length - 4]? = some 0xff ∧ content[content.length - 3]? = some 0xff
  /-- There is room for the end record and its comment. -/
  comment : commentSize content + 22 ≤ content.length
  /-- The end record is where the footer says. -/
  eocd : markerAt content (content.length - (commentSize content + 22)) = true
  /-- No marker stands behind it. -/
  last : ∀ i, content.length - (commentSize content + 22) < i → markerAt content i = false

/-- The signature block found holds a certificate of a trusted key, ready to check
the signature with. -/
def Holds (crypto : Crypto Key Cert Sig) (content : List Byte) (sig : Sig)
    (encryptedDigest : List Byte) : Prop :=
  ∃ cert certs info infos trusted,
    crypto.decode (content.drop (content.length - (commentSize content + 22)))
        ((commentSize content : ℤ) + 22 - signatureStart content) (signatureStart content) =
      .ok (some ⟨cert :: certs, info :: infos⟩) ∧
    crypto.trusted = .ok trusted ∧ crypto.publicKey cert ∈ trusted ∧
    crypto.initVerify (algorithm crypto cert info) cert = .ok sig ∧
    encryptedDigest = info.encryptedDigest

/-- A trusted key signed all of the package but its comment and the comment's size. -/
def Signed (crypto : Crypto Key Cert Sig) (content : List Byte) : Prop :=
  Ended content ∧ ∃ sig encryptedDigest, Holds crypto content sig encryptedDigest ∧
    crypto.verify (crypto.update sig (content.take (content.length - commentSize content - 2)))
      encryptedDigest = .ok true

/-- A byte of the footer is a byte of the package. -/
theorem footer_byte {content : List Byte} (h : 6 ≤ content.length) (i : ℕ) (hi : i < 6)
    (b : Byte) : (content.drop (content.length - 6)).getD i 0 = b ↔
      content[content.length - (6 - i)]? = some b := by
  have hidx : content.length - 6 + i = content.length - (6 - i) := by omega
  have hlt : content.length - (6 - i) < content.length := by omega
  rw [List.getD_eq_getElem?_getD, List.getElem?_drop, hidx, List.getElem?_eq_getElem hlt,
    Option.getD_some, Option.some.injEq]

/-- The checks of the end record are those of `Ended`. -/
theorem ended_iff (content : List Byte) :
    Ended content ↔ ¬ content.length < 6 ∧
      ¬((content.drop (content.length - 6)).getD 2 0 ≠ 0xff ∨
        (content.drop (content.length - 6)).getD 3 0 ≠ 0xff) ∧
      ¬ content.length < commentSize content + 22 ∧
      markerAt (content.drop (content.length - (commentSize content + 22))) 0 = true ∧
      ¬ markerFrom (content.drop (content.length - (commentSize content + 22)))
        ((content.drop (content.length - (commentSize content + 22))).length - 3 - 4) 4 = true := by
  constructor
  · rintro ⟨hfooter, ⟨hmark2, hmark3⟩, hcomment, heocd, hlast⟩
    have hstart :
        markerAt (content.drop (content.length - (commentSize content + 22))) 0 = true := by
      rwa [markerAt_drop]
    refine ⟨not_lt.mpr hfooter, ?_, not_lt.mpr hcomment, hstart, fun hlater => ?_⟩
    · rw [not_or, not_not, not_not, footer_byte hfooter 2 (by decide),
        footer_byte hfooter 3 (by decide)]
      exact ⟨hmark2, hmark3⟩
    · obtain ⟨j, hpos, hj⟩ := (markerFrom_later hstart).mp hlater
      rw [markerAt_drop, hlast _ (by omega)] at hj
      cases hj
  · rintro ⟨hfooter, hmark, hcomment, hstart, hlater⟩
    rw [not_lt] at hfooter hcomment
    rw [not_or, not_not, not_not, footer_byte hfooter 2 (by decide),
      footer_byte hfooter 3 (by decide)] at hmark
    refine ⟨hfooter, hmark, hcomment, by rwa [markerAt_drop] at hstart, fun i hi => ?_⟩
    rw [markerFrom_later hstart] at hlater
    by_contra hat
    refine hlater ⟨i - (content.length - (commentSize content + 22)), by omega, ?_⟩
    rw [markerAt_drop, Nat.add_sub_of_le hi.le]
    simpa using hat

theorem openSigner_iff (crypto : Crypto Key Cert Sig) (content : List Byte) (sig : Sig)
    (encryptedDigest : List Byte) :
    openSigner crypto (content.drop (content.length - (commentSize content + 22)))
        (commentSize content) (signatureStart content) = .ok (sig, encryptedDigest) ↔
      Holds crypto content sig encryptedDigest := by
  unfold openSigner Holds
  constructor
  · intro h
    split at h
    · cases h
    · cases h
    · cases h
    · cases h
    · next cert certs info infos hdecode =>
      split at h
      · cases h
      · next trusted htrusted =>
        split_ifs at h with hkey
        split at h
        · cases h
        · next sig' hinit =>
          cases h
          exact ⟨cert, certs, info, infos, trusted, hdecode, htrusted, hkey, hinit, rfl⟩
  · rintro ⟨cert, certs, info, infos, trusted, hdecode, htrusted, hkey, hinit, rfl⟩
    rw [hdecode]
    dsimp only
    rw [htrusted]
    dsimp only
    rw [if_neg (not_not.mpr hkey), hinit]

/-- What `verifyPackage` has found before its loop. -/
theorem findSignature_iff (crypto : Crypto Key Cert Sig) (content : List Byte)
    (found : Found Sig) :
    findSignature crypto content = .ok found ↔
      Ended content ∧ Holds crypto content found.sig found.encryptedDigest ∧
        found.toRead = content.length - commentSize content - 2 := by
  rw [ended_iff, ← openSigner_iff]
  unfold findSignature
  dsimp only
  rw [← commentSize, ← signatureStart]
  by_cases h1 : content.length < 6
  · rw [if_pos h1]
    exact ⟨fun h => (by cases h), fun h => absurd h1 h.1.1⟩
  rw [if_neg h1]
  by_cases h2 : (content.drop (content.length - 6)).getD 2 0 ≠ 0xff ∨
      (content.drop (content.length - 6)).getD 3 0 ≠ 0xff
  · rw [if_pos h2]
    exact ⟨fun h => (by cases h), fun h => absurd h2 h.1.2.1⟩
  rw [if_neg h2]
  by_cases h3 : content.length < commentSize content + 22
  · rw [if_pos h3]
    exact ⟨fun h => (by cases h), fun h => absurd h3 h.1.2.2.1⟩
  rw [if_neg h3]
  generalize content.drop (content.length - (commentSize content + 22)) = eocd
  by_cases h4 : markerAt eocd 0 = true
  · rw [if_neg (not_not.mpr h4)]
    by_cases h5 : markerFrom eocd (eocd.length - 3 - 4) 4 = true
    · rw [if_pos h5]
      exact ⟨fun h => (by cases h), fun h => absurd h5 h.1.2.2.2.2⟩
    rw [if_neg h5]
    cases hsigner : openSigner crypto eocd (commentSize content) (signatureStart content) with
    | error failure => exact ⟨fun h => (by cases h), fun h => (by cases h.2.1)⟩
    | ok signer =>
      obtain ⟨sig, encryptedDigest⟩ := signer
      obtain ⟨sig', toRead, encryptedDigest'⟩ := found
      dsimp only
      rw [Except.ok.injEq, Except.ok.injEq, Found.mk.injEq, Prod.mk.injEq]
      exact ⟨fun h => ⟨⟨h1, h2, h3, h4, h5⟩, ⟨h.1, h.2.2⟩, h.2.1.symm⟩,
        fun h => ⟨h.2.1.1, h.2.2.symm, h.2.1.2⟩⟩
  · rw [if_pos h4]
    exact ⟨fun h => (by cases h), fun h => absurd h.1.2.2.2.1 h4⟩

/-- What the listener has been told: nothing without a listener, else growing
percentages from 0 on. -/
structure Told (listener : Bool) (state : Verifying Sig) : Prop where
  /-- The percentage published last is one. -/
  percent : state.lastPercent ≤ 100
  /-- Without a listener nothing is told. -/
  silent : listener = false → state.progress = []
  /-- The first is zero. -/
  first : listener = true → state.progress.head? = some 0
  /-- Percentages grow. -/
  growing : state.progress.Pairwise (· < ·)
  /-- None is above the one published last. -/
  last : ∀ p ∈ state.progress, p ≤ state.lastPercent

theorem publish_told {listener : Bool} {toRead now : ℕ} {state : Verifying Sig}
    (hle : state.soFar ≤ toRead) (h : Told listener state) :
    Told listener (publish listener toRead now state) := by
  obtain ⟨hpercent, hsilent, hfirst, hgrowing, hlast⟩ := h
  unfold publish
  dsimp only
  split
  · next hnew =>
    obtain ⟨hlistener, hgreater, -⟩ := hnew
    have hp : state.soFar * 100 / toRead ≤ 100 :=
      Nat.div_le_of_le_mul (Nat.mul_le_mul_right 100 hle)
    refine ⟨hp, fun h => ?_, fun h => ?_, ?_, fun p hmem => ?_⟩
    · rw [h] at hlistener
      cases hlistener
    · rw [List.head?_append, hfirst h]
      rfl
    · refine List.pairwise_append.mpr ⟨hgrowing, List.pairwise_singleton _ _, ?_⟩
      intro p hmem q hq
      rw [List.mem_singleton.mp hq]
      exact lt_of_le_of_lt (hlast p hmem) hgreater
    · rcases List.mem_append.mp hmem with hmem | hmem
      · exact (hlast p hmem).trans hgreater.le
      · exact (List.mem_singleton.mp hmem).le
  · exact ⟨hpercent, hsilent, hfirst, hgrowing, hlast⟩

theorem publish_kept (listener : Bool) (toRead now : ℕ) (state : Verifying Sig) :
    (publish listener toRead now state).sig = state.sig ∧
      (publish listener toRead now state).soFar = state.soFar ∧
      (publish listener toRead now state).interrupted = state.interrupted := by
  unfold publish
  dsimp only
  split <;> exact ⟨rfl, rfl, rfl⟩

/-- The signature has been fed a prefix of what is to be read. -/
def Fed (update : Sig → List Byte → Sig) (content : List Byte) (toRead : ℕ) (sig : Sig)
    (state : Verifying Sig) : Prop :=
  state.sig = update sig (content.take state.soFar) ∧ state.soFar ≤ toRead

/-- The loop ends, with everything fed unless it is interrupted. -/
theorem verifyLoop_fed {update : Sig → List Byte → Sig} (hstream : Streaming update)
    {passes : Passes} (hreads : passes.Reads) {content : List Byte} {toRead : ℕ} {sig : Sig}
    {listener : Bool} (fuel pass : ℕ) {state : Verifying Sig} (hfuel : toRead - state.soFar ≤ fuel)
    (hfed : Fed update content toRead sig state) (htold : Told listener state)
    (hgoing : state.interrupted = false) :
    ∃ last, verifyLoop update content toRead listener passes fuel pass state = some last ∧
      (last.interrupted = false → last.sig = update sig (content.take toRead)) ∧
      ((∀ pass, passes.interrupted pass = false) → last.interrupted = false) ∧
      Told listener last := by
  induction fuel generalizing pass state with
  | zero =>
    have hend : ¬ state.soFar < toRead := by omega
    have heq : state.soFar = toRead := le_antisymm hfed.2 (not_lt.mp hend)
    exact ⟨state, if_neg hend, fun _ => by rw [hfed.1, heq], fun _ => hgoing, htold⟩
  | succ fuel ih =>
    rw [verifyLoop]
    by_cases hmore : state.soFar < toRead
    · rw [if_pos hmore]
      cases hstop : passes.interrupted pass with
      | true =>
        refine ⟨_, rfl, fun h => (by cases h), fun h => ?_, ?_⟩
        · rw [h pass] at hstop
          cases hstop
        · exact ⟨htold.percent, htold.silent, htold.first, htold.growing, htold.last⟩
      | false =>
        rw [if_neg Bool.false_ne_true]
        dsimp only
        generalize hsize : (if state.soFar + 4096 > toRead then toRead - state.soFar else 4096) =
          size
        have hsizepos : 0 < size ∧ state.soFar + size ≤ toRead := by
          split_ifs at hsize <;> omega
        obtain ⟨hpos, hle⟩ := hreads pass size hsizepos.1
        generalize passes.read pass size = read at hpos hle
        obtain ⟨hsig, hsoFar, hint⟩ := publish_kept listener toRead (passes.now pass)
          { state with
            sig := update state.sig ((content.drop state.soFar).take read)
            soFar := state.soFar + read }
        refine ih (pass + 1) ?_ ⟨?_, ?_⟩ (publish_told (by dsimp only; omega) ?_) ?_
        · rw [hsoFar]
          dsimp only
          omega
        · rw [hsig, hsoFar]
          dsimp only
          rw [hfed.1, hstream.update_take]
        · rw [hsoFar]
          dsimp only
          omega
        · exact ⟨htold.percent, htold.silent, htold.first, htold.growing, htold.last⟩
        · rw [hint]
          exact hgoing
    · have heq : state.soFar = toRead := le_antisymm hfed.2 (not_lt.mp hmore)
      exact ⟨state, if_neg hmore, fun _ => by rw [hfed.1, heq], fun _ => hgoing, htold⟩

/-- What a listener is told when the report is closed with the percentages given. -/
def Report (listener : Bool) (accepted : Prop) (progress : List ℕ) : Prop :=
  (listener = false → progress = []) ∧
    (listener = true → progress.head? = some 0 ∧ progress.Pairwise (· ≤ ·) ∧
      (∀ p ∈ progress, p ≤ 100) ∧ (accepted → progress.getLast? = some 100))

/-- A report broken off before the loop. -/
theorem report_start {listener : Bool} {accepted : Prop} (h : ¬ accepted) :
    Report listener accepted (if listener then [0] else []) := by
  cases listener with
  | false => exact ⟨fun _ => rfl, fun h => absurd h Bool.false_ne_true⟩
  | true =>
    refine ⟨fun h => absurd h.symm Bool.false_ne_true, fun _ => ⟨rfl, List.pairwise_singleton _ _,
      fun p hp => ?_, fun ha => absurd ha h⟩⟩
    rw [List.mem_singleton.mp hp]
    decide

/-- A report closed after the loop. -/
theorem Told.report {listener : Bool} {state : Verifying Sig} (h : Told listener state)
    (accepted : Prop) :
    Report listener accepted (if listener then state.progress ++ [100] else state.progress) := by
  obtain ⟨hpercent, hsilent, hfirst, hgrowing, hlast⟩ := h
  cases listener with
  | false => exact ⟨fun _ => hsilent rfl, fun h => absurd h Bool.false_ne_true⟩
  | true =>
    have hbound : ∀ p ∈ state.progress, p ≤ 100 := fun p hp => (hlast p hp).trans hpercent
    refine ⟨fun h => absurd h.symm Bool.false_ne_true,
      fun _ => ⟨?_, ?_, fun p hp => ?_, fun _ => ?_⟩⟩
    · rw [if_pos rfl, List.head?_append, hfirst rfl]
      rfl
    · rw [if_pos rfl]
      refine List.pairwise_append.mpr ⟨hgrowing.imp fun h => h.le, List.pairwise_singleton _ _, ?_⟩
      intro p hp q hq
      rw [List.mem_singleton.mp hq]
      exact hbound p hp
    · rw [if_pos rfl] at hp
      rcases List.mem_append.mp hp with hp | hp
      · exact hbound p hp
      · exact (List.mem_singleton.mp hp).le
    · rw [if_pos rfl, List.getLast?_concat]

/-- Verification ends. It accepts only packages with one end record in which a trusted
key signed everything but the comment and its size, however the reads cut the file, and
accepts all of them unless it is interrupted. The listener is told 0 first, percentages
that never fall, and 100 last of an accepted package. -/
theorem verifyPackage_accepts (crypto : Crypto Key Cert Sig) (hstream : Streaming crypto.update)
    (content : List Byte) (listener : Bool) (startTime : ℕ) (passes : Passes)
    (hreads : passes.Reads) :
    ∃ progress result,
      verifyPackage crypto content listener startTime passes = some (progress, result) ∧
      (result = .ok () → Signed crypto content) ∧
      (Signed crypto content → (∀ pass, passes.interrupted pass = false) → result = .ok ()) ∧
      Report listener (result = .ok ()) progress := by
  unfold verifyPackage
  dsimp only
  cases hfound : findSignature crypto content with
  | error failure =>
    refine ⟨_, _, rfl, fun h => (by cases h), fun hsigned _ => ?_,
      report_start fun h => (by cases h)⟩
    obtain ⟨hended, sig, encryptedDigest, hholds, -⟩ := hsigned
    have hok := (findSignature_iff crypto content ⟨sig, _, encryptedDigest⟩).mpr
      ⟨hended, hholds, rfl⟩
    rw [hfound] at hok
    cases hok
  | ok found =>
    obtain ⟨hended, hholds, htoRead⟩ := (findSignature_iff crypto content found).mp hfound
    have htold : Told listener (⟨found.sig, 0, 0, startTime, false,
        if listener then [0] else []⟩ : Verifying Sig) := by
      cases listener with
      | false => exact ⟨Nat.zero_le _, fun _ => rfl, fun h => (by cases h), List.Pairwise.nil,
          fun p hp => (by cases hp)⟩
      | true => exact ⟨Nat.zero_le _, fun h => (by cases h), fun _ => rfl,
          List.pairwise_singleton _ _, fun p hp => (List.mem_singleton.mp hp).le⟩
    obtain ⟨last, hloop, hfed, hgoing, htold⟩ := verifyLoop_fed hstream hreads found.toRead 0
      (Nat.sub_le _ _) ⟨(hstream.update_take_zero found.sig content).symm, Nat.zero_le _⟩ htold rfl
    dsimp only
    rw [hloop]
    dsimp only
    cases hint : last.interrupted with
    | true =>
      refine ⟨_, _, rfl, fun h => (by cases h), fun _ hnever => ?_, htold.report _⟩
      rw [hgoing hnever] at hint
      cases hint
    | false =>
      have hall := hfed hint
      rw [htoRead] at hall
      rw [if_neg Bool.false_ne_true]
      have hverified : Signed crypto content →
          crypto.verify last.sig found.encryptedDigest = .ok true := by
        rintro ⟨-, sig, encryptedDigest, hholds', hverify⟩
        have hsame := (findSignature_iff crypto content ⟨sig, _, encryptedDigest⟩).mpr
          ⟨hended, hholds', rfl⟩
        rw [hfound] at hsame
        cases hsame
        rw [hall]
        exact hverify
      cases hverify : crypto.verify last.sig found.encryptedDigest with
      | error failure =>
        refine ⟨_, _, rfl, fun h => (by cases h), fun hsigned _ => ?_, htold.report _⟩
        rw [hverified hsigned] at hverify
        cases hverify
      | ok verdict =>
        cases verdict with
        | false =>
          refine ⟨_, _, rfl, fun h => (by cases h), fun hsigned _ => ?_, htold.report _⟩
          rw [hverified hsigned] at hverify
          cases hverify
        | true =>
          refine ⟨_, _, rfl, fun _ => ⟨hended, found.sig, found.encryptedDigest, hholds, ?_⟩,
            fun _ _ => rfl, htold.report _⟩
          rw [← hall]
          exact hverify

/-- Three bytes and an end record, whose comment is a block of two bytes and the footer. -/
def sampleContent : List Byte :=
  [1, 2, 3] ++ eocdMarker ++ List.replicate 16 0 ++ [8, 0] ++
    [0x30, 0xac, 8, 0, 0xff, 0xff, 8, 0]

/-- Blocks hold the tag of a sequence and a digest. A signature takes down what it is fed,
and is right about bytes with the sum of the digest. -/
def sampleCrypto : Crypto Unit Unit (List Byte) where
  decode := fun bytes offset length =>
    let block := (bytes.drop offset.toNat).take length
    if block.head? = some 0x30 then
      .ok (some ⟨[()], [⟨none, none, (block.drop 1).take 1⟩]⟩)
    else .error (.IOException "not a sequence")
  publicKey := id
  sigAlgName := fun _ => "SHA1withRSA"
  trusted := .ok [()]
  initVerify := fun _ _ => .ok []
  update := fun sig bytes => sig ++ bytes
  verify := fun sig digest => .ok (digest == [sig.foldl (· + ·) 0])

theorem sample_signed : Signed sampleCrypto sampleContent :=
  ⟨(ended_iff _).mpr (by decide), [], [0xac], ⟨(), [], ⟨none, none, [0xac]⟩, [], [()], rfl, rfl,
    by decide, rfl, rfl⟩, rfl⟩

/-- Reads that get all they ask for accept the sample. -/
theorem verifyPackage_accepts_sample :
    ∃ progress, verifyPackage sampleCrypto sampleContent true 0
      ⟨fun _ => false, fun _ size => size, fun _ => 0⟩ = some (progress, .ok ()) := by
  obtain ⟨progress, result, hrun, -, hok, -⟩ :=
    verifyPackage_accepts sampleCrypto
      ⟨List.append_nil, fun s xs ys => (List.append_assoc s xs ys).symm⟩
      sampleContent true 0 ⟨fun _ => false, fun _ size => size, fun _ => 0⟩
      fun _ _ hpos => ⟨hpos, le_rfl⟩
  rw [hok sample_signed fun _ => rfl] at hrun
  exact ⟨progress, hrun⟩

end Accepted

end RobotOta.PackageSignature
