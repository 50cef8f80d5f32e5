import RobotOta.CanFrameCodec
import RobotOta.ScanHex

/-!
# The record loop of the HEX loader

`LoadHex` reads a file record by record. No return value of `fscanf` is
looked at, so a conversion that fails leaves the variable of an earlier record
in place; the variables therefore live in the state, with whatever the stack
held at the start. `unsigned int` and `long` are 32 bits wide on the board's
platform. Copying a negative number of bytes is a fault.
-/

namespace RobotOta.HexLoader

open ScanHex
open CanFrameCodec (Byte)

/-- `IMAGEELEMENT`; its `length` is the length of the byte list. -/
structure ImageElement where
  /-- The address of the first byte. -/
  address : BitVec 32
  /-- The bytes. -/
  data : List Byte
  deriving DecidableEq

/-- The variables the conversions of `LoadHex` write and that keep their value
when one fails. -/
structure Scanned where
  /-- `byteCount`. -/
  byteCount : BitVec 32
  /-- `address`. -/
  address : BitVec 32
  /-- `separator`, the type of the record. -/
  separator : BitVec 32
  /-- `character`, one byte of the data. -/
  character : BitVec 32
  /-- `checksum`. -/
  checksum : BitVec 32

/-- The state of the record loop. -/
structure LoadState extends Scanned where
  /-- Base of the last 02 record. -/
  baseAddress : BitVec 32
  /-- Base of the last 04 record. -/
  extendedAddress : BitVec 32
  /-- `m_dataSize`. -/
  mDataSize : BitVec 32
  /-- The elements stored so far. -/
  mPElements : List ImageElement
  /-- The values `element` took, in order; the vector is built from them. -/
  loaded : List ImageElement

/-- The state in front of the loop; the scanned variables are uninitialised. -/
def startState (garbage : Scanned) : LoadState := ⟨garbage, 0, 0, 0, [], []⟩

/-- `fscanf(fp, "%wx", &variable)` with its result ignored. -/
def scanInto (width : ℕ) (old : BitVec 32) (text : List Char) : BitVec 32 × List Char :=
  ((scanHex width text).1.getD old, (scanHex width text).2)

/-- The loop over the data bytes of a record: the bytes read, the last value
of `character`, the sum and the text behind. -/
def scanCharacters : (count : ℕ) → (character sumVar : BitVec 32) → List Char →
    List Byte × BitVec 32 × BitVec 32 × List Char
  | 0, character, sumVar, text => ([], character, sumVar, text)
  | count + 1, character, sumVar, text =>
    let (character, text) := scanInto 2 character text
    let (data, last, sumVar, text) := scanCharacters count character (sumVar + character) text
    (character.setWidth 8 :: data, last, sumVar, text)

/-- The number of rounds of `for (int i = 0; i < (int)byte_count; i++)`. -/
def rounds (byteCount : BitVec 32) : ℕ := byteCount.toInt.toNat

/-- The checksum test behind every record. -/
def checksumGood (checksum sumVar : BitVec 32) : Bool := (checksum + sumVar % 256) % 256 = 0

/-- The two bytes of a 16-bit value, as the checksums add them. -/
def bytesSum (value : BitVec 32) : BitVec 32 := (value >>> 8) + value % 256

/-- `AddImageElement`, or the copy behind the last element when the new one
continues it. -/
def storeElement (addrBytes : ℕ) (elements : List ImageElement) (element : ImageElement) :
    List ImageElement :=
  match elements.getLast? with
  | none => elements ++ [element]
  | some pPrevElement =>
    if pPrevElement.address + BitVec.ofNat 32 (pPrevElement.data.length / addrBytes) =
        element.address then
      elements.dropLast ++ [{ pPrevElement with data := pPrevElement.data ++ element.data }]
    else elements ++ [element]

/-- One pass of the loop: the next pass, the end with `last_byte` set, the end
with `bRet` cleared, or a fault. -/
inductive Pass where
  | goOn (text : List Char) (state : LoadState)
  | lastByte (text : List Char) (state : LoadState)
  | badFile
  | fault

/-- The 00 branch, behind the separator. -/
def dataRecord (addrBytes : ℕ) (state : LoadState) (text : List Char) : Pass :=
  let targetAddress :=
    (state.extendedAddress <<< 16) + (state.baseAddress <<< 4) + state.address
  let sumVar := state.byteCount + bytesSum state.address
  let (data, character, sumVar, text) :=
    scanCharacters (rounds state.byteCount) state.character sumVar text
  let sumVar := sumVar + state.separator
  let (checksum, text) := scanInto 2 state.checksum text
  let state :=
    { state with
      mDataSize := state.mDataSize + state.byteCount, character := character,
      checksum := checksum }
  if !checksumGood checksum sumVar then .badFile
  -- A negative count reads nothing, but the copy of the element takes it as a size.
  else if state.byteCount.toInt < (0 : ℤ) then .fault
  else
    let element : ImageElement := ⟨targetAddress, data⟩
    .goOn text
      { state with
        mPElements := storeElement addrBytes state.mPElements element
        loaded := state.loaded ++ [element] }

/-- The 01 branch, behind the separator. -/
def endRecord (state : LoadState) (text : List Char) : Pass :=
  let sumVar := state.byteCount + bytesSum state.address + state.separator
  let (checksum, text) := scanInto 2 state.checksum text
  let state := { state with checksum := checksum }
  if !checksumGood checksum sumVar then .badFile else .lastByte text state

/-- The 02 branch, behind the separator. -/
def segmentRecord (state : LoadState) (text : List Char) : Pass :=
  let (baseAddress, text) := scanInto 4 state.baseAddress text
  let (checksum, text) := scanInto 2 state.checksum text
  let sumVar :=
    state.byteCount + bytesSum state.address + state.separator + bytesSum baseAddress
  let state := { state with baseAddress := baseAddress, checksum := checksum }
  if !checksumGood checksum sumVar then .badFile else .goOn text state

/-- The 04 branch, behind the separator. -/
def linearRecord (state : LoadState) (text : List Char) : Pass :=
  let (extendedAddress, text) := scanInto 4 state.extendedAddress text
  let (checksum, text) := scanInto 2 state.checksum text
  let sumVar :=
    state.byteCount + bytesSum state.address + state.separator + bytesSum extendedAddress
  let state := { state with extendedAddress := extendedAddress, checksum := checksum }
  if !checksumGood checksum sumVar then .badFile else .goOn text state

/-- The bytes of an 03 or 05 record only enter the checksum. -/
def startRecord (state : LoadState) (sumVar : BitVec 32) (text : List Char) : Pass :=
  let (_, character, sumVar, text) :=
    scanCharacters (rounds state.byteCount) state.character sumVar text
  let (checksum, text) := scanInto 2 state.checksum text
  let state := { state with character := character, checksum := checksum }
  if !checksumGood checksum sumVar then .badFile else .goOn text state

/-- The 03 branch, behind the separator. Its `sum_var += sum_var + …` counts
the byte count twice. -/
def startSegmentRecord (state : LoadState) (text : List Char) : Pass :=
  startRecord state
    (state.byteCount + (state.byteCount + bytesSum state.address + state.separator)) text

/-- The 05 branch, behind the separator. -/
def startLinearRecord (state : LoadState) (text : List Char) : Pass :=
  startRecord state (state.byteCount + bytesSum state.address + state.separator) text

/-- The branches of `LoadHex` on the separator. -/
def recordBranch (addrBytes : ℕ) (state : LoadState) (text : List Char) : Pass :=
  if state.separator = 0 then dataRecord addrBytes state text
  else if state.separator = 1 then endRecord state text
  else if state.separator = 2 then segmentRecord state text
  else if state.separator = 3 then startSegmentRecord state text
  else if state.separator = 4 then linearRecord state text
  else if state.separator = 5 then startLinearRecord state text
  else .badFile

/-- The fields in front of every record's data: the state that holds them and
the text behind. -/
def recordHead (state : LoadState) (text : List Char) : LoadState × List Char :=
  let (byteCount, text) := scanInto 2 state.byteCount text
  let (address, text) := scanInto 4 state.address text
  let (separator, text) := scanInto 2 state.separator text
  ({ state with byteCount := byteCount, address := address, separator := separator }, text)

/-- A record behind its colon. -/
def loadRecord (addrBytes : ℕ) (state : LoadState) (text : List Char) : Pass :=
  recordBranch addrBytes (recordHead state text).1 (recordHead state text).2

/-- One pass: `%1c` takes the next character, and the end of the file shows
only when there is none. -/
def loadPass (addrBytes : ℕ) (state : LoadState) : List Char → Pass
  | [] => .lastByte [] state
  | colon :: text =>
    if colon = ':' then loadRecord addrBytes state text
    else if colon = '\r' ∨ colon = '\n' then .goOn text state
    else if colon = ' ' then .goOn text state
    else .badFile

/-- A conversion never adds to the text. -/
theorem length_scanInto_le (width : ℕ) (old : BitVec 32) (text : List Char) :
    (scanInto width old text).2.length ≤ text.length := length_scanHex_le width text

/-- Neither does reading data bytes. -/
theorem length_scanCharacters_le (count : ℕ) (character sumVar : BitVec 32) (text : List Char) :
    (scanCharacters count character sumVar text).2.2.2.length ≤ text.length := by
  induction count generalizing character sumVar text with
  | zero => exact le_rfl
  | succ count ih => exact (ih _ _ _).trans (length_scanInto_le 2 character text)

/-- The length of the text a pass leaves unread. -/
def Pass.restLength : Pass → ℕ
  | .goOn text _ => text.length
  | .lastByte text _ => text.length
  | _ => 0

theorem restLength_dataRecord (addrBytes : ℕ) (state : LoadState) (text : List Char) :
    (dataRecord addrBytes state text).restLength ≤ text.length := by
  have h := (length_scanInto_le 2 state.checksum _).trans (length_scanCharacters_le
    (rounds state.byteCount) state.character (state.byteCount + bytesSum state.address) text)
  unfold dataRecord
  dsimp only
  split_ifs
  · exact Nat.zero_le _
  · exact Nat.zero_le _
  · exact h

theorem restLength_endRecord (state : LoadState) (text : List Char) :
    (endRecord state text).restLength ≤ text.length := by
  have h := length_scanInto_le 2 state.checksum text
  unfold endRecord
  dsimp only
  split_ifs
  · exact Nat.zero_le _
  · exact h

theorem restLength_segmentRecord (state : LoadState) (text : List Char) :
    (segmentRecord state text).restLength ≤ text.length := by
  have h := (length_scanInto_le 2 state.checksum _).trans
    (length_scanInto_le 4 state.baseAddress text)
  unfold segmentRecord
  dsimp only
  split_ifs
  · exact Nat.zero_le _
  · exact h

theorem restLength_linearRecord (state : LoadState) (text : List Char) :
    (linearRecord state text).restLength ≤ text.length := by
  have h := (length_scanInto_le 2 state.checksum _).trans
    (length_scanInto_le 4 state.extendedAddress text)
  unfold linearRecord
  dsimp only
  split_ifs
  · exact Nat.zero_le _
  · exact h

theorem restLength_startRecord (state : LoadState) (sumVar : BitVec 32) (text : List Char) :
    (startRecord state sumVar text).restLength ≤ text.length := by
  have h := (length_scanInto_le 2 state.checksum _).trans (length_scanCharacters_le
    (rounds state.byteCount) state.character sumVar text)
  unfold startRecord
  dsimp only
  split_ifs
  · exact Nat.zero_le _
  · exact h

/-- Each branch leaves at most its text. -/
theorem restLength_recordBranch (addrBytes : ℕ) (state : LoadState) (text : List Char) :
    (recordBranch addrBytes state text).restLength ≤ text.length := by
  unfold recordBranch
  split_ifs
  · exact restLength_dataRecord addrBytes state text
  · exact restLength_endRecord state text
  · exact restLength_segmentRecord state text
  · exact restLength_startRecord state _ text
  · exact restLength_linearRecord state text
  · exact restLength_startRecord state _ text
  · exact Nat.zero_le _

/-- The fields in front of the data are taken off the text. -/
theorem length_recordHead_le (state : LoadState) (text : List Char) :
    (recordHead state text).2.length ≤ text.length :=
  (length_scanInto_le 2 state.separator _).trans ((length_scanInto_le 4 state.address _).trans
    (length_scanInto_le 2 state.byteCount text))

/-- Every pass that goes on has consumed a character. -/
theorem length_loadPass_lt {addrBytes : ℕ} {state next : LoadState} {text rest : List Char}
    (h : loadPass addrBytes state text = .goOn rest next) : rest.length < text.length := by
  cases text with
  | nil => cases h
  | cons colon text =>
    rw [List.length_cons, Nat.lt_succ_iff]
    unfold loadPass at h
    dsimp only at h
    split_ifs at h
    · have hw :=
        restLength_recordBranch addrBytes (recordHead state text).1 (recordHead state text).2
      rw [loadRecord] at h
      rw [h] at hw
      exact le_trans hw (length_recordHead_le state text)
    · cases h
      exact le_rfl
    · cases h
      exact le_rfl

/-- How the record loop ends: with `bRet` true and some text unread, with
`bRet` false, or in a fault. -/
inductive LoadEnd where
  | accepted (rest : List Char) (state : LoadState)
  | rejected
  | fault

/-- The record loop of `LoadHex`. -/
def recordLoop (addrBytes : ℕ) (state : LoadState) (text : List Char) : LoadEnd :=
  match _h : loadPass addrBytes state text with
  | .goOn rest next => recordLoop addrBytes next rest
  | .lastByte rest next => .accepted rest next
  | .badFile => .rejected
  | .fault => .fault
termination_by text.length
decreasing_by exact length_loadPass_lt _h

/-- The loop goes on behind a pass that goes on. -/
theorem recordLoop_goOn {addrBytes : ℕ} {state next : LoadState} {text rest : List Char}
    (h : loadPass addrBytes state text = .goOn rest next) :
    recordLoop addrBytes state text = recordLoop addrBytes next rest := by
  rw [recordLoop]
  split <;> simp_all

/-- The loop ends on a pass that ends it. -/
theorem recordLoop_lastByte {addrBytes : ℕ} {state next : LoadState} {text rest : List Char}
    (h : loadPass addrBytes state text = .lastByte rest next) :
    recordLoop addrBytes state text = .accepted rest next := by
  rw [recordLoop]
  split <;> simp_all

/-- The loop ends with `bRet` cleared on a pass that clears it. -/
theorem recordLoop_badFile {addrBytes : ℕ} {state : LoadState} {text : List Char}
    (h : loadPass addrBytes state text = .badFile) :
    recordLoop addrBytes state text = .rejected := by
  rw [recordLoop]
  split <;> simp_all

end RobotOta.HexLoader
