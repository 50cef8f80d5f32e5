import RobotOta.HexRecords

/-!
# Which damaged files the loader takes

The loader never asks whether a conversion succeeded, and the end of the file
ends its loop as an end record does. It still tests every checksum it reads,
so a file it accepts is undamaged exactly when its fields are all there up to
an end record.
-/

namespace RobotOta.HexIntegrity

open ScanHex HexLoader HexRecords
open CanFrameCodec (Byte)

/-- The last record is an end record. -/
def EndsFile (records : List HexRecord) : Prop :=
  ∃ front last, records = front ++ [last] ∧ last.type = 1

/-- The bytes the data records of a sequence hold. -/
def dataBytes (records : List HexRecord) : List Byte :=
  (records.filter fun r => r.type = 0).flatMap fun r => r.data.map (BitVec.ofNat 8)

/-- The bytes stored in the elements. -/
def storedBytes (state : LoadState) : List Byte := state.mPElements.flatMap ImageElement.data

/-- What was read of an accepted file is undamaged: complete records with
correct checksums up to an end record, and the elements hold their bytes. -/
def Undamaged (content rest : List Char) (state : LoadState) : Prop :=
  ∃ read records, content = read ++ rest ∧ FileText read records ∧ EndsFile records ∧
    (∀ r ∈ records, r.ChecksumCorrect) ∧ storedBytes state = dataBytes records

/-- No digit is missing up to an end record, and no 03 record declares data. -/
def DigitsComplete (content : List Char) : Prop :=
  ∃ read rest records, content = read ++ rest ∧ FileText read records ∧ EndsFile records ∧
    ∀ r ∈ records, r.type = 3 → r.count = 0

/-- Storing an element adds its bytes behind the others, in a new element or in
the last one. -/
theorem flatMap_storeElement (addrBytes : ℕ) (elements : List ImageElement)
    (element : ImageElement) :
    (storeElement addrBytes elements element).flatMap ImageElement.data =
      elements.flatMap ImageElement.data ++ element.data := by
  unfold storeElement
  cases hlast : elements.getLast? with
  | none => simp
  | some pPrevElement =>
    have helements : elements = elements.dropLast ++ [pPrevElement] :=
      (List.dropLast_append_getLast? pPrevElement hlast).symm
    dsimp only
    split_ifs
    · rw [List.flatMap_append, helements]
      simp
    · simp

/-- A record's count is the length of its data and has two digits. -/
theorem count_of_recordText {text : List Char} {r : HexRecord} (h : RecordText text r) :
    r.data.length = r.count ∧ r.count < 256 := by
  obtain ⟨_, _, _, _, _, -, hcount, -, -, -, hlen, -⟩ := h
  exact ⟨hlen, hcount.value_lt⟩

/-- Every record of a file has a text. -/
theorem recordText_of_mem {text : List Char} {records : List HexRecord}
    (h : FileText text records) {r : HexRecord} (hr : r ∈ records) : ∃ t, RecordText t r := by
  induction h with
  | nil => cases hr
  | space _ _ ih => exact ih hr
  | record htext _ ih =>
    rcases List.mem_cons.mp hr with rfl | hmem
    · exact ⟨_, htext⟩
    · exact ih hmem

/-- The bytes of a sequence are those of its first record and of the others. -/
theorem dataBytes_cons (r : HexRecord) (records : List HexRecord) :
    dataBytes (r :: records) = dataBytes [r] ++ dataBytes records := by
  rw [dataBytes, dataBytes, dataBytes, ← List.flatMap_append, ← List.filter_append]
  rfl

/-- A record that is taken over adds its bytes. -/
theorem storedBytes_after {addrBytes : ℕ} {state next : LoadState} {r : HexRecord}
    (h : After addrBytes state r next) :
    storedBytes next = storedBytes state ++ dataBytes [r] := by
  rw [storedBytes, h.mPElements]
  by_cases h0 : r.type = 0
  · rw [if_pos h0, flatMap_storeElement]
    simp [dataBytes, h0, storedBytes, HexRecord.element]
  · simp [dataBytes, h0, storedBytes]

/-- Between the records an accepting run skips what it reads. -/
theorem recordLoop_between {addrBytes : ℕ} {c : Char} {text rest : List Char}
    {state final : LoadState} (hcolon : c ≠ ':')
    (hrun : recordLoop addrBytes state (c :: text) = .accepted rest final) :
    recordLoop addrBytes state text = .accepted rest final := by
  by_cases hskip : (c = '\r' ∨ c = '\n') ∨ c = ' '
  · have hpass : loadPass addrBytes state (c :: text) = .goOn text state := by
      rw [loadPass, if_neg hcolon]
      split_ifs with h1 h2
      · rfl
      · rfl
      · exact absurd hskip (by tauto)
    rwa [recordLoop_goOn hpass] at hrun
  · have hpass : loadPass addrBytes state (c :: text) = .badFile := by
      rw [loadPass, if_neg hcolon, if_neg (by tauto), if_neg (by tauto)]
    rw [recordLoop_badFile hpass] at hrun
    cases hrun

/-- On a complete sequence with an end record, a run that accepts stops behind
the first end record. Everything up to there passed the loader's test, and the
data records' bytes were stored. -/
theorem recordLoop_fileText {addrBytes : ℕ} {text : List Char} {records : List HexRecord}
    (h : FileText text records) (hend : ∃ r ∈ records, r.type = 1) {state final : LoadState}
    {rest rest' : List Char}
    (hrun : recordLoop addrBytes state (text ++ rest) = .accepted rest' final) :
    ∃ read unread used, text = read ++ unread ∧ rest' = unread ++ rest ∧ FileText read used ∧
      EndsFile used ∧ used ⊆ records ∧ (∀ r ∈ used, r.PassesTest) ∧
      storedBytes final = storedBytes state ++ dataBytes used := by
  induction h generalizing state with
  | nil =>
    obtain ⟨r, hr, -⟩ := hend
    cases hr
  | @space c text records hc htext ih =>
    have hcolon : c ≠ ':' := by
      rintro rfl
      cases hc
    rw [List.cons_append] at hrun
    obtain ⟨read, unread, used, rfl, hrest, hread, hused⟩ :=
      ih hend (recordLoop_between hcolon hrun)
    exact ⟨c :: read, unread, used, rfl, hrest, FileText.space hc hread, hused⟩
  | @record text tail r records htext htail ih =>
    have hpass : RecordPass addrBytes state r (tail ++ rest)
        (loadPass addrBytes state (text ++ (tail ++ rest))) :=
      loadPass_text htext state (tail ++ rest)
    rw [List.append_assoc] at hrun
    unfold RecordPass at hpass
    by_cases ht : r.PassesTest
    · rw [if_pos ht] at hpass
      obtain ⟨next, hafter, hresult⟩ := hpass
      have hbytes := storedBytes_after hafter
      by_cases h1 : r.type = 1
      · rw [if_pos h1] at hresult
        rw [recordLoop_lastByte hresult] at hrun
        cases hrun
        refine ⟨text, tail, [r], rfl, rfl, ?_, ⟨[], r, rfl, h1⟩, by simp, by simpa using ht,
          hbytes⟩
        have hone := FileText.record htext FileText.nil
        rwa [List.append_nil] at hone
      · rw [if_neg h1] at hresult
        rw [recordLoop_goOn hresult] at hrun
        have hend' : ∃ r ∈ records, r.type = 1 := by
          obtain ⟨last, hlast, htype⟩ := hend
          rcases List.mem_cons.mp hlast with rfl | hmem
          · exact absurd htype h1
          · exact ⟨last, hmem, htype⟩
        obtain ⟨read, unread, used, rfl, hrest, hread, ⟨front, last, hlast, htype⟩, hsub, htests,
          hstored⟩ := ih hend' hrun
        refine ⟨text ++ read, unread, r :: used, by rw [List.append_assoc], hrest,
          FileText.record htext hread, ⟨r :: front, last, by rw [hlast]; rfl, htype⟩,
          List.cons_subset_cons r hsub, ?_, ?_⟩
        · intro other hother
          rcases List.mem_cons.mp hother with rfl | hmem
          · exact ht
          · exact htests other hmem
        · rw [hstored, hbytes, List.append_assoc, ← dataBytes_cons]
    · rw [if_neg ht] at hpass
      rw [recordLoop_badFile hpass] at hrun
      cases hrun

/-- A record that passes the loader's test has a correct checksum, except that
a 03 record's count must vanish for both. -/
theorem checksumCorrect_iff {text : List Char} {r : HexRecord} (h : RecordText text r)
    (ht : r.PassesTest) : r.ChecksumCorrect ↔ (r.type = 3 → r.count = 0) := by
  have hcount := (count_of_recordText h).2
  have hsum := ht.2
  unfold HexRecord.loaderSum at hsum
  unfold HexRecord.ChecksumCorrect
  split_ifs at hsum with h3
  · constructor
    · intro hc _
      omega
    · intro hz
      have := hz h3
      omega
  · exact ⟨fun _ h => absurd h h3, fun _ => hsum⟩

/-- An accepted file is undamaged exactly when none of its digits is missing
up to an end record and no 03 record declares data. -/
theorem undamaged_iff_digitsComplete {addrBytes : ℕ} {garbage : Scanned}
    {content rest : List Char} {state : LoadState}
    (hrun : recordLoop addrBytes (startState garbage) content = .accepted rest state) :
    Undamaged content rest state ↔ DigitsComplete content := by
  have hlast : ∀ records, EndsFile records → ∃ r ∈ records, r.type = 1 := by
    rintro records ⟨front, last, rfl, htype⟩
    exact ⟨last, by simp, htype⟩
  constructor
  · rintro ⟨read, records, hcontent, hread, hend, hchecks, -⟩
    rw [hcontent] at hrun
    obtain ⟨text, unread, used, hsplit, -, htext, hused, hsub, htests, -⟩ :=
      recordLoop_fileText hread (hlast records hend) hrun
    refine ⟨text, unread ++ rest, used, by rw [hcontent, hsplit, List.append_assoc], htext, hused,
      ?_⟩
    intro r hr
    obtain ⟨t, ht⟩ := recordText_of_mem htext hr
    exact (checksumCorrect_iff ht (htests r hr)).mp (hchecks r (hsub hr))
  · rintro ⟨read, behind, records, hcontent, hread, hend, hzero⟩
    rw [hcontent] at hrun
    obtain ⟨text, unread, used, hsplit, hrest, htext, hused, hsub, htests, hstored⟩ :=
      recordLoop_fileText hread (hlast records hend) hrun
    refine ⟨text, used, by rw [hcontent, hsplit, hrest, List.append_assoc], htext, hused, ?_,
      hstored⟩
    intro r hr
    obtain ⟨t, ht⟩ := recordText_of_mem htext hr
    exact (checksumCorrect_iff ht (htests r hr)).mpr (hzero r (hsub hr))

/-- A sequence that starts with a colon starts with a record. -/
theorem fileText_colon {text : List Char} {records : List HexRecord}
    (h : FileText (':' :: text) records) :
    ∃ t rest r tail, ':' :: text = t ++ rest ∧ RecordText t r ∧ FileText rest tail ∧
      records = r :: tail := by
  generalize hc : ':' :: text = whole at h
  cases h with
  | nil => cases hc
  | space hspace _ =>
    cases hc
    cases hspace
  | record htext htail => exact ⟨_, _, _, _, rfl, htext, htail, rfl⟩

/-- A character other than a colon in front of a sequence is white space. -/
theorem fileText_skip {c : Char} {text : List Char} {records : List HexRecord}
    (h : FileText (c :: text) records) (hc : c ≠ ':') : FileText text records := by
  generalize hw : c :: text = whole at h
  cases h with
  | nil => cases hw
  | space _ htext =>
    cases hw
    exact htext
  | record htext _ =>
    obtain ⟨_, _, _, _, _, rfl, -⟩ := htext
    exact absurd (List.cons.inj hw).1 hc

/-- A record has a colon and at least ten digits. -/
theorem length_recordText {text : List Char} {r : HexRecord} (h : RecordText text r) :
    11 ≤ text.length := by
  have hfield : ∀ {n value : ℕ} {t : List Char}, HexField n t value → n ≤ t.length := by
    rintro n value t ⟨space, digits, rfl, -, hlen, -⟩
    rw [List.length_append]
    omega
  obtain ⟨_, _, _, _, _, rfl, hcount, haddress, htype, -, -, hcheck⟩ := h
  have h1 := hfield hcount
  have h2 := hfield haddress
  have h3 := hfield htype
  have h4 := hfield hcheck
  simp only [List.length_cons, List.length_append]
  omega

/-- All variables zero at the start. -/
def zeroScanned : Scanned := ⟨0, 0, 0, 0, 0⟩

/-- One data byte and an end record. -/
def wholeFile : List Char := ":0100000041BE\n:00000001FF\n".toList

/-- A whole file is accepted, and it is undamaged because its digits are complete. -/
theorem undamaged_iff_digitsComplete_wholeFile :
    ∃ state, recordLoop 2 (startState zeroScanned) wholeFile = .accepted ['\n'] state ∧
      (Undamaged wholeFile ['\n'] state ↔ DigitsComplete wholeFile) := by
  have hrun : ∃ state, recordLoop 2 (startState zeroScanned) wholeFile =
      .accepted ['\n'] state :=
    ⟨_, (recordLoop_goOn rfl).trans ((recordLoop_goOn rfl).trans (recordLoop_lastByte rfl))⟩
  obtain ⟨state, hstate⟩ := hrun
  exact ⟨state, hstate, undamaged_iff_digitsComplete hstate⟩

/-- A data record and the beginning of another one. -/
def cutFile : List Char := ":0100000041BE\n:01000000".toList

/-- The file cut inside its second record is accepted: the missing data byte
and checksum are those of the first record, so the byte is stored twice. -/
theorem cutFile_accepted :
    ∃ state, recordLoop 2 (startState zeroScanned) cutFile = .accepted [] state ∧
      storedBytes state = [0x41, 0x41] ∧ ¬Undamaged cutFile [] state := by
  have hpass : ∃ next, loadPass 2 (startState zeroScanned) cutFile =
      .goOn ['\n', ':', '0', '1', '0', '0', '0', '0', '0', '0'] next := ⟨_, rfl⟩
  refine ⟨_, (recordLoop_goOn rfl).trans ((recordLoop_goOn rfl).trans ((recordLoop_goOn rfl).trans
    (recordLoop_lastByte rfl))), rfl, ?_⟩
  rintro ⟨read, records, hcontent, hread, -⟩
  rw [List.append_nil] at hcontent
  rw [← hcontent] at hread
  obtain ⟨t, rest, r, tail, hsplit, htext, htail, rfl⟩ := fileText_colon hread
  obtain ⟨next, hnext⟩ := hpass
  have hresult : RecordPass 2 (startState zeroScanned) r rest
      (loadPass 2 (startState zeroScanned) cutFile) := by
    rw [show cutFile = t ++ rest from hsplit]
    exact loadPass_text htext _ _
  rw [hnext, RecordPass] at hresult
  split_ifs at hresult
  · obtain ⟨_, -, heq⟩ := hresult
    cases heq
  · obtain ⟨_, -, heq⟩ := hresult
    cases heq
    have hcut := fileText_skip htail (by decide)
    obtain ⟨t', rest', r', -, hsplit', htext', -, -⟩ := fileText_colon hcut
    have hlen := length_recordText htext'
    have hshort := congrArg List.length hsplit'
    rw [List.length_append] at hshort
    simp only [List.length_cons, List.length_nil] at hshort
    omega

end RobotOta.HexIntegrity
