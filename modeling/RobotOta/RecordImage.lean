import RobotOta.ElementImage

/-!
# The memory image of the records

Each data record becomes an element of its own or is copied behind the last
element, by a test that divides the length of that element by the bytes of an
address. Records that do not overlap pass the test only where they adjoin the
element, so the elements hold what the records say, byte for byte.
-/

namespace RobotOta.RecordImage

open HexLoader HexRecords HexAddresses ElementCompaction ElementImage SegmentImage
open CanFrameCodec (Byte)

variable {addrBytes : ℕ} {seen stored elements : List ImageElement}
  {element pPrevElement : ImageElement}

/-- The number of bytes of some elements. -/
def byteCount (elements : List ImageElement) : ℕ :=
  (elements.map fun element => element.data.length).sum

/-- A data record with bytes and a target address below 2^31. -/
structure ValidData (element : ImageElement) : Prop where
  /-- There is a byte. -/
  length_pos : 1 ≤ element.data.length
  /-- A record holds no more. -/
  length_le : element.data.length ≤ 255
  /-- The address is positive as an `int`. -/
  address_lt : element.address.toNat < 2 ^ 31

/-- What the elements hold of the records so far: all of their bytes where the
records have them, in elements apart that end before addresses wrap. -/
structure StoredImage (addrBytes : ℕ) (seen stored : List ImageElement) : Prop where
  /-- The elements lie apart. -/
  apart : (image addrBytes stored).Pairwise Apart
  /-- No element is empty. -/
  noneEmpty : NoneEmpty (image addrBytes stored)
  /-- Every byte is where it was. -/
  holds : ∀ a b, Holds (image addrBytes stored) a b ↔ Holds (image addrBytes seen) a b
  /-- Their number is the same. -/
  length : byteCount stored = byteCount seen
  /-- Addresses are positive as an `int`. -/
  address_lt : ∀ element ∈ stored, element.address.toNat < 2 ^ 31
  /-- No element ends far behind its address. -/
  stop_le : ∀ element ∈ stored, (bytesOf addrBytes element).stop ≤ addrBytes * (2 ^ 31 - 1) + 255

/-- A valid record is a segment with cells that ends before addresses wrap. -/
theorem ValidData.spans (h : ValidData element) :
    (bytesOf addrBytes element).cells ≠ [] ∧
      (bytesOf addrBytes element).stop ≤ addrBytes * (2 ^ 31 - 1) + 255 := by
  refine ⟨List.ne_nil_of_length_pos h.length_pos, ?_⟩
  have haddr := BitVec.toInt_eq_toNat_of_lt (x := element.address) (by have := h.address_lt; omega)
  have hlt := h.address_lt
  have hle := h.length_le
  have hmul : (addrBytes : ℤ) * element.address.toInt ≤ addrBytes * (2 ^ 31 - 1) := by
    apply Int.mul_le_mul_of_nonneg_left _ (Int.natCast_nonneg _)
    omega
  simp only [Segment.stop, bytesOf]
  omega

/-- The test for a copy does not wrap. -/
theorem concatenates_iff (hbytes : addrBytes = 1 ∨ addrBytes = 2)
    (hprev : pPrevElement.address.toNat < 2 ^ 31)
    (hstop : (bytesOf addrBytes pPrevElement).stop ≤ addrBytes * (2 ^ 31 - 1) + 255)
    (helement : element.address.toNat < 2 ^ 31) :
    pPrevElement.address + BitVec.ofNat 32 (pPrevElement.data.length / addrBytes) =
        element.address ↔ Contiguous addrBytes pPrevElement element := by
  have haddr := BitVec.toInt_eq_toNat_of_lt (x := pPrevElement.address) (by omega)
  have haddr' := BitVec.toInt_eq_toNat_of_lt (x := element.address) (by omega)
  simp only [Segment.stop, bytesOf, haddr] at hstop
  rw [Contiguous, haddr, haddr', ← BitVec.toNat_inj, BitVec.toNat_add, BitVec.toNat_ofNat]
  rcases hbytes with rfl | rfl
  · rw [Nat.div_one]
    omega
  · omega

/-- A record apart from the last element that passes the test adjoins it. -/
theorem adjoins_of_contiguous (hbytes : addrBytes = 1 ∨ addrBytes = 2)
    (hcells : (bytesOf addrBytes element).cells ≠ [])
    (hapart : Apart (bytesOf addrBytes pPrevElement) (bytesOf addrBytes element))
    (h : Contiguous addrBytes pPrevElement element) :
    Adjoins (bytesOf addrBytes pPrevElement) (bytesOf addrBytes element) := by
  refine (contiguous_iff_adjoins hbytes ?_).mp h
  rcases hapart with hle | hle
  · exact hle
  · -- the record starts no earlier than the element does
    have hlt := start_lt_stop hcells
    have hstart : (bytesOf addrBytes pPrevElement).start ≤ (bytesOf addrBytes element).start := by
      simp only [Contiguous] at h
      simp only [bytesOf, ← h, mul_add]
      have := Int.mul_nonneg (Int.natCast_nonneg addrBytes)
        (Int.natCast_nonneg (pPrevElement.data.length / addrBytes))
      omega
    omega

/-- One more element is one more segment. -/
theorem image_concat (addrBytes : ℕ) (elements : List ImageElement) (element : ImageElement) :
    image addrBytes (elements ++ [element]) =
      image addrBytes elements ++ [bytesOf addrBytes element] := List.map_append

/-- What is apart from all records so far is apart from the elements. -/
theorem StoredImage.apart_of_seen (h : StoredImage addrBytes seen stored) {t : Segment Byte}
    (ht : t.cells ≠ []) (hseen : ∀ s ∈ image addrBytes seen, Apart s t) :
    ∀ s ∈ image addrBytes stored, Apart s t := by
  intro s hs
  refine apart_of_not_holds (h.noneEmpty s hs) ht ?_
  intro a b c hb
  obtain ⟨r, hr, hrb⟩ := (h.holds a b).mp ⟨s, hs, hb⟩
  exact (hseen r hr).not_holds hrb

/-- An element of its own for the record. -/
theorem StoredImage.append (h : StoredImage addrBytes seen stored) (hvalid : ValidData element)
    (hapart : ∀ s ∈ image addrBytes stored, Apart s (bytesOf addrBytes element)) :
    StoredImage addrBytes (seen ++ [element]) (stored ++ [element]) := by
  refine ⟨?_, ?_, ?_, ?_, ?_, ?_⟩
  · rw [image_concat, List.pairwise_append]
    refine ⟨h.apart, List.pairwise_singleton _ _, ?_⟩
    intro s hs t ht
    rw [List.mem_singleton.mp ht]
    exact hapart s hs
  · intro s hs
    rw [image_concat, List.mem_append, List.mem_singleton] at hs
    rcases hs with hs | rfl
    · exact h.noneEmpty s hs
    · exact hvalid.spans.1
  · intro a b
    rw [image_concat, image_concat, holds_append, holds_append, h.holds]
  · simp only [byteCount, List.map_append, List.sum_append]
    exact congrArg (· + _) h.length
  · intro other hother
    rcases List.mem_append.mp hother with hold | hnew
    · exact h.address_lt other hold
    · rw [List.mem_singleton.mp hnew]
      exact hvalid.address_lt
  · intro other hother
    rcases List.mem_append.mp hother with hold | hnew
    · exact h.stop_le other hold
    · rw [List.mem_singleton.mp hnew]
      exact hvalid.spans.2

/-- A copy behind the last element for the record. -/
theorem StoredImage.concat {front : List ImageElement}
    (h : StoredImage addrBytes seen (front ++ [pPrevElement])) (hvalid : ValidData element)
    (hapart : ∀ s ∈ image addrBytes (front ++ [pPrevElement]),
      Apart s (bytesOf addrBytes element))
    (hadj : Adjoins (bytesOf addrBytes pPrevElement) (bytesOf addrBytes element)) :
    StoredImage addrBytes (seen ++ [element])
      (front ++ [{ pPrevElement with data := pPrevElement.data ++ element.data }]) := by
  have hjoin : bytesOf addrBytes { pPrevElement with data := pPrevElement.data ++ element.data } =
      join (bytesOf addrBytes pPrevElement) (bytesOf addrBytes element) := rfl
  have hfront := h.apart
  have hcells := h.noneEmpty
  rw [image_concat] at hfront hcells hapart
  obtain ⟨hpairs, -, hlast⟩ := List.pairwise_append.mp hfront
  refine ⟨?_, ?_, ?_, ?_, ?_, ?_⟩
  · rw [image_concat, hjoin, List.pairwise_append]
    refine ⟨hpairs, List.pairwise_singleton _ _, ?_⟩
    intro s hs t ht
    rw [List.mem_singleton.mp ht]
    exact apart_join hadj (hcells s (List.mem_append_left _ hs))
      (hlast s hs _ (List.mem_singleton_self _)) (hapart s (List.mem_append_left _ hs))
  · intro s hs
    rw [image_concat, hjoin, List.mem_append, List.mem_singleton] at hs
    rcases hs with hs | rfl
    · exact hcells s (List.mem_append_left _ hs)
    · exact join_cells_ne_nil (hcells _ (List.mem_append_right _ (List.mem_singleton_self _)))
  · intro a b
    have hold := h.holds a b
    rw [image_concat, holds_append, holds_cons] at hold
    rw [image_concat, image_concat, hjoin, holds_append, holds_append, holds_cons,
      holds_join hadj, ← hold]
    simp only [holds_cons, holds_nil, or_false, or_assoc]
  · have hold := h.length
    simp only [byteCount, List.map_append, List.sum_append, List.map_singleton, List.sum_singleton,
      List.length_append] at hold ⊢
    omega
  · intro other hother
    rcases List.mem_append.mp hother with hold | hnew
    · exact h.address_lt other (List.mem_append_left _ hold)
    · rw [List.mem_singleton.mp hnew]
      exact h.address_lt pPrevElement (List.mem_append_right _ (List.mem_singleton_self _))
  · intro other hother
    rcases List.mem_append.mp hother with hold | hnew
    · exact h.stop_le other (List.mem_append_left _ hold)
    · rw [List.mem_singleton.mp hnew, hjoin, stop_join hadj]
      exact hvalid.spans.2

/-- A record that overlaps none so far adds its bytes to the image. -/
theorem StoredImage.storeElement (h : StoredImage addrBytes seen stored)
    (hbytes : addrBytes = 1 ∨ addrBytes = 2) (hvalid : ValidData element)
    (hseen : ∀ s ∈ image addrBytes seen, Apart s (bytesOf addrBytes element)) :
    StoredImage addrBytes (seen ++ [element]) (storeElement addrBytes stored element) := by
  have hapart := h.apart_of_seen hvalid.spans.1 hseen
  unfold HexLoader.storeElement
  cases hlast : stored.getLast? with
  | none => exact h.append hvalid hapart
  | some pPrevElement =>
    have hmem : pPrevElement ∈ stored := List.mem_of_mem_getLast? hlast
    have hsplit : stored = stored.dropLast ++ [pPrevElement] :=
      (List.dropLast_append_getLast? pPrevElement hlast).symm
    dsimp only
    split_ifs with htest
    · have hcontiguous := (concatenates_iff hbytes (h.address_lt _ hmem) (h.stop_le _ hmem)
        hvalid.address_lt).mp htest
      have hadj := adjoins_of_contiguous hbytes hvalid.spans.1
        (hapart _ (List.mem_map_of_mem hmem)) hcontiguous
      rw [hsplit] at h hapart
      exact h.concat hvalid hapart hadj
    · exact h.append hvalid hapart

/-- Records that do not overlap, stored one after another, make their image. -/
theorem StoredImage.foldl (h : StoredImage addrBytes seen stored)
    (hbytes : addrBytes = 1 ∨ addrBytes = 2) (hvalid : ∀ element ∈ elements, ValidData element)
    (hapart : (image addrBytes (seen ++ elements)).Pairwise Apart) :
    StoredImage addrBytes (seen ++ elements)
      (elements.foldl (HexLoader.storeElement addrBytes) stored) := by
  induction elements generalizing seen stored with
  | nil => simpa using h
  | cons first elements ih =>
    have hassoc : seen ++ first :: elements = (seen ++ [first]) ++ elements := by simp
    have hfirst : ∀ s ∈ image addrBytes seen, Apart s (bytesOf addrBytes first) := by
      rw [image, List.map_append, List.pairwise_append] at hapart
      intro s hs
      exact hapart.2.2 s hs _ List.mem_cons_self
    have hstep := h.storeElement hbytes (hvalid first List.mem_cons_self) hfirst
    rw [hassoc] at hapart ⊢
    exact ih hstep (fun other hother => hvalid other (List.mem_cons_of_mem _ hother)) hapart

/-- Nothing is held before the first record. -/
theorem storedImage_nil (addrBytes : ℕ) : StoredImage addrBytes [] [] := by
  refine ⟨List.Pairwise.nil, ?_, fun a b => Iff.rfl, rfl, ?_, ?_⟩
  · intro s hs
    cases hs
  · intro element hmem
    cases hmem
  · intro element hmem
    cases hmem

/-- The data loop reads as many bytes as it has rounds. -/
theorem length_scanCharacters (count : ℕ) (character sumVar : BitVec 32) (text : List Char) :
    (scanCharacters count character sumVar text).1.length = count := by
  induction count generalizing character sumVar text with
  | zero => rfl
  | succ count ih =>
    rw [scanCharacters, List.length_cons]
    exact congrArg (· + 1) (ih _ _ _)

/-- `m_DataSize` is the number of bytes loaded so far, in its 32 bits. -/
def SizeCounted (state : LoadState) : Prop :=
  state.mDataSize = BitVec.ofNat 32 (byteCount state.loaded)

/-- The state a pass leaves, if it leaves one, has the property. -/
inductive PassLeaves (P : LoadState → Prop) : Pass → Prop where
  | goOn {rest : List Char} {next : LoadState} : P next → PassLeaves P (.goOn rest next)
  | lastByte {rest : List Char} {next : LoadState} : P next → PassLeaves P (.lastByte rest next)
  | badFile : PassLeaves P .badFile
  | fault : PassLeaves P .fault

/-- A count that is not negative is its number of rounds. -/
theorem ofNat_rounds {count : BitVec 32} (h : ¬count.toInt < 0) :
    BitVec.ofNat 32 (rounds count) = count := by
  have hrounds : rounds count = count.toNat := by
    rw [rounds, BitVec.toInt_eq_toNat_of_lt]
    · exact Int.toNat_natCast _
    · exact BitVec.toInt_pos_iff.mp (not_lt.mp h)
  rw [hrounds, BitVec.ofNat_toNat, BitVec.setWidth_eq]

/-- A data record adds its count. -/
theorem sizeCounted_dataRecord {state : LoadState} (h : SizeCounted state) (addrBytes : ℕ)
    (text : List Char) : PassLeaves SizeCounted (dataRecord addrBytes state text) := by
  have hlength := length_scanCharacters (rounds state.byteCount) state.character
    (state.byteCount + bytesSum state.address) text
  unfold dataRecord
  dsimp only
  split_ifs with hbad hneg
  · exact PassLeaves.badFile
  · exact PassLeaves.fault
  · refine PassLeaves.goOn ?_
    rw [SizeCounted] at h ⊢
    dsimp only
    rw [h, RecordImage.byteCount, RecordImage.byteCount, List.map_append, List.sum_append,
      List.map_singleton, List.sum_singleton, hlength, BitVec.ofNat_add, ofNat_rounds hneg]

section Passes

variable {P : LoadState → Prop}
  (hframe : ∀ state state' : LoadState, state'.mDataSize = state.mDataSize →
    state'.mPElements = state.mPElements → state'.loaded = state.loaded → P state → P state')
  (hdata : ∀ state text, P state → PassLeaves P (dataRecord addrBytes state text))

include hframe hdata

/-- What only looks at the elements and their size is kept if data records keep it. -/
theorem passLeaves_recordBranch {state : LoadState} (h : P state) (text : List Char) :
    PassLeaves P (recordBranch addrBytes state text) := by
  have hstart : ∀ sumVar, PassLeaves P (startRecord state sumVar text) := by
    intro sumVar
    unfold startRecord
    dsimp only
    split_ifs
    · exact PassLeaves.badFile
    · exact PassLeaves.goOn (hframe state _ rfl rfl rfl h)
  unfold recordBranch
  split_ifs
  · exact hdata state text h
  · unfold endRecord
    dsimp only
    split_ifs
    · exact PassLeaves.badFile
    · exact PassLeaves.lastByte (hframe state _ rfl rfl rfl h)
  · unfold segmentRecord
    dsimp only
    split_ifs
    · exact PassLeaves.badFile
    · exact PassLeaves.goOn (hframe state _ rfl rfl rfl h)
  · exact hstart _
  · unfold linearRecord
    dsimp only
    split_ifs
    · exact PassLeaves.badFile
    · exact PassLeaves.goOn (hframe state _ rfl rfl rfl h)
  · exact hstart _
  · exact PassLeaves.badFile

/-- Every pass keeps it. -/
theorem passLeaves_loadPass (state : LoadState) (text : List Char) (h : P state) :
    PassLeaves P (loadPass addrBytes state text) := by
  cases text with
  | nil => exact PassLeaves.lastByte h
  | cons colon text =>
    have hhead : P (recordHead state text).1 := hframe state _ rfl rfl rfl h
    rw [loadPass]
    split_ifs
    · exact passLeaves_recordBranch hframe hdata hhead _
    · exact PassLeaves.goOn h
    · exact PassLeaves.goOn h
    · exact PassLeaves.badFile

end Passes

/-- Every pass keeps the count. -/
theorem sizeCounted_loadPass (addrBytes : ℕ) (state : LoadState) (text : List Char)
    (h : SizeCounted state) : PassLeaves SizeCounted (loadPass addrBytes state text) := by
  refine passLeaves_loadPass ?_ (fun _ _ h => sizeCounted_dataRecord h addrBytes _) state text h
  intro state state' hsize _ hloaded h
  rw [SizeCounted, hsize, hloaded]
  exact h

/-- What every pass keeps holds where the loop ends. -/
theorem recordLoop_leaves {P : LoadState → Prop}
    (hpass : ∀ state text, P state → PassLeaves P (loadPass addrBytes state text))
    {state final : LoadState} {text rest : List Char} (h : P state)
    (hrun : recordLoop addrBytes state text = .accepted rest final) : P final := by
  induction hlen : text.length using Nat.strong_induction_on generalizing state text with
  | h n ih =>
    have hstep := hpass state text h
    rw [recordLoop] at hrun
    split at hrun
    · next rest' next hgo =>
      rw [hgo] at hstep
      cases hstep with
      | goOn hnext => exact ih _ (hlen ▸ length_loadPass_lt hgo) hnext hrun rfl
    · next rest' next hlast =>
      rw [hlast] at hstep
      cases hrun
      cases hstep with
      | lastByte hnext => exact hnext
    · cases hrun
    · cases hrun

/-- An element brings its bytes into the vector, on its own or behind the last one. -/
theorem byteCount_storeElement (addrBytes : ℕ) (elements : List ImageElement)
    (element : ImageElement) :
    byteCount (storeElement addrBytes elements element) =
      byteCount elements + element.data.length := by
  unfold storeElement
  split
  · rw [byteCount, List.map_append, List.sum_append]
    simp [byteCount]
  · next pPrevElement hlast =>
    split_ifs
    · have hsplit : elements = elements.dropLast ++ [pPrevElement] := by
        rw [List.dropLast_append_getLast? pPrevElement hlast]
      conv_rhs => rw [hsplit]
      simp [byteCount, Nat.add_assoc]
    · simp [byteCount]

/-- The vector has as many bytes as were loaded. -/
def AllStored (state : LoadState) : Prop := byteCount state.mPElements = byteCount state.loaded

/-- A data record stores what it loads. -/
theorem allStored_dataRecord {state : LoadState} (h : AllStored state) (addrBytes : ℕ)
    (text : List Char) : PassLeaves AllStored (dataRecord addrBytes state text) := by
  unfold dataRecord
  dsimp only
  split_ifs
  · exact PassLeaves.badFile
  · exact PassLeaves.fault
  · refine PassLeaves.goOn ?_
    rw [AllStored] at h ⊢
    dsimp only
    rw [byteCount_storeElement, h]
    simp [byteCount]

/-- Whatever file is accepted, `m_DataSize` is the number of bytes in the vector,
in its 32 bits. -/
theorem recordLoop_size {content : List Char} {garbage : Scanned} {rest : List Char}
    {state : LoadState}
    (hrun : recordLoop addrBytes (startState garbage) content = .accepted rest state) :
    state.mDataSize = BitVec.ofNat 32 (byteCount state.mPElements) := by
  have hstart : SizeCounted (startState garbage) := rfl
  have hnone : AllStored (startState garbage) := rfl
  have hcounted : SizeCounted state :=
    recordLoop_leaves (sizeCounted_loadPass addrBytes) hstart hrun
  have hstored : AllStored state := by
    refine recordLoop_leaves (passLeaves_loadPass ?_
      fun _ _ h => allStored_dataRecord h addrBytes _) hnone hrun
    intro state state' _ helements hloaded h
    rw [AllStored, helements, hloaded]
    exact h
  rw [hcounted, hstored]

/-- The elements a well-formed file leaves are apart, hold exactly what its data
records say, and have the total length `m_DataSize` counts. -/
theorem recordLoop_image (hbytes : addrBytes = 1 ∨ addrBytes = 2) {content : List Char}
    {records : List HexRecord} (hfile : WellFormed content records)
    (hvalid : ∀ element ∈ loaderElements 0 0 records, ValidData element)
    (hapart : (image addrBytes (loaderElements 0 0 records)).Pairwise Apart) (garbage : Scanned)
    {rest : List Char} {state : LoadState}
    (hrun : recordLoop addrBytes (startState garbage) content = .accepted rest state) :
    (image addrBytes state.mPElements).Pairwise Apart ∧
      (∀ a b, Holds (image addrBytes state.mPElements) a b ↔
        Holds (image addrBytes (loaderElements 0 0 records)) a b) ∧
      state.mDataSize = BitVec.ofNat 32 (byteCount state.mPElements) := by
  have hstart : SizeCounted (startState garbage) := rfl
  have hsize : SizeCounted state :=
    recordLoop_leaves (sizeCounted_loadPass addrBytes) hstart hrun
  have hlines := recordLoop_wellFormed hfile addrBytes garbage
  split_ifs at hlines
  · rw [hrun] at hlines
    cases hlines
  · obtain ⟨rest', final, haccept, hloaded, hstored⟩ := hlines
    rw [hrun] at haccept
    cases haccept
    have himage : StoredImage addrBytes (loaderElements 0 0 records) state.mPElements := by
      have hfold := (storedImage_nil addrBytes).foldl hbytes hvalid hapart
      rw [hstored]
      exact hfold
    refine ⟨himage.apart, himage.holds, ?_⟩
    rw [SizeCounted, hloaded] at hsize
    rw [hsize, himage.length]

/-- Four bytes behind four others that follow them in the file. -/
theorem recordLoop_image_swapped :
    ∃ rest state,
      recordLoop 2 (startState ⟨0, 0, 0, 0, 0⟩) (formatLines swappedRecords) =
          .accepted rest state ∧
        (image 2 state.mPElements).Pairwise Apart ∧
        (∀ a b, Holds (image 2 state.mPElements) a b ↔
          Holds (image 2 (loaderElements 0 0 swappedRecords)) a b) ∧
        state.mDataSize = BitVec.ofNat 32 (byteCount state.mPElements) := by
  have hfile : WellFormed (formatLines swappedRecords) swappedRecords :=
    wellFormed_formatLines (by decide) (by decide)
  have hlines := recordLoop_wellFormed hfile 2 ⟨0, 0, 0, 0, 0⟩
  rw [if_neg (by decide)] at hlines
  obtain ⟨rest, state, haccept, -⟩ := hlines
  refine ⟨rest, state, haccept, recordLoop_image (Or.inr rfl) hfile ?_ (by decide) _ haccept⟩
  intro element hmem
  exact
    { length_pos := (by decide : ∀ element ∈ loaderElements 0 0 swappedRecords,
        1 ≤ element.data.length) element hmem
      length_le := (by decide : ∀ element ∈ loaderElements 0 0 swappedRecords,
        element.data.length ≤ 255) element hmem
      address_lt := (by decide : ∀ element ∈ loaderElements 0 0 swappedRecords,
        element.address.toNat < 2 ^ 31) element hmem }

end RobotOta.RecordImage
