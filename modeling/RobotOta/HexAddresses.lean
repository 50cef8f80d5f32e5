import RobotOta.HexRecords

/-!
# Where the loader places the records of a well-formed file

Three slips keep the loader from the Intel-HEX rule: a 03 record's checksum is
computed with its byte count added twice, the bases of 02 and 04 records are
added up although the later one alone should count, and a record is joined to
the one in front of it when that has ended within an address unit. The files it
places by the rule are described exactly.
-/

namespace RobotOta.HexAddresses

open ScanHex HexLoader HexRecords
open CanFrameCodec (Byte)

/-- A sequence of complete records in lines. -/
inductive HexLines : List Char → List HexRecord → Prop where
  | nil : HexLines [] []
  | lineBreak {c : Char} {text : List Char} {records : List HexRecord} :
    c = '\r' ∨ c = '\n' → HexLines text records → HexLines (c :: text) records
  | record {text rest : List Char} {r : HexRecord} {records : List HexRecord} :
    RecordText text r → HexLines rest records → HexLines (text ++ rest) (r :: records)

/-- The six record types with their standard lengths. -/
def HexRecord.Standard (r : HexRecord) : Prop :=
  r.type ≤ 5 ∧ (r.type = 1 → r.count = 0) ∧ (r.type = 2 ∨ r.type = 4 → r.count = 2) ∧
    (r.type = 3 ∨ r.type = 5 → r.count = 4)

instance (r : HexRecord) : Decidable (HexRecord.Standard r) :=
  inferInstanceAs (Decidable (r.type ≤ 5 ∧ (r.type = 1 → r.count = 0) ∧
    (r.type = 2 ∨ r.type = 4 → r.count = 2) ∧ (r.type = 3 ∨ r.type = 5 → r.count = 4)))

/-- An end record closes the list and stands nowhere else in it. -/
def EndsOnce : List HexRecord → Prop
  | [] => False
  | r :: records => if r.type = 1 then records = [] else EndsOnce records

instance decidableEndsOnce : (records : List HexRecord) → Decidable (EndsOnce records)
  | [] => isFalse id
  | r :: records =>
    have := decidableEndsOnce records
    inferInstanceAs (Decidable (if r.type = 1 then records = [] else EndsOnce records))

/-- A well-formed Intel-HEX file and its records. -/
structure WellFormed (content : List Char) (records : List HexRecord) : Prop where
  /-- The file is made of the lines of the records. -/
  lines : HexLines content records
  /-- The records are those of the standard. -/
  standard : ∀ r ∈ records, HexRecord.Standard r
  /-- Their checksums are right. -/
  checksums : ∀ r ∈ records, r.ChecksumCorrect
  /-- The last one is the only end record. -/
  endsOnce : EndsOnce records

/-- The usual text of a list of records, one on each line. -/
def formatLines (records : List HexRecord) : List Char :=
  records.flatMap fun r => formatRecord r ++ ['\n']

/-- Every list of standard records that ends once has a well-formed file. -/
theorem wellFormed_formatLines {records : List HexRecord}
    (h : ∀ r ∈ records, r.Fits ∧ HexRecord.Standard r ∧ r.ChecksumCorrect)
    (hend : EndsOnce records) : WellFormed (formatLines records) records := by
  refine ⟨?_, fun r hr => (h r hr).2.1, fun r hr => (h r hr).2.2, hend⟩
  clear hend
  induction records with
  | nil => exact HexLines.nil
  | cons r records ih =>
    rw [formatLines, List.flatMap_cons, List.append_assoc]
    refine HexLines.record (recordText_formatRecord (h r List.mem_cons_self).1) ?_
    exact HexLines.lineBreak (Or.inr rfl) (ih fun other hother =>
      h other (List.mem_cons_of_mem _ hother))

/-- The elements the Intel-HEX rule makes of the records: a data record lies
at its offset from the base of the latest base record. -/
def ruleElements : (base : ℕ) → List HexRecord → List ImageElement
  | _, [] => []
  | base, r :: records =>
    if r.type = 0 then
      ⟨BitVec.ofNat 32 (base + r.address), r.data.map (BitVec.ofNat 8)⟩ ::
        ruleElements base records
    else if r.type = 2 then ruleElements (16 * r.baseValue) records
    else if r.type = 4 then ruleElements (65536 * r.baseValue) records
    else ruleElements base records

/-- The elements the loader makes of them, from the two bases. -/
def loaderElements : (segment linear : ℕ) → List HexRecord → List ImageElement
  | _, _, [] => []
  | segment, linear, r :: records =>
    if r.type = 0 then
      r.element (BitVec.ofNat 32 segment) (BitVec.ofNat 32 linear) ::
        loaderElements segment linear records
    else if r.type = 2 then loaderElements r.baseValue linear records
    else if r.type = 4 then loaderElements segment r.baseValue records
    else loaderElements segment linear records

/-- At every data record the base of the kind that was not set last is zero. -/
def BasesClear : (segment linear : ℕ) → (linearLast : Bool) → List HexRecord → Prop
  | _, _, _, [] => True
  | segment, linear, linearLast, r :: records =>
    if r.type = 0 then
      (if linearLast then segment = 0 else linear = 0) ∧
        BasesClear segment linear linearLast records
    else if r.type = 2 then BasesClear r.baseValue linear false records
    else if r.type = 4 then BasesClear segment r.baseValue true records
    else BasesClear segment linear linearLast records

instance decidableBasesClear : (segment linear : ℕ) → (linearLast : Bool) →
    (records : List HexRecord) → Decidable (BasesClear segment linear linearLast records)
  | _, _, _, [] => isTrue trivial
  | segment, linear, linearLast, r :: records =>
    have := decidableBasesClear segment linear linearLast records
    have := decidableBasesClear r.baseValue linear false records
    have := decidableBasesClear segment r.baseValue true records
    inferInstanceAs (Decidable (if r.type = 0 then
        (if linearLast then segment = 0 else linear = 0) ∧
          BasesClear segment linear linearLast records
      else if r.type = 2 then BasesClear r.baseValue linear false records
      else if r.type = 4 then BasesClear segment r.baseValue true records
      else BasesClear segment linear linearLast records))

/-- The place of a byte: an address unit, and which of its bytes it is. -/
abbrev Place := BitVec 32 × ℕ

/-- Bytes from the one with this number on, in address units of so many bytes
behind an address. -/
def placedFrom (addrBytes : ℕ) (address : BitVec 32) (start : ℕ) (data : List Byte) :
    List (Place × Byte) :=
  (data.zipIdx start).map fun byte =>
    ((address + BitVec.ofNat 32 (byte.2 / addrBytes), byte.2 % addrBytes), byte.1)

/-- The bytes of elements, each with its place. -/
def placedBytes (addrBytes : ℕ) (elements : List ImageElement) : List (Place × Byte) :=
  elements.flatMap fun element => placedFrom addrBytes element.address 0 element.data

/-- The loop accepts the file, every data record becomes data at the address
the rule gives, and the bytes in the vector lie byte for byte where the rule
puts them. -/
def PlacedByRule (addrBytes : ℕ) (garbage : Scanned) (content : List Char)
    (records : List HexRecord) : Prop :=
  ∃ rest state, recordLoop addrBytes (startState garbage) content = .accepted rest state ∧
    state.loaded = ruleElements 0 records ∧
    placedBytes addrBytes state.mPElements = placedBytes addrBytes (ruleElements 0 records)

/-- An element with bytes that starts behind the address units of the run in
front of it finds these units whole. A run has an address and a number of bytes. -/
def WholeUnits (addrBytes : ℕ) : (run : Option (BitVec 32 × ℕ)) → List ImageElement → Prop
  | _, [] => True
  | none, element :: elements =>
    WholeUnits addrBytes (some (element.address, element.data.length)) elements
  | some (address, count), element :: elements =>
    if address + BitVec.ofNat 32 (count / addrBytes) = element.address then
      (element.data = [] ∨ addrBytes ∣ count) ∧
        WholeUnits addrBytes (some (address, count + element.data.length)) elements
    else WholeUnits addrBytes (some (element.address, element.data.length)) elements

instance decidableWholeUnits (addrBytes : ℕ) : (run : Option (BitVec 32 × ℕ)) →
    (elements : List ImageElement) → Decidable (WholeUnits addrBytes run elements)
  | _, [] => isTrue (by rw [WholeUnits]; trivial)
  | none, element :: elements =>
    decidableWholeUnits addrBytes (some (element.address, element.data.length)) elements
  | some (address, count), element :: elements =>
    have := decidableWholeUnits addrBytes (some (address, count + element.data.length)) elements
    have := decidableWholeUnits addrBytes (some (element.address, element.data.length)) elements
    inferInstanceAs (Decidable (
      if address + BitVec.ofNat 32 (count / addrBytes) = element.address then
        (element.data = [] ∨ addrBytes ∣ count) ∧
          WholeUnits addrBytes (some (address, count + element.data.length)) elements
      else WholeUnits addrBytes (some (element.address, element.data.length)) elements))

section Placed

variable {addrBytes : ℕ}

theorem placedFrom_append (address : BitVec 32) (start : ℕ) (data more : List Byte) :
    placedFrom addrBytes address start (data ++ more) =
      placedFrom addrBytes address start data ++
        placedFrom addrBytes address (start + data.length) more := by
  rw [placedFrom, List.zipIdx_append, List.map_append]
  rfl

theorem length_placedFrom (address : BitVec 32) (start : ℕ) (data : List Byte) :
    (placedFrom addrBytes address start data).length = data.length := by
  rw [placedFrom, List.length_map, List.length_zipIdx]

theorem placedBytes_append (elements more : List ImageElement) :
    placedBytes addrBytes (elements ++ more) =
      placedBytes addrBytes elements ++ placedBytes addrBytes more :=
  List.flatMap_append

/-- Bytes behind whole units lie as at the address of the next unit, and only there. -/
theorem placedFrom_next_iff (address : BitVec 32) (count : ℕ) (data : List Byte) :
    placedFrom addrBytes address count data =
        placedFrom addrBytes (address + BitVec.ofNat 32 (count / addrBytes)) 0 data ↔
      data = [] ∨ addrBytes ∣ count := by
  constructor
  · intro h
    cases data with
    | nil => exact Or.inl rfl
    | cons byte data =>
      have hhead := congrArg (fun places => places.head?.map fun place => place.1.2) h
      simp only [placedFrom, List.zipIdx_cons, List.map_cons, List.head?_cons, Option.map_some,
        Nat.zero_mod, Option.some.injEq] at hhead
      exact Or.inr (Nat.dvd_of_mod_eq_zero hhead)
  · rintro (rfl | ⟨units, rfl⟩)
    · rfl
    · rw [placedFrom, placedFrom, ← Nat.zero_add (addrBytes * units), List.zipIdx_eq_map_add,
        List.map_map, Nat.zero_add]
      refine List.map_congr_left fun byte _ => ?_
      rcases Nat.eq_zero_or_pos addrBytes with rfl | hpos
      · simp
      · have hdiv : (addrBytes * units + byte.2) / addrBytes =
            addrBytes * units / addrBytes + byte.2 / addrBytes := by
          rw [Nat.mul_add_div hpos, Nat.mul_div_cancel_left _ hpos]
        have hmod : (addrBytes * units + byte.2) % addrBytes = byte.2 % addrBytes :=
          Nat.mul_add_mod_self_left _ _ _
        simp only [Function.comp_apply, hdiv, hmod, BitVec.ofNat_add, BitVec.add_assoc]

/-- The run the next element may continue. -/
def lastRun (stored : List ImageElement) : Option (BitVec 32 × ℕ) :=
  stored.getLast?.map fun element => (element.address, element.data.length)

/-- Storing an element adds its bytes behind those that are there, and at its
own address exactly if it finds whole units. -/
theorem placedBytes_storeElement (stored : List ImageElement) (element : ImageElement)
    (elements : List ImageElement) :
    ∃ added, added.length = element.data.length ∧
      placedBytes addrBytes (storeElement addrBytes stored element) =
        placedBytes addrBytes stored ++ added ∧
      (WholeUnits addrBytes (lastRun stored) (element :: elements) ↔
        added = placedFrom addrBytes element.address 0 element.data ∧
          WholeUnits addrBytes (lastRun (storeElement addrBytes stored element)) elements) := by
  have hone : placedBytes addrBytes [element] =
      placedFrom addrBytes element.address 0 element.data := List.append_nil _
  unfold storeElement
  cases hlast : stored.getLast? with
  | none =>
    refine ⟨_, length_placedFrom _ _ _, by rw [placedBytes_append, hone], ?_⟩
    rw [lastRun, hlast, lastRun, List.getLast?_concat, Option.map_none, Option.map_some,
      WholeUnits, eq_self_iff_true, true_and]
  | some pPrevElement =>
    have hstored : stored = stored.dropLast ++ [pPrevElement] :=
      (List.dropLast_append_getLast? pPrevElement hlast).symm
    have hprev : placedBytes addrBytes [pPrevElement] =
        placedFrom addrBytes pPrevElement.address 0 pPrevElement.data := List.append_nil _
    rw [lastRun, hlast, Option.map_some, WholeUnits]
    dsimp only
    split_ifs with hnext
    · refine ⟨placedFrom addrBytes pPrevElement.address pPrevElement.data.length element.data,
        length_placedFrom _ _ _, ?_, ?_⟩
      · conv_rhs => rw [hstored]
        rw [placedBytes_append, placedBytes_append, hprev, List.append_assoc]
        congr 1
        refine (List.append_nil _).trans ?_
        dsimp only
        rw [placedFrom_append, Nat.zero_add]
      · rw [lastRun, List.getLast?_concat, Option.map_some, List.length_append, ← hnext,
          placedFrom_next_iff]
    · refine ⟨_, length_placedFrom _ _ _, by rw [placedBytes_append, hone], ?_⟩
      rw [lastRun, List.getLast?_concat, Option.map_some, eq_self_iff_true, true_and]

/-- Nothing that is there is moved. -/
theorem placedBytes_prefix (elements stored : List ImageElement) :
    placedBytes addrBytes stored <+:
      placedBytes addrBytes (elements.foldl (storeElement addrBytes) stored) := by
  induction elements generalizing stored with
  | nil => exact List.prefix_refl _
  | cons element elements ih =>
    obtain ⟨added, -, hadded, -⟩ := @placedBytes_storeElement addrBytes stored element elements
    refine List.IsPrefix.trans ?_ (ih _)
    rw [hadded]
    exact List.prefix_append _ _

/-- Elements stored one after another lie where their addresses say exactly if
each finds whole units. -/
theorem placedBytes_foldl_iff (elements stored : List ImageElement) :
    placedBytes addrBytes (elements.foldl (storeElement addrBytes) stored) =
        placedBytes addrBytes stored ++ placedBytes addrBytes elements ↔
      WholeUnits addrBytes (lastRun stored) elements := by
  induction elements generalizing stored with
  | nil =>
    refine iff_of_true (List.append_nil _).symm ?_
    rw [WholeUnits]
    trivial
  | cons element elements ih =>
    obtain ⟨added, hlength, hadded, hwhole⟩ :=
      @placedBytes_storeElement addrBytes stored element elements
    have hcons : placedBytes addrBytes (element :: elements) =
        placedFrom addrBytes element.address 0 element.data ++ placedBytes addrBytes elements := rfl
    rw [hwhole, ← ih, List.foldl_cons, hcons, hadded]
    constructor
    · intro h
      obtain ⟨behind, hbehind⟩ :=
        placedBytes_prefix elements (storeElement addrBytes stored element)
      have hplace : added = placedFrom addrBytes element.address 0 element.data := by
        rw [← hbehind, hadded, List.append_assoc] at h
        have hrest := List.append_cancel_left h
        exact (List.append_inj hrest (hlength.trans (length_placedFrom _ _ _).symm)).1
      exact ⟨hplace, by rw [h, hplace, List.append_assoc]⟩
    · rintro ⟨hplace, h⟩
      rw [h, hplace, List.append_assoc]

end Placed

/-- The value of a base record has 16 bits. -/
theorem baseValue_lt {text : List Char} {r : HexRecord} (h : RecordText text r)
    (htype : r.type = 2 ∨ r.type = 4) : r.baseValue < 65536 := by
  obtain ⟨_, _, _, _, _, -, -, -, -, hdata, -⟩ := h
  rw [DataText, if_neg (by omega), if_pos htype] at hdata
  obtain ⟨value, hvalue, hbytes⟩ := hdata
  have hlt := hvalue.value_lt
  rw [HexRecord.baseValue, hbytes, List.getD_cons_zero, List.getD_cons_succ, List.getD_cons_zero,
    Nat.div_add_mod]
  exact hlt

/-- A standard record with a correct checksum passes the loader's test unless
it is a 03 record. -/
theorem passesTest_iff {r : HexRecord} (hs : HexRecord.Standard r) (hc : r.ChecksumCorrect) :
    r.PassesTest ↔ r.type ≠ 3 := by
  obtain ⟨htype, -, -, hstart⟩ := hs
  unfold HexRecord.ChecksumCorrect at hc
  unfold HexRecord.PassesTest HexRecord.loaderSum
  split_ifs with h3
  · have := hstart (Or.inl h3)
    omega
  · exact ⟨fun _ => h3, fun _ => ⟨htype, hc⟩⟩

/-- A record's own contribution to the loader's elements, and the bases the
records behind it start from. -/
theorem loaderElements_cons {addrBytes : ℕ} {state next : LoadState} {r : HexRecord}
    (hafter : After addrBytes state r next) {segment linear : ℕ}
    (hseg : state.baseAddress = BitVec.ofNat 32 segment)
    (hlin : state.extendedAddress = BitVec.ofNat 32 linear) (records : List HexRecord) :
    ∃ segment' linear', next.baseAddress = BitVec.ofNat 32 segment' ∧
      next.extendedAddress = BitVec.ofNat 32 linear' ∧
      loaderElements segment linear (r :: records) =
        (if r.type = 0 then [r.element state.baseAddress state.extendedAddress] else []) ++
          loaderElements segment' linear' records := by
  rw [hafter.baseAddress, hafter.extendedAddress, hseg, hlin, loaderElements]
  by_cases h0 : r.type = 0
  · refine ⟨segment, linear, if_neg (by omega), if_neg (by omega), ?_⟩
    rw [if_pos h0, if_pos h0]
    rfl
  rw [if_neg h0, if_neg h0]
  by_cases h2 : r.type = 2
  · refine ⟨r.baseValue, linear, if_pos h2, if_neg (by omega), ?_⟩
    rw [if_pos h2]
    rfl
  by_cases h4 : r.type = 4
  · refine ⟨segment, r.baseValue, if_neg h2, if_pos h4, ?_⟩
    rw [if_neg h2, if_pos h4]
    rfl
  refine ⟨segment, linear, if_neg h2, if_neg h4, ?_⟩
  rw [if_neg h2, if_neg h4]
  rfl

/-- On a well-formed sequence the loop turns down the first 03 record, and
without one it accepts and stores its elements one after another. -/
theorem recordLoop_lines (addrBytes : ℕ) {content : List Char} {records : List HexRecord}
    (h : HexLines content records) (hstd : ∀ r ∈ records, HexRecord.Standard r)
    (hcheck : ∀ r ∈ records, r.ChecksumCorrect) (hend : EndsOnce records) {state : LoadState}
    {segment linear : ℕ} (hseg : state.baseAddress = BitVec.ofNat 32 segment)
    (hlin : state.extendedAddress = BitVec.ofNat 32 linear) :
    if ∃ r ∈ records, r.type = 3 then recordLoop addrBytes state content = .rejected
    else ∃ rest next, recordLoop addrBytes state content = .accepted rest next ∧
      next.loaded = state.loaded ++ loaderElements segment linear records ∧
      next.mPElements =
        (loaderElements segment linear records).foldl (storeElement addrBytes)
          state.mPElements := by
  induction h generalizing state segment linear with
  | nil => exact hend.elim
  | @lineBreak c text records hc _ ih =>
    have hcolon : c ≠ ':' := by rintro rfl; revert hc; decide
    have hpass : loadPass addrBytes state (c :: text) = .goOn text state := by
      rw [loadPass, if_neg hcolon, if_pos hc]
    rw [recordLoop_goOn hpass]
    exact ih hstd hcheck hend hseg hlin
  | @record text rest r records htext _ ih =>
    have hpass : RecordPass addrBytes state r rest (loadPass addrBytes state (text ++ rest)) :=
      loadPass_text htext state rest
    have htest := passesTest_iff (hstd r List.mem_cons_self) (hcheck r List.mem_cons_self)
    unfold RecordPass at hpass
    by_cases h3 : r.type = 3
    · rw [if_neg (fun ht => htest.mp ht h3)] at hpass
      rw [if_pos ⟨r, List.mem_cons_self, h3⟩]
      exact recordLoop_badFile hpass
    · rw [if_pos (htest.mpr h3)] at hpass
      obtain ⟨next, hafter, hresult⟩ := hpass
      by_cases h1 : r.type = 1
      · have hnil : records = [] := by
          rwa [EndsOnce, if_pos h1] at hend
        subst hnil
        rw [if_pos h1] at hresult
        rw [if_neg (by simp [h3])]
        have hloaded := hafter.loaded
        have helements := hafter.mPElements
        rw [if_neg (by omega)] at hloaded helements
        refine ⟨rest, next, recordLoop_lastByte hresult, ?_, ?_⟩
        · simp [hloaded, loaderElements, h1]
        · simp [helements, loaderElements, h1]
      · rw [if_neg h1] at hresult
        rw [EndsOnce, if_neg h1] at hend
        rw [recordLoop_goOn hresult]
        have hstd' : ∀ r ∈ records, HexRecord.Standard r :=
          fun other hother => hstd other (List.mem_cons_of_mem _ hother)
        have hcheck' : ∀ r ∈ records, r.ChecksumCorrect :=
          fun other hother => hcheck other (List.mem_cons_of_mem _ hother)
        obtain ⟨segment', linear', hseg', hlin', helems⟩ :=
          loaderElements_cons hafter hseg hlin records
        have hrest := ih hstd' hcheck' hend hseg' hlin'
        have hex : (∃ other ∈ r :: records, other.type = 3) ↔
            ∃ other ∈ records, other.type = 3 := by
          simp [h3]
        by_cases hbad : ∃ other ∈ records, other.type = 3
        · rw [if_pos hbad] at hrest
          rw [if_pos (hex.mpr hbad)]
          exact hrest
        · rw [if_neg hbad] at hrest
          rw [if_neg (hex.not.mpr hbad)]
          obtain ⟨rest', final, hrun, hloaded, hstored⟩ := hrest
          refine ⟨rest', final, hrun, ?_, ?_⟩
          · rw [hloaded, hafter.loaded, helems, List.append_assoc]
          · rw [hstored, hafter.mPElements, helems, List.foldl_append]
            split_ifs <;> rfl

/-- The same for the whole loop on a well-formed file. -/
theorem recordLoop_wellFormed {content : List Char} {records : List HexRecord}
    (h : WellFormed content records) (addrBytes : ℕ) (garbage : Scanned) :
    if ∃ r ∈ records, r.type = 3 then
      recordLoop addrBytes (startState garbage) content = .rejected
    else ∃ rest next, recordLoop addrBytes (startState garbage) content = .accepted rest next ∧
      next.loaded = loaderElements 0 0 records ∧
      next.mPElements = (loaderElements 0 0 records).foldl (storeElement addrBytes) [] := by
  have hseg : (startState garbage).baseAddress = BitVec.ofNat 32 0 := rfl
  have hlin : (startState garbage).extendedAddress = BitVec.ofNat 32 0 := rfl
  exact recordLoop_lines addrBytes h.lines h.standard h.checksums h.endsOnce hseg hlin

/-- Under 16-bit bases the loader's address of a data record is the rule's
exactly when the base of the other kind is zero. -/
theorem element_eq_iff {segment linear : ℕ} (hseg : segment < 65536) (hlin : linear < 65536)
    (linearLast : Bool) (r : HexRecord) :
    r.element (BitVec.ofNat 32 segment) (BitVec.ofNat 32 linear) =
        ⟨BitVec.ofNat 32 ((if linearLast then 65536 * linear else 16 * segment) + r.address),
          r.data.map (BitVec.ofNat 8)⟩ ↔
      if linearLast then segment = 0 else linear = 0 := by
  rw [HexRecord.element, ImageElement.mk.injEq, and_iff_left rfl, ← BitVec.toNat_inj]
  simp only [BitVec.toNat_add, BitVec.toNat_shiftLeft, BitVec.toNat_ofNat, Nat.shiftLeft_eq]
  cases linearLast
  · simp only [Bool.false_eq_true, if_false]
    omega
  · simp only [if_true]
    omega

/-- The loader's elements are the rule's exactly when at every data record the
base of the other kind is zero. -/
theorem loaderElements_eq_iff {content : List Char} {records : List HexRecord}
    (h : HexLines content records) {segment linear : ℕ} (hseg : segment < 65536)
    (hlin : linear < 65536) (linearLast : Bool) :
    loaderElements segment linear records =
        ruleElements (if linearLast then 65536 * linear else 16 * segment) records ↔
      BasesClear segment linear linearLast records := by
  induction h generalizing segment linear linearLast with
  | nil => exact iff_of_true rfl trivial
  | lineBreak _ _ ih => exact ih hseg hlin linearLast
  | @record text rest r records htext _ ih =>
    unfold loaderElements ruleElements BasesClear
    by_cases h0 : r.type = 0
    · rw [if_pos h0, if_pos h0, if_pos h0, List.cons.injEq, element_eq_iff hseg hlin, ih hseg hlin]
    rw [if_neg h0, if_neg h0, if_neg h0]
    by_cases h2 : r.type = 2
    · rw [if_pos h2, if_pos h2, if_pos h2]
      exact ih (baseValue_lt htext (Or.inl h2)) hlin false
    rw [if_neg h2, if_neg h2, if_neg h2]
    by_cases h4 : r.type = 4
    · rw [if_pos h4, if_pos h4, if_pos h4]
      exact ih hseg (baseValue_lt htext (Or.inr h4)) true
    rw [if_neg h4, if_neg h4, if_neg h4]
    exact ih hseg hlin linearLast

/-- The loader accepts a well-formed file and places its data by the rule
exactly when the file has no 03 record, at every data record the base of the
kind that was not set last is zero, and every data record that continues the
ones in front of it finds whole address units there. -/
theorem placedByRule_iff {content : List Char} {records : List HexRecord}
    (h : WellFormed content records) (addrBytes : ℕ) (garbage : Scanned) :
    PlacedByRule addrBytes garbage content records ↔
      (∀ r ∈ records, r.type ≠ 3) ∧ BasesClear 0 0 false records ∧
        WholeUnits addrBytes none (ruleElements 0 records) := by
  have hrun := recordLoop_wellFormed h addrBytes garbage
  have helems := loaderElements_eq_iff h.lines (by omega : 0 < 65536) (by omega : 0 < 65536) false
  by_cases hbad : ∃ r ∈ records, r.type = 3
  · rw [if_pos hbad] at hrun
    constructor
    · rintro ⟨rest, state, haccept, -⟩
      rw [hrun] at haccept
      cases haccept
    · rintro ⟨hnone, -⟩
      obtain ⟨r, hr, htype⟩ := hbad
      exact absurd htype (hnone r hr)
  · rw [if_neg hbad] at hrun
    obtain ⟨rest, next, haccept, hloaded, hstored⟩ := hrun
    have hnone : ∀ r ∈ records, r.type ≠ 3 := fun r hr htype => hbad ⟨r, hr, htype⟩
    constructor
    · rintro ⟨rest', state, haccept', hrule, hplaced⟩
      rw [haccept] at haccept'
      cases haccept'
      have hsame := hloaded.symm.trans hrule
      rw [hstored, hsame] at hplaced
      exact ⟨hnone, helems.mp hsame, (placedBytes_foldl_iff _ []).mp hplaced⟩
    · rintro ⟨-, hclear, hwhole⟩
      have hsame := helems.mpr hclear
      refine ⟨rest, next, haccept, hloaded.trans hsame, ?_⟩
      rw [hstored, hsame]
      exact (placedBytes_foldl_iff _ []).mpr hwhole

/-- A linear base of 0x10000, a word on it, a byte of the next word, and the
end record. -/
def linearRecords : List HexRecord :=
  [⟨2, 0, 4, [0, 1], 0xF9⟩, ⟨2, 0x20, 0, [0x41, 0x42], 0x5B⟩, ⟨1, 0x21, 0, [0x43], 0x9B⟩,
    ⟨0, 0, 1, [], 0xFF⟩]

/-- Behind a single base and whole words they are placed by the rule. -/
theorem placedByRule_linearRecords :
    PlacedByRule 2 ⟨0, 0, 0, 0, 0⟩ (formatLines linearRecords) linearRecords :=
  (placedByRule_iff (wellFormed_formatLines (by decide) (by decide)) 2 ⟨0, 0, 0, 0, 0⟩).mpr
    (by decide)

/-- A start address record, which the loader turns down. -/
def startRecords : List HexRecord := [⟨4, 0, 3, [0, 0, 0x38, 0], 0xC1⟩, ⟨0, 0, 1, [], 0xFF⟩]

/-- A segment base that stays behind when a linear base follows it. -/
def mixedRecords : List HexRecord :=
  [⟨2, 0, 2, [0x10, 0], 0xEC⟩, ⟨2, 0, 4, [0, 1], 0xF9⟩, ⟨1, 0, 0, [0x41], 0xBE⟩,
    ⟨0, 0, 1, [], 0xFF⟩]

/-- Three bytes at word 0, and two at word 1. -/
def oddRecords : List HexRecord :=
  [⟨3, 0, 0, [1, 2, 3], 0xF7⟩, ⟨2, 1, 0, [0xAA, 0xBB], 0x98⟩, ⟨0, 0, 1, [], 0xFF⟩]

/-- Three well-formed files the loader does not place by the rule: it rejects
the one with a start address record, puts the byte of the second at 0x20000
instead of 0x10000, and, in words, the first byte of word 1 of the third into
its second byte. -/
theorem wellFormed_not_placedByRule :
    (WellFormed (formatLines startRecords) startRecords ∧
      ¬PlacedByRule 2 ⟨0, 0, 0, 0, 0⟩ (formatLines startRecords) startRecords) ∧
    (WellFormed (formatLines mixedRecords) mixedRecords ∧
      ¬PlacedByRule 2 ⟨0, 0, 0, 0, 0⟩ (formatLines mixedRecords) mixedRecords) ∧
    WellFormed (formatLines oddRecords) oddRecords ∧
      ¬PlacedByRule 2 ⟨0, 0, 0, 0, 0⟩ (formatLines oddRecords) oddRecords := by
  refine ⟨⟨wellFormed_formatLines (by decide) (by decide), ?_⟩,
    ⟨wellFormed_formatLines (by decide) (by decide), ?_⟩,
    wellFormed_formatLines (by decide) (by decide), ?_⟩
  · rintro ⟨rest, state, haccept, -⟩
    rw [recordLoop_badFile rfl] at haccept
    cases haccept
  · rintro ⟨rest, state, haccept, hloaded, -⟩
    have hrun : ∃ final, recordLoop 2 (startState ⟨0, 0, 0, 0, 0⟩) (formatLines mixedRecords) =
        .accepted ['\n'] final ∧ final.loaded = [⟨0x20000, [0x41]⟩] :=
      ⟨_, (recordLoop_goOn rfl).trans <| (recordLoop_goOn rfl).trans <|
        (recordLoop_goOn rfl).trans <| (recordLoop_goOn rfl).trans <|
        (recordLoop_goOn rfl).trans <| (recordLoop_goOn rfl).trans <| recordLoop_lastByte rfl, rfl⟩
    obtain ⟨final, hfinal, hlist⟩ := hrun
    rw [haccept] at hfinal
    cases hfinal
    rw [hloaded] at hlist
    revert hlist
    decide
  · rintro ⟨rest, state, haccept, -, hplaced⟩
    have hrun : ∃ final, recordLoop 2 (startState ⟨0, 0, 0, 0, 0⟩) (formatLines oddRecords) =
        .accepted ['\n'] final ∧ final.mPElements = [⟨0, [1, 2, 3, 0xAA, 0xBB]⟩] :=
      ⟨_, (recordLoop_goOn rfl).trans <| (recordLoop_goOn rfl).trans <|
        (recordLoop_goOn rfl).trans <| (recordLoop_goOn rfl).trans <| recordLoop_lastByte rfl, rfl⟩
    obtain ⟨final, hfinal, hlist⟩ := hrun
    rw [haccept] at hfinal
    cases hfinal
    rw [hlist] at hplaced
    revert hplaced
    decide

end RobotOta.HexAddresses
