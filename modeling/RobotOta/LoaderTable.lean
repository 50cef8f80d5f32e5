import RobotOta.CheckedMemory
import RobotOta.CanFrameCodec
import Mathlib.Data.List.Induction

/-!
# The table of a loader

A loader of a package has a table of entries. `make_loader_data` looks two of them
up by their names, which it copies into ten cells and hands to `strcmp`. The
buffers are those of `write_loader`, and every load and store is checked against
its own. Fields are little-endian at the offsets of the packed structures.
-/

namespace RobotOta.LoaderTable

open ByteBuffer CanFrameCodec CheckedMemory

/-- The buffers of the two functions. -/
inductive Region where
  | oldLoader
  | newLoader
  | name
  deriving DecidableEq

/-- A computation that stops at an access outside its buffer. -/
abbrev Checked (α : Type) := Except (Overrun Region) α

/-- `MAX_LOADER_LEN`. -/
def maxLoaderLen : ℕ := 256 * 1024

/-- The value of some bytes, the lowest first. -/
def number (bytes : List Byte) : ℕ := bytes.foldr (fun byte rest => byte.toNat + 256 * rest) 0

/-- The bytes of a string, without its NUL. -/
def textBytes (text : String) : List Byte := text.toList.map fun c => BitVec.ofNat 8 c.toNat

/-- A field of `old_loader`. -/
def field (old : List Byte) (place count : ℕ) : Checked ℕ := do
  let bytes ← load Region.oldLoader old place count
  pure (number bytes)

/-- Offsets in `STRUCT_RKBOOT_HEAD`. -/
def versionAt : ℕ := 6
def releaseTimeAt : ℕ := 14
def entryCountAt : ℕ := 37
def entryOffsetAt : ℕ := 38
def entrySizeAt : ℕ := 42

/-- Offsets in `STRUCT_RKBOOT_ENTRY`. -/
def nameAt : ℕ := 5
def dataOffsetAt : ℕ := 45
def dataSizeAt : ℕ := 49
def dataDelayAt : ℕ := 53

/-- The loop that copies every second byte of an entry's name, from byte `j` on
with so many rounds before `j` is 20. -/
def copyName (old : List Byte) (entry : ℕ) : (rounds j : ℕ) → (name : List Byte) →
    Checked (List Byte)
  | 0, _, name => pure name
  | rounds + 1, j, name => do
    let c ← loadCell Region.oldLoader old (entry + nameAt + j)
    if c = 0 then pure name
    else
      let name ← store Region.name name (j / 2) [c]
      copyName old entry rounds (j + 2) name

/-- `strcmp` with a string literal, from a cell on: whether they are equal. -/
def strcmpEqual (name : List Byte) : (index : ℕ) → (literal : List Byte) → Checked Bool
  | index, [] => do
    let c ← loadCell Region.name name index
    pure (c = 0)
  | index, l :: literal => do
    let c ← loadCell Region.name name index
    if c = l then strcmpEqual name (index + 1) literal else pure false

/-- The places of the entries `pFlashDataEntry` and `pFlashBootEntry`. -/
structure Entries where
  /-- The place of `pFlashDataEntry`, null at first. -/
  flashData : Option ℕ
  /-- The place of `pFlashBootEntry`, null at first. -/
  flashBoot : Option ℕ
  deriving DecidableEq

/-- What the loop over the table does with one entry. -/
def lookAtEntry (old : List Byte) (entry : ℕ) (found : Entries) : Checked Entries := do
  let name ← copyName old entry 10 0 (List.replicate 10 0)
  let isData ← strcmpEqual name 0 (textBytes "FlashData")
  if isData then pure { found with flashData := some entry }
  else
    let isBoot ← strcmpEqual name 0 (textBytes "FlashBoot")
    if isBoot then pure { found with flashBoot := some entry } else pure found

/-- The loop over the table. -/
def findEntries (old : List Byte) : (entries : List ℕ) → Entries → Checked Entries
  | [], found => pure found
  | entry :: entries, found => do
    let found ← lookAtEntry old entry found
    findEntries old entries found

/-- The places of the entries of a table. -/
def entryPlaces (count offset size : ℕ) : List ℕ :=
  (List.range count).map fun i => offset + size * i

/-- A byte of the loader, whether or not it lies in the buffer. -/
def byteAt (old : List Byte) (place : ℕ) : Byte := old.getD place 0

/-- A field of the loader, whether or not it lies in the buffer. -/
def fieldAt (old : List Byte) (place count : ℕ) : ℕ := number ((old.drop place).take count)

/-- The characters of an entry's name, from byte `j` on: every second byte, up to
a zero. -/
def nameFrom (old : List Byte) (entry : ℕ) : (rounds j : ℕ) → List Byte
  | 0, _ => []
  | rounds + 1, j =>
    if byteAt old (entry + nameAt + j) = 0 then []
    else byteAt old (entry + nameAt + j) :: nameFrom old entry rounds (j + 2)

/-- The bytes of the name that have to be looked at lie in the buffer. -/
def NameInside (old : List Byte) (entry : ℕ) : (rounds j : ℕ) → Prop
  | 0, _ => True
  | rounds + 1, j =>
    entry + nameAt + j < old.length ∧
      (byteAt old (entry + nameAt + j) ≠ 0 → NameInside old entry rounds (j + 2))

/-- The name of an entry. -/
def entryName (old : List Byte) (entry : ℕ) : List Byte := nameFrom old entry 10 0

/-- The places of the entries of a loader's own table. -/
def tableOf (old : List Byte) : List ℕ :=
  entryPlaces (fieldAt old entryCountAt 1) (fieldAt old entryOffsetAt 4)
    (fieldAt old entrySizeAt 1)

/-- The last entry with a name. -/
def lastNamed (old : List Byte) (name : String) : Option ℕ :=
  (tableOf old).reverse.find? fun entry => entryName old entry = textBytes name

variable {old name : List Byte} {entry place count : ℕ} {found : Entries}

theorem field_eq (h : place + count ≤ old.length) :
    field old place count = .ok (fieldAt old place count) := by
  rw [field, bind_of_ok (load_eq h)]
  rfl

theorem faults_field (hcount : count ≠ 0) (h : old.length < place + count) :
    Faults (field old place count) := faults_bind (faults_load hcount h)

/-- The next character goes behind those copied so far. -/
theorem store_name (done : List Byte) (rounds : ℕ) (c : Byte) :
    store Region.name (done ++ List.replicate (rounds + 1) 0) (2 * done.length / 2) [c] =
      .ok (done ++ [c] ++ List.replicate rounds 0) := by
  have hcell : 2 * done.length / 2 = done.length := by omega
  rw [hcell, store_eq (by simp), memcpy, List.take_left, List.length_singleton,
    List.drop_append, Nat.add_sub_cancel_left, List.replicate_succ]
  simp

/-- The cells of the name behind its characters are zero, and stay so. -/
theorem copyName_eq {rounds : ℕ} (done : List Byte)
    (hinside : NameInside old entry rounds (2 * done.length)) :
    copyName old entry rounds (2 * done.length) (done ++ List.replicate rounds 0) =
      .ok (done ++ nameFrom old entry rounds (2 * done.length) ++
        List.replicate (rounds - (nameFrom old entry rounds (2 * done.length)).length) 0) := by
  induction rounds generalizing done with
  | zero =>
    rw [nameFrom]
    exact congrArg Except.ok (List.append_nil _).symm
  | succ rounds ih =>
    obtain ⟨hbyte, hrest⟩ := hinside
    rw [copyName, bind_of_ok (loadCell_eq 0 hbyte), nameFrom]
    change (if byteAt old (entry + nameAt + 2 * done.length) = 0 then _ else _) = _
    by_cases hzero : byteAt old (entry + nameAt + 2 * done.length) = 0
    · rw [if_pos hzero, if_pos hzero, List.append_nil]
      rfl
    · have hnext : 2 * (done ++ [byteAt old (entry + nameAt + 2 * done.length)]).length =
          2 * done.length + 2 := by
        rw [List.length_append, List.length_singleton]
        omega
      have hih := ih (done ++ [byteAt old (entry + nameAt + 2 * done.length)])
        (by rw [hnext]; exact hrest hzero)
      rw [hnext] at hih
      rw [if_neg hzero, if_neg hzero]
      change (store Region.name _ _ [byteAt old (entry + nameAt + 2 * done.length)] >>= _) = _
      rw [bind_of_ok (store_name done rounds _), hih, List.append_assoc done, List.length_cons,
        Nat.add_sub_add_right]
      rfl

/-- A name that leaves the buffer is an overrun. -/
theorem faults_copyName {rounds : ℕ} (done : List Byte)
    (houtside : ¬NameInside old entry rounds (2 * done.length)) :
    Faults (copyName old entry rounds (2 * done.length) (done ++ List.replicate rounds 0)) := by
  induction rounds generalizing done with
  | zero => exact absurd trivial houtside
  | succ rounds ih =>
    rw [copyName]
    by_cases hbyte : entry + nameAt + 2 * done.length < old.length
    · rw [bind_of_ok (loadCell_eq 0 hbyte)]
      change Faults (if byteAt old (entry + nameAt + 2 * done.length) = 0 then _ else _)
      by_cases hzero : byteAt old (entry + nameAt + 2 * done.length) = 0
      · exact absurd ⟨hbyte, fun hne => absurd hzero hne⟩ houtside
      · have hnext : 2 * (done ++ [byteAt old (entry + nameAt + 2 * done.length)]).length =
            2 * done.length + 2 := by
          rw [List.length_append, List.length_singleton]
          omega
        have hih := ih (done ++ [byteAt old (entry + nameAt + 2 * done.length)])
          (by
            rw [hnext]
            exact fun hrest => houtside ⟨hbyte, fun _ => hrest⟩)
        rw [hnext] at hih
        rw [if_neg hzero]
        change Faults (store Region.name _ _ [byteAt old (entry + nameAt + 2 * done.length)] >>= _)
        rw [bind_of_ok (store_name done rounds _)]
        exact hih
    · exact faults_bind (faults_loadCell (Nat.le_of_not_lt hbyte))

/-- The next cell of a string and what is behind it. -/
theorem loadCell_of_drop {index : ℕ} {c : Byte} {rest : List Byte}
    (hdrop : name.drop index = c :: rest) :
    loadCell Region.name name index = .ok c ∧ name.drop (index + 1) = rest := by
  have hget : name[index]? = some c := by
    have hzero := congrArg (fun block => block[0]?) hdrop
    rwa [List.getElem?_drop, Nat.add_zero, List.getElem?_cons_zero] at hzero
  refine ⟨by rw [loadCell, hget], ?_⟩
  rw [← List.drop_drop, hdrop, List.drop_one, List.tail_cons]

/-- Inside the buffer there is a zero behind the characters. -/
theorem zeros_pos {index zeros : ℕ} (hname : name.drop index = [] ++ List.replicate zeros 0)
    (hindex : index < name.length) : ∃ more, zeros = more + 1 := by
  have hcount := congrArg List.length hname
  rw [List.length_drop, List.nil_append, List.length_replicate] at hcount
  exact ⟨zeros - 1, by omega⟩

/-- `strcmp` stays in a buffer that is longer than the literal, whether or not a
NUL is in it. -/
theorem strcmpEqual_eq {index zeros : ℕ} {chars literal : List Byte}
    (hname : name.drop index = chars ++ List.replicate zeros 0) (hchars : 0 ∉ chars)
    (hliteral : 0 ∉ literal) (hlength : index + literal.length < name.length) :
    strcmpEqual name index literal = .ok (decide (chars = literal)) := by
  induction literal generalizing index chars with
  | nil =>
    rw [strcmpEqual]
    cases chars with
    | nil =>
      obtain ⟨more, rfl⟩ := zeros_pos hname (by omega)
      rw [bind_of_ok (loadCell_of_drop hname).1]
      rfl
    | cons c chars =>
      have hne : c ≠ 0 := fun hzero => hchars (by rw [hzero]; exact List.mem_cons_self)
      rw [bind_of_ok (loadCell_of_drop hname).1, decide_eq_false hne]
      rfl
  | cons l literal ih =>
    rw [List.length_cons] at hlength
    have hl : l ≠ 0 := fun hzero => hliteral (by rw [hzero]; exact List.mem_cons_self)
    rw [strcmpEqual]
    cases chars with
    | nil =>
      obtain ⟨more, rfl⟩ := zeros_pos hname (by omega)
      rw [bind_of_ok (loadCell_of_drop hname).1, if_neg hl.symm]
      rfl
    | cons c chars =>
      obtain ⟨hload, hrest⟩ := loadCell_of_drop hname
      rw [bind_of_ok hload]
      by_cases hsame : c = l
      · rw [if_pos hsame, ih hrest (fun hmem => hchars (List.mem_cons_of_mem _ hmem))
          (fun hmem => hliteral (List.mem_cons_of_mem _ hmem)) (by omega), hsame]
        simp
      · rw [if_neg hsame, decide_eq_false fun h => hsame (List.cons.inj h).1]
        rfl

/-- The characters of a name are not zero, and there are ten at most. -/
theorem nameFrom_nonzero (old : List Byte) (entry rounds j : ℕ) :
    0 ∉ nameFrom old entry rounds j ∧ (nameFrom old entry rounds j).length ≤ rounds := by
  induction rounds generalizing j with
  | zero => exact ⟨List.not_mem_nil, le_rfl⟩
  | succ rounds ih =>
    rw [nameFrom]
    split_ifs with hzero
    · exact ⟨List.not_mem_nil, Nat.zero_le _⟩
    · refine ⟨fun hmem => ?_, Nat.succ_le_succ (ih (j + 2)).2⟩
      rcases List.mem_cons.mp hmem with hhead | hrest
      · exact hzero hhead.symm
      · exact (ih (j + 2)).1 hrest

/-- What an entry of the table is taken for. -/
def pick (old : List Byte) (found : Entries) (entry : ℕ) : Entries :=
  if entryName old entry = textBytes "FlashData" then { found with flashData := some entry }
  else if entryName old entry = textBytes "FlashBoot" then
    { found with flashBoot := some entry }
  else found

/-- An entry whose name lies in the buffer is compared by its name. -/
theorem lookAtEntry_eq (hinside : NameInside old entry 10 0) (found : Entries) :
    lookAtEntry old entry found = .ok (pick old found entry) := by
  have hcopy : copyName old entry 10 0 (List.replicate 10 0) =
      .ok (entryName old entry ++ List.replicate (10 - (entryName old entry).length) 0) :=
    copyName_eq [] hinside
  obtain ⟨hnonzero, hlength⟩ := nameFrom_nonzero old entry 10 0
  have hname : (entryName old entry ++
      List.replicate (10 - (entryName old entry).length) 0).length = 10 := by
    rw [List.length_append, List.length_replicate]
    change (entryName old entry).length ≤ 10 at hlength
    omega
  have hcompare : ∀ text, 0 ∉ textBytes text → (textBytes text).length < 10 →
      strcmpEqual (entryName old entry ++
          List.replicate (10 - (entryName old entry).length) 0) 0 (textBytes text) =
        .ok (decide (entryName old entry = textBytes text)) := by
    intro text htext hshort
    exact strcmpEqual_eq rfl hnonzero htext (by omega)
  rw [lookAtEntry, bind_of_ok hcopy,
    bind_of_ok (hcompare "FlashData" (by decide) (by decide)), pick]
  by_cases hdata : entryName old entry = textBytes "FlashData"
  · rw [decide_eq_true hdata, if_pos hdata]
    rfl
  · rw [decide_eq_false hdata, if_neg hdata, if_neg Bool.false_ne_true,
      bind_of_ok (hcompare "FlashBoot" (by decide) (by decide))]
    by_cases hboot : entryName old entry = textBytes "FlashBoot"
    · rw [decide_eq_true hboot, if_pos hboot]
      rfl
    · rw [decide_eq_false hboot, if_neg hboot]
      rfl

theorem faults_lookAtEntry (houtside : ¬NameInside old entry 10 0) (found : Entries) :
    Faults (lookAtEntry old entry found) :=
  faults_bind (faults_copyName [] houtside)

/-- The loop over a table whose names lie in the buffer picks its entries. -/
theorem findEntries_eq {entries : List ℕ} (hinside : ∀ entry ∈ entries, NameInside old entry 10 0)
    (found : Entries) :
    findEntries old entries found = .ok (entries.foldl (pick old) found) := by
  induction entries generalizing found with
  | nil => rfl
  | cons entry entries ih =>
    rw [findEntries, bind_of_ok (lookAtEntry_eq (hinside entry List.mem_cons_self) found),
      ih fun other hother => hinside other (List.mem_cons_of_mem _ hother)]
    rfl

/-- Any other table leads to an overrun. -/
theorem faults_findEntries {entries : List ℕ}
    (houtside : ¬∀ entry ∈ entries, NameInside old entry 10 0) (found : Entries) :
    Faults (findEntries old entries found) := by
  induction entries generalizing found with
  | nil => exact absurd (fun entry hmem => by cases hmem) houtside
  | cons entry entries ih =>
    rw [findEntries]
    by_cases hfirst : NameInside old entry 10 0
    · rw [bind_of_ok (lookAtEntry_eq hfirst found)]
      refine ih (fun hrest => houtside fun other hother => ?_) _
      rcases List.mem_cons.mp hother with rfl | hmem
      · exact hfirst
      · exact hrest other hmem
    · exact faults_bind (faults_lookAtEntry hfirst found)

/-- The entries that are picked are the last ones with their names. -/
theorem foldl_pick (old : List Byte) (entries : List ℕ) :
    entries.foldl (pick old) ⟨none, none⟩ =
      ⟨entries.reverse.find? fun entry => entryName old entry = textBytes "FlashData",
        entries.reverse.find? fun entry => entryName old entry = textBytes "FlashBoot"⟩ := by
  have hdiffer : textBytes "FlashBoot" ≠ textBytes "FlashData" := by decide
  induction entries using List.reverseRecOn with
  | nil => rfl
  | append_singleton entries entry ih =>
    rw [List.foldl_append, List.foldl_cons, List.foldl_nil, ih, List.reverse_append,
      List.reverse_singleton, List.singleton_append, List.find?_cons, List.find?_cons, pick]
    by_cases hdata : entryName old entry = textBytes "FlashData"
    · have hboot : ¬entryName old entry = textBytes "FlashBoot" :=
        fun hboot => hdiffer (hboot.symm.trans hdata)
      rw [if_pos hdata, decide_eq_true hdata, decide_eq_false hboot]
    · by_cases hboot : entryName old entry = textBytes "FlashBoot"
      · rw [if_neg hdata, if_pos hboot, decide_eq_false hdata, decide_eq_true hboot]
      · rw [if_neg hdata, if_neg hboot, decide_eq_false hdata, decide_eq_false hboot]

end RobotOta.LoaderTable
