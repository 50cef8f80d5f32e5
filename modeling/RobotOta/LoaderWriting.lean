import RobotOta.LoaderConversion
import RobotOta.ImageCopy

/-!
# Writing the loader of a package

`write_loader` reads the loader item into `old_loader`, has a new kind of loader
converted, writes the result and compares it with what can be read back. Its one
check in front is about the item's place in the package. `ssize_t` and `unsigned int` have
32 bits, so a failed read is no different from one of 0xFFFFFFFF bytes.
-/

namespace RobotOta.LoaderWriting

open ByteBuffer CanFrameCodec CheckedMemory ImageCopy LoaderTable LoaderConversion

/-- What the system calls of `write_loader` come back with. -/
structure LoaderCalls where
  /-- What `open` returns for the package. -/
  fdSrc : Int
  /-- The most bytes that the read of the package gets, or nothing when it fails. -/
  mostRead : Option ℕ
  /-- What `open` returns for the destination. -/
  fdDest : Int
  /-- What `write` returns. -/
  written : Int
  /-- What can be read back from the destination, or nothing when that fails. -/
  readBack : Option (List Byte)

/-- `write_loader` behind the conversion; without a new loader `buff` is
`old_loader` itself. -/
def storeLoader (calls : LoaderCalls) (old : List Byte) (new : Option (List Byte))
    (newLoaderSize : ℕ) : Checked Int := do
  if calls.fdDest < 0 then pure (-6)
  else
    let region := if new.isSome then Region.newLoader else Region.oldLoader
    let _ ← load region (new.getD old) 0 newLoaderSize
    if calls.written ≠ newLoaderSize then pure (-7)
    else
      match calls.readBack with
      | none => pure (-8)
      | some bytes => do
        let back := bytes.take newLoaderSize
        let old ← store Region.oldLoader old 0 back
        if back.length ≠ newLoaderSize then pure (-8)
        else
          let first ← load Region.oldLoader old 0 newLoaderSize
          let second ← load region (new.getD old) 0 newLoaderSize
          if first ≠ second then pure (-9) else pure 0

/-- The tag of a loader that is converted. -/
def bootTag : ℕ := 0x544F4F42

/-- What `old_loader` and `new_loader` hold at first. -/
def zeroLoader : List Byte := List.replicate maxLoaderLen 0

/-- The `read` of the package, for an item of this size: what it returns, as it is
compared with the size, and the bytes it gets. -/
def readItem (calls : LoaderCalls) (content : List Byte) (size : BitVec 32) :
    BitVec 32 × List Byte :=
  match calls.mostRead with
  | none => (BitVec.ofInt 32 (-1), [])
  | some most =>
    let got := (content.take size.toNat).take most
    (BitVec.ofNat 32 got.length, got)

/-- `write_loader` behind `FindItem`; `content` is what the package holds from the
item's place on. -/
def writeLoader (calls : LoaderCalls) (content : List Byte) (pItem : ImageItem) :
    Checked Int := do
  if pItem.offset.toNat > maxLoaderLen then pure (-2)
  else if calls.fdSrc ≤ 0 then pure (-3)
  else do
    let (ret, got) := readItem calls content pItem.size
    let old ← store Region.oldLoader zeroLoader 0 got
    if ret ≠ pItem.size then pure (-4)
    else
      let tag ← field old 0 4
      if tag = bootTag then
        match ← makeLoaderData old zeroLoader with
        | none => pure (-5)
        | some (new, newLoaderSize) => storeLoader calls old (some new) newLoaderSize
      else storeLoader calls old none pItem.size.toNat

/-- What `old_loader` holds when the item has been read as a whole. -/
def oldLoader (content : List Byte) (size : ℕ) : List Byte :=
  memcpy zeroLoader 0 (content.take size)

/-- A loader that is converted. -/
def NewLoader (old : List Byte) : Prop := fieldAt old 0 4 = bootTag

instance (old : List Byte) : Decidable (NewLoader old) := inferInstanceAs (Decidable (_ = _))

/-- A loader that is there as a whole is converted inside the buffers. -/
def WholeFits (content : List Byte) (size : ℕ) : Prop :=
  size ≤ content.length → NewLoader (oldLoader content size) →
    ConversionFits (oldLoader content size)

/-- What can be read of the item lies inside the buffers, and so does what is done
with it. -/
def InBuffers (content : List Byte) (size : ℕ) : Prop :=
  min size content.length ≤ maxLoaderLen ∧ WholeFits content size

/-- The loader fits into the buffers. -/
def LoaderFits (content : List Byte) (size : ℕ) : Prop :=
  size ≤ maxLoaderLen ∧ WholeFits content size

/-- The item is there as a whole, with both entries where it is converted. -/
def LoaderWhole (content : List Byte) (size : ℕ) : Prop :=
  size ≤ content.length ∧ (NewLoader (oldLoader content size) →
    lastNamed (oldLoader content size) "FlashData" ≠ none ∧
      lastNamed (oldLoader content size) "FlashBoot" ≠ none)

/-- Whatever the system calls come back with, `write_loader` stays inside its
buffers and refuses a loader that does not fit, and it does not refuse a loader that
fits and that it takes from the start of a package. -/
structure LoaderSafe (content : List Byte) (pItem : ImageItem) : Prop where
  /-- No access leaves a buffer. -/
  inside : ∀ calls, ∃ ret, writeLoader calls content pItem = .ok ret
  /-- A loader that does not fit is refused. -/
  refused : ¬LoaderFits content pItem.size.toNat →
    ∀ calls ret, writeLoader calls content pItem = .ok ret → ret < 0
  /-- A loader that fits is treated the same at any offset. -/
  accepted : LoaderFits content pItem.size.toNat →
    ∀ calls, writeLoader calls content { pItem with offset := 0 } = .ok 0 →
      writeLoader calls content pItem = .ok 0

variable {old content : List Byte} {pItem : ImageItem} {calls : LoaderCalls} {size most : ℕ}

theorem length_zeroLoader : zeroLoader.length = maxLoaderLen := List.length_replicate

theorem length_oldLoader (content : List Byte) (hsize : size ≤ maxLoaderLen) :
    (oldLoader content size).length = maxLoaderLen := by
  have htake : (content.take size).length ≤ size := List.length_take_le _ _
  have hzero := length_zeroLoader
  rw [oldLoader, length_memcpy (by omega), hzero]

/-- Two buffers of the full length are enough for what comes behind the conversion. -/
theorem storeLoader_ok {newSize : ℕ} (calls : LoaderCalls) (block : Option (List Byte))
    (hold : old.length = maxLoaderLen) (hblock : (block.getD old).length = maxLoaderLen)
    (hsize : newSize ≤ maxLoaderLen) : ∃ ret, storeLoader calls old block newSize = .ok ret := by
  rw [storeLoader]
  split
  · exact ⟨-6, rfl⟩
  · rw [bind_of_ok (load_eq (by omega))]
    split
    · exact ⟨-7, rfl⟩
    · split
      · exact ⟨-8, rfl⟩
      · rename_i bytes _
        have hback : (bytes.take newSize).length ≤ newSize := List.length_take_le _ _
        have hread : (memcpy old 0 (bytes.take newSize)).length = maxLoaderLen := by
          rw [length_memcpy (by omega), hold]
        have hsecond : (block.getD (memcpy old 0 (bytes.take newSize))).length =
            maxLoaderLen := by
          cases block with
          | none => exact hread
          | some block => exact hblock
        dsimp only
        rw [bind_of_ok (store_eq (by omega))]
        split
        · exact ⟨-8, rfl⟩
        · rw [bind_of_ok (load_eq (by omega)), bind_of_ok (load_eq (by omega))]
          split
          · exact ⟨-9, rfl⟩
          · exact ⟨0, rfl⟩

/-- It is a success when the device takes the loader and gives it back. -/
theorem storeLoader_zero {newSize : ℕ} (block : Option (List Byte))
    (hold : old.length = maxLoaderLen) (hblock : (block.getD old).length = maxLoaderLen)
    (hsize : newSize ≤ maxLoaderLen) (hdest : ¬calls.fdDest < 0)
    (hwritten : calls.written = newSize)
    (hback : calls.readBack = some ((block.getD old).take newSize)) :
    storeLoader calls old block newSize = .ok 0 := by
  have hlength : ((block.getD old).take newSize).length = newSize := by
    rw [List.length_take]
    omega
  have hread : (memcpy old 0 ((block.getD old).take newSize)).length = maxLoaderLen := by
    rw [length_memcpy (by omega), hold]
  have hfirst : (memcpy old 0 ((block.getD old).take newSize)).take newSize =
      (block.getD old).take newSize := by
    rw [take_memcpy_zero_le (by omega), List.take_of_length_le (by omega)]
  have hsecond : (block.getD (memcpy old 0 ((block.getD old).take newSize))).length =
        maxLoaderLen ∧
      (block.getD (memcpy old 0 ((block.getD old).take newSize))).take newSize =
        (block.getD old).take newSize := by
    cases block with
    | none => exact ⟨hread, hfirst⟩
    | some block => exact ⟨hblock, rfl⟩
  have htwice : ((block.getD old).take newSize).take newSize = (block.getD old).take newSize := by
    rw [List.take_take, Nat.min_self]
  rw [storeLoader, if_neg hdest, bind_of_ok (load_eq (by omega)), if_neg (not_not.mpr hwritten),
    hback]
  dsimp only
  rw [htwice, bind_of_ok (store_eq (by omega)), if_neg (not_not.mpr hlength),
    bind_of_ok (load_eq (by omega)), bind_of_ok (load_eq (by omega)), List.drop_zero,
    List.drop_zero, hfirst, hsecond.2, if_neg (not_not.mpr rfl)]
  rfl

theorem writeLoader_far (calls : LoaderCalls) (content : List Byte)
    (h : maxLoaderLen < pItem.offset.toNat) : writeLoader calls content pItem = .ok (-2) := by
  rw [writeLoader, if_pos h]
  rfl

/-- The size that a failed read is taken for. -/
def failedSize : BitVec 32 := 0xFFFFFFFF

/-- A failed read gets nothing. -/
theorem readItem_failed (hread : calls.mostRead = none) {content : List Byte}
    {size : BitVec 32} : readItem calls content size = (failedSize, []) := by
  rw [readItem, hread]
  rfl

/-- A read that does not fail is compared by the number of its bytes. -/
theorem readItem_fst (hread : calls.mostRead = some most) (content : List Byte)
    (size : BitVec 32) :
    (readItem calls content size).1 = size ↔
      ((content.take size.toNat).take most).length = size.toNat := by
  have hsize : ((content.take size.toNat).take most).length ≤ size.toNat :=
    (List.length_take_le' _ _).trans (List.length_take_le _ _)
  have hlt : ((content.take size.toNat).take most).length < 2 ^ 32 :=
    lt_of_le_of_lt hsize size.isLt
  rw [readItem, hread]
  dsimp only
  rw [← BitVec.toNat_inj, BitVec.toNat_ofNat, Nat.mod_eq_of_lt hlt]

/-- A read that gets less than the item is refused. -/
theorem writeLoader_short (hnear : ¬maxLoaderLen < pItem.offset.toNat) (hsrc : ¬calls.fdSrc ≤ 0)
    (hread : calls.mostRead = some most)
    (hinside : ((content.take pItem.size.toNat).take most).length ≤ maxLoaderLen)
    (hshort : ((content.take pItem.size.toNat).take most).length ≠ pItem.size.toNat) :
    writeLoader calls content pItem = .ok (-4) := by
  have hzero := length_zeroLoader
  have hret : (readItem calls content pItem.size).1 ≠ pItem.size :=
    mt (readItem_fst hread content pItem.size).mp hshort
  have hgot : (readItem calls content pItem.size).2 =
      (content.take pItem.size.toNat).take most := by
    rw [readItem, hread]
  rw [writeLoader, if_neg hnear, if_neg hsrc]
  dsimp only
  rw [hgot, bind_of_ok (store_eq (by omega)), if_pos hret]
  rfl

/-- What is done with a loader that has been read as a whole. -/
def storeWhole (calls : LoaderCalls) (old : List Byte) (size : ℕ) : Checked Int :=
  if NewLoader old then
    makeLoaderData old zeroLoader >>= fun made =>
      match made with
      | none => .ok (-5)
      | some (new, newLoaderSize) => storeLoader calls old (some new) newLoaderSize
  else storeLoader calls old none size

/-- Without one of the entries there is no new loader, and with both there is one. -/
theorem storeWhole_new (hold : old.length = maxLoaderLen) (htag : NewLoader old)
    (hfits : ConversionFits old) (size : ℕ) :
    (lastNamed old "FlashData" = none ∨ lastNamed old "FlashBoot" = none) ∧
        (∀ calls, storeWhole calls old size = .ok (-5)) ∨
      (lastNamed old "FlashData" ≠ none ∧ lastNamed old "FlashBoot" ≠ none) ∧
        ∃ built newSize, built.length = maxLoaderLen ∧ newSize ≤ maxLoaderLen ∧
          ∀ calls, storeWhole calls old size = storeLoader calls old (some built) newSize := by
  rcases makeLoaderData_eq hold length_zeroLoader hfits with
    ⟨hmissing, hnothing⟩ | ⟨hdata, hboot, built, newSize, hmade, hlength, hroom⟩
  · refine Or.inl ⟨hmissing, fun calls => ?_⟩
    rw [storeWhole, if_pos htag, bind_of_ok hnothing]
  · refine Or.inr ⟨⟨hdata, hboot⟩, built, newSize, hlength, hroom, fun calls => ?_⟩
    rw [storeWhole, if_pos htag, bind_of_ok hmade]

/-- A read that gets all of the item goes on by the item's tag. -/
theorem writeLoader_whole (hnear : ¬maxLoaderLen < pItem.offset.toNat)
    (hsrc : ¬calls.fdSrc ≤ 0) (hread : calls.mostRead = some most)
    (hsize : pItem.size.toNat ≤ maxLoaderLen)
    (hall : (content.take pItem.size.toNat).take most = content.take pItem.size.toNat)
    (hwhole : pItem.size.toNat ≤ content.length) :
    writeLoader calls content pItem =
      storeWhole calls (oldLoader content pItem.size.toNat) pItem.size.toNat := by
  have hzero := length_zeroLoader
  have hlength : (content.take pItem.size.toNat).length = pItem.size.toNat := by
    rw [List.length_take]
    omega
  have hold := length_oldLoader content hsize
  have htag : field (oldLoader content pItem.size.toNat) 0 4 =
      .ok (fieldAt (oldLoader content pItem.size.toNat) 0 4) := by
    apply field_eq
    rw [hold]
    decide
  have hret : (readItem calls content pItem.size).1 = pItem.size := by
    rw [readItem_fst hread, hall, hlength]
  have hgot : (readItem calls content pItem.size).2 = content.take pItem.size.toNat := by
    rw [readItem, hread]
    exact hall
  rw [writeLoader, if_neg hnear, if_neg hsrc]
  dsimp only
  rw [hgot, bind_of_ok (store_eq (by omega)), if_neg (not_not.mpr hret)]
  change (field (oldLoader content pItem.size.toNat) 0 4 >>= _) = _
  rw [bind_of_ok htag]
  rfl

/-- A failed read of the one size it is taken for goes on with a loader of zeros, and
over the ends of both buffers. -/
theorem faults_writeLoader_failed (hnear : ¬maxLoaderLen < pItem.offset.toNat)
    (hfailed : pItem.size = failedSize) (content : List Byte) :
    Faults (writeLoader ⟨3, none, 4, 0, none⟩ content pItem) := by
  have hzero := length_zeroLoader
  have hopen : ¬(3 : Int) ≤ 0 := by decide
  have hdest : ¬(4 : Int) < 0 := by decide
  have htag : field zeroLoader 0 4 = .ok 0 := by
    rw [field_eq (by rw [hzero]; decide), fieldAt, zeroLoader, List.drop_zero,
      List.take_replicate]
    rfl
  have hlong : Faults (load Region.oldLoader zeroLoader 0 pItem.size.toNat) := by
    rw [hfailed]
    exact faults_load (by decide) (by rw [hzero]; decide)
  rw [writeLoader, if_neg hnear, if_neg hopen, readItem_failed rfl]
  dsimp only
  rw [bind_of_ok (store_nil _ _ _), if_neg (not_not.mpr hfailed.symm), bind_of_ok htag,
    if_neg (by decide), storeLoader, if_neg hdest]
  exact faults_bind hlong

/-- Near the start of the package `write_loader` refuses an item that it does not get
as a whole. -/
theorem writeLoader_cases (hnear : ¬maxLoaderLen < pItem.offset.toNat)
    (hread : pItem.size ≠ failedSize)
    (hmin : min pItem.size.toNat content.length ≤ maxLoaderLen) (calls : LoaderCalls) :
    (∃ ret, writeLoader calls content pItem = .ok ret ∧ ret < 0) ∨
      pItem.size.toNat ≤ content.length ∧ writeLoader calls content pItem =
        storeWhole calls (oldLoader content pItem.size.toNat) pItem.size.toNat := by
  by_cases hsrc : calls.fdSrc ≤ 0
  · refine Or.inl ⟨-3, ?_, by decide⟩
    rw [writeLoader, if_neg hnear, if_pos hsrc]
    rfl
  cases hmost : calls.mostRead with
  | none =>
    refine Or.inl ⟨-4, ?_, by decide⟩
    rw [writeLoader, if_neg hnear, if_neg hsrc, readItem_failed hmost]
    dsimp only
    rw [bind_of_ok (store_nil _ _ _), if_pos hread.symm]
    rfl
  | some most =>
    have htake : (content.take pItem.size.toNat).length = min pItem.size.toNat content.length :=
      List.length_take
    have hgot : ((content.take pItem.size.toNat).take most).length ≤
        (content.take pItem.size.toNat).length := List.length_take_le' _ _
    by_cases hall : ((content.take pItem.size.toNat).take most).length = pItem.size.toNat
    · have hwhole : pItem.size.toNat ≤ content.length := by omega
      have hsame : (content.take pItem.size.toNat).take most =
          content.take pItem.size.toNat := by
        apply List.take_of_length_le
        rw [List.length_take] at hall
        omega
      exact Or.inr ⟨hwhole, writeLoader_whole hnear hsrc hmost (by omega) hsame hwhole⟩
    · exact Or.inl ⟨-4, writeLoader_short hnear hsrc hmost (by omega) hall, by decide⟩

/-- In the buffers `write_loader` always comes to its end, and it refuses what does
not fit. -/
theorem writeLoader_ok (hnear : ¬maxLoaderLen < pItem.offset.toNat)
    (hread : pItem.size ≠ failedSize) (hinside : InBuffers content pItem.size.toNat)
    (calls : LoaderCalls) :
    ∃ ret, writeLoader calls content pItem = .ok ret ∧
      (ret < 0 ∨ LoaderFits content pItem.size.toNat) := by
  obtain ⟨hmin, hconversion⟩ := hinside
  rcases writeLoader_cases hnear hread hmin calls with ⟨ret, hret, hneg⟩ | ⟨hwhole, hstored⟩
  · exact ⟨ret, hret, Or.inl hneg⟩
  have hsize : pItem.size.toNat ≤ maxLoaderLen := by omega
  have hold := length_oldLoader content hsize
  rw [hstored]
  by_cases htag : NewLoader (oldLoader content pItem.size.toNat)
  · rcases storeWhole_new hold htag (hconversion hwhole htag) pItem.size.toNat with
      ⟨-, hnothing⟩ | ⟨-, built, newSize, hlength, hroom, hmade⟩
    · exact ⟨-5, hnothing calls, Or.inl (by decide)⟩
    · obtain ⟨ret, hret⟩ := storeLoader_ok calls (some built) hold hlength hroom
      exact ⟨ret, (hmade calls).trans hret, Or.inr ⟨hsize, hconversion⟩⟩
  · obtain ⟨ret, hret⟩ := storeLoader_ok calls none hold hold hsize
    rw [storeWhole, if_neg htag]
    exact ⟨ret, hret, Or.inr ⟨hsize, hconversion⟩⟩

/-- Outside the buffers some run of it is an overrun. -/
theorem faults_writeLoader (hnear : ¬maxLoaderLen < pItem.offset.toNat)
    (houtside : ¬InBuffers content pItem.size.toNat) :
    ∃ calls, Faults (writeLoader calls content pItem) := by
  have hzero := length_zeroLoader
  have hopen : ¬(3 : Int) ≤ 0 := by decide
  have hall : (content.take pItem.size.toNat).take pItem.size.toNat =
      content.take pItem.size.toNat := by
    rw [List.take_take, Nat.min_self]
  refine ⟨⟨3, some pItem.size.toNat, 4, 0, none⟩, ?_⟩
  by_cases hmin : min pItem.size.toNat content.length ≤ maxLoaderLen
  · obtain ⟨hwhole, htag, hfits⟩ : pItem.size.toNat ≤ content.length ∧
        NewLoader (oldLoader content pItem.size.toNat) ∧
          ¬ConversionFits (oldLoader content pItem.size.toNat) := by
      by_contra hno
      refine houtside ⟨hmin, fun hwhole htag => ?_⟩
      by_contra hfits
      exact hno ⟨hwhole, htag, hfits⟩
    have hsize : pItem.size.toNat ≤ maxLoaderLen := by omega
    rw [writeLoader_whole hnear hopen rfl hsize hall hwhole, storeWhole, if_pos htag]
    exact faults_bind (faults_makeLoaderData (length_oldLoader content hsize) hzero hfits)
  · have htake : (content.take pItem.size.toNat).length =
        min pItem.size.toNat content.length := List.length_take
    have hpos : maxLoaderLen ≠ 0 := by decide
    have hnonempty : content.take pItem.size.toNat ≠ [] := by
      intro hnil
      rw [hnil, List.length_nil] at htake
      omega
    rw [writeLoader, if_neg hnear, if_neg hopen]
    dsimp only [readItem]
    rw [hall]
    exact faults_bind (faults_store hnonempty (by omega))

/-- A loader that fits and is there as a whole can be written from the start of a
package. -/
theorem writeLoader_zero (hfits : LoaderFits content pItem.size.toNat)
    (hwhole : LoaderWhole content pItem.size.toNat) :
    ∃ calls, writeLoader calls content { pItem with offset := 0 } = .ok 0 := by
  obtain ⟨hsize, hconversion⟩ := hfits
  obtain ⟨hlength, hentries⟩ := hwhole
  have hold := length_oldLoader content hsize
  have hopen : ¬(3 : Int) ≤ 0 := by decide
  have hdest : ¬(4 : Int) < 0 := by decide
  have hnear : ¬maxLoaderLen < ({ pItem with offset := 0 } : ImageItem).offset.toNat :=
    Nat.not_lt_zero _
  have hall : (content.take pItem.size.toNat).take pItem.size.toNat =
      content.take pItem.size.toNat := by
    rw [List.take_take, Nat.min_self]
  by_cases htag : NewLoader (oldLoader content pItem.size.toNat)
  · rcases storeWhole_new hold htag (hconversion hlength htag) pItem.size.toNat with
      ⟨hmissing, -⟩ | ⟨-, built, newSize, hbuilt, hroom, hmade⟩
    · rcases hmissing with hdata | hboot
      · exact absurd hdata (hentries htag).1
      · exact absurd hboot (hentries htag).2
    · refine ⟨⟨3, some pItem.size.toNat, 4, newSize, some (built.take newSize)⟩, ?_⟩
      rw [writeLoader_whole hnear hopen rfl hsize hall hlength, hmade]
      exact storeLoader_zero (some built) hold hbuilt hroom hdest rfl rfl
  · refine ⟨⟨3, some pItem.size.toNat, 4, pItem.size.toNat,
      some ((oldLoader content pItem.size.toNat).take pItem.size.toNat)⟩, ?_⟩
    rw [writeLoader_whole hnear hopen rfl hsize hall hlength, storeWhole, if_neg htag]
    exact storeLoader_zero none hold hold hsize hdest rfl rfl

/-- Nothing else is written from there. -/
theorem loaderWhole_of_zero (hfits : LoaderFits content pItem.size.toNat)
    (hsuccess : writeLoader calls content { pItem with offset := 0 } = .ok 0) :
    LoaderWhole content pItem.size.toNat := by
  obtain ⟨hsize, hconversion⟩ := hfits
  have hold := length_oldLoader content hsize
  have hnear : ¬maxLoaderLen < ({ pItem with offset := 0 } : ImageItem).offset.toNat :=
    Nat.not_lt_zero _
  have hmin : min pItem.size.toNat content.length ≤ maxLoaderLen := by omega
  have hread : pItem.size ≠ failedSize := by
    intro hfailed
    rw [hfailed] at hsize
    revert hsize
    decide
  rcases writeLoader_cases hnear hread hmin calls with ⟨ret, hret, hneg⟩ | ⟨hwhole, hstored⟩
  · rw [hret] at hsuccess
    cases hsuccess
    exact absurd hneg (Int.lt_irrefl 0)
  refine ⟨hwhole, fun htag => ?_⟩
  rcases storeWhole_new hold htag (hconversion hwhole htag) pItem.size.toNat with
    ⟨-, hnothing⟩ | ⟨hentries, -⟩
  · rw [hstored, hnothing calls] at hsuccess
    cases hsuccess
  · exact hentries

/-- Near the start of the package its place makes no difference. -/
theorem writeLoader_near (calls : LoaderCalls) (content : List Byte)
    (hnear : ¬maxLoaderLen < pItem.offset.toNat) :
    writeLoader calls content pItem = writeLoader calls content { pItem with offset := 0 } := by
  have hstart : ¬maxLoaderLen < ({ pItem with offset := 0 } : ImageItem).offset.toNat :=
    Nat.not_lt_zero _
  rw [writeLoader, writeLoader, if_neg hnear, if_neg hstart]

/-- `write_loader` is safe exactly where it looks at the item, no failed read is taken
for the whole item and what can be read of it lies inside the buffers, or where it
refuses, by its place, a loader that it could not have written anyway. -/
theorem loaderSafe_iff (content : List Byte) (pItem : ImageItem) :
    LoaderSafe content pItem ↔
      pItem.offset.toNat ≤ maxLoaderLen ∧ pItem.size ≠ failedSize ∧
          InBuffers content pItem.size.toNat ∨
        maxLoaderLen < pItem.offset.toNat ∧
          ¬(LoaderFits content pItem.size.toNat ∧ LoaderWhole content pItem.size.toNat) := by
  rcases Nat.lt_or_ge maxLoaderLen pItem.offset.toNat with hfar | hnear
  · have hrefuse := fun calls => writeLoader_far calls content hfar
    constructor
    · intro hsafe
      refine Or.inr ⟨hfar, fun ⟨hfits, hwhole⟩ => ?_⟩
      obtain ⟨calls, hzero⟩ := writeLoader_zero hfits hwhole
      have hsame := hsafe.accepted hfits calls hzero
      rw [hrefuse calls] at hsame
      cases hsame
    · rintro (⟨hnear, -⟩ | ⟨-, hno⟩)
      · exact absurd hfar (Nat.not_lt_of_le hnear)
      · refine ⟨fun calls => ⟨-2, hrefuse calls⟩, fun _ calls ret hret => ?_,
          fun hfits calls hzero => ?_⟩
        · rw [hrefuse calls] at hret
          cases hret
          decide
        · exact absurd ⟨hfits, loaderWhole_of_zero hfits hzero⟩ hno
  · have hnot : ¬maxLoaderLen < pItem.offset.toNat := Nat.not_lt_of_le hnear
    constructor
    · intro hsafe
      have hnever : ∀ calls, ¬Faults (writeLoader calls content pItem) := by
        intro calls hfault
        obtain ⟨ret, hret⟩ := hsafe.inside calls
        rw [hret] at hfault
        exact not_faults_ok hfault
      refine Or.inl ⟨hnear, fun hfailed => hnever _ (faults_writeLoader_failed hnot hfailed _), ?_⟩
      by_contra houtside
      obtain ⟨calls, hfault⟩ := faults_writeLoader hnot houtside
      exact hnever calls hfault
    · rintro (⟨-, hread, hinside⟩ | ⟨hfar, -⟩)
      · refine ⟨fun calls => ?_, fun hfits calls ret hret => ?_, fun _ calls hzero => ?_⟩
        · obtain ⟨ret, hret, -⟩ := writeLoader_ok hnot hread hinside calls
          exact ⟨ret, hret⟩
        · obtain ⟨other, hother, hneg⟩ := writeLoader_ok hnot hread hinside calls
          rw [hret] at hother
          cases hother
          exact hneg.resolve_right hfits
        · rw [writeLoader_near calls content hnot]
          exact hzero
      · exact absurd hfar hnot

/-- A loader of one byte more than the buffer, at the start of the package, is read
over the end of `old_loader`. -/
theorem not_loaderSafe_large :
    ¬LoaderSafe (List.replicate 262145 0) ⟨"bootloader", 0, 262145⟩ := by
  intro hsafe
  have hlarge : ¬InBuffers (List.replicate 262145 0) (262145 : BitVec 32).toNat := by
    rintro ⟨hmin, -⟩
    have hmax : maxLoaderLen = 262144 := rfl
    have hsize : (262145 : BitVec 32).toNat = 262145 := rfl
    rw [List.length_replicate, hsize, Nat.min_self, hmax] at hmin
    omega
  obtain ⟨calls, hfault⟩ := @faults_writeLoader _ ⟨"bootloader", 0, 262145⟩
    (Nat.not_lt_zero _) hlarge
  obtain ⟨ret, hret⟩ := hsafe.inside calls
  rw [hret] at hfault
  exact not_faults_ok hfault

end RobotOta.LoaderWriting
