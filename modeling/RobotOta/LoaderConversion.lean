import RobotOta.LoaderTable

/-!
# Converting a loader

`make_loader_data` puts the data of two entries of `old_loader` behind a new head
in `new_loader`. The offsets and sizes come from the loader itself, and none is
compared with the length of a buffer.
-/

namespace RobotOta.LoaderConversion

open ByteBuffer CanFrameCodec CheckedMemory LoaderTable

/-- `HEADINFO_SIZE`. -/
def headInfoSize : ℕ := 512

/-- The lowest bytes of a value, the lowest first. -/
def numberBytes (count value : ℕ) : List Byte :=
  (List.range count).map fun i => BitVec.ofNat 8 (value / 256 ^ i)

/-- Fill up with zeros. -/
def padded (size : ℕ) (block : List Byte) : List Byte :=
  block ++ List.replicate (size - block.length) 0

/-- `BCD2INT`. -/
def bcd2int (num : ℕ) : ℕ := num / 16 % 16 * 10 + num % 16

/-- The `RK28BOOT_HEAD` that is put in front, in its 512 bytes: the sign, the
time of the release, the version and the places of the data. -/
def bootHead (time : List ℕ) (version dataLen bootOffset bootLen : ℕ) : List Byte :=
  padded headInfoSize
    (padded 48 (textBytes "RK28@Copyright2008Rockchip") ++ time.flatMap (numberBytes 2) ++
      numberBytes 4 (bcd2int (version / 256 % 256)) ++ numberBytes 4 (bcd2int (version % 256)) ++
      List.replicate 16 0 ++ numberBytes 4 headInfoSize ++ numberBytes 4 dataLen ++
      numberBytes 4 bootOffset ++ numberBytes 4 bootLen)

/-- The fields of `stReleaseTime`: the year, then the bytes from month to second. -/
def releaseTime (old : List Byte) : Checked (List ℕ) := do
  let year ← field old releaseTimeAt 2
  let rest ← load Region.oldLoader old (releaseTimeAt + 2) 5
  pure (year :: rest.map BitVec.toNat)

/-- `memcpy` from `old_loader` into `new_loader`. -/
def copyData (old new : List Byte) (source place count : ℕ) : Checked (List Byte) := do
  let block ← load Region.oldLoader old source count
  store Region.newLoader new place block

/-- The new loader, from the two entries: `new_loader` and its size. -/
def buildLoader (old new : List Byte) (flashData flashBoot : ℕ) : Checked (List Byte × ℕ) := do
  let time ← releaseTime old
  let version ← field old versionAt 4
  let dataLen ← field old (flashData + dataSizeAt) 4
  let bootLen ← field old (flashBoot + dataSizeAt) 4
  let bootOffset := (headInfoSize + dataLen) % 2 ^ 32
  let new ← store Region.newLoader new 0 (bootHead time version dataLen bootOffset bootLen)
  let dataPlace ← field old (flashData + dataOffsetAt) 4
  let new ← copyData old new dataPlace headInfoSize dataLen
  let bootPlace ← field old (flashBoot + dataOffsetAt) 4
  let new ← copyData old new bootPlace bootOffset bootLen
  pure (new, (bootOffset + bootLen) % 2 ^ 32)

/-- `make_loader_data`: nothing for a result of -1. -/
def makeLoaderData (old new : List Byte) : Checked (Option (List Byte × ℕ)) := do
  let count ← field old entryCountAt 1
  let offset ← field old entryOffsetAt 4
  let size ← field old entrySizeAt 1
  let found ← findEntries old (entryPlaces count offset size) ⟨none, none⟩
  match found.flashData, found.flashBoot with
  | some flashData, some flashBoot => do
    let built ← buildLoader old new flashData flashBoot
    pure (some built)
  | _, _ => pure none

/-- The fields of two entries lie in the old loader, and so do their data; the
new loader has room for a head and both. -/
structure DataFits (old : List Byte) (flashData flashBoot : ℕ) : Prop where
  /-- The entry of `FlashData` lies inside the loader. -/
  dataEntry : flashData + dataDelayAt ≤ maxLoaderLen
  /-- So does the entry of `FlashBoot`. -/
  bootEntry : flashBoot + dataDelayAt ≤ maxLoaderLen
  /-- There is no data, or it lies inside. -/
  data : fieldAt old (flashData + dataSizeAt) 4 = 0 ∨
    fieldAt old (flashData + dataOffsetAt) 4 + fieldAt old (flashData + dataSizeAt) 4 ≤
      maxLoaderLen
  /-- There is no boot code, or it lies inside. -/
  boot : fieldAt old (flashBoot + dataSizeAt) 4 = 0 ∨
    fieldAt old (flashBoot + dataOffsetAt) 4 + fieldAt old (flashBoot + dataSizeAt) 4 ≤
      maxLoaderLen
  /-- The new loader has room for the heads and both. -/
  room : headInfoSize + fieldAt old (flashData + dataSizeAt) 4 +
    fieldAt old (flashBoot + dataSizeAt) 4 ≤ maxLoaderLen

/-- The conversion of this loader stays in the buffers. -/
structure ConversionFits (old : List Byte) : Prop where
  names : ∀ entry ∈ tableOf old, NameInside old entry 10 0
  data : ∀ flashData flashBoot, lastNamed old "FlashData" = some flashData →
    lastNamed old "FlashBoot" = some flashBoot → DataFits old flashData flashBoot

variable {old new : List Byte}

theorem length_numberBytes (count value : ℕ) : (numberBytes count value).length = count := by
  rw [numberBytes, List.length_map, List.length_range]

theorem length_padded {size : ℕ} {block : List Byte} (h : block.length ≤ size) :
    (padded size block).length = size := by
  rw [padded, List.length_append, List.length_replicate]
  omega

theorem length_flatMap_numberBytes (count : ℕ) (values : List ℕ) :
    (values.flatMap (numberBytes count)).length = count * values.length := by
  induction values with
  | nil => rfl
  | cons value values ih =>
    rw [List.flatMap_cons, List.length_append, ih, length_numberBytes, List.length_cons,
      Nat.mul_succ, Nat.add_comm]

/-- The head has its 512 bytes. -/
theorem length_bootHead {time : List ℕ} (htime : time.length = 6)
    (version dataLen bootOffset bootLen : ℕ) :
    (bootHead time version dataLen bootOffset bootLen).length = headInfoSize := by
  apply length_padded
  have hfields : (time.flatMap (numberBytes 2)).length = 12 := by
    rw [length_flatMap_numberBytes, htime]
  have hsign : (padded 48 (textBytes "RK28@Copyright2008Rockchip")).length = 48 :=
    length_padded (by decide)
  simp only [List.length_append, length_numberBytes, List.length_replicate, hsign, hfields]
  decide

theorem releaseTime_eq (hold : old.length = maxLoaderLen) :
    ∃ time, releaseTime old = .ok time ∧ time.length = 6 := by
  have hmax : maxLoaderLen = 262144 := rfl
  have htime : releaseTimeAt = 14 := rfl
  rw [releaseTime, bind_of_ok (field_eq (by omega)), bind_of_ok (load_eq (by omega))]
  refine ⟨_, rfl, ?_⟩
  rw [List.length_cons, List.length_map, List.length_take, List.length_drop]
  omega

/-- A copy between the loaders that stays in both. -/
theorem copyData_eq {source count : ℕ} (place : ℕ) (hnew : new.length = maxLoaderLen)
    (hold : old.length = maxLoaderLen) (hsource : count = 0 ∨ source + count ≤ maxLoaderLen)
    (hplace : place + count ≤ maxLoaderLen) :
    ∃ copied, copyData old new source place count = .ok copied ∧
      copied.length = maxLoaderLen := by
  have hload : ∃ block : List Byte, load Region.oldLoader old source count = .ok block ∧
      block.length = count := by
    rcases hsource with rfl | hsource
    · exact ⟨[], load_zero _ _ _, rfl⟩
    · refine ⟨_, load_eq (by omega), ?_⟩
      rw [List.length_take, List.length_drop]
      omega
  obtain ⟨block, hload, hblock⟩ := hload
  refine ⟨_, (bind_of_ok hload).trans (store_eq (by omega)), ?_⟩
  rw [length_memcpy (by omega), hnew]

/-- Any other copy is an overrun. -/
theorem faults_copyData {source place count : ℕ} (hnew : new.length = maxLoaderLen)
    (hold : old.length = maxLoaderLen)
    (houtside : ¬(count = 0 ∨ source + count ≤ maxLoaderLen) ∨
      count ≠ 0 ∧ maxLoaderLen < place + count) :
    Faults (copyData old new source place count) := by
  by_cases hsource : count = 0 ∨ source + count ≤ maxLoaderLen
  · obtain ⟨hcount, hplace⟩ := houtside.resolve_left (not_not.mpr hsource)
    have hload : load Region.oldLoader old source count =
        .ok ((old.drop source).take count) :=
      load_eq (hold.symm ▸ hsource.resolve_left hcount)
    have hblock : ((old.drop source).take count).length = count := by
      rw [List.length_take, List.length_drop]
      omega
    rw [copyData, bind_of_ok hload]
    refine faults_store (fun hnil => ?_) (by omega)
    rw [hnil, List.length_nil] at hblock
    omega
  · rw [not_or] at hsource
    exact faults_bind (faults_load hsource.1 (by omega))

/-- What comes in front of the data: the fields that are read and the head. -/
theorem buildLoader_head (hold : old.length = maxLoaderLen) (hnew : new.length = maxLoaderLen)
    {flashData flashBoot : ℕ} (hdata : flashData + dataDelayAt ≤ maxLoaderLen)
    (hboot : flashBoot + dataDelayAt ≤ maxLoaderLen) :
    ∃ head : List Byte, head.length = maxLoaderLen ∧
      buildLoader old new flashData flashBoot =
        copyData old head (fieldAt old (flashData + dataOffsetAt) 4) headInfoSize
          (fieldAt old (flashData + dataSizeAt) 4) >>= fun new =>
        field old (flashBoot + dataOffsetAt) 4 >>= fun bootPlace =>
        copyData old new bootPlace
          ((headInfoSize + fieldAt old (flashData + dataSizeAt) 4) % 2 ^ 32)
          (fieldAt old (flashBoot + dataSizeAt) 4) >>= fun new =>
        .ok (new, ((headInfoSize + fieldAt old (flashData + dataSizeAt) 4) % 2 ^ 32 +
          fieldAt old (flashBoot + dataSizeAt) 4) % 2 ^ 32) := by
  have hmax : maxLoaderLen = 262144 := rfl
  have hversion : versionAt = 6 := rfl
  have hsize : dataSizeAt = 49 := rfl
  have hoffset : dataOffsetAt = 45 := rfl
  have hdelay : dataDelayAt = 53 := rfl
  have hinfo : headInfoSize = 512 := rfl
  obtain ⟨time, htime, hsix⟩ := releaseTime_eq hold
  have hlength := length_bootHead hsix (fieldAt old versionAt 4)
    (fieldAt old (flashData + dataSizeAt) 4)
    ((headInfoSize + fieldAt old (flashData + dataSizeAt) 4) % 2 ^ 32)
    (fieldAt old (flashBoot + dataSizeAt) 4)
  rw [buildLoader, bind_of_ok htime, bind_of_ok (field_eq (by omega)),
    bind_of_ok (field_eq (by omega)), bind_of_ok (field_eq (by omega))]
  dsimp only
  rw [bind_of_ok (store_eq (by omega)), bind_of_ok (field_eq (by omega))]
  refine ⟨_, ?_, rfl⟩
  rw [length_memcpy (by omega), hnew]

/-- Where its data fit the new loader is built inside the buffers. -/
theorem buildLoader_eq (hold : old.length = maxLoaderLen) (hnew : new.length = maxLoaderLen)
    {flashData flashBoot : ℕ} (hfits : DataFits old flashData flashBoot) :
    ∃ built newSize, buildLoader old new flashData flashBoot = .ok (built, newSize) ∧
      built.length = maxLoaderLen ∧ newSize ≤ maxLoaderLen := by
  have hmax : maxLoaderLen = 262144 := rfl
  have hoffset : dataOffsetAt = 45 := rfl
  have hdelay : dataDelayAt = 53 := rfl
  have hroom := hfits.room
  have hboot := hfits.bootEntry
  obtain ⟨head, hhead, hbuild⟩ := buildLoader_head hold hnew hfits.dataEntry hboot
  obtain ⟨first, hfirst, hfirstLength⟩ := copyData_eq headInfoSize hhead hold
    hfits.data (by omega)
  have hsum : (headInfoSize + fieldAt old (flashData + dataSizeAt) 4) % 2 ^ 32 =
      headInfoSize + fieldAt old (flashData + dataSizeAt) 4 := Nat.mod_eq_of_lt (by omega)
  obtain ⟨second, hsecond, hsecondLength⟩ := copyData_eq
    (headInfoSize + fieldAt old (flashData + dataSizeAt) 4) hfirstLength hold
    hfits.boot hroom
  rw [hbuild, bind_of_ok hfirst, bind_of_ok (field_eq (by omega)), hsum, bind_of_ok hsecond]
  refine ⟨second, _, rfl, hsecondLength, ?_⟩
  rw [Nat.mod_eq_of_lt (by omega)]
  exact hroom

/-- Where they do not, building it is an overrun. -/
theorem faults_buildLoader (hold : old.length = maxLoaderLen) (hnew : new.length = maxLoaderLen)
    {flashData flashBoot : ℕ} (hfits : ¬DataFits old flashData flashBoot) :
    Faults (buildLoader old new flashData flashBoot) := by
  have hmax : maxLoaderLen = 262144 := rfl
  have hversion : versionAt = 6 := rfl
  have hsize : dataSizeAt = 49 := rfl
  have hoffset : dataOffsetAt = 45 := rfl
  have hdelay : dataDelayAt = 53 := rfl
  have hinfo : headInfoSize = 512 := rfl
  by_cases hdata : flashData + dataDelayAt ≤ maxLoaderLen
  · by_cases hboot : flashBoot + dataDelayAt ≤ maxLoaderLen
    · obtain ⟨head, hhead, hbuild⟩ := buildLoader_head hold hnew hdata hboot
      rw [hbuild]
      by_cases hfirst : (fieldAt old (flashData + dataSizeAt) 4 = 0 ∨
          fieldAt old (flashData + dataOffsetAt) 4 + fieldAt old (flashData + dataSizeAt) 4 ≤
            maxLoaderLen) ∧
          headInfoSize + fieldAt old (flashData + dataSizeAt) 4 ≤ maxLoaderLen
      · obtain ⟨first, hcopied, hlength⟩ := copyData_eq headInfoSize hhead hold hfirst.1 hfirst.2
        have hsum : (headInfoSize + fieldAt old (flashData + dataSizeAt) 4) % 2 ^ 32 =
            headInfoSize + fieldAt old (flashData + dataSizeAt) 4 := Nat.mod_eq_of_lt (by omega)
        rw [bind_of_ok hcopied, bind_of_ok (field_eq (by omega)), hsum]
        refine faults_bind (faults_copyData hlength hold ?_)
        by_contra hinside
        rw [not_or, not_not] at hinside
        exact hfits ⟨hdata, hboot, hfirst.1, hinside.1, by omega⟩
      · refine faults_bind (faults_copyData hhead hold ?_)
        rcases not_and_or.mp hfirst with hsource | hplace
        · exact Or.inl hsource
        · by_cases hempty : fieldAt old (flashData + dataSizeAt) 4 = 0
          · exact absurd (by omega) hplace
          · exact Or.inr ⟨hempty, Nat.lt_of_not_le hplace⟩
    · obtain ⟨time, htime, -⟩ := releaseTime_eq hold
      rw [buildLoader, bind_of_ok htime, bind_of_ok (field_eq (by omega)),
        bind_of_ok (field_eq (by omega))]
      exact faults_bind (faults_field (by decide) (by omega))
  · obtain ⟨time, htime, -⟩ := releaseTime_eq hold
    rw [buildLoader, bind_of_ok htime, bind_of_ok (field_eq (by omega))]
    exact faults_bind (faults_field (by decide) (by omega))

/-- `make_loader_data` on a loader whose conversion fits: nothing without both
entries, and else a new loader that fits as well. -/
theorem makeLoaderData_eq (hold : old.length = maxLoaderLen) (hnew : new.length = maxLoaderLen)
    (hfits : ConversionFits old) :
    ((lastNamed old "FlashData" = none ∨ lastNamed old "FlashBoot" = none) ∧
        makeLoaderData old new = .ok none) ∨
      lastNamed old "FlashData" ≠ none ∧ lastNamed old "FlashBoot" ≠ none ∧
        ∃ built newSize, makeLoaderData old new = .ok (some (built, newSize)) ∧
          built.length = maxLoaderLen ∧ newSize ≤ maxLoaderLen := by
  have hmax : maxLoaderLen = 262144 := rfl
  have hcount : entryCountAt = 37 := rfl
  have hoffset : entryOffsetAt = 38 := rfl
  have hsize : entrySizeAt = 42 := rfl
  have hfound : findEntries old (tableOf old) ⟨none, none⟩ =
      .ok ⟨lastNamed old "FlashData", lastNamed old "FlashBoot"⟩ := by
    rw [findEntries_eq hfits.names, foldl_pick]
    rfl
  rw [tableOf] at hfound
  rw [makeLoaderData, bind_of_ok (field_eq (by omega)), bind_of_ok (field_eq (by omega)),
    bind_of_ok (field_eq (by omega)), bind_of_ok hfound]
  cases hdata : lastNamed old "FlashData" with
  | none => exact Or.inl ⟨Or.inl rfl, rfl⟩
  | some flashData =>
    cases hboot : lastNamed old "FlashBoot" with
    | none => exact Or.inl ⟨Or.inr rfl, rfl⟩
    | some flashBoot =>
      obtain ⟨built, newSize, hbuild, hlength, hroom⟩ :=
        buildLoader_eq hold hnew (hfits.data flashData flashBoot hdata hboot)
      refine Or.inr ⟨Option.some_ne_none _, Option.some_ne_none _, built, newSize, ?_, hlength,
        hroom⟩
      dsimp only
      rw [bind_of_ok hbuild]
      rfl

/-- On any other loader it is an overrun. -/
theorem faults_makeLoaderData (hold : old.length = maxLoaderLen)
    (hnew : new.length = maxLoaderLen) (hfits : ¬ConversionFits old) :
    Faults (makeLoaderData old new) := by
  have hmax : maxLoaderLen = 262144 := rfl
  have hcount : entryCountAt = 37 := rfl
  have hoffset : entryOffsetAt = 38 := rfl
  have hsize : entrySizeAt = 42 := rfl
  rw [makeLoaderData, bind_of_ok (field_eq (by omega)), bind_of_ok (field_eq (by omega)),
    bind_of_ok (field_eq (by omega))]
  change Faults (findEntries old (tableOf old) ⟨none, none⟩ >>= _)
  by_cases hnames : ∀ entry ∈ tableOf old, NameInside old entry 10 0
  · have hfound : findEntries old (tableOf old) ⟨none, none⟩ =
        .ok ⟨lastNamed old "FlashData", lastNamed old "FlashBoot"⟩ := by
      rw [findEntries_eq hnames, foldl_pick]
      rfl
    obtain ⟨flashData, flashBoot, hdata, hboot, hoverrun⟩ : ∃ flashData flashBoot,
        lastNamed old "FlashData" = some flashData ∧ lastNamed old "FlashBoot" = some flashBoot ∧
          ¬DataFits old flashData flashBoot := by
      by_contra hnone
      refine hfits ⟨hnames, fun flashData flashBoot hdata hboot => ?_⟩
      by_contra hoverrun
      exact hnone ⟨flashData, flashBoot, hdata, hboot, hoverrun⟩
    rw [bind_of_ok hfound, hdata, hboot]
    exact faults_bind (faults_buildLoader hold hnew hoverrun)
  · exact faults_bind (faults_findEntries hnames _)

end RobotOta.LoaderConversion
