import RobotOta.ImageCopy
import RobotOta.LoaderTable
import RobotOta.StreamingUpdate

/-!
# Checking an image file

`CheckImageFile`, `check_image_crc` and `adjustFileOffset`. The header type, its
tag, the CRC and the RSA check come from outside the repository; `unsigned long`
has 32 bits. The image may stand in a file or in a partition, and the firmware in
it may begin behind a packing header.
-/

namespace RobotOta.ImageCheck

open BlockDevice CanFrameCodec PartitionReaders ImageCopy LoaderTable StreamingUpdate

/-- The bytes of an image, with what the sector buffer of `read_partition` holds
at first. Reads get what is there. -/
structure ImageSource where
  /-- The bytes of the file or of the partition. -/
  package : ℕ → Option Byte
  /-- `gSrcIsFile`. -/
  gSrcIsFile : Bool
  /-- The sector buffer of `read_partition`. -/
  sectorBuf : List Byte
  /-- It holds one sector. -/
  length_sectorBuf : sectorBuf.length = sectorSize

/-- `MY_READ`. -/
def ImageSource.myRead (source : ImageSource) (position : ℕ) (offset : ℤ) (size : ℕ)
    (data : ℕ → Byte) : ReaderEnd :=
  if source.gSrcIsFile then readFile (readAt source.package) position offset size ⟨data, 0⟩
  else readPartition (readAt source.package) position offset size source.sectorBuf ⟨data, 0⟩

/-- The variables of `check_image_crc`, with the position of the file. -/
structure CheckState where
  /-- What is left to be read. -/
  remain : ℤ
  /-- Where the next read starts. -/
  fileOffset : ℤ
  /-- The position of the file. -/
  position : ℕ
  /-- The CRC of what has been read. -/
  crc : BitVec 32
  /-- The buffer that the reads go into. -/
  buffer : ℕ → Byte

/-- A read of `check_image_crc`, which goes on in a file and seeks in a partition. -/
def checkRead (source : ImageSource) (state : CheckState) (count : ℕ) : ReaderEnd :=
  source.myRead state.position (if source.gSrcIsFile then -1 else state.fileOffset) count
    state.buffer

/-- `size` of `check_image_crc`. -/
def checkStep : ℕ := 16 * 1024

section Check

variable (crc32 : BitVec 32 → List Byte → BitVec 32) (source : ImageSource)

/-- The loop of `check_image_crc`; every round takes at least one byte. -/
def crcLoop : (rounds : ℕ) → CheckState → Option CheckState
  | 0, state => some state
  | rounds + 1, state =>
    if 0 < state.remain then
      let readCount := if state.remain > checkStep then checkStep else state.remain.toNat
      match checkRead source state readCount with
      | (ret, position, data) =>
        if ret ≠ 0 then none
        else
          crcLoop rounds
            { remain := state.remain - readCount
              fileOffset := int32 (state.fileOffset + readCount)
              position := position
              crc := crc32 state.crc (firstCells data.cells readCount)
              buffer := data.cells }
    else some state

/-- The variables of `check_image_crc` in front of the loop. -/
def checkStart (gFwOffset imageSize : BitVec 32) : CheckState :=
  ⟨imageSize.toInt, gFwOffset.toInt, gFwOffset.toNat, 0, fun _ => 0⟩

/-- The check code behind the image is read and compared. -/
def checkCode (state : CheckState) : Int :=
  match checkRead source state 4 with
  | (ret, _, data) =>
    if ret ≠ 0 then -1
    else if state.crc.toNat ≠ fieldAt (firstCells data.cells 4) 0 4 then -1
    else 0

/-- `check_image_crc`. -/
def checkImageCrc (fdRead : Int) (gFwOffset imageSize : BitVec 32) : Int :=
  if fdRead < 0 then -1
  else
    match crcLoop crc32 source imageSize.toInt.toNat (checkStart gFwOffset imageSize) with
    | none => -1
    | some state => checkCode source state

/-- `RKIMAGE_HDR`, as far as it is used here. -/
structure RkHeader where
  /-- The tag of the format. -/
  tag : BitVec 32
  /-- The size of the image in front of its CRC. -/
  size : BitVec 32
  /-- The items of the image. -/
  items : List ImageItem

/-- The header as it stands in the file: its size, its fields and its tag, which
comes first. -/
structure HeaderFormat where
  /-- `sizeof(RKIMAGE_HDR)`. -/
  headerSize : ℕ
  /-- The fields of so many bytes. -/
  decode : List Byte → RkHeader
  /-- `RKIMAGE_TAG`. -/
  rkimageTag : BitVec 32
  /-- The header holds its tag. -/
  four_le : 4 ≤ headerSize
  /-- The tag comes first, low byte first. -/
  tag_first : ∀ bytes, bytes.length = headerSize → (decode bytes).tag.toNat = fieldAt bytes 0 4
  /-- Zeros are no header. -/
  tag_ne_zero : rkimageTag ≠ 0

/-- `adjustFileOffset`. -/
def adjustFileOffset (hdr : RkHeader) (offset : BitVec 32) : RkHeader :=
  { hdr with items := hdr.items.map fun item => { item with offset := item.offset + offset } }

/-- What the calls of `CheckImageFile` come back with. -/
structure CheckCalls where
  /-- `open` of `CheckImageFile`. -/
  fd : Int
  /-- `open` of `check_image_crc`. -/
  fdRead : Int
  /-- The length of `ro.product.model`. -/
  model : Int
  /-- `check_image_rsa`, if recovery was built with `USE_RSA_CHECK`. -/
  rsa : Option (BitVec 32 → BitVec 32 → Int)

/-- The tag of the new packing format. -/
def packTag : ℕ := 0x57464B52

variable (format : HeaderFormat) (calls : CheckCalls)

/-- `gFwOffset` and `fwSize` from the first sector. -/
def packedAt (buf : List Byte) : BitVec 32 × BitVec 32 :=
  if fieldAt buf 0 4 = packTag then
    (BitVec.ofNat 32 (fieldAt buf 0x21 4), BitVec.ofNat 32 (fieldAt buf 0x25 4))
  else (0, 0)

/-- `CheckImageFile` behind the reads. -/
def checkHeader (hdr : RkHeader) (gFwOffset fwSize : BitVec 32) : Int × RkHeader :=
  if hdr.tag ≠ format.rkimageTag then (-3, hdr)
  else if calls.model ≤ 0 then (-4, hdr)
  else
    let checked : Int := match calls.rsa with
      | some checkImageRsa => checkImageRsa gFwOffset fwSize
      | none => checkImageCrc crc32 source calls.fdRead gFwOffset hdr.size
    if checked ≠ 0 then (-6, hdr)
    else if gFwOffset ≠ 0 then (0, adjustFileOffset hdr gFwOffset)
    else (0, hdr)

/-- `CheckImageFile`, with what `hdr` holds at first: its result, and the header
and `gFwOffset` if they have been read. -/
def checkImageFile (memory : ℕ → Byte) : Int × Option (RkHeader × BitVec 32) :=
  if calls.fd < 0 then (-1, none)
  else
    match source.myRead 0 0 512 fun _ => 0 with
    | (ret, position, buf) =>
      if ret ≠ 0 then (-2, none)
      else
        let (gFwOffset, fwSize) := packedAt (firstCells buf.cells 512)
        match source.myRead position gFwOffset.toNat format.headerSize memory with
        | (ret, _, data) =>
          if ret ≠ 0 then (-2, none)
          else
            let hdr := format.decode (firstCells data.cells format.headerSize)
            let (ret, hdr) := checkHeader crc32 source format calls hdr gFwOffset fwSize
            (ret, some (hdr, gFwOffset))

end Check

/-- A reader has put exactly the bytes of the image into the buffer, or has failed
where some are missing. -/
structure ReadsOrFails (package : ℕ → Option Byte) (place count : ℕ) (ended : ReaderEnd) :
    Prop where
  full : (readAt package place count).length = count →
    ended.1 = 0 ∧ firstCells ended.2.2.cells count = readAt package place count
  short : (readAt package place count).length ≠ count → ended.1 ≠ 0

section Readers

variable {device : ℕ → Option Byte} {position place count : ℕ} {buffer : Buffer}

/-- A block that fills the front of the buffer. -/
theorem firstCells_memcpy (buffer : Buffer) {block : List Byte} (h : count ≤ block.length) :
    firstCells (buffer.memcpy 0 block).cells count = block.take count := by
  refine List.ext_getElem? fun i => ?_
  by_cases hi : i < count
  · have hinside : block[i]? = some ((buffer.memcpy 0 block).cells (0 + i)) :=
      memcpy_inside buffer 0 (by omega)
    rw [getElem?_firstCells hi, List.getElem?_take_of_lt hi, hinside, Nat.zero_add]
  · rw [List.getElem?_eq_none (by rw [length_firstCells]; omega),
      List.getElem?_eq_none (by rw [List.length_take]; omega)]

theorem readFile_readsOrFails {offset : ℤ}
    (hplace : (if 0 ≤ offset then lseek position offset else position) = place) :
    ReadsOrFails device place count (readFile (readAt device) position offset count buffer) := by
  rw [readFile, hplace]
  constructor
  · intro hfull
    rw [if_neg (not_not.mpr hfull), firstCells_memcpy _ hfull.ge, List.take_of_length_le hfull.le]
    exact ⟨rfl, rfl⟩
  · intro hshort
    rw [if_pos hshort]
    exact (by decide : (-1 : Int) ≠ 0)

/-- Behind a complete read the file goes on behind the bytes. -/
theorem readFile_position (hfull : (readAt device position count).length = count) :
    (readFile (readAt device) position (-1) count buffer).2.1 = position + count := by
  rw [readFile]
  dsimp only
  rw [if_neg (by decide), hfull]

theorem length_readAt_sectors (h : SectorsReadable device place count) :
    (readAt device place count).length = count :=
  length_readAt fun i hi => h i hi (place + i) rfl

/-- The bytes that a reader has stored. -/
theorem firstCells_of_stored {ended : ReaderEnd}
    (hstored : ∀ i < count, device (place + i) = some (ended.2.2.cells i)) :
    firstCells ended.2.2.cells count = readAt device place count := by
  have hlength : (readAt device place count).length = count :=
    length_readAt fun i hi => by rw [hstored i hi]; rfl
  refine List.ext_getElem? fun i => ?_
  by_cases hi : i < count
  · rw [getElem?_firstCells hi, getElem?_readAt (by omega), hstored i hi]
  · rw [List.getElem?_eq_none (by rw [length_firstCells]; omega),
      List.getElem?_eq_none (by omega)]

/-- Below 2^31 `read_partition` gets the bytes, also where it stores more than it is
asked for. -/
theorem readPartition_readsOrFails {buf : List Byte} (hbuf : buf.length = sectorSize)
    (hplace : place < 2 ^ 31) (hread : SectorsReadable device place count) (hpos : 0 < count)
    (cells : ℕ → Byte) :
    ReadsOrFails device place count
      (readPartition (readAt device) position place count buf ⟨cells, 0⟩) := by
  have hlength := length_readAt_sectors hread
  refine ⟨fun _ => ?_, fun hshort => absurd hlength hshort⟩
  by_cases hfits : place % sectorSize = 0 ∨ sectorSize - place % sectorSize ≤ count
  · have hagree := (readersAgree_iff place count).mpr (Or.inr ⟨hplace, hfits⟩) device position
      cells buf hbuf hread
    exact ⟨hagree.1.zero, firstCells_of_stored hagree.1.stored⟩
  · -- the bytes lie within one sector, whose rest is stored as well
    rw [not_or, Nat.not_le] at hfits
    have hsector : sectorSize = 512 := rfl
    have hcast : ((place : ℤ) % (sectorSize : ℤ)).toNat = place % sectorSize := by omega
    have hstart : lseek position (sectorStart place) = place / sectorSize * sectorSize := by
      rw [sectorStart_eq hplace, lseek, if_pos (Int.natCast_nonneg _), Int.toNat_natCast]
    have hfull : (readAt device (place / sectorSize * sectorSize) sectorSize).length =
        sectorSize := by
      refine length_readAt fun i hi => hread 0 hpos _ ?_
      rw [Nat.add_comm, Nat.add_mul_div_right _ _ (by decide), Nat.div_eq_of_lt hi,
        Nat.zero_add, Nat.add_zero]
    have hempty : buf.drop sectorSize = [] := List.drop_eq_nil_of_le hbuf.le
    rw [readPartition, if_pos (Int.natCast_nonneg place), hcast]
    dsimp only
    rw [if_pos hfits.1, hstart, hfull, hempty, List.append_nil, sectorLoop_done (by omega)]
    refine ⟨rfl, ?_⟩
    have htail : (((readAt device (place / sectorSize * sectorSize) sectorSize).drop
        (place % sectorSize)).take (sectorSize - place % sectorSize)).length =
          sectorSize - place % sectorSize := by
      rw [List.length_take, List.length_drop, hfull]
      omega
    rw [firstCells_memcpy _ (by omega), List.take_take, Nat.min_eq_left (by omega)]
    refine List.ext_getElem? fun i => ?_
    by_cases hi : i < count
    · rw [List.getElem?_take_of_lt hi, List.getElem?_drop, getElem?_readAt (by omega),
        getElem?_readAt (by omega), ← Nat.add_assoc, Nat.div_add_mod']
    · rw [List.getElem?_eq_none (by rw [List.length_take]; omega),
        List.getElem?_eq_none (by omega)]

end Readers

/-- Every read of these bytes gets them or fails: the image is in a file, or the
sectors that cover them can be read and lie below 2^31. -/
def Reliable (source : ImageSource) (start total : ℕ) : Prop :=
  source.gSrcIsFile = true ∨
    SectorsReadable source.package start total ∧ start + total ≤ 2 ^ 31

theorem Reliable.part {source : ImageSource} {start total : ℕ} (h : Reliable source start total)
    {place count : ℕ} (hplace : start ≤ place) (hcount : place + count ≤ start + total) :
    Reliable source place count := by
  refine h.imp_right fun ⟨hread, hbound⟩ => ⟨fun i hi other hother => ?_, by omega⟩
  refine hread (place - start + i) (by omega) other ?_
  rw [hother]
  congr 1
  omega

/-- The next read starts here. -/
def StandsAt (source : ImageSource) (state : CheckState) (place : ℕ) : Prop :=
  if source.gSrcIsFile then state.position = place else state.fileOffset = place

section Loop

variable {crc32 : BitVec 32 → List Byte → BitVec 32} {source : ImageSource}
  {state : CheckState} {place count : ℕ}

theorem checkRead_readsOrFails (hreliable : Reliable source place count)
    (hat : StandsAt source state place) (hpos : 0 < count) :
    ReadsOrFails source.package place count (checkRead source state count) := by
  rw [StandsAt] at hat
  rw [checkRead, ImageSource.myRead]
  cases hfile : source.gSrcIsFile with
  | true =>
    rw [hfile, if_pos rfl] at hat
    rw [if_pos rfl, if_pos rfl]
    exact readFile_readsOrFails hat
  | false =>
    rw [hfile] at hat
    obtain ⟨hread, hbound⟩ := hreliable.resolve_left (by rw [hfile]; decide)
    rw [if_neg (by decide)] at hat
    rw [if_neg (by decide), if_neg (by decide), hat]
    exact readPartition_readsOrFails source.length_sectorBuf (by omega) hread hpos _

/-- Behind a complete read the state stands behind the bytes. -/
theorem standsAt_checkRead (hat : StandsAt source state place)
    (hbelow : source.gSrcIsFile = true ∨ place + count < 2 ^ 31)
    (hfull : (readAt source.package place count).length = count) {next : CheckState}
    (hposition : next.position = (checkRead source state count).2.1)
    (hoffset : next.fileOffset = int32 (state.fileOffset + count)) :
    StandsAt source next (place + count) := by
  rw [StandsAt] at hat ⊢
  cases hfile : source.gSrcIsFile with
  | true =>
    rw [hfile, if_pos rfl] at hat
    rw [if_pos rfl, hposition, checkRead, ImageSource.myRead, hfile, if_pos rfl, if_pos rfl, hat]
    exact readFile_position hfull
  | false =>
    rw [hfile, if_neg (by decide)] at hat
    have hbelow := hbelow.resolve_left (by rw [hfile]; decide)
    rw [if_neg (by decide), hoffset, hat, int32_eq (by omega) (by omega)]
    omega

/-- The loop takes the bytes one after the other and feeds all of them to the CRC,
in whatever pieces, or fails where some are missing. -/
theorem crcLoop_spec (hcrc : Streaming crc32) {rounds remain : ℕ} (hrounds : remain ≤ rounds)
    (hremain : state.remain = remain) (hreliable : Reliable source place remain)
    (hbelow : source.gSrcIsFile = true ∨ place + remain < 2 ^ 31)
    (hat : StandsAt source state place) :
    ((readAt source.package place remain).length = remain →
      ∃ next, crcLoop crc32 source rounds state = some next ∧
        StandsAt source next (place + remain) ∧
        next.crc = crc32 state.crc (readAt source.package place remain)) ∧
      ((readAt source.package place remain).length ≠ remain →
        crcLoop crc32 source rounds state = none) := by
  induction rounds generalizing state place remain with
  | zero =>
    obtain rfl : remain = 0 := by omega
    refine ⟨fun _ => ⟨state, rfl, hat, ?_⟩, fun h => absurd rfl h⟩
    rw [readAt, hcrc.update_nil]
  | succ rounds ih =>
    rw [crcLoop]
    by_cases hpos : 0 < remain
    · rw [if_pos (by omega)]
      generalize hcount : (if state.remain > checkStep then checkStep
        else state.remain.toNat) = count
      have hstep : checkStep = 16 * 1024 := rfl
      have hle : 0 < count ∧ count ≤ remain := by
        rw [hremain] at hcount
        split_ifs at hcount <;> omega
      obtain ⟨more, rfl⟩ : ∃ more, remain = count + more := Nat.exists_eq_add_of_le hle.2
      have hfirst := checkRead_readsOrFails
        (hreliable.part le_rfl (by omega) : Reliable source place count) hat hle.1
      rw [ne_eq, length_readAt_add]
      dsimp only
      by_cases hfull : (readAt source.package place count).length = count
      · obtain ⟨hzero, hbytes⟩ := hfirst.full hfull
        rw [if_neg (not_not.mpr hzero)]
        obtain ⟨step, hstep⟩ : ∃ step : CheckState, step =
            { remain := state.remain - count
              fileOffset := int32 (state.fileOffset + count)
              position := (checkRead source state count).2.1
              crc := crc32 state.crc (firstCells (checkRead source state count).2.2.cells count)
              buffer := (checkRead source state count).2.2.cells } := ⟨_, rfl⟩
        rw [← hstep]
        have hleft : step.remain = more := by
          rw [hstep, hremain]
          push_cast
          omega
        have hstands : StandsAt source step (place + count) :=
          standsAt_checkRead hat (hbelow.imp_right fun h => by omega) hfull (by rw [hstep])
            (by rw [hstep])
        have hrest := ih (by omega) hleft (hreliable.part (by omega) (by omega))
          (hbelow.imp_right fun h => by omega) hstands
        refine ⟨fun h => ?_, fun h => hrest.2 fun hmore => h ⟨hfull, hmore⟩⟩
        obtain ⟨next, hnext, hstands, hvalue⟩ := hrest.1 h.2
        refine ⟨next, hnext, by rwa [Nat.add_assoc] at hstands, ?_⟩
        rw [hvalue, hstep, hbytes, readAt_add hfull, hcrc.update_append]
      · rw [if_pos (hfirst.short hfull)]
        exact ⟨fun h => absurd h.1 hfull, fun _ => rfl⟩
    · obtain rfl : remain = 0 := by omega
      rw [if_neg (by omega)]
      refine ⟨fun _ => ⟨state, rfl, hat, ?_⟩, fun h => absurd rfl h⟩
      rw [readAt, hcrc.update_nil]

end Loop

section CheckImageCrc

variable {crc32 : BitVec 32 → List Byte → BitVec 32} {source : ImageSource} {fdRead : Int}
  {gFwOffset imageSize : BitVec 32}

theorem standsAt_checkStart (hbelow : source.gSrcIsFile = true ∨ gFwOffset.toNat < 2 ^ 31) :
    StandsAt source (checkStart gFwOffset imageSize) gFwOffset.toNat := by
  rw [StandsAt]
  by_cases hfile : source.gSrcIsFile = true
  · rw [if_pos hfile]
    rfl
  · rw [if_neg hfile]
    exact toNat_toInt (hbelow.resolve_left hfile)

/-- Behind the loop the check code decides. -/
theorem checkCode_iff {state : CheckState} {place : ℕ}
    (hreliable : Reliable source place 4) (hat : StandsAt source state place) :
    checkCode source state = 0 ↔ (readAt source.package place 4).length = 4 ∧
      state.crc.toNat = fieldAt (readAt source.package place 4) 0 4 := by
  have hread := checkRead_readsOrFails hreliable hat (by decide)
  rw [checkCode]
  dsimp only
  by_cases hfull : (readAt source.package place 4).length = 4
  · obtain ⟨hzero, hbytes⟩ := hread.full hfull
    rw [if_neg (not_not.mpr hzero), hbytes]
    by_cases hequal : state.crc.toNat = fieldAt (readAt source.package place 4) 0 4
    · rw [if_neg (not_not.mpr hequal)]
      exact ⟨fun _ => ⟨hfull, hequal⟩, fun _ => rfl⟩
    · rw [if_pos hequal]
      exact ⟨fun h => absurd h (by decide), fun h => absurd h.2 hequal⟩
  · rw [if_pos (hread.short hfull)]
    exact ⟨fun h => absurd h (by decide), fun h => absurd h.1 hfull⟩

/-- `check_image_crc` passes exactly the images whose check code is the CRC of the
bytes in front of it, wherever they stand and however they are read. -/
theorem checkImageCrc_iff (hcrc : Streaming crc32) (hsize : imageSize.toNat < 2 ^ 31)
    (hreliable : Reliable source gFwOffset.toNat (imageSize.toNat + 4)) :
    checkImageCrc crc32 source fdRead gFwOffset imageSize = 0 ↔
      0 ≤ fdRead ∧
        (readAt source.package gFwOffset.toNat (imageSize.toNat + 4)).length =
          imageSize.toNat + 4 ∧
        (crc32 0 (readAt source.package gFwOffset.toNat imageSize.toNat)).toNat =
          fieldAt (readAt source.package (gFwOffset.toNat + imageSize.toNat) 4) 0 4 := by
  have hat : StandsAt source (checkStart gFwOffset imageSize) gFwOffset.toNat :=
    standsAt_checkStart (hreliable.imp_right fun h => by omega)
  have hbelow : source.gSrcIsFile = true ∨ gFwOffset.toNat + imageSize.toNat < 2 ^ 31 :=
    hreliable.imp_right fun h => by omega
  have hremain : (checkStart gFwOffset imageSize).remain = imageSize.toNat := toNat_toInt hsize
  have hrounds : imageSize.toInt.toNat = imageSize.toNat := by
    rw [toNat_toInt hsize, Int.toNat_natCast]
  have hloop := crcLoop_spec hcrc hrounds.ge hremain
    (hreliable.part le_rfl (by omega) : Reliable source _ imageSize.toNat) hbelow hat
  rw [length_readAt_add, checkImageCrc]
  by_cases hopen : fdRead < 0
  · rw [if_pos hopen]
    exact ⟨fun h => absurd h (by decide), fun h => absurd h.1 (by omega)⟩
  rw [if_neg hopen]
  by_cases hfull : (readAt source.package gFwOffset.toNat imageSize.toNat).length =
      imageSize.toNat
  · obtain ⟨next, hnext, hstands, hvalue⟩ := hloop.1 hfull
    rw [hnext]
    refine (checkCode_iff (hreliable.part (by omega) (by omega)) hstands).trans ?_
    rw [hvalue]
    exact ⟨fun h => ⟨by omega, ⟨hfull, h.1⟩, h.2⟩, fun h => ⟨h.2.1.2, h.2.2⟩⟩
  · rw [hloop.2 hfull]
    exact ⟨fun h => absurd h (by decide : (-1 : Int) ≠ 0), fun h => absurd h.2.1.1 hfull⟩

/-- From 2^31 on the size is negative: nothing is fed to the CRC, and the first
bytes of the image are taken for the check code. -/
theorem checkImageCrc_large_iff (hsize : 2 ^ 31 ≤ imageSize.toNat)
    (hreliable : Reliable source gFwOffset.toNat 4) :
    checkImageCrc crc32 source fdRead gFwOffset imageSize = 0 ↔
      0 ≤ fdRead ∧ (readAt source.package gFwOffset.toNat 4).length = 4 ∧
        fieldAt (readAt source.package gFwOffset.toNat 4) 0 4 = 0 := by
  have hneg := toInt_neg hsize
  have hrounds : imageSize.toInt.toNat = 0 := Int.toNat_of_nonpos hneg.le
  rw [checkImageCrc]
  by_cases hopen : fdRead < 0
  · rw [if_pos hopen]
    exact ⟨fun h => absurd h (by decide), fun h => absurd h.1 (by omega)⟩
  rw [if_neg hopen, hrounds, crcLoop]
  refine (checkCode_iff hreliable (standsAt_checkStart
    (hreliable.imp_right fun h => by omega))).trans ?_
  exact ⟨fun h => ⟨by omega, h.1, h.2.symm⟩, fun h => ⟨h.2.1, h.2.2.symm⟩⟩

end CheckImageCrc

section CheckImageFile

variable (crc32 : BitVec 32 → List Byte → BitVec 32) (package : ℕ → Option Byte)
  (format : HeaderFormat)

/-- An image as it should stand in a file: the header is where the first sector says,
carries the tag, and counts the bytes in front of their CRC. -/
structure ValidImage (hdr : RkHeader) (gFwOffset : BitVec 32) : Prop where
  /-- There is a first sector. -/
  sector : (readAt package 0 512).length = 512
  /-- It tells where the header stands. -/
  packed : gFwOffset = (packedAt (readAt package 0 512)).1
  /-- The header is all there. -/
  header : (readAt package gFwOffset.toNat format.headerSize).length = format.headerSize
  /-- These are its fields. -/
  decoded : hdr = format.decode (readAt package gFwOffset.toNat format.headerSize)
  /-- It has the tag of the format. -/
  tagged : hdr.tag = format.rkimageTag
  /-- The size is a positive `int`. -/
  small : hdr.size.toNat < 2 ^ 31
  /-- The image and its CRC are all there. -/
  whole : (readAt package gFwOffset.toNat (hdr.size.toNat + 4)).length = hdr.size.toNat + 4
  /-- The CRC is that of the image. -/
  crc : (crc32 0 (readAt package gFwOffset.toNat hdr.size.toNat)).toNat =
    fieldAt (readAt package (gFwOffset.toNat + hdr.size.toNat) 4) 0 4

variable {crc32 package format} {source : ImageSource} {calls : CheckCalls}

theorem adjustFileOffset_zero (hdr : RkHeader) : adjustFileOffset hdr 0 = hdr := by
  have hitems : (hdr.items.map fun item => { item with offset := item.offset + 0 }) =
      hdr.items := by
    refine (List.map_congr_left fun item _ => ?_).trans (List.map_id hdr.items)
    cases item
    simp
  rw [adjustFileOffset, hitems]

/-- A read of a file from a place. -/
theorem myRead_readsOrFails (hfile : source.gSrcIsFile = true) (position place count : ℕ)
    (memory : ℕ → Byte) :
    ReadsOrFails source.package place count (source.myRead position place count memory) := by
  rw [ImageSource.myRead, if_pos hfile]
  refine readFile_readsOrFails ?_
  rw [if_pos (Int.natCast_nonneg place), lseek, if_pos (Int.natCast_nonneg place),
    Int.toNat_natCast]

/-- The first word of the image is the tag. -/
theorem fieldAt_tag {place : ℕ} {hdr : RkHeader}
    (hheader : (readAt package place format.headerSize).length = format.headerSize)
    (hdecoded : hdr = format.decode (readAt package place format.headerSize))
    (htagged : hdr.tag = format.rkimageTag) :
    (readAt package place 4).length = 4 ∧ fieldAt (readAt package place 4) 0 4 ≠ 0 := by
  obtain ⟨more, hmore⟩ := Nat.exists_eq_add_of_le format.four_le
  have hfirst : (readAt package place 4).length = 4 := by
    rw [hmore, length_readAt_add] at hheader
    exact hheader.1
  refine ⟨hfirst, fun hzero => format.tag_ne_zero ?_⟩
  have hfield : fieldAt (readAt package place format.headerSize) 0 4 =
      fieldAt (readAt package place 4) 0 4 := by
    rw [hmore, readAt_add hfirst, fieldAt, fieldAt, List.drop_zero, List.drop_zero,
      List.take_append_of_le_length hfirst.ge]
  rw [← htagged, hdecoded]
  refine BitVec.eq_of_toNat_eq ?_
  rw [format.tag_first _ hheader, hfield, hzero]
  rfl

/-- A header of the file passes if it carries the tag, has a size below 2^31, and
the image passes the CRC. -/
theorem checkHeader_iff (hcrc : Streaming crc32) (hfile : source.gSrcIsFile = true)
    (hrsa : calls.rsa = none) {plain hdr : RkHeader} {gFwOffset fwSize : BitVec 32}
    (hheader : (readAt source.package gFwOffset.toNat format.headerSize).length =
      format.headerSize)
    (hdecoded : plain =
      format.decode (readAt source.package gFwOffset.toNat format.headerSize)) :
    checkHeader crc32 source format calls plain gFwOffset fwSize = (0, hdr) ↔
      (0 ≤ calls.fdRead ∧ 0 < calls.model) ∧
        (plain.tag = format.rkimageTag ∧ plain.size.toNat < 2 ^ 31 ∧
          (readAt source.package gFwOffset.toNat (plain.size.toNat + 4)).length =
            plain.size.toNat + 4 ∧
          (crc32 0 (readAt source.package gFwOffset.toNat plain.size.toNat)).toNat =
            fieldAt (readAt source.package (gFwOffset.toNat + plain.size.toNat) 4) 0 4) ∧
        hdr = adjustFileOffset plain gFwOffset := by
  have hreliable : ∀ {start total}, Reliable source start total := Or.inl hfile
  rw [checkHeader, hrsa]
  by_cases htag : plain.tag ≠ format.rkimageTag
  · rw [if_pos htag]
    exact ⟨fun h => absurd (congrArg Prod.fst h) (by decide : (-3 : Int) ≠ 0),
      fun h => absurd h.2.1.1 htag⟩
  rw [if_neg htag]
  have htagged := not_not.mp htag
  by_cases hmodel : calls.model ≤ 0
  · rw [if_pos hmodel]
    exact ⟨fun h => absurd (congrArg Prod.fst h) (by decide : (-4 : Int) ≠ 0),
      fun h => absurd h.1.2 (by omega)⟩
  rw [if_neg hmodel]
  dsimp only
  have hpasses : checkImageCrc crc32 source calls.fdRead gFwOffset plain.size = 0 ↔
      0 ≤ calls.fdRead ∧ plain.size.toNat < 2 ^ 31 ∧
        (readAt source.package gFwOffset.toNat (plain.size.toNat + 4)).length =
          plain.size.toNat + 4 ∧
        (crc32 0 (readAt source.package gFwOffset.toNat plain.size.toNat)).toNat =
          fieldAt (readAt source.package (gFwOffset.toNat + plain.size.toNat) 4) 0 4 := by
    by_cases hsize : plain.size.toNat < 2 ^ 31
    · rw [checkImageCrc_iff hcrc hsize hreliable]
      exact ⟨fun h => ⟨h.1, hsize, h.2⟩, fun h => ⟨h.1, h.2.2⟩⟩
    · rw [checkImageCrc_large_iff (Nat.le_of_not_lt hsize) hreliable]
      have hnonzero := (fieldAt_tag hheader hdecoded htagged).2
      exact ⟨fun h => absurd h.2.2 hnonzero, fun h => absurd h.2.1 hsize⟩
  by_cases hchecked : checkImageCrc crc32 source calls.fdRead gFwOffset plain.size ≠ 0
  · rw [if_pos hchecked]
    refine ⟨fun h => absurd (congrArg Prod.fst h) (by decide : (-6 : Int) ≠ 0), fun h => ?_⟩
    exact absurd (hpasses.mpr ⟨h.1.1, h.2.1.2⟩) hchecked
  rw [if_neg hchecked]
  obtain ⟨hopen, hgood⟩ := hpasses.mp (not_not.mp hchecked)
  have hadjusted : (if gFwOffset ≠ 0 then ((0 : Int), adjustFileOffset plain gFwOffset)
      else (0, plain)) = (0, adjustFileOffset plain gFwOffset) := by
    by_cases hoffset : gFwOffset ≠ 0
    · rw [if_pos hoffset]
    · rw [if_neg hoffset, not_not.mp hoffset, adjustFileOffset_zero]
  rw [hadjusted]
  constructor
  · intro h
    exact ⟨⟨hopen, by omega⟩, ⟨htagged, hgood⟩, (congrArg Prod.snd h).symm⟩
  · rintro ⟨-, -, rfl⟩
    rfl

end CheckImageFile

section Sample

/-- A header of tag and size. -/
def sampleFormat : HeaderFormat where
  headerSize := 8
  decode bytes := ⟨BitVec.ofNat 32 (fieldAt bytes 0 4), BitVec.ofNat 32 (fieldAt bytes 4 4), []⟩
  rkimageTag := 0x46414B52
  four_le := by decide
  tag_first bytes hbytes := by
    have hlt : ∀ block : List Byte, number block < 256 ^ block.length := by
      intro block
      induction block with
      | nil => decide
      | cons byte block ih =>
        have hbyte := byte.isLt
        rw [number, List.foldr_cons, List.length_cons, pow_succ]
        rw [number] at ih
        omega
    have hfield := hlt ((bytes.drop 0).take 4)
    have hlength : ((bytes.drop 0).take 4).length = 4 := by
      rw [List.length_take, List.drop_zero, hbytes]
      decide
    rw [hlength] at hfield
    exact Nat.mod_eq_of_lt hfield
  tag_ne_zero := by decide

/-- One bit of the CRC, the highest first. -/
def crcShift (crc : BitVec 32) : BitVec 32 :=
  if crc.msb then BitVec.shiftLeft crc 1 ^^^ 0x04C10DB7 else BitVec.shiftLeft crc 1

/-- `CRC_32_NEW`, without its table. -/
def crc32New (crc : BitVec 32) (bytes : List Byte) : BitVec 32 :=
  bytes.foldl (fun crc byte => crcShift^[8] (crc ^^^ BitVec.shiftLeft (byte.setWidth 32) 24)) crc

/-- The header alone, with the CRC of its bytes behind it. -/
def sampleBytes : List Byte :=
  [0x52, 0x4B, 0x41, 0x46, 8, 0, 0, 0] ++ [0x6E, 0x3B, 0x9F, 0x62]

def sampleFile : ImageSource where
  package i := if i < 512 then some (sampleBytes.getD i 0) else none
  gSrcIsFile := true
  sectorBuf := List.replicate sectorSize 0
  length_sectorBuf := List.length_replicate

end Sample

end RobotOta.ImageCheck
