import RobotOta.PartitionReaders

/-!
# Writing and comparing an image, byte by byte

The loops of `write_image` and `image_compare` over the bytes of the package and
of the destination, with their counters as 32-bit signed integers: the size and
the offset of an item are unsigned in the package and are put into an `int`. Any
system call may get less far than it is asked to. A destination is a partition;
no destination is a file here, since `dest_is_file` is never set.
-/

namespace RobotOta.ImageCopy

open BlockDevice CanFrameCodec PartitionReaders

/-- `RKIMAGE_ITEM`, as far as it is used here. -/
structure ImageItem where
  /-- The name in the header. -/
  name : String
  /-- Where the item begins in the package. -/
  offset : BitVec 32
  /-- The number of its bytes. -/
  size : BitVec 32
  deriving DecidableEq

/-- `FindItem`. -/
def findItem (hdr : List ImageItem) (name : String) : Option ImageItem :=
  hdr.find? fun item => item.name = name

/-- What a copy works on, and how far its system calls get. -/
structure Files where
  /-- The bytes of the update package. -/
  package : ℕ → Option Byte
  /-- The package is a file, not a partition. -/
  gSrcIsFile : Bool
  /-- What `open` returns for the package, and for the destination. -/
  fdSrc : Int
  /-- What `open` returns for the destination. -/
  fdDest : Int
  /-- The most bytes that the `n`-th read of the package gets. -/
  mostRead : ℕ → ℕ
  /-- The most bytes that the `n`-th read or write of the destination gets. -/
  mostAccess : ℕ → ℕ
  /-- What the sector buffer of `read_partition` holds at first. -/
  sectorBuf : List Byte

/-- The variables of the two loops, with the positions of the two files. -/
structure CopyState where
  /-- `src_remain`. -/
  srcRemain : ℤ
  /-- `dest_remain`. -/
  destRemain : ℤ
  /-- `src_file_offset`. -/
  srcFileOffset : ℤ
  /-- The position of the package. -/
  srcPosition : ℕ
  /-- The position of the destination. -/
  destPosition : ℕ
  /-- How many reads of the package and accesses of the destination there have been. -/
  reads : ℕ
  /-- How many reads and writes of the destination there have been. -/
  accesses : ℕ
  /-- The bytes of the destination. -/
  dest : ℕ → Byte

/-- `MY_READ`. -/
def myRead (files : Files) (state : CopyState) (size : ℕ) (data : ℕ → Byte) : ReaderEnd :=
  let read position count :=
    (readAt files.package position count).take (files.mostRead state.reads)
  if files.gSrcIsFile then
    readFile read state.srcPosition state.srcFileOffset size ⟨data, 0⟩
  else
    readPartition read state.srcPosition state.srcFileOffset size files.sectorBuf ⟨data, 0⟩

/-- The counters behind a read. -/
def CopyState.advance (state : CopyState) (readCount : ℤ) (position : ℕ) : CopyState :=
  { state with
    srcRemain := state.srcRemain - readCount
    srcFileOffset := int32 (state.srcFileOffset + readCount)
    srcPosition := position
    reads := state.reads + 1 }

/-- `write` on the destination: whether it is complete. -/
def writeData (files : Files) (state : CopyState) (data : List Byte) : Bool × CopyState :=
  let written := data.take (files.mostAccess state.accesses)
  (written.length = data.length,
    { state with
      destPosition := state.destPosition + written.length
      accesses := state.accesses + 1
      dest := store state.dest state.destPosition written })

/-- The writes of a parameter block, to so many of its places. -/
def writeParameter (files : Files) (data : List Byte) : (places : List ℕ) → CopyState →
    Bool × CopyState
  | [], state => (true, state)
  | place :: places, state =>
    match writeData files { state with destPosition := 512 * 1024 * place } data with
    | (false, state) => (false, state)
    | (true, state) => writeParameter files data places state

/-- `src_step` and `dest_step` of `write_image`. -/
def writeStep : ℕ := 16 * 1024

/-- `read_count` of both loops. -/
def readCount (step : ℕ) (state : CopyState) : ℤ :=
  if state.srcRemain > step then step else state.srcRemain

/-- `write_count`. -/
def writeCount (state : CopyState) : ℤ :=
  if state.srcRemain = 0 then state.destRemain else writeStep

/-- The loop of `write_image`; every round takes at least one byte, so the size
of the item bounds the number of rounds. -/
def writeLoop (files : Files) (destIsParameter : Bool) : (rounds : ℕ) → (bWrited : Bool) →
    CopyState → Int × CopyState
  | 0, _, state => (0, state)
  | rounds + 1, bWrited, state =>
    if 0 < state.srcRemain ∧ 0 < state.destRemain then
      match myRead files state (readCount writeStep state).toNat fun _ => 0 with
      | (ret, position, dataBuf) =>
        if ret ≠ 0 then (if bWrited then -1 else -2, state)
        else
          let state := state.advance (readCount writeStep state) position
          let data := firstCells dataBuf.cells writeStep
          match if destIsParameter then writeParameter files data [0, 1, 2, 3] state
            else writeData files state data with
          | (false, state) => (-1, state)
          | (true, state) =>
            writeLoop files destIsParameter rounds true
              { state with destRemain := state.destRemain - writeCount state }
    else (0, state)

/-- The variables in front of a loop. -/
def openState (item : ImageItem) (destIsParameter : Bool) (woffset : ℤ) (dest : ℕ → Byte) :
    CopyState where
  srcRemain := item.size.toInt
  destRemain := if destIsParameter then 16 * 1024 else item.size.toInt
  srcFileOffset := item.offset.toInt
  srcPosition := lseek 0 item.offset.toInt
  destPosition := lseek 0 woffset
  reads := 0
  accesses := 0
  dest := dest

/-- `write_image`: its result and the destination behind it. -/
def writeImage (files : Files) (hdr : List ImageItem) (src dest : String) (woffset : ℤ)
    (before : ℕ → Byte) : Int × (ℕ → Byte) :=
  match findItem hdr src with
  | none => (-4, before)
  | some pItem =>
    if files.fdSrc = 0 then (-5, before)
    else if files.fdDest < 0 then (-6, before)
    else
      let destIsParameter : Bool := dest = "/parameter"
      let (ret, state) := writeLoop files destIsParameter pItem.size.toInt.toNat false
        (openState pItem destIsParameter woffset before)
      (ret, state.dest)

/-- `COMPARE_BUFFER_SIZE`. -/
def compareStep : ℕ := 1024 * 1024

/-- What `malloc` gives for the two buffers of `image_compare`. -/
structure CompareBuffers where
  /-- What the buffer for the package holds at first, if there is memory for it. -/
  srcBuf : Option (ℕ → Byte)
  /-- The second result is not looked at; without memory every read into it fails. -/
  destGranted : Bool

/-- The read of `image_compare` from the destination. -/
def readDest (files : Files) (granted : Bool) (state : CopyState) : List Byte :=
  if granted then
    (readAt (fun place => some (state.dest place)) state.destPosition compareStep).take
      (files.mostAccess state.accesses)
  else []

/-- The loop of `image_compare`. The line that counts the destination down stands
behind the loop. -/
def compareLoop (files : Files) (granted : Bool) : (rounds : ℕ) → (srcBuf : ℕ → Byte) →
    CopyState → Int
  | 0, _, _ => 0
  | rounds + 1, srcBuf, state =>
    if 0 < state.srcRemain ∧ 0 < state.destRemain then
      let count := readCount compareStep state
      match myRead files state count.toNat srcBuf with
      | (ret, position, buffer) =>
        if ret ≠ 0 then -2
        else
          let destBuf := readDest files granted state
          if destBuf.length ≠ compareStep then -2
          else if firstCells buffer.cells count.toNat ≠ destBuf.take count.toNat then -1
          else
            compareLoop files granted rounds buffer.cells
              { state.advance count position with
                destPosition := state.destPosition + destBuf.length
                accesses := state.accesses + 1 }
    else 0

/-- `image_compare`. -/
def imageCompare (files : Files) (buffers : CompareBuffers) (hdr : List ImageItem)
    (src dest : String) (woffset : ℤ) (content : ℕ → Byte) : Int :=
  match findItem hdr src with
  | none => -4
  | some pItem =>
    if files.fdSrc = 0 then -5
    else if files.fdDest < 0 then -6
    else
      match buffers.srcBuf with
      | none => -7
      | some srcBuf =>
        compareLoop files buffers.destGranted pItem.size.toInt.toNat srcBuf
          (openState pItem (dest = "/parameter") woffset content)

/-- The destination holds the bytes of the item. -/
def HoldsItem (package : ℕ → Option Byte) (item : ImageItem) (woffset : ℕ) (dest : ℕ → Byte) :
    Prop :=
  ∀ i < item.size.toNat, package (item.offset.toNat + i) = some (dest (woffset + i))

/-- The bytes that the blocks of `write_image` cover. -/
def blockBytes (size : ℕ) : ℕ := (size + (writeStep - 1)) / writeStep * writeStep

/-- Where `write_image` returns zero it has written the item, and nothing beside
the blocks that hold it. -/
def WriteSound (item : ImageItem) (woffset : ℕ) : Prop :=
  ∀ (files : Files) (hdr : List ImageItem) (src dest : String) (before : ℕ → Byte),
    findItem hdr src = some item → dest ≠ "/parameter" → files.gSrcIsFile = true →
    (writeImage files hdr src dest woffset before).1 = 0 →
      HoldsItem files.package item woffset (writeImage files hdr src dest woffset before).2 ∧
        ∀ place, place < woffset ∨ woffset + blockBytes item.size.toNat ≤ place →
          (writeImage files hdr src dest woffset before).2 place = before place

/-- Where `image_compare` returns zero the destination holds the item. -/
def CompareSound (item : ImageItem) (woffset : ℕ) : Prop :=
  ∀ (files : Files) (buffers : CompareBuffers) (hdr : List ImageItem) (src dest : String)
    (content : ℕ → Byte),
    findItem hdr src = some item → dest ≠ "/parameter" → files.gSrcIsFile = true →
    imageCompare files buffers hdr src dest woffset content = 0 →
      HoldsItem files.package item woffset content

variable {files : Files} {state : CopyState} {size rounds : ℕ} {bWrited : Bool}

/-- Where the next read of the package starts. -/
def readStart (state : CopyState) : ℕ :=
  if 0 ≤ state.srcFileOffset then state.srcFileOffset.toNat else state.srcPosition

/-- A read that succeeds has put the bytes of the package into the buffer. -/
theorem myRead_zero (hfile : files.gSrcIsFile = true) {data : ℕ → Byte}
    (hret : (myRead files state size data).1 = 0) :
    (∀ i < size, files.package (readStart state + i) =
      some ((myRead files state size data).2.2.cells i)) ∧
      (myRead files state size data).2.1 = readStart state + size := by
  have hstart : (if 0 ≤ state.srcFileOffset then lseek state.srcPosition state.srcFileOffset
      else state.srcPosition) = readStart state := by
    rw [readStart, lseek]
    split_ifs <;> rfl
  simp only [myRead, hfile, if_true, readFile, hstart] at hret ⊢
  generalize hblock : (readAt files.package (readStart state) size).take
    (files.mostRead state.reads) = block at hret
  have hlength : block.length = size := by
    by_contra hne
    rw [if_pos hne] at hret
    exact absurd hret (by decide)
  have hfull : (readAt files.package (readStart state) size).length = size := by
    have hle := length_readAt_le files.package (readStart state) size
    rw [← hblock, List.length_take] at hlength
    omega
  refine ⟨fun i hi => ?_, by rw [hlength]⟩
  have hcell := memcpy_inside ⟨data, 0⟩ 0 (hlength.symm ▸ hi)
  rw [Nat.zero_add] at hcell
  have hget : (readAt files.package (readStart state) size)[i]? =
      files.package (readStart state + i) := getElem?_readAt (hfull.symm ▸ hi)
  rw [← hget, ← hcell, ← hblock, List.getElem?_take_of_lt]
  rw [← hblock, List.length_take] at hlength
  omega

/-- The number of bytes of a round. -/
theorem readCount_eq (step : ℕ) {remain : ℕ} (hremain : state.srcRemain = remain) :
    readCount step state = (min step remain : ℕ) := by
  rw [readCount, hremain]
  split_ifs <;> omega

theorem readCount_le (step : ℕ) (state : CopyState) : (readCount step state).toNat ≤ step := by
  rw [readCount]
  split_ifs <;> omega

/-- A complete write has stored its block. -/
theorem writeData_complete {data : List Byte} {next : CopyState}
    (hwrite : writeData files state data = (true, next)) :
    next = { state with
      destPosition := state.destPosition + data.length
      accesses := state.accesses + 1
      dest := store state.dest state.destPosition data } := by
  rw [writeData, Prod.mk.injEq, decide_eq_true_eq] at hwrite
  obtain ⟨hlength, hnext⟩ := hwrite
  have htake : data.take (files.mostAccess state.accesses) = data := by
    apply List.take_of_length_le
    rw [List.length_take] at hlength
    omega
  rw [← hnext, htake]

/-- What a round of `write_image` that goes on has done. -/
structure WriteRound (files : Files) (state next : CopyState) : Prop where
  copied : ∀ i < (readCount writeStep state).toNat,
    files.package (readStart state + i) = some (next.dest (state.destPosition + i))
  untouched : ∀ place, place < state.destPosition ∨ next.destPosition ≤ place →
    next.dest place = state.dest place
  srcRemain : next.srcRemain = state.srcRemain - readCount writeStep state
  destRemain : next.destRemain = state.destRemain -
    if next.srcRemain = 0 then state.destRemain else (writeStep : ℤ)
  srcFileOffset : next.srcFileOffset = int32 (state.srcFileOffset + readCount writeStep state)
  srcPosition : next.srcPosition = readStart state + (readCount writeStep state).toNat
  destPosition : next.destPosition = state.destPosition + writeStep

/-- A loop that ends with zero has gone through its round. -/
theorem writeLoop_round (hfile : files.gSrcIsFile = true) (hsrc : 0 < state.srcRemain)
    (hdest : 0 < state.destRemain)
    (hret : (writeLoop files false (rounds + 1) bWrited state).1 = 0) :
    ∃ next, WriteRound files state next ∧
      writeLoop files false (rounds + 1) bWrited state =
        writeLoop files false rounds true next := by
  have hcount := readCount_le writeStep state
  rw [writeLoop, if_pos ⟨hsrc, hdest⟩] at hret ⊢
  have hread := @myRead_zero files state (readCount writeStep state).toNat hfile fun _ => 0
  generalize myRead files state (readCount writeStep state).toNat (fun _ => 0) = ended
    at hret hread ⊢
  obtain ⟨ret, position, dataBuf⟩ := ended
  dsimp only at hret hread ⊢
  by_cases hzero : ret ≠ 0
  · rw [if_pos hzero] at hret
    dsimp only at hret
    split_ifs at hret
  rw [if_neg hzero] at hret ⊢
  obtain ⟨hcopied, hposition⟩ := hread (not_not.mp hzero)
  simp only [Bool.false_eq_true, if_false] at hret ⊢
  cases hwrite : writeData files (state.advance (readCount writeStep state) position)
      (firstCells dataBuf.cells writeStep) with
  | mk complete written =>
    rw [hwrite] at hret
    cases complete with
    | false =>
      have hfailed : (-1 : Int) = 0 := hret
      exact absurd hfailed (by decide)
    | true =>
      have hwritten := writeData_complete hwrite
      rw [length_firstCells] at hwritten
      subst hwritten
      refine ⟨_, ⟨fun i hi => ?_, fun place hplace => ?_, rfl, rfl, rfl, hposition, rfl⟩, rfl⟩
      · have hcell := @store_inside _ state.dest state.destPosition i
          (firstCells dataBuf.cells writeStep) (by rw [length_firstCells]; omega)
        rw [getElem?_firstCells (by omega)] at hcell
        exact (hcopied i hi).trans hcell
      · exact store_outside (by rw [length_firstCells]; exact hplace)

/-- The bytes of a run of cells are those of the package, and the cells beside
their blocks are as before. -/
structure Copied (package : ℕ → Option Byte) (start place count : ℕ) (before after : ℕ → Byte) :
    Prop where
  copied : ∀ i < count, package (start + i) = some (after (place + i))
  untouched : ∀ p, p < place ∨ place + blockBytes count ≤ p → after p = before p

/-- The counters stand in front of place `start` of the package, with `count`
bytes to go; an offset that has wrapped to a negative one stands for a file that
is in the right place already. -/
structure Aligned (state : CopyState) (start count : ℕ) : Prop where
  src : state.srcRemain = count
  offset : state.srcFileOffset = int32 start
  position : 2 ^ 31 ≤ start → state.srcPosition = start
  range : start + count < 2 ^ 32

theorem Aligned.readStart_eq {start count : ℕ} (h : Aligned state start count) :
    readStart state = start := by
  have hrange := h.range
  rw [readStart, h.offset]
  by_cases hnear : start < 2 ^ 31
  · rw [int32_eq (by omega) (by omega), if_pos (Int.natCast_nonneg start), Int.toNat_natCast]
  · rw [int32_neg (by omega) (by omega), if_neg (by omega)]
    exact h.position (Nat.le_of_not_lt hnear)

/-- A round leaves the counters in front of what follows. -/
theorem Aligned.behind {next : CopyState} {start count step : ℕ} (h : Aligned state start count)
    (hremain : next.srcRemain = state.srcRemain - readCount step state)
    (hoffset : next.srcFileOffset = int32 (state.srcFileOffset + readCount step state))
    (hposition : next.srcPosition = readStart state + (readCount step state).toNat) :
    Aligned next (start + min step count) (count - min step count) := by
  have hrange := h.range
  have hcount := readCount_eq step h.src
  refine ⟨?_, ?_, fun _ => ?_, by omega⟩
  · rw [hremain, h.src, hcount]
    omega
  · rw [hoffset, h.offset, hcount, int32_add]
    push_cast
    rfl
  · rw [hposition, h.readStart_eq, hcount, Int.toNat_natCast]

/-- The loop of `write_image`, from counters that are in place, copies what is left. -/
theorem writeLoop_copied (hfile : files.gSrcIsFile = true) {start count : ℕ}
    (haligned : Aligned state start count) (hdest : state.destRemain = count)
    (hrounds : count ≤ rounds) (hret : (writeLoop files false rounds bWrited state).1 = 0) :
    Copied files.package start state.destPosition count state.dest
      (writeLoop files false rounds bWrited state).2.dest := by
  have hstep : writeStep = 16384 := rfl
  induction rounds generalizing state start count bWrited with
  | zero =>
    obtain rfl : count = 0 := by omega
    exact ⟨fun i hi => absurd hi (Nat.not_lt_zero i), fun _ _ => rfl⟩
  | succ rounds ih =>
    by_cases hzero : count = 0
    · subst hzero
      have hsrc := haligned.src
      rw [writeLoop, if_neg (by omega)]
      exact ⟨fun i hi => absurd hi (Nat.not_lt_zero i), fun _ _ => rfl⟩
    have hsrc := haligned.src
    obtain ⟨next, hround, hloop⟩ := writeLoop_round hfile (by omega) (by omega) hret
    rw [hloop] at hret ⊢
    have hcount := readCount_eq writeStep hsrc
    have hnext := haligned.behind hround.srcRemain hround.srcFileOffset hround.srcPosition
    have hnextDest : next.destRemain = (count - min writeStep count : ℕ) := by
      rw [hround.destRemain, hnext.src, hdest]
      split_ifs <;> omega
    have hrest := ih hnext hnextDest (by omega) hret
    have hcopied := hround.copied
    rw [hcount, Int.toNat_natCast, haligned.readStart_eq] at hcopied
    have hblocks : blockBytes count =
        writeStep + blockBytes (count - min writeStep count) ∨ blockBytes count = writeStep ∧
          count - min writeStep count = 0 := by
      rw [blockBytes, blockBytes, hstep]
      omega
    have hplace := hround.destPosition
    refine ⟨equal_behind (min writeStep count) (fun i hi => ?_) (fun i hi => ?_), fun p hp => ?_⟩
    · rw [hrest.untouched _ (Or.inl (by omega))]
      exact hcopied i hi
    · have hcell : next.destPosition = state.destPosition + min writeStep count := by omega
      rw [← hcell]
      exact hrest.copied i hi
    · have hempty : blockBytes 0 = 0 := rfl
      rw [hrest.untouched p ?_, hround.untouched p (by omega)]
      rcases hblocks with hblocks | ⟨hblocks, hlast⟩
      · omega
      · rw [hlast, hempty]
        omega

/-- What a round of `image_compare` that goes on has found. -/
structure CompareRound (files : Files) (state next : CopyState) : Prop where
  equal : ∀ i < (readCount compareStep state).toNat,
    files.package (readStart state + i) = some (state.dest (state.destPosition + i))
  dest : next.dest = state.dest
  srcRemain : next.srcRemain = state.srcRemain - readCount compareStep state
  destRemain : next.destRemain = state.destRemain
  srcFileOffset : next.srcFileOffset = int32 (state.srcFileOffset + readCount compareStep state)
  srcPosition : next.srcPosition = readStart state + (readCount compareStep state).toNat
  destPosition : next.destPosition = state.destPosition + compareStep

/-- A complete read from the destination has its bytes. -/
theorem getElem?_readDest {granted : Bool}
    (hcomplete : (readDest files granted state).length = compareStep) {i : ℕ}
    (hi : i < compareStep) :
    (readDest files granted state)[i]? = some (state.dest (state.destPosition + i)) := by
  rw [readDest] at hcomplete ⊢
  split_ifs at hcomplete ⊢ with hgranted
  · rw [List.length_take] at hcomplete
    rw [List.getElem?_take_of_lt (by omega), getElem?_readAt (by omega)]
  · rw [List.length_nil] at hcomplete
    omega

/-- A loop that ends with zero has gone through its round. -/
theorem compareLoop_round {granted : Bool} {srcBuf : ℕ → Byte}
    (hfile : files.gSrcIsFile = true) (hsrc : 0 < state.srcRemain) (hdest : 0 < state.destRemain)
    (hret : compareLoop files granted (rounds + 1) srcBuf state = 0) :
    ∃ srcBuf next, CompareRound files state next ∧
      compareLoop files granted rounds srcBuf next = 0 := by
  have hcount := readCount_le compareStep state
  rw [compareLoop, if_pos ⟨hsrc, hdest⟩] at hret
  dsimp only at hret
  have hread := @myRead_zero files state (readCount compareStep state).toNat hfile srcBuf
  generalize myRead files state (readCount compareStep state).toNat srcBuf = ended at hret hread
  obtain ⟨ret, position, buffer⟩ := ended
  dsimp only at hret hread
  by_cases hzero : ret ≠ 0
  · rw [if_pos hzero] at hret
    exact absurd hret (by decide)
  rw [if_neg hzero] at hret
  obtain ⟨hcopied, hposition⟩ := hread (not_not.mp hzero)
  by_cases hcomplete : (readDest files granted state).length ≠ compareStep
  · rw [if_pos hcomplete] at hret
    exact absurd hret (by decide)
  rw [if_neg hcomplete] at hret
  by_cases hdiffers : firstCells buffer.cells (readCount compareStep state).toNat ≠
      (readDest files granted state).take (readCount compareStep state).toNat
  · rw [if_pos hdiffers] at hret
    exact absurd hret (by decide)
  rw [if_neg hdiffers] at hret
  refine ⟨_, _, ?_, hret⟩
  refine ⟨fun i hi => ?_, rfl, rfl, rfl, rfl, hposition, ?_⟩
  · have hcell := congrArg (fun block => block[i]?) (not_not.mp hdiffers)
    rw [getElem?_firstCells hi, List.getElem?_take_of_lt hi,
      getElem?_readDest (not_not.mp hcomplete) (by omega)] at hcell
    exact (hcopied i hi).trans hcell
  · exact congrArg (state.destPosition + ·) (not_not.mp hcomplete)

/-- The loop of `image_compare`, from counters that are in place, ends with zero
only where the destination has the bytes. -/
theorem compareLoop_equal {granted : Bool} {srcBuf : ℕ → Byte}
    (hfile : files.gSrcIsFile = true) {start count : ℕ} (haligned : Aligned state start count)
    (hdest : count = 0 ∨ 0 < state.destRemain) (hrounds : count ≤ rounds)
    (hret : compareLoop files granted rounds srcBuf state = 0) :
    ∀ i < count, files.package (start + i) = some (state.dest (state.destPosition + i)) := by
  induction rounds generalizing state start count srcBuf with
  | zero =>
    intro i hi
    omega
  | succ rounds ih =>
    intro i hi
    have hsrc := haligned.src
    obtain ⟨srcBuf, next, hround, hloop⟩ := compareLoop_round hfile (by omega) (by omega) hret
    have hcount := readCount_eq compareStep hsrc
    have hstep : compareStep = 1048576 := rfl
    have hrange := haligned.range
    have hequal := hround.equal
    rw [hcount, Int.toNat_natCast, haligned.readStart_eq] at hequal
    have hnext := haligned.behind hround.srcRemain hround.srcFileOffset hround.srcPosition
    have hrest := ih hnext (Or.inr (by rw [hround.destRemain]; omega)) (by omega) hloop
    have hplace := hround.destPosition
    refine equal_behind _ hequal (fun i hi => ?_) i hi
    have hcell : next.destPosition = state.destPosition + min compareStep count := by omega
    rw [← hcell, ← hround.dest]
    exact hrest i hi

section OpenState

variable {item : ImageItem} {woffset : ℕ} {dest : ℕ → Byte}

/-- The `int` that an unsigned value of 32 bits is put into. -/
theorem toInt_eq_int32 (x : BitVec 32) : x.toInt = int32 x.toNat := BitVec.toInt_eq_toNat_bmod x

/-- For an item in the signed range the counters start in place. -/
theorem aligned_openState (hsize : item.size.toNat < 2 ^ 31) (hoffset : item.offset.toNat < 2 ^ 31)
    (destIsParameter : Bool) :
    Aligned (openState item destIsParameter woffset dest) item.offset.toNat item.size.toNat := by
  refine ⟨?_, toInt_eq_int32 _, fun hfar => absurd hoffset (Nat.not_lt_of_le hfar), by omega⟩
  change item.size.toInt = _
  rw [toInt_eq_int32, int32_eq (by omega) (by omega)]

/-- Above it the size is negative. -/
theorem toInt_neg {x : BitVec 32} (h : 2 ^ 31 ≤ x.toNat) : x.toInt < 0 := by
  have hlt := x.isLt
  rw [toInt_eq_int32, int32_neg (by omega) (by omega)]
  omega

theorem toNat_toInt {x : BitVec 32} (h : x.toNat < 2 ^ 31) : x.toInt = x.toNat := by
  rw [toInt_eq_int32, int32_eq (by omega) (by omega)]

theorem destPosition_openState (destIsParameter : Bool) :
    (openState item destIsParameter woffset dest).destPosition = woffset := by
  rw [openState]
  dsimp only
  rw [lseek, if_pos (Int.natCast_nonneg woffset), Int.toNat_natCast]

end OpenState

/-- Within the signed range `write_image` is sound. -/
theorem writeSound_of_signed {item : ImageItem} (woffset : ℕ)
    (hsize : item.size.toNat < 2 ^ 31)
    (hoffset : item.size.toNat = 0 ∨ item.offset.toNat < 2 ^ 31) : WriteSound item woffset := by
  intro files hdr src dest before hfound hdest hfile hret
  rw [writeImage, hfound] at hret ⊢
  dsimp only at hret ⊢
  rw [decide_eq_false hdest] at hret ⊢
  by_cases hsrc : files.fdSrc = 0
  · rw [if_pos hsrc] at hret
    exact absurd hret (by decide : (-5 : Int) ≠ 0)
  by_cases hopen : files.fdDest < 0
  · rw [if_neg hsrc, if_pos hopen] at hret
    exact absurd hret (by decide : (-6 : Int) ≠ 0)
  rw [if_neg hsrc, if_neg hopen, toNat_toInt hsize, Int.toNat_natCast] at hret ⊢
  dsimp only at hret ⊢
  rcases hoffset with hzero | hoffset
  · rw [HoldsItem, hzero]
    exact ⟨fun i hi => absurd hi (Nat.not_lt_zero i), fun _ _ => rfl⟩
  · have hcopied := writeLoop_copied hfile (aligned_openState hsize hoffset false)
      (toNat_toInt hsize) le_rfl hret
    rw [destPosition_openState] at hcopied
    exact ⟨hcopied.copied, hcopied.untouched⟩

/-- So is `image_compare`. -/
theorem compareSound_of_signed {item : ImageItem} (woffset : ℕ)
    (hsize : item.size.toNat < 2 ^ 31)
    (hoffset : item.size.toNat = 0 ∨ item.offset.toNat < 2 ^ 31) : CompareSound item woffset := by
  intro files buffers hdr src dest content hfound hdest hfile hret
  rw [imageCompare, hfound] at hret
  dsimp only at hret
  rw [decide_eq_false hdest] at hret
  split_ifs at hret with hsrc hopen
  rw [toNat_toInt hsize, Int.toNat_natCast] at hret
  rcases hoffset with hzero | hoffset
  · rw [HoldsItem, hzero]
    exact fun i hi => absurd hi (Nat.not_lt_zero i)
  · cases hbuf : buffers.srcBuf with
    | none =>
      rw [hbuf] at hret
      exact absurd hret (by decide : (-7 : Int) ≠ 0)
    | some srcBuf =>
      rw [hbuf] at hret
      have hremain : (openState item false woffset content).destRemain = item.size.toNat :=
        toNat_toInt hsize
      have hequal := compareLoop_equal hfile (aligned_openState hsize hoffset false)
        (by omega) le_rfl hret
      rw [destPosition_openState] at hequal
      exact hequal

/-- What is written once stays. -/
theorem writeLoop_untouched (hfile : files.gSrcIsFile = true)
    (hret : (writeLoop files false rounds bWrited state).1 = 0) {place : ℕ}
    (hplace : place < state.destPosition) :
    (writeLoop files false rounds bWrited state).2.dest place = state.dest place := by
  induction rounds generalizing state bWrited with
  | zero => rfl
  | succ rounds ih =>
    by_cases hmore : 0 < state.srcRemain ∧ 0 < state.destRemain
    · obtain ⟨next, hround, hloop⟩ := writeLoop_round hfile hmore.1 hmore.2 hret
      have hposition := hround.destPosition
      rw [hloop] at hret ⊢
      rw [ih hret (by omega), hround.untouched place (Or.inl hplace)]
    · rw [writeLoop, if_neg hmore]

/-- The first cell is the byte where the first read starts. -/
theorem writeLoop_firstByte (hfile : files.gSrcIsFile = true) (hsrc : 0 < state.srcRemain)
    (hdest : 0 < state.destRemain)
    (hret : (writeLoop files false (rounds + 1) bWrited state).1 = 0) :
    files.package (readStart state) =
      some ((writeLoop files false (rounds + 1) bWrited state).2.dest state.destPosition) := by
  have hstep : writeStep = 16384 := rfl
  obtain ⟨next, hround, hloop⟩ := writeLoop_round hfile hsrc hdest hret
  have hposition := hround.destPosition
  have hcopied := hround.copied 0 (by
    rw [readCount]
    split_ifs <;> omega)
  rw [hloop] at hret ⊢
  rw [writeLoop_untouched hfile hret (by omega)]
  exact hcopied

/-- Files whose system calls get as far as they are asked to. -/
structure Unlimited (files : Files) : Prop where
  isFile : files.gSrcIsFile = true
  package : ∀ place, (files.package place).isSome
  mostRead : ∀ n, writeStep ≤ files.mostRead n
  mostAccess : ∀ n, writeStep ≤ files.mostAccess n

/-- On such files every write succeeds. -/
theorem writeLoop_unlimited (h : Unlimited files) :
    (writeLoop files false rounds bWrited state).1 = 0 := by
  induction rounds generalizing state bWrited with
  | zero => rfl
  | succ rounds ih =>
    rw [writeLoop]
    by_cases hmore : 0 < state.srcRemain ∧ 0 < state.destRemain
    · rw [if_pos hmore]
      have hcount := readCount_le writeStep state
      have hread : (myRead files state (readCount writeStep state).toNat fun _ => 0).1 = 0 := by
        rw [myRead, if_pos h.isFile, readFile]
        apply if_neg
        rw [not_not, List.length_take, length_readAt fun i _ => h.package _]
        have hmost := h.mostRead state.reads
        omega
      generalize myRead files state (readCount writeStep state).toNat (fun _ => 0) = ended at hread
      obtain ⟨ret, position, dataBuf⟩ := ended
      dsimp only at hread ⊢
      rw [hread, if_neg (by decide)]
      simp only [Bool.false_eq_true, if_false]
      have hwrite : (writeData files (state.advance (readCount writeStep state) position)
          (firstCells dataBuf.cells writeStep)).1 = true := by
        have hmost := h.mostAccess (state.advance (readCount writeStep state) position).accesses
        rw [writeData, decide_eq_true_eq, List.length_take, length_firstCells]
        omega
      generalize writeData files (state.advance (readCount writeStep state) position)
        (firstCells dataBuf.cells writeStep) = written at hwrite
      obtain ⟨complete, next⟩ := written
      dsimp only at hwrite
      subst hwrite
      exact ih
    · rw [if_neg hmore]

/-- A package with a mark at one place, on which every system call succeeds. -/
def markedFiles (mark : ℕ) : Files where
  package := markedDevice mark
  gSrcIsFile := true
  fdSrc := 3
  fdDest := 4
  mostRead := fun _ => writeStep
  mostAccess := fun _ => writeStep
  sectorBuf := []

theorem unlimited_markedFiles (mark : ℕ) : Unlimited (markedFiles mark) :=
  ⟨rfl, fun _ => rfl, fun _ => le_rfl, fun _ => le_rfl⟩

/-- On such files `write_image` writes the item of a header with nothing else. -/
theorem writeImage_marked (item : ImageItem) (woffset : ℕ) (before : ℕ → Byte) (mark : ℕ) :
    writeImage (markedFiles mark) [item] item.name "/system" woffset before =
      (0, (writeLoop (markedFiles mark) false item.size.toInt.toNat false
        (openState item false woffset before)).2.dest) := by
  have hzero := @writeLoop_unlimited _ (openState item false woffset before)
    item.size.toInt.toNat false (unlimited_markedFiles mark)
  have hfound : findItem [item] item.name = some item := by
    rw [findItem, List.find?_cons_of_pos (by simp)]
  have hsystem : decide ("/system" = "/parameter") = false := by decide
  have hsrc : ¬(markedFiles mark).fdSrc = 0 := (by decide : ¬(3 : Int) = 0)
  have hdest : ¬(markedFiles mark).fdDest < 0 := (by decide : ¬(4 : Int) < 0)
  rw [writeImage, hfound]
  dsimp only
  rw [hsystem, if_neg hsrc, if_neg hdest]
  exact Prod.ext hzero rfl

/-- Outside the signed range `write_image` returns zero without the item: it has
written nothing, or the package from its start on. -/
theorem not_writeSound {item : ImageItem} (woffset : ℕ) (hpos : item.size.toNat ≠ 0)
    (hfar : 2 ^ 31 ≤ item.size.toNat ∨ 2 ^ 31 ≤ item.offset.toNat) :
    ¬WriteSound item woffset := by
  intro hsound
  have hwritten := writeImage_marked item woffset (fun _ => 0) item.offset.toNat
  have hfound : findItem [item] item.name = some item := by
    rw [findItem, List.find?_cons_of_pos (by simp)]
  obtain ⟨hholds, -⟩ := hsound (markedFiles item.offset.toNat) [item] item.name "/system"
    (fun _ => 0) hfound (by decide) rfl (by rw [hwritten])
  have hfirst := hholds 0 (by omega)
  have hmark : (markedFiles item.offset.toNat).package (item.offset.toNat + 0) = some 1 :=
    congrArg some (if_pos rfl)
  rw [hwritten, hmark, Nat.add_zero] at hfirst
  dsimp only at hfirst
  by_cases hsize : 2 ^ 31 ≤ item.size.toNat
  · have hrounds : item.size.toInt.toNat = 0 := by
      have hneg := toInt_neg hsize
      omega
    rw [hrounds] at hfirst
    exact absurd hfirst (by decide : some (1 : Byte) ≠ some 0)
  · have hneg := toInt_neg (hfar.resolve_left hsize)
    obtain ⟨rounds, hrounds⟩ : ∃ rounds, item.size.toInt.toNat = rounds + 1 := by
      rw [toNat_toInt (by omega), Int.toNat_natCast]
      exact ⟨_, (Nat.succ_pred_eq_of_ne_zero hpos).symm⟩
    have hstart : readStart (openState item false woffset fun _ => 0) = 0 := by
      rw [readStart, openState]
      dsimp only
      rw [if_neg (by omega), lseek, if_neg (by omega)]
    have hremain : 0 < (openState item false woffset fun _ => 0).srcRemain := by
      change 0 < item.size.toInt
      rw [toNat_toInt (by omega)]
      omega
    have hbyte := @writeLoop_firstByte (markedFiles item.offset.toNat) _ rounds false rfl
      hremain hremain
      (writeLoop_unlimited (unlimited_markedFiles _))
    rw [hstart, destPosition_openState, ← hrounds, ← hfirst] at hbyte
    have hzero : (markedFiles item.offset.toNat).package 0 = some 0 :=
      congrArg some (if_neg (by omega))
    rw [hzero] at hbyte
    exact absurd hbyte (by decide)

/-- What `write_image` has written and `image_compare` has found equal is the
item of the package if and only if the item is empty or its size and its offset
are in the signed range. -/
theorem imageCopied_iff (item : ImageItem) (woffset : ℕ) :
    WriteSound item woffset ∧ CompareSound item woffset ↔
      item.size.toNat = 0 ∨ item.size.toNat < 2 ^ 31 ∧ item.offset.toNat < 2 ^ 31 := by
  constructor
  · rintro ⟨hwrite, -⟩
    by_contra hcondition
    rw [not_or, not_and_or, Nat.not_lt, Nat.not_lt] at hcondition
    exact not_writeSound woffset hcondition.1 hcondition.2 hwrite
  · intro hcondition
    have hsize : item.size.toNat < 2 ^ 31 := by omega
    have hoffset : item.size.toNat = 0 ∨ item.offset.toNat < 2 ^ 31 := by omega
    exact ⟨writeSound_of_signed woffset hsize hoffset, compareSound_of_signed woffset hsize hoffset⟩

/-- An item of 2 GiB: nothing is written, and zero is returned. -/
theorem not_imageCopied_large :
    ¬(WriteSound ⟨"system", 0, 0x80000000⟩ 0 ∧ CompareSound ⟨"system", 0, 0x80000000⟩ 0) :=
  fun h => not_writeSound 0 (by decide) (Or.inl (by decide)) h.1

end RobotOta.ImageCopy
