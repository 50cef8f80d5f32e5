import RobotOta.ImageCopy
import RobotOta.RkImageInstall

/-!
# Installing out of files

The installation of an image asks for whole blocks of the package and of a
partition, at places that are natural numbers. The requests are answered here out
of the files of the byte loops, whose system calls may get less far. Then the
blocks come to what `write_image` and `image_compare` do with their `int`s,
wherever an item ends below 2 GiB.
-/

namespace RobotOta.ImageRequests

open BlockDevice CanFrameCodec PartitionReaders RequestProgram RecoveryRequests ImageCopy

/-- The item as the installation takes it. -/
def rkItem (item : ImageItem) : RkItem := ⟨item.name, item.offset.toNat, item.size.toNat⟩

/-- Where the system calls stand, and what the destination holds. -/
structure Medium where
  /-- How many reads of the package there have been. -/
  reads : ℕ
  /-- How many reads and writes of the destination there have been. -/
  accesses : ℕ
  /-- The bytes of the destination. -/
  dest : ℕ → Byte

/-- That part of the variables of the loops. -/
def mediumOf (state : CopyState) : Medium := ⟨state.reads, state.accesses, state.dest⟩

/-- A block that is all there. -/
def whole (count : ℕ) (block : List Byte) : Option (List Byte) :=
  if block.length = count then some block else none

/-- What a request of the two loops comes to. -/
def fileReply (files : Files) : (r : RecoveryRequest) → Medium → RecoveryAnswer r × Medium
  | .openSource _, medium => (files.fdSrc, medium)
  | .openPartitionPath _, medium => (files.fdDest, medium)
  | .readSource _ offset count, medium =>
    (whole count ((readAt files.package offset count).take (files.mostRead medium.reads)),
      { medium with reads := medium.reads + 1 })
  | .readPartition _ position count, medium =>
    (whole count ((readAt (fun place => some (medium.dest place)) position count).take
      (files.mostAccess medium.accesses)), { medium with accesses := medium.accesses + 1 })
  | .writePartition _ position data, medium =>
    let written := data.take (files.mostAccess medium.accesses)
    (decide (written.length = data.length),
      { medium with
        accesses := medium.accesses + 1
        dest := store medium.dest position written })
  | r, medium => (calmReply r, medium)

section Blocks

variable {files : Files} {state : CopyState} {block : List Byte} {count offset : ℕ}

/-- A block stored over zeros, up to the end of its buffer. -/
theorem firstCells_stored (h : block.length ≤ count) :
    firstCells (store (fun _ => 0) 0 block) count =
      block ++ List.replicate (count - block.length) 0 := by
  refine List.ext_getElem? fun i => ?_
  by_cases hcount : i < count
  · rw [getElem?_firstCells hcount]
    by_cases hblock : i < block.length
    · rw [List.getElem?_append_left hblock, @store_inside _ (fun _ => 0) 0 i block hblock,
        Nat.zero_add]
    · rw [List.getElem?_append_right (by omega), List.getElem?_replicate_of_lt (by omega),
        store_outside (Or.inr (by omega))]
  · rw [List.getElem?_eq_none (by rw [length_firstCells]; omega), List.getElem?_eq_none]
    rw [List.length_append, List.length_replicate]
    omega

/-- The first cells under a block are the block. -/
theorem firstCells_block (cells : ℕ → Byte) (block : List Byte) :
    firstCells (store cells 0 block) block.length = block := by
  refine List.ext_getElem? fun i => ?_
  by_cases hblock : i < block.length
  · rw [getElem?_firstCells hblock, @store_inside _ cells 0 i block hblock, Nat.zero_add]
  · rw [List.getElem?_eq_none (by rw [length_firstCells]; omega),
      List.getElem?_eq_none (by omega)]

/-- What the next read of the package gets. -/
def nextBlock (files : Files) (state : CopyState) (offset count : ℕ) : List Byte :=
  (readAt files.package offset count).take (files.mostRead state.reads)

/-- A read of a package that is a file. -/
theorem myRead_block (hfile : files.gSrcIsFile = true) (hoffset : state.srcFileOffset = offset)
    (count : ℕ) (data : ℕ → Byte) :
    myRead files state count data =
      (if (nextBlock files state offset count).length ≠ count then -1 else 0,
        offset + (nextBlock files state offset count).length,
        Buffer.memcpy ⟨data, 0⟩ 0 (nextBlock files state offset count)) := by
  have hseek : (if 0 ≤ (offset : ℤ) then lseek state.srcPosition offset else state.srcPosition) =
      offset := by
    rw [if_pos (Int.natCast_nonneg offset), lseek, if_pos (Int.natCast_nonneg offset),
      Int.toNat_natCast]
  rw [myRead, if_pos hfile, hoffset, readFile, hseek]
  rfl

end Blocks

section Loops

variable {files : Files} {state : CopyState} {package dest : String} {isParameter : Bool}
  {srcRemain destRemain offset position rounds : ℕ}

/-- The numbers of the installation are the variables of the byte loop. -/
structure Follows (state : CopyState) (isParameter : Bool)
    (srcRemain destRemain offset position : ℕ) : Prop where
  /-- What is left of the item. -/
  srcRemain_eq : state.srcRemain = srcRemain
  /-- What is left of the destination. -/
  destRemain_eq : state.destRemain.toNat = destRemain
  /-- Where the next read starts. -/
  srcFileOffset_eq : state.srcFileOffset = offset
  /-- The item ends below 2 GiB. -/
  range : offset + srcRemain < 2 ^ 31
  /-- Where the next block goes; a parameter block has its own places. -/
  destPosition_eq : isParameter = false → state.destPosition = position

/-- Both loops go on together. -/
theorem Follows.goesOn_iff (h : Follows state isParameter srcRemain destRemain offset position) :
    0 < srcRemain ∧ 0 < destRemain ↔ 0 < state.srcRemain ∧ 0 < state.destRemain := by
  have hsrc := h.srcRemain_eq
  have hdest := h.destRemain_eq
  omega

/-- A round takes the same number of bytes in both. -/
theorem Follows.readCount_eq (h : Follows state isParameter srcRemain destRemain offset position)
    (step : ℕ) :
    readCount step state = ((if srcRemain > step then step else srcRemain : ℕ) : ℤ) := by
  rw [readCount, h.srcRemain_eq]
  split_ifs <;> omega

/-- A round's read gets its block, if it is all there. -/
theorem fileReply_readSource (count : ℕ) :
    fileReply files (.readSource package offset count) (mediumOf state) =
      (whole count (nextBlock files state offset count),
        mediumOf (state.advance count (offset + (nextBlock files state offset count).length))) :=
  rfl

/-- A write goes as far as that of the byte loop. -/
theorem fileReply_writePartition {data : List Byte} {complete : Bool} {next : CopyState}
    (h : writeData files state data = (complete, next)) :
    fileReply files (.writePartition dest state.destPosition data) (mediumOf state) =
      (complete, mediumOf next) := by
  have hreply : fileReply files (.writePartition dest state.destPosition data) (mediumOf state) =
    ((writeData files state data).1, mediumOf (writeData files state data).2) := rfl
  rw [hreply, h]

/-- The writes of a parameter block. -/
theorem writeParameter_run (data : List Byte) (places : List ℕ) (state : CopyState) :
    (RkImageInstall.writeParameter dest data places).run (fileReply files) (mediumOf state) =
      ((writeParameter files data places state).1,
        mediumOf (writeParameter files data places state).2) := by
  induction places generalizing state with
  | nil => rfl
  | cons place places ih =>
    rw [RkImageInstall.writeParameter, writeParameter]
    refine (run_ask_bind _ _ _ _).trans ?_
    cases hwrite : writeData files { state with destPosition := 512 * 1024 * place } data with
    | mk complete next =>
      have hreply : fileReply files
          (.writePartition dest (RkImageInstall.parameterStep * place) data) (mediumOf state) =
          (complete, mediumOf next) := fileReply_writePartition hwrite
      rw [hreply]
      cases complete with
      | false => rfl
      | true => exact ih next

/-- The result of the installation, and what the destination holds. -/
def outcome (ended : Int × Medium) : Int × (ℕ → Byte) := (ended.1, ended.2.dest)

/-- The same of the byte loop. -/
def loopOutcome (ended : Int × CopyState) : Int × (ℕ → Byte) := (ended.1, ended.2.dest)

/-- A round that has written its block leads on, or ends both loops. -/
theorem roundEnds_eq {complete : Bool} {next : CopyState} {more : RecoveryM Int}
    {rest : CopyState → Int × CopyState}
    (h : complete = true →
      outcome (more.run (fileReply files) (mediumOf next)) = loopOutcome (rest next)) :
    outcome ((if complete then more else pure (-1) : RecoveryM Int).run (fileReply files)
        (mediumOf next)) =
      loopOutcome (match (complete, next) with
        | (false, state) => (-1, state)
        | (true, state) => rest state) := by
  cases complete with
  | false => rfl
  | true => exact h rfl

/-- Writes leave the counters of the loop alone. -/
def SameCounters (state next : CopyState) : Prop :=
  next.srcRemain = state.srcRemain ∧ next.destRemain = state.destRemain ∧
    next.srcFileOffset = state.srcFileOffset

theorem writeParameter_counters (data : List Byte) (places : List ℕ) (state : CopyState) :
    SameCounters state (writeParameter files data places state).2 := by
  induction places generalizing state with
  | nil => exact ⟨rfl, rfl, rfl⟩
  | cons place places ih =>
    rw [writeParameter]
    cases hwrite : writeData files { state with destPosition := 512 * 1024 * place } data with
    | mk complete next =>
      have hnext : SameCounters state next := by
        obtain rfl := congrArg Prod.snd hwrite
        exact ⟨rfl, rfl, rfl⟩
      cases complete with
      | false => exact hnext
      | true =>
        obtain ⟨hsrc, hdest, hoffset⟩ := ih next
        exact ⟨hsrc.trans hnext.1, hdest.trans hnext.2.1, hoffset.trans hnext.2.2⟩

/-- What a round leaves to the next one. -/
theorem Follows.next {next : CopyState} {count start : ℕ}
    (h : Follows state isParameter srcRemain destRemain offset position)
    (hcount : (if srcRemain > writeStep then writeStep else srcRemain) = count)
    (hnext : SameCounters (state.advance count start) next)
    (hposition : isParameter = false → next.destPosition = state.destPosition + writeStep) :
    Follows { next with destRemain := next.destRemain - writeCount next } isParameter
      (srcRemain - count) (destRemain - if srcRemain - count = 0 then destRemain else writeStep)
      (offset + count) (position + writeStep) := by
  obtain ⟨hsrc, hdest, hoffset⟩ := hnext
  have hle : count ≤ srcRemain := by
    rw [← hcount]
    split_ifs <;> omega
  have hleft : next.srcRemain = (srcRemain - count : ℕ) := by
    rw [hsrc, CopyState.advance, h.srcRemain_eq, Nat.cast_sub hle]
  have hrange := h.range
  refine ⟨hleft, ?_, ?_, by omega, fun hno => ?_⟩
  · have hremain : next.destRemain = state.destRemain := hdest
    have hwritten : writeCount next =
        if srcRemain - count = 0 then state.destRemain else (writeStep : ℤ) := by
      rw [writeCount, hleft, hremain]
      simp only [Nat.cast_eq_zero]
    have hnat := h.destRemain_eq
    dsimp only
    rw [hwritten, hremain]
    split_ifs <;> omega
  · have hsum : next.srcFileOffset = int32 (state.srcFileOffset + count) := hoffset
    rw [hsum, h.srcFileOffset_eq, int32_eq (by omega) (by omega), Nat.cast_add]
  · rw [hposition hno, h.destPosition_eq hno]

/-- Behind a block that has been written as a whole. -/
theorem Follows.written {data : List Byte} {next : CopyState} {count start : ℕ}
    (h : Follows state false srcRemain destRemain offset position)
    (hcount : (if srcRemain > writeStep then writeStep else srcRemain) = count)
    (hsize : data.length = writeStep)
    (hwrite : writeData files (state.advance count start) data = (true, next)) :
    Follows { next with destRemain := next.destRemain - writeCount next } false
      (srcRemain - count) (destRemain - if srcRemain - count = 0 then destRemain else writeStep)
      (offset + count) (position + writeStep) := by
  have hnext := writeData_complete hwrite
  have hposition : next.destPosition = state.destPosition + writeStep := by
    rw [hnext, ← hsize]
    rfl
  have hcounters : SameCounters (state.advance count start) next := by
    rw [hnext]
    exact ⟨rfl, rfl, rfl⟩
  exact h.next hcount hcounters fun _ => hposition

/-- The copy loop over the files ends as the byte loop does. -/
theorem writeLoop_run (hfile : files.gSrcIsFile = true) {bWrited : Bool}
    (h : Follows state isParameter srcRemain destRemain offset position) :
    outcome ((RkImageInstall.writeLoop package dest isParameter rounds srcRemain destRemain offset
      position bWrited).run (fileReply files) (mediumOf state)) =
      loopOutcome (writeLoop files isParameter rounds bWrited state) := by
  induction rounds generalizing state srcRemain destRemain offset position bWrited with
  | zero => rfl
  | succ rounds ih =>
    rw [RkImageInstall.writeLoop, writeLoop]
    by_cases hgoes : 0 < srcRemain ∧ 0 < destRemain
    · rw [if_pos hgoes, if_pos (h.goesOn_iff.mp hgoes), h.readCount_eq]
      generalize hcount : (if srcRemain > writeStep then writeStep else srcRemain) = count
      have hcount' : (if srcRemain > RkImageInstall.writeStep then RkImageInstall.writeStep
        else srcRemain) = count := hcount
      rw [Int.toNat_natCast, myRead_block hfile h.srcFileOffset_eq, hcount']
      refine (congrArg outcome (run_ask_bind _ _ _ _)).trans ?_
      rw [fileReply_readSource]
      generalize nextBlock files state offset count = block
      rw [whole]
      by_cases hlength : block.length = count
      · rw [if_pos hlength, if_neg (not_not.mpr hlength)]
        have hle : block.length ≤ writeStep := by
          rw [hlength, ← hcount]
          split_ifs <;> omega
        have hdata : firstCells (Buffer.memcpy ⟨fun _ => 0, 0⟩ 0 block).cells writeStep =
            block ++ List.replicate (RkImageInstall.writeStep - block.length) 0 :=
          firstCells_stored hle
        have hsize := length_firstCells (Buffer.memcpy ⟨fun _ => 0, 0⟩ 0 block).cells writeStep
        dsimp only
        rw [if_neg (not_not.mpr rfl)]
        generalize firstCells (Buffer.memcpy ⟨fun _ => 0, 0⟩ 0 block).cells writeStep = data
          at hdata hsize ⊢
        rw [← hdata]
        cases isParameter with
        | true =>
          simp only [if_true]
          refine (congrArg outcome (run_bind _ _ _ _)).trans ?_
          have hcounters := @writeParameter_counters files data [0, 1, 2, 3]
            (state.advance count (offset + block.length))
          rw [writeParameter_run]
          generalize writeParameter files data [0, 1, 2, 3]
            (state.advance count (offset + block.length)) = written at hcounters ⊢
          obtain ⟨complete, next⟩ := written
          exact roundEnds_eq fun _ => ih (h.next hcount hcounters fun hno => Bool.noConfusion hno)
        | false =>
          simp only [Bool.false_eq_true, if_false]
          obtain rfl := h.destPosition_eq rfl
          refine (congrArg outcome (run_ask_bind _ _ _ _)).trans ?_
          cases hwrite : writeData files (state.advance count (offset + block.length)) data with
          | mk complete next =>
            have hreply : fileReply files (.writePartition dest state.destPosition data)
                (mediumOf (state.advance count (offset + block.length))) =
                (complete, mediumOf next) := fileReply_writePartition hwrite
            rw [hreply]
            refine roundEnds_eq fun hcomplete => ?_
            subst hcomplete
            exact ih (h.written hcount hsize hwrite)
      · rw [if_neg hlength, if_pos hlength]
        rfl
    · rw [if_neg hgoes, if_neg (h.goesOn_iff.not.mp hgoes)]
      rfl

/-- The variables behind a round of the comparison. -/
def compared (state : CopyState) (count start : ℕ) : CopyState :=
  { state.advance count start with
    destPosition := state.destPosition + compareStep
    accesses := state.accesses + 1 }

theorem Follows.compared {count start : ℕ}
    (h : Follows state false srcRemain destRemain offset state.destPosition)
    (hcount : (if srcRemain > compareStep then compareStep else srcRemain) = count) :
    Follows (compared state count start) false (srcRemain - count) destRemain (offset + count)
      (state.destPosition + compareStep) := by
  have hle : count ≤ srcRemain := by
    rw [← hcount]
    split_ifs <;> omega
  have hrange := h.range
  refine ⟨?_, h.destRemain_eq, ?_, by omega, fun _ => rfl⟩
  · have hleft : (ImageRequests.compared state count start).srcRemain =
        state.srcRemain - count := rfl
    rw [hleft, h.srcRemain_eq, Nat.cast_sub hle]
  · have hsum : (ImageRequests.compared state count start).srcFileOffset =
        int32 (state.srcFileOffset + count) := rfl
    rw [hsum, h.srcFileOffset_eq, int32_eq (by omega) (by omega), Nat.cast_add]

/-- The compare loop over the files ends as the byte loop does, if there is memory for
both of its buffers. -/
theorem compareLoop_run (hfile : files.gSrcIsFile = true) {srcBuf : ℕ → Byte}
    (h : Follows state false srcRemain destRemain offset position) :
    ((RkImageInstall.compareLoop package dest rounds srcRemain destRemain offset position).run
      (fileReply files) (mediumOf state)).1 = compareLoop files true rounds srcBuf state := by
  induction rounds generalizing state srcRemain offset position srcBuf with
  | zero => rfl
  | succ rounds ih =>
    rw [RkImageInstall.compareLoop, compareLoop]
    by_cases hgoes : 0 < srcRemain ∧ 0 < destRemain
    · rw [if_pos hgoes, if_pos (h.goesOn_iff.mp hgoes), h.readCount_eq]
      generalize hcount : (if srcRemain > compareStep then compareStep else srcRemain) = count
      have hcount' : (if srcRemain > RkImageInstall.compareStep then RkImageInstall.compareStep
        else srcRemain) = count := hcount
      dsimp only
      rw [Int.toNat_natCast, myRead_block hfile h.srcFileOffset_eq, hcount']
      obtain rfl := h.destPosition_eq rfl
      refine (congrArg Prod.fst (run_ask_bind _ _ _ _)).trans ?_
      rw [fileReply_readSource]
      generalize nextBlock files state offset count = block
      rw [whole]
      by_cases hlength : block.length = count
      · rw [if_pos hlength, if_neg (not_not.mpr hlength)]
        dsimp only
        rw [if_neg (not_not.mpr rfl)]
        refine (congrArg Prod.fst (run_ask_bind _ _ _ _)).trans ?_
        have hdest : fileReply files (.readPartition dest state.destPosition compareStep)
            (mediumOf (state.advance count (offset + block.length))) =
            (whole compareStep (readDest files true state),
              mediumOf (compared state count (offset + block.length))) := rfl
        have hstep : RkImageInstall.compareStep = compareStep := rfl
        rw [hstep, hdest, whole]
        by_cases hcomplete : (readDest files true state).length = compareStep
        · rw [if_pos hcomplete, if_neg (not_not.mpr hcomplete), hcomplete]
          have hcells : firstCells (Buffer.memcpy ⟨srcBuf, 0⟩ 0 block).cells count = block := by
            rw [← hlength]
            exact firstCells_block srcBuf block
          dsimp only
          rw [hcells, List.take_of_length_le hlength.le]
          by_cases hequal : block = (readDest files true state).take count
          · rw [if_neg (not_not.mpr hequal), if_neg (not_not.mpr hequal)]
            exact ih (h.compared hcount)
          · rw [if_pos hequal, if_pos hequal]
            rfl
        · rw [if_neg hcomplete, if_pos hcomplete]
          rfl
      · rw [if_neg hlength, if_pos hlength]
        rfl
    · rw [if_neg hgoes, if_neg (h.goesOn_iff.not.mp hgoes)]
      rfl

end Loops

section Images

variable {files : Files} {hdr : List ImageItem} {src dest : String}

/-- Every item ends below 2 GiB. -/
def Small (hdr : List ImageItem) : Prop :=
  ∀ item ∈ hdr, item.offset.toNat + item.size.toNat < 2 ^ 31

theorem findItem_map (hdr : List ImageItem) (name : String) :
    RkImageInstall.findItem (hdr.map rkItem) name = (findItem hdr name).map rkItem :=
  List.find?_map ..

/-- In front of the loops. -/
theorem follows_openState {item : ImageItem}
    (hrange : item.offset.toNat + item.size.toNat < 2 ^ 31) (isParameter destIsParameter : Bool)
    (dest : ℕ → Byte) :
    Follows (openState item destIsParameter 0 dest) isParameter item.size.toNat
      (if destIsParameter then writeStep else item.size.toNat) item.offset.toNat 0 where
  srcRemain_eq := toNat_toInt (by omega)
  destRemain_eq := by
    rw [openState]
    dsimp only
    rw [toNat_toInt (by omega)]
    split_ifs <;> rfl
  srcFileOffset_eq := toNat_toInt (by omega)
  range := hrange
  destPosition_eq := fun _ => rfl

/-- A loop of as many rounds as the item has bytes. -/
theorem rounds_eq {item : ImageItem} (hrange : item.offset.toNat + item.size.toNat < 2 ^ 31) :
    item.size.toInt.toNat = item.size.toNat := by
  rw [toNat_toInt (by omega), Int.toNat_natCast]

theorem fileReply_openSource (package : String) (medium : Medium) :
    fileReply files (.openSource package) medium = (files.fdSrc, medium) := rfl

theorem fileReply_openPartitionPath (dest : String) (medium : Medium) :
    fileReply files (.openPartitionPath dest) medium = (files.fdDest, medium) := rfl

/-- `write_image` of the installation is that of the byte loops. -/
theorem writeImage_run (hfile : files.gSrcIsFile = true) (hsmall : Small hdr) (package : String)
    (before : ℕ → Byte) :
    outcome ((RkImageInstall.writeImage package (hdr.map rkItem) src dest).run (fileReply files)
      ⟨0, 0, before⟩) = writeImage files hdr src dest 0 before := by
  rw [RkImageInstall.writeImage, writeImage, findItem_map]
  cases hitem : findItem hdr src with
  | none => rfl
  | some pItem =>
    have hrange := hsmall pItem (List.mem_of_find?_eq_some hitem)
    refine (congrArg outcome (run_ask_bind _ _ _ _)).trans ?_
    rw [fileReply_openSource]
    by_cases hsrc : files.fdSrc = 0
    · rw [if_pos hsrc]
      dsimp only
      rw [if_pos hsrc]
      rfl
    · rw [if_neg hsrc]
      dsimp only
      rw [if_neg hsrc]
      refine (congrArg outcome (run_ask_bind _ _ _ _)).trans ?_
      rw [fileReply_openPartitionPath]
      by_cases hdest : files.fdDest < 0
      · rw [if_pos hdest, if_pos hdest]
        rfl
      · rw [if_neg hdest, if_neg hdest]
        have hfollows := follows_openState hrange (decide (dest = "/parameter"))
          (decide (dest = "/parameter")) before
        simp only [decide_eq_true_eq] at hfollows
        rw [rounds_eq hrange]
        exact writeLoop_run hfile hfollows

/-- So is `image_compare`, with memory for both of its buffers. -/
theorem imageCompare_run (hfile : files.gSrcIsFile = true) (hsmall : Small hdr)
    (package : String) (srcBuf content : ℕ → Byte) :
    ((RkImageInstall.imageCompare package (hdr.map rkItem) src dest).run (fileReply files)
      ⟨0, 0, content⟩).1 = imageCompare files ⟨some srcBuf, true⟩ hdr src dest 0 content := by
  rw [RkImageInstall.imageCompare, imageCompare, findItem_map]
  cases hitem : findItem hdr src with
  | none => rfl
  | some pItem =>
    have hrange := hsmall pItem (List.mem_of_find?_eq_some hitem)
    refine (congrArg Prod.fst (run_ask_bind _ _ _ _)).trans ?_
    rw [fileReply_openSource]
    by_cases hsrc : files.fdSrc = 0
    · rw [if_pos hsrc]
      dsimp only
      rw [if_pos hsrc]
      rfl
    · rw [if_neg hsrc]
      dsimp only
      rw [if_neg hsrc]
      refine (congrArg Prod.fst (run_ask_bind _ _ _ _)).trans ?_
      rw [fileReply_openPartitionPath]
      by_cases hdest : files.fdDest < 0
      · rw [if_pos hdest, if_pos hdest]
        rfl
      · rw [if_neg hdest, if_neg hdest]
        have hfollows := follows_openState hrange false (decide (dest = "/parameter")) content
        simp only [decide_eq_true_eq] at hfollows
        rw [rounds_eq hrange]
        exact compareLoop_run hfile hfollows

/-- So an item that the installation has written is in the partition, byte by byte. -/
theorem writeImage_holds (hfile : files.gSrcIsFile = true) (hsmall : Small hdr)
    (package : String) (before : ℕ → Byte) {item : ImageItem} (hitem : findItem hdr src = some item)
    (hdest : dest ≠ "/parameter")
    (hret : ((RkImageInstall.writeImage package (hdr.map rkItem) src dest).run (fileReply files)
      ⟨0, 0, before⟩).1 = 0) :
    HoldsItem files.package item 0
      ((RkImageInstall.writeImage package (hdr.map rkItem) src dest).run (fileReply files)
        ⟨0, 0, before⟩).2.dest := by
  have hrun := @writeImage_run files hdr src dest hfile hsmall package before
  have hrange := hsmall item (List.mem_of_find?_eq_some hitem)
  obtain ⟨hfirst, hsecond⟩ := Prod.mk.inj hrun
  rw [hsecond]
  rw [hfirst] at hret
  exact (writeSound_of_signed 0 (by omega) (by omega) files hdr src dest before hitem hdest hfile
    hret).1

end Images

end RobotOta.ImageRequests
