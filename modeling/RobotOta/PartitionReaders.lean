import RobotOta.BlockDevice
import RobotOta.CanFrameCodec
import Mathlib.Tactic.Ring

/-!
# The two readers behind `MY_READ`

`read_file` seeks and reads; `read_partition` reads the sector around the start,
then sector by sector, and clips the last one. The caller's buffer is recorded
with the cells that have been stored into it. Products and conversions of `int`
are reduced to 32 bits; `off_t` has 64, as the file asks for.
-/

namespace RobotOta.PartitionReaders

open BlockDevice CanFrameCodec

/-- What `read` gets at a place of the file, for so many bytes. -/
abbrev Read := (position count : ℕ) → List Byte

/-- The buffer behind `data`. -/
structure Buffer where
  /-- The bytes from `data` on, however many there are. -/
  cells : ℕ → Byte
  /-- One behind the last cell that has been stored. -/
  reached : ℕ

/-- `memcpy` into the buffer. -/
def Buffer.memcpy (buffer : Buffer) (place : ℕ) (block : List Byte) : Buffer where
  cells := store buffer.cells place block
  reached := if block = [] then buffer.reached else max buffer.reached (place + block.length)

/-- The position of the file behind `lseek`, which refuses a negative target. -/
def lseek (position : ℕ) (target : ℤ) : ℕ := if 0 ≤ target then target.toNat else position

/-- The result of a reader, the position of the file and the buffer behind it. -/
abbrev ReaderEnd := Int × ℕ × Buffer

/-- `read_file`. -/
def readFile (read : Read) (position : ℕ) (offset : ℤ) (size : ℕ) (buffer : Buffer) :
    ReaderEnd :=
  let position := if 0 ≤ offset then lseek position offset else position
  let block := read position size
  (if block.length ≠ size then -1 else 0, position + block.length, buffer.memcpy 0 block)

/-- The bytes of a sector. -/
def sectorSize : ℕ := 512

/-- The loop of `read_partition`, with `data` at `place`; every round takes at
least one byte, so what remains bounds the number of rounds. -/
def sectorLoop (read : Read) : (rounds position place : ℕ) → (remain : ℤ) → Buffer → ReaderEnd
  | 0, position, _, _, buffer => (0, position, buffer)
  | rounds + 1, position, place, remain, buffer =>
    if 0 < remain then
      let buf := read position sectorSize
      if buf.length ≠ sectorSize then (-1, position + buf.length, buffer)
      else if remain > sectorSize then
        sectorLoop read rounds (position + sectorSize) (place + sectorSize) (remain - sectorSize)
          (buffer.memcpy place buf)
      else
        sectorLoop read rounds (position + sectorSize) (place + remain.toNat) 0
          (buffer.memcpy place (buf.take remain.toNat))
    else (0, position, buffer)

/-- The target of the seek of `read_partition`, computed in `int`. -/
def sectorStart (offset : ℤ) : ℤ := int32 (int32 (offset / sectorSize) * sectorSize)

/-- `read_partition`; `buf` is what its sector buffer holds at first. -/
def readPartition (read : Read) (position : ℕ) (offset : ℤ) (size : ℕ) (buf : List Byte)
    (buffer : Buffer) : ReaderEnd :=
  if 0 ≤ offset then
    let n := (offset % sectorSize).toNat
    let position := lseek position (sectorStart offset)
    if n ≠ 0 then
      -- the result of this read is not looked at
      let block := read position sectorSize
      let buf := block ++ buf.drop block.length
      sectorLoop read size (position + block.length) (sectorSize - n)
        ((size : ℤ) - (sectorSize - n : ℕ)) (buffer.memcpy 0 ((buf.drop n).take (sectorSize - n)))
    else sectorLoop read size position 0 size buffer
  else sectorLoop read size position 0 size buffer

/-- The sectors that cover the bytes in question can be read. -/
def SectorsReadable (device : ℕ → Option Byte) (offset size : ℕ) : Prop :=
  ∀ i < size, ∀ place, place / sectorSize = (offset + i) / sectorSize → (device place).isSome

/-- The reader has stored the bytes of the device, and nothing behind them. -/
structure ReadsBytes (device : ℕ → Option Byte) (offset size : ℕ) (ended : ReaderEnd) : Prop where
  zero : ended.1 = 0
  stored : ∀ i < size, device (offset + i) = some (ended.2.2.cells i)
  inside : ended.2.2.reached ≤ size

/-- Both readers read the same bytes, wherever the file stands and whatever the
buffers hold. -/
def ReadersAgree (offset size : ℕ) : Prop :=
  ∀ (device : ℕ → Option Byte) (position : ℕ) (cells : ℕ → Byte) (buf : List Byte),
    buf.length = sectorSize → SectorsReadable device offset size →
      ReadsBytes device offset size
          (readPartition (readAt device) position offset size buf ⟨cells, 0⟩) ∧
        ReadsBytes device offset size (readFile (readAt device) position offset size ⟨cells, 0⟩)

section Buffer

variable {buffer : Buffer} {place i : ℕ} {block : List Byte}

theorem memcpy_outside (h : i < place ∨ place + block.length ≤ i) :
    (buffer.memcpy place block).cells i = buffer.cells i := store_outside h

theorem memcpy_inside (buffer : Buffer) (place : ℕ) (h : i < block.length) :
    block[i]? = some ((buffer.memcpy place block).cells (place + i)) := store_inside h

theorem reached_memcpy_le {limit : ℕ} (hbuffer : buffer.reached ≤ limit)
    (hblock : place + block.length ≤ limit) : (buffer.memcpy place block).reached ≤ limit := by
  rw [Buffer.memcpy]
  dsimp only
  split_ifs
  · exact hbuffer
  · exact max_le hbuffer hblock

theorem le_reached_memcpy (buffer : Buffer) (place : ℕ) (hblock : block ≠ []) :
    place + block.length ≤ (buffer.memcpy place block).reached := by
  rw [Buffer.memcpy]
  dsimp only
  rw [if_neg hblock]
  exact le_max_right _ _

end Buffer

variable {device : ℕ → Option Byte} {position offset size : ℕ} {buffer : Buffer}

/-- What stands in the buffer behind a reader that has stored `count` bytes of
the device at `place`. -/
structure Filled (device : ℕ → Option Byte) (source place count : ℕ) (before : Buffer)
    (ended : ReaderEnd) : Prop where
  zero : ended.1 = 0
  stored : ∀ i < count, device (source + i) = some (ended.2.2.cells (place + i))
  kept : ∀ i < place, ended.2.2.cells i = before.cells i
  reached : ∀ limit, before.reached ≤ limit → place + count ≤ limit → ended.2.2.reached ≤ limit

/-- A reader that is asked for nothing more is done. -/
theorem filled_nothing (device : ℕ → Option Byte) (source place position : ℕ) (buffer : Buffer) :
    Filled device source place 0 buffer (0, position, buffer) :=
  ⟨rfl, fun i hi => absurd hi (Nat.not_lt_zero i), fun _ _ => rfl, fun _ h _ => h⟩

/-- A block of the device comes in front of what is read behind it. -/
theorem Filled.behind {count : ℕ} {ended : ReaderEnd} (source place : ℕ) (block : List Byte)
    (hblock : ∀ i < block.length, block[i]? = device (source + i))
    (h : Filled device (source + block.length) (place + block.length) count
      (buffer.memcpy place block) ended) :
    Filled device source place (block.length + count) buffer ended := by
  have hfront : ∀ i < block.length, device (source + i) = some (ended.2.2.cells (place + i)) := by
    intro i hi
    rw [h.kept (place + i) (by omega), ← hblock i hi]
    exact memcpy_inside _ _ hi
  refine ⟨h.zero, equal_behind _ hfront fun i hi => h.stored i (by omega), fun i hi => ?_,
    fun limit hbefore hlimit => ?_⟩
  · rw [h.kept i (by omega)]
    exact memcpy_outside (Or.inl hi)
  · exact h.reached limit (reached_memcpy_le hbefore (by omega)) (by omega)

/-- With nothing left to read the loop stops at once. -/
theorem sectorLoop_done {read : Read} {remain : ℤ} (h : remain ≤ 0) (rounds position place : ℕ)
    (buffer : Buffer) :
    sectorLoop read rounds position place remain buffer = (0, position, buffer) := by
  cases rounds with
  | zero => rfl
  | succ rounds => rw [sectorLoop, if_neg (by omega)]

/-- With readable sectors in front of it the loop takes the bytes one after the other. -/
theorem sectorLoop_filled {rounds place remain : ℕ} (hrounds : remain ≤ rounds)
    (hread : ∀ i < remain, ∀ j < sectorSize,
      (device (position + i / sectorSize * sectorSize + j)).isSome) (buffer : Buffer) :
    Filled device position place remain buffer
      (sectorLoop (readAt device) rounds position place remain buffer) := by
  by_cases hzero : remain = 0
  · subst hzero
    rw [sectorLoop_done (by simp)]
    exact filled_nothing device position place position buffer
  induction rounds generalizing position place remain buffer with
  | zero => omega
  | succ rounds ih =>
    have hsector : sectorSize = 512 := rfl
    have hfull : (readAt device position sectorSize).length = sectorSize := by
      apply length_readAt
      intro j hj
      have hj' := hread 0 (by omega) j hj
      rwa [Nat.zero_div, Nat.zero_mul, Nat.add_zero] at hj'
    have hget : ∀ i < sectorSize, (readAt device position sectorSize)[i]? =
        device (position + i) := fun i hi => getElem?_readAt (hfull.symm ▸ hi)
    rw [sectorLoop, if_pos (by omega)]
    dsimp only
    rw [if_neg (not_not.mpr hfull)]
    by_cases hmore : (remain : ℤ) > sectorSize
    · -- a whole sector, and the rest by induction
      rw [if_pos hmore]
      have hnext : ∀ i < remain - sectorSize, ∀ j < sectorSize,
          (device (position + sectorSize + i / sectorSize * sectorSize + j)).isSome := by
        intro i hi j hj
        have hj' := hread (i + sectorSize) (by omega) j hj
        have hplace : position + (i / sectorSize + 1) * sectorSize + j =
            position + sectorSize + i / sectorSize * sectorSize + j := by ring
        rwa [Nat.add_div_right i (by decide), hplace] at hj'
      have hrest := @ih (position + sectorSize) (place + sectorSize) (remain - sectorSize)
        (by omega) hnext (buffer.memcpy place (readAt device position sectorSize)) (by omega)
      have hremain : ((remain - sectorSize : ℕ) : ℤ) = (remain : ℤ) - sectorSize := by omega
      rw [hremain] at hrest
      have hall := Filled.behind position place (readAt device position sectorSize)
        (fun i hi => hget i (hfull ▸ hi)) (by rwa [hfull])
      rwa [hfull, Nat.add_sub_of_le (by omega)] at hall
    · -- the last sector, of which the front is taken
      rw [if_neg hmore, Int.toNat_natCast, sectorLoop_done le_rfl]
      have hlast : ((readAt device position sectorSize).take remain).length = remain := by
        rw [List.length_take]
        omega
      have hall := Filled.behind position place ((readAt device position sectorSize).take remain)
        (fun i hi => by
          rw [List.getElem?_take_of_lt (hlast ▸ hi)]
          exact hget i (by omega))
        (filled_nothing device _ (place + _) (position + sectorSize) (buffer.memcpy place _))
      rwa [hlast, Nat.add_zero] at hall

/-- Where the bytes can be read, `read_file` reads them. -/
theorem readFile_filled {start : ℕ} {target : ℤ}
    (hstart : (if 0 ≤ target then lseek position target else position) = start)
    (hread : ∀ i < size, (device (start + i)).isSome) (buffer : Buffer) :
    Filled device start 0 size buffer
      (readFile (readAt device) position target size buffer) := by
  have hfull := length_readAt hread
  have hall := Filled.behind start 0 (readAt device start size)
    (fun i hi => getElem?_readAt hi)
    (filled_nothing device _ _ (start + size) (buffer.memcpy 0 _))
  rw [hfull, Nat.add_zero] at hall
  rwa [readFile, hstart, hfull, if_neg (not_not.mpr rfl)]

/-- `read_partition` from the sector that it has found, if the first sector does
not hold more than is asked for. -/
theorem readPartition_filled {start : ℕ} {buf : List Byte} (hbuf : buf.length = sectorSize)
    (hstart : lseek position (sectorStart offset) = start)
    (hfits : offset % sectorSize = 0 ∨ sectorSize - offset % sectorSize ≤ size)
    (hread : ∀ i < size, ∀ j < sectorSize,
      (device (start + (offset % sectorSize + i) / sectorSize * sectorSize + j)).isSome)
    (buffer : Buffer) :
    Filled device (start + offset % sectorSize) 0 size buffer
      (readPartition (readAt device) position offset size buf buffer) := by
  have hsector : sectorSize = 512 := rfl
  have hcast : ((offset : ℤ) % (sectorSize : ℤ)).toNat = offset % sectorSize := by omega
  rw [readPartition, if_pos (Int.natCast_nonneg offset)]
  dsimp only
  rw [hcast, hstart]
  by_cases haligned : offset % sectorSize = 0
  · rw [if_neg (not_not.mpr haligned), haligned, Nat.add_zero]
    refine sectorLoop_filled le_rfl (fun i hi j hj => ?_) buffer
    have hj' := hread i hi j hj
    rwa [haligned, Nat.zero_add] at hj'
  have hsize := hfits.resolve_left haligned
  have hn : offset % sectorSize < sectorSize := Nat.mod_lt _ (by decide)
  rw [if_pos haligned]
  have hfull : (readAt device start sectorSize).length = sectorSize := by
    apply length_readAt
    intro j hj
    have hj' := hread 0 (by omega) j hj
    have hfirst : (offset % sectorSize + 0) / sectorSize = 0 := Nat.div_eq_of_lt hn
    rwa [hfirst, Nat.zero_mul, Nat.add_zero] at hj'
  have hempty : buf.drop sectorSize = [] := List.drop_eq_nil_of_le hbuf.le
  rw [hfull, hempty, List.append_nil]
  have hhead : (((readAt device start sectorSize).drop (offset % sectorSize)).take
      (sectorSize - offset % sectorSize)).length = sectorSize - offset % sectorSize := by
    rw [List.length_take, List.length_drop]
    omega
  have hremain : ((size - (sectorSize - offset % sectorSize) : ℕ) : ℤ) =
      (size : ℤ) - (sectorSize - offset % sectorSize : ℕ) := by omega
  rw [← hremain]
  have hnext : ∀ i < size - (sectorSize - offset % sectorSize), ∀ j < sectorSize,
      (device (start + sectorSize + i / sectorSize * sectorSize + j)).isSome := by
    intro i hi j hj
    have hj' := hread (sectorSize - offset % sectorSize + i) (by omega) j hj
    have hsum : offset % sectorSize + (sectorSize - offset % sectorSize + i) =
        i + sectorSize := by omega
    have hplace : start + (i / sectorSize + 1) * sectorSize + j =
        start + sectorSize + i / sectorSize * sectorSize + j := by ring
    rwa [hsum, Nat.add_div_right i (by decide), hplace] at hj'
  have hrest := @sectorLoop_filled device (start + sectorSize) size
    (sectorSize - offset % sectorSize) _ (Nat.sub_le size _) hnext
    (buffer.memcpy 0 (((readAt device start sectorSize).drop (offset % sectorSize)).take
      (sectorSize - offset % sectorSize)))
  have hbehind : start + offset % sectorSize + (sectorSize - offset % sectorSize) =
      start + sectorSize := by omega
  have hall := Filled.behind (start + offset % sectorSize) 0
    (((readAt device start sectorSize).drop (offset % sectorSize)).take
      (sectorSize - offset % sectorSize))
    (fun i hi => by
      rw [hhead] at hi
      rw [List.getElem?_take_of_lt hi, List.getElem?_drop, getElem?_readAt (by omega),
        ← Nat.add_assoc])
    (by rwa [hhead, hbehind, Nat.zero_add])
  rwa [hhead, Nat.add_sub_of_le hsize] at hall

/-- A reader that has filled the buffer from the right place has read the bytes. -/
theorem Filled.readsBytes {cells : ℕ → Byte} {ended : ReaderEnd}
    (h : Filled device offset 0 size ⟨cells, 0⟩ ended) : ReadsBytes device offset size ended := by
  refine ⟨h.zero, fun i hi => ?_, h.reached size (Nat.zero_le _) (by omega)⟩
  have hstored := h.stored i hi
  rwa [Nat.zero_add] at hstored

/-- Up to 2^31 the start of the sector is computed as it is. -/
theorem sectorStart_eq (h : offset < 2 ^ 31) :
    sectorStart offset = (offset / sectorSize * sectorSize : ℕ) := by
  have hsector : sectorSize = 512 := rfl
  rw [sectorStart, hsector, int32_eq (x := (offset : ℤ) / (512 : ℕ)) (by omega) (by omega),
    int32_eq (by omega) (by omega)]
  push_cast
  rfl

theorem sectorStart_lt (offset : ℤ) : sectorStart offset < 2 ^ 31 := int32_lt _

/-- The start is a multiple of the sector size in any case. -/
theorem sectorStart_emod (offset : ℤ) : sectorStart offset % 512 = 0 := by
  have hsector : sectorSize = 512 := rfl
  rw [sectorStart, hsector]
  generalize int32 (offset / (512 : ℕ)) = m
  rw [int32_def]
  split_ifs <;> omega

/-- From 2^31 on the file is not where it should be, if it has not been there before. -/
theorem start_ne_offset (hoffset : 2 ^ 31 ≤ offset) :
    lseek (offset + 1) (sectorStart offset) + offset % sectorSize ≠ offset := by
  have hlt := sectorStart_lt offset
  have hmod := sectorStart_emod offset
  have hn : offset % sectorSize < 512 := Nat.mod_lt _ (by decide)
  rw [lseek]
  split_ifs <;> omega

/-- A sector that holds more than is asked for is copied beyond the buffer. -/
theorem readPartition_overruns {buf : List Byte}
    (hover : ¬(offset % sectorSize = 0 ∨ sectorSize - offset % sectorSize ≤ size)) :
    size <
      (readPartition (readAt fun _ => some 0) position offset size buf buffer).2.2.reached := by
  have hsector : sectorSize = 512 := rfl
  have hn : offset % sectorSize < sectorSize := Nat.mod_lt _ (by decide)
  have hcast : ((offset : ℤ) % (sectorSize : ℤ)).toNat = offset % sectorSize := by omega
  rw [not_or] at hover
  rw [readPartition, if_pos (Int.natCast_nonneg offset)]
  dsimp only
  rw [hcast, if_pos hover.1, sectorLoop_done (by omega)]
  have hfull : (readAt (fun _ => some (0 : Byte)) (lseek position (sectorStart offset))
      sectorSize).length = sectorSize := length_readAt fun _ _ => rfl
  have hlength : (((readAt (fun _ => some (0 : Byte)) (lseek position (sectorStart offset))
      sectorSize ++ buf.drop (readAt (fun _ => some (0 : Byte))
        (lseek position (sectorStart offset)) sectorSize).length).drop
          (offset % sectorSize)).take (sectorSize - offset % sectorSize)).length =
      sectorSize - offset % sectorSize := by
    rw [List.length_take, List.length_drop, List.length_append, hfull]
    omega
  have hblock := le_reached_memcpy buffer 0
    (List.ne_nil_of_length_pos (by rw [hlength]; omega))
  rw [hlength] at hblock
  dsimp only
  omega

/-- A device with a mark at one place. -/
def markedDevice (mark place : ℕ) : Option Byte := some (if place = mark then 1 else 0)

/-- The two readers agree if and only if there is nothing to read from the start
of a sector, or the start lies below 2^31 and a first sector that is entered in
the middle holds no more than is asked for. -/
theorem readersAgree_iff (offset size : ℕ) :
    ReadersAgree offset size ↔
      offset % sectorSize = 0 ∧ size = 0 ∨
        offset < 2 ^ 31 ∧ (offset % sectorSize = 0 ∨ sectorSize - offset % sectorSize ≤ size) := by
  have hn : offset % sectorSize < sectorSize := Nat.mod_lt _ (by decide)
  constructor
  · intro hagree
    have hfits : offset % sectorSize = 0 ∨ sectorSize - offset % sectorSize ≤ size := by
      by_contra hover
      have hread := hagree (fun _ => some 0) 0 (fun _ => 0) (List.replicate sectorSize 0)
        List.length_replicate fun _ _ _ _ => rfl
      have hreached := hread.1.inside
      exact absurd hreached (Nat.not_le_of_lt (readPartition_overruns hover))
    by_cases hzero : size = 0
    · exact Or.inl ⟨hfits.resolve_right (by omega), hzero⟩
    refine Or.inr ⟨?_, hfits⟩
    by_contra hfar
    have hread := hagree (markedDevice offset) (offset + 1) (fun _ => 0)
      (List.replicate sectorSize 0) List.length_replicate fun _ _ _ _ => rfl
    have hfilled := @readPartition_filled (markedDevice offset) (offset + 1) offset size _ _
      (List.length_replicate (a := (0 : Byte))) rfl hfits (fun _ _ _ _ => rfl) ⟨fun _ => 0, 0⟩
    have hstored := hread.1.stored 0 (by omega)
    have hother := hfilled.stored 0 (by omega)
    rw [← hstored, Nat.add_zero, markedDevice, markedDevice,
      if_neg (start_ne_offset (Nat.le_of_not_lt hfar)), if_pos (Nat.add_zero offset)] at hother
    exact absurd hother (by decide)
  · intro hcondition device position cells buf hbuf hreadable
    have hfits : offset % sectorSize = 0 ∨ sectorSize - offset % sectorSize ≤ size := by
      rcases hcondition with ⟨haligned, -⟩ | ⟨-, hfits⟩
      · exact Or.inl haligned
      · exact hfits
    have hseek : (if 0 ≤ (offset : ℤ) then lseek position offset else position) = offset := by
      simp [lseek]
    refine ⟨?_, (readFile_filled hseek
      (fun i hi => hreadable i hi _ rfl) ⟨cells, 0⟩).readsBytes⟩
    rcases hcondition with ⟨haligned, rfl⟩ | ⟨hnear, -⟩
    · have hfilled := @readPartition_filled device position offset 0 _ _ hbuf rfl hfits
        (fun i hi => absurd hi (Nat.not_lt_zero i)) ⟨cells, 0⟩
      exact ⟨hfilled.zero, fun i hi => absurd hi (Nat.not_lt_zero i),
        hfilled.reached 0 le_rfl le_rfl⟩
    · have hstart : lseek position (sectorStart offset) = offset / sectorSize * sectorSize := by
        rw [sectorStart_eq hnear, lseek, if_pos (Int.natCast_nonneg _), Int.toNat_natCast]
      have hplace : offset / sectorSize * sectorSize + offset % sectorSize = offset :=
        Nat.div_add_mod' offset sectorSize
      have hfilled := readPartition_filled hbuf hstart hfits
        (fun i hi j hj => hreadable i hi _ (by
          have hsum : offset + i = offset % sectorSize + i + offset / sectorSize * sectorSize := by
            omega
          rw [hsum, Nat.add_mul_div_right _ _ (by decide), Nat.add_assoc, Nat.add_comm (_ * _),
            Nat.add_mul_div_right _ _ (by decide), Nat.add_comm (_ * _),
            Nat.add_mul_div_right _ _ (by decide), Nat.div_eq_of_lt hj, Nat.zero_add]))
        ⟨cells, 0⟩
      rw [hplace] at hfilled
      exact hfilled.readsBytes

/-- One byte from the second byte of a sector: `read_partition` stores 511. -/
theorem not_readersAgree_insideSector : ¬ReadersAgree 1 1 := by
  intro hagree
  have hread := hagree (fun _ => some 0) 0 (fun _ => 0) (List.replicate sectorSize 0)
    List.length_replicate fun _ _ _ _ => rfl
  exact absurd hread.1.inside (Nat.not_le_of_lt (readPartition_overruns (by decide)))

end RobotOta.PartitionReaders
