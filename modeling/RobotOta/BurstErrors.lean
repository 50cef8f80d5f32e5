import RobotOta.BoardUpgrade
import RobotOta.ShiftRegister

/-!
# Short error bursts and the checksum of a chunk

`crc16` as a feedback shift register of 16 bits that takes the data bit by bit.
Two arrays of one length that differ, but only inside 16 consecutive bits, have
different checksums, so the CRC command tells them apart.
-/

namespace RobotOta.BurstErrors

open ByteBuffer CanFrameCodec BoardUpgrade ShiftRegister

/-- The polynomial of `crc16`, lowest power at the top. -/
def crcPoly : BitVec 16 := 0xA001

/-- The bits of a byte, the least significant first. -/
def byteBits (byte : Byte) : List Bool := (List.range 8).map byte.getLsbD

/-- The bits of an array, byte by byte. -/
def dataBits (data : List Byte) : List Bool := data.flatMap byteBits

/-- Two arrays of one length that differ, but only inside some window of 16
consecutive bits. -/
structure BurstError (data received : List Byte) : Prop where
  same_length : data.length = received.length
  differ : data ≠ received
  inside : ∃ start, ∀ i, (dataBits data)[i]? ≠ (dataBits received)[i]? →
    start ≤ i ∧ i < start + 16

@[simp] theorem length_byteBits (byte : Byte) : (byteBits byte).length = 8 := by
  rw [byteBits, List.length_map, List.length_range]

theorem length_dataBits (data : List Byte) : (dataBits data).length = 8 * data.length := by
  induction data with
  | nil => rfl
  | cons byte data ih =>
    rw [dataBits, List.flatMap_cons, List.length_append, ← dataBits, length_byteBits, ih,
      List.length_cons]
    omega

/-- A byte is the word of its bits. -/
theorem pack_byteBits (byte : Byte) : pack 16 (byteBits byte) = byte.setWidth 16 := by
  apply BitVec.eq_of_getLsbD_eq
  intro i hi
  rw [getLsbD_pack, BitVec.getLsbD_setWidth]
  congr 1
  by_cases hbyte : i < 8
  · simp [byteBits, hbyte]
  · rw [List.getD_eq_getElem?_getD, List.getElem?_eq_none (by rw [length_byteBits]; omega),
      Option.getD_none, BitVec.getLsbD_of_ge _ _ (by omega)]

/-- Bytes with the same bits are the same. -/
theorem byteBits_injective : Function.Injective byteBits := by
  intro byte byte' h
  apply BitVec.eq_of_getLsbD_eq
  intro i hi
  have hbit := congrArg (fun bits : List Bool => bits[i]?) h
  simpa [byteBits, hi] using hbit

/-- Arrays with the same bits are the same. -/
theorem dataBits_injective : Function.Injective dataBits :=
  flatMap_injective (by decide) length_byteBits byteBits_injective

/-- The low bit of the register decides the step of the code. -/
theorem crc16Bit_eq_advance (crc : BitVec 16) : crc16Bit crc = advance crcPoly crc := by
  have hlow : crc &&& 1 ≠ 0 ↔ crc.getLsbD 0 = true := by
    have hmask : crc &&& 1 = (BitVec.ofBool (crc.getLsbD 0)).setWidth 16 :=
      BitVec.and_one_eq_setWidth_ofBool_getLsbD
    rw [hmask]
    cases crc.getLsbD 0 <;> decide
  unfold crc16Bit advance crcPoly
  simp only [hlow]

/-- The code's checksum is that of a register fed with the bits. -/
theorem crc16_eq_feed (data : List Byte) : crc16 data = feed crcPoly 0xFFFF (dataBits data) := by
  have hstep : ∀ crc byte, crc16Bit^[8] (crc ^^^ byte.setWidth 16) =
      feed crcPoly crc (byteBits byte) := by
    intro crc byte
    rw [feed_eq_iterate crcPoly crc (by rw [length_byteBits]; decide), length_byteBits,
      pack_byteBits]
    exact congrFun (congrArg (fun step => step^[8]) (funext crc16Bit_eq_advance)) _
  rw [crc16, dataBits, feed, List.foldl_flatMap]
  exact congrArg (fun step => data.foldl step 0xFFFF) (funext fun crc => funext (hstep crc))

/-- `crc16` detects every burst of at most 16 bits, in arrays of any length. -/
theorem crc16_detects_burst (data received : List Byte) (h : BurstError data received) :
    crc16 data ≠ crc16 received := by
  obtain ⟨hlen, hne, start, hinside⟩ := h
  have hbits : (dataBits data).length = (dataBits received).length := by
    rw [length_dataBits, length_dataBits, hlen]
  rw [crc16_eq_feed, crc16_eq_feed]
  exact feed_ne_of_window (by decide) _ hbits (fun hsame => hne (dataBits_injective hsame)) hinside

/-- A burst over the border of two bytes is detected. -/
theorem crc16_detects_burst_twoBytes : crc16 [0x00, 0x80, 0x01] ≠ crc16 [0x00, 0x00, 0x00] := by
  refine crc16_detects_burst _ _ ⟨rfl, by decide, 15, ?_⟩
  intro i hi
  by_contra hout
  apply hi
  have hcases : i < 15 ∨ 24 ≤ i := by omega
  rcases hcases with hlow | hhigh
  · have hall : ∀ i < 15, (dataBits [0x00, 0x80, 0x01])[i]? =
        (dataBits [0x00, 0x00, 0x00])[i]? := by decide
    exact hall i hlow
  · have hend : ∀ data : List Byte, data.length = 3 → (dataBits data)[i]? = none := by
      intro data hlen
      rw [List.getElem?_eq_none (by rw [length_dataBits, hlen]; omega)]
    rw [hend _ rfl, hend _ rfl]

end RobotOta.BurstErrors
