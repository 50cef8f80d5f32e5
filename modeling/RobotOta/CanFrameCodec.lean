import RobotOta.BitField
import RobotOta.ByteBuffer

/-!
# The flexcan frame codec

`flexcan_send` spreads priority, source, destination and fragment count over
the 29-bit extended identifier and lays the payload out in one of two ways,
selected by the fragment count. `flexcan_recv` undoes both. Masks and offsets
are the source's own constants; the flags of the identifier word are those of
the socket interface the source includes.
-/

namespace RobotOta.CanFrameCodec

open BitField ByteBuffer

/-- One byte of payload, and every `uint8_t` field. -/
abbrev Byte := BitVec 8

/-- `CAN_DATA_MAX_LEN`. -/
def canDataMaxLen : ℕ := 8

/-- `CAN_SUB_PACKET_OFFSET`: packet id and fragment number precede the data. -/
def canSubPacketOffset : ℕ := 2

/-- `CAN_SUB_PACKET_SIZE`. -/
def canSubPacketSize : ℕ := canDataMaxLen - canSubPacketOffset

/-- `PACKET_MAX_NUM`. -/
def packetMaxNum : ℕ := 256

/-- `CAN_DATA_TOTAL_SIZE`. -/
def canDataTotalSize : ℕ := canSubPacketSize * packetMaxNum

/-- `CAN_EFF_FLAG`: the identifier is an extended one. -/
def canEffFlag : BitVec 32 := 0x80000000

/-- `CAN_RTR_FLAG`: remote transmission request. -/
def canRtrFlag : BitVec 32 := 0x40000000

/-- `CAN_ERR_FLAG`: error message frame. -/
def canErrFlag : BitVec 32 := 0x20000000

/-- `CAN_EFF_MASK`: the 29 identifier bits of an extended frame. -/
def canEffMask : BitVec 32 := 0x1FFFFFFF

/-- `struct can_frame`. The socket layer never delivers a length code above
eight, so the frame carries that bound. -/
structure CanFrame where
  /-- Identifier bits and the three flags above them. -/
  canId : BitVec 32
  /-- Number of valid data bytes. -/
  canDlc : ℕ
  /-- The eight data cells, valid or not. -/
  data : List Byte
  /-- The bound on the length code. -/
  dlc_le : canDlc ≤ canDataMaxLen
  /-- The array has eight cells. -/
  data_length : data.length = canDataMaxLen
  deriving DecidableEq

/-- `struct flexcan_packet`. -/
structure FlexcanPacket where
  /-- Uniquely identifies a message among the fragments of one source. -/
  packetId : Byte
  /-- The priority of the message, three bits on the bus. -/
  priority : Byte
  /-- The module it comes from. -/
  sId : Byte
  /-- The module it goes to. -/
  dId : Byte
  /-- The eight data cells; only the first `len` carry payload. -/
  data : List Byte
  /-- Real data length, not restricted by the type. -/
  len : ℕ
  /-- Fragment number. -/
  packetSN : Byte
  /-- Number of fragments less one; zero for a complete packet. -/
  sum : Byte
  /-- The array has eight cells. -/
  data_length : data.length = canDataMaxLen
  deriving DecidableEq

/-- The payload bytes of a packet. -/
def payload (canData : FlexcanPacket) : List Byte := canData.data.take canData.len

/-- Eight zero cells, as `memset` leaves them. -/
def zeroData : List Byte := List.replicate canDataMaxLen 0

@[simp] theorem zeroData_length : zeroData.length = canDataMaxLen := List.length_replicate

/-- The packet after `memset(&can_data, 0, sizeof(flexcan_packet))`. -/
def zeroPacket : FlexcanPacket := ⟨0, 0, 0, 0, zeroData, 0, 0, 0, zeroData_length⟩

/-- `CAN_D_SMOD_OFFSET`. -/
def canDSmodOffset : ℕ := 0
/-- `CAN_S_SMOD_OFFSET`. -/
def canSSmodOffset : ℕ := 4
/-- `CAN_SUM_OFFSET`. -/
def canSumOffset : ℕ := 8
/-- `CAN_D_SYS_OFFSET`. -/
def canDSysOffset : ℕ := 14
/-- `CAN_S_SYS_OFFSET`. -/
def canSSysOffset : ℕ := 18
/-- `CAN_PRIORITY_OFFSET`. -/
def canPriorityOffset : ℕ := 26

/-- `CAN_DATA2ID_PR_MASK`. -/
def canData2idPrMask : Byte := 0x7
/-- `CAN_DATA2ID_SYS_MASK`. -/
def canData2idSysMask : Byte := 0xF0
/-- `CAN_DATA2ID_SMOD_MASK`. -/
def canData2idSmodMask : Byte := 0x0F
/-- `CAN_DATA2ID_SUM_MASK`. -/
def canData2idSumMask : Byte := 0xFF

/-- `CAN_DATA2ID_PRIORITY`. -/
def canData2idPriority (p : Byte) : BitVec 32 := put 32 canData2idPrMask canPriorityOffset p
/-- `CAN_DATA2ID_S_SYS`. -/
def canData2idSSys (s : Byte) : BitVec 32 := put 32 canData2idSysMask canSSysOffset s
/-- `CAN_DATA2ID_D_SYS`. -/
def canData2idDSys (d : Byte) : BitVec 32 := put 32 canData2idSysMask canDSysOffset d
/-- `CAN_DATA2ID_S_SMOD`. -/
def canData2idSSmod (s : Byte) : BitVec 32 := put 32 canData2idSmodMask canSSmodOffset s
/-- `CAN_DATA2ID_D_SMOD`, the one macro of the family that does not shift. -/
def canData2idDSmod (d : Byte) : BitVec 32 := put 32 canData2idSmodMask canDSmodOffset d
/-- `CAN_DATA2ID_SUM`. -/
def canData2idSum (sum : Byte) : BitVec 32 := put 32 canData2idSumMask canSumOffset sum

/-- `CAN_ID2DATA_PR_MASK`. -/
def canId2dataPrMask : BitVec 32 := 0x1C000000
/-- `CAN_ID2DATA_S_SYS_MASK`. -/
def canId2dataSSysMask : BitVec 32 := 0x03C00000
/-- `CAN_ID2DATA_D_SYS_MASK`. -/
def canId2dataDSysMask : BitVec 32 := 0x003C0000
/-- `CAN_ID2DATA_S_SMOD_MASK`. -/
def canId2dataSSmodMask : BitVec 32 := 0x000000F0
/-- `CAN_ID2DATA_D_SMOD_MASK`. -/
def canId2dataDSmodMask : BitVec 32 := 0x0000000F
/-- `CAN_ID2DATA_SUM_MASK`. -/
def canId2dataSumMask : BitVec 32 := 0x0000FF00

/-- `CAN_ID2DATA_PRIORITY`. -/
def canId2dataPriority (id : BitVec 32) : Byte := get 8 canId2dataPrMask canPriorityOffset id
/-- `CAN_ID2DATA_S_SYS`. -/
def canId2dataSSys (id : BitVec 32) : Byte := get 8 canId2dataSSysMask canSSysOffset id
/-- `CAN_ID2DATA_D_SYS`. -/
def canId2dataDSys (id : BitVec 32) : Byte := get 8 canId2dataDSysMask canDSysOffset id
/-- `CAN_ID2DATA_S_SMOD`. -/
def canId2dataSSmod (id : BitVec 32) : Byte := get 8 canId2dataSSmodMask canSSmodOffset id
/-- `CAN_ID2DATA_D_SMOD`. -/
def canId2dataDSmod (id : BitVec 32) : Byte := get 8 canId2dataDSmodMask canDSmodOffset id
/-- `CAN_ID2DATA_SUM`. -/
def canId2dataSum (id : BitVec 32) : Byte := get 8 canId2dataSumMask canSumOffset id
/-- `CAN_ID2DATA_S_MODULE`. -/
def canId2dataSModule (id : BitVec 32) : Byte := canId2dataSSys id ||| canId2dataSSmod id
/-- `CAN_ID2DATA_D_MODULE`. -/
def canId2dataDModule (id : BitVec 32) : Byte := canId2dataDSys id ||| canId2dataDSmod id

/-- The identifier `flexcan_send` assembles before the fragment count. -/
def moduleId (packet : FlexcanPacket) : BitVec 32 :=
  canData2idPriority packet.priority ||| canData2idSSys packet.sId |||
    canData2idDSys packet.dId ||| canData2idSSmod packet.sId ||| canData2idDSmod packet.dId

/-- `__flexcan_send` masks the identifier and marks the frame extended. -/
def extendedId (id : BitVec 32) : BitVec 32 := id &&& canEffMask ||| canEffFlag

/-- `flexcan_send`: the frame handed to `write`, or none when the packet is
refused and the function returns -1 without a system call. -/
def flexcanSend (packet : FlexcanPacket) : Option CanFrame :=
  if hlen : packet.len ≤ 0 ∨ packet.len > canDataMaxLen then none
  else if packet.sum = 0 then
    some ⟨extendedId (moduleId packet), packet.len,
      memcpy zeroData 0 (packet.data.take packet.len), by omega, by
        rw [length_memcpy (by
          simp only [List.length_take, packet.data_length, zeroData_length]; omega)]
        rfl⟩
  else if hsub : packet.len > canSubPacketSize then none
  else
    some ⟨extendedId (moduleId packet ||| canData2idSum packet.sum),
      packet.len + canSubPacketOffset,
      memcpy (memcpy zeroData 0 [packet.packetId, packet.packetSN]) canSubPacketOffset
        (packet.data.take packet.len), by
          simp only [canSubPacketSize] at hsub
          simp only [canDataMaxLen, canSubPacketOffset] at hsub ⊢
          omega, by
        have h0 : (memcpy zeroData 0 [packet.packetId, packet.packetSN]).length =
            canDataMaxLen := rfl
        rw [length_memcpy, h0]
        simp only [List.length_take, packet.data_length, h0]
        simp only [canSubPacketSize, canSubPacketOffset, canDataMaxLen] at hsub ⊢
        omega⟩

/-- `flexcan_recv` on a frame that `read` delivered whole: the packet it
fills, or none where it returns -1. Cells of the given packet that the frame
does not reach keep their contents. -/
def flexcanRecv (frame : CanFrame) (packet : FlexcanPacket) : Option FlexcanPacket :=
  if frame.canId &&& canErrFlag ≠ 0 then none
  else if frame.canId &&& canEffFlag = 0 then none
  else
    let extId := frame.canId &&& canEffMask
    let sum := canId2dataSum extId
    if sum = 0 then
      some ⟨0, canId2dataPriority extId, canId2dataSModule extId, canId2dataDModule extId,
        memcpy packet.data 0 (frame.data.take frame.canDlc), frame.canDlc, 0, sum, by
          rw [length_memcpy, packet.data_length]
          simp only [List.length_take, frame.data_length, packet.data_length]
          have := frame.dlc_le
          omega⟩
    else if frame.canDlc < canSubPacketOffset + 1 then none
    else
      some ⟨frame.data.getD 0 0, canId2dataPriority extId, canId2dataSModule extId,
        canId2dataDModule extId,
        memcpy packet.data 0
          ((frame.data.drop canSubPacketOffset).take (frame.canDlc - canSubPacketOffset)),
        frame.canDlc - canSubPacketOffset, frame.data.getD 1 0, sum, by
          rw [length_memcpy, packet.data_length]
          simp only [List.length_take, List.length_drop, frame.data_length, packet.data_length]
          omega⟩

/-- The identifier of any packet sent: for a complete packet the count field
is zero, so both layouts of `flexcan_send` share this identifier. -/
def wireId (packet : FlexcanPacket) : BitVec 32 := moduleId packet ||| canData2idSum packet.sum

/-- A zero fragment count leaves the identifier unchanged. -/
theorem wireId_of_sum_zero {packet : FlexcanPacket} (h : packet.sum = 0) :
    wireId packet = moduleId packet := by
  have hz : canData2idSum 0 = 0#32 := by decide
  rw [wireId, h, hz, BitVec.or_zero]

/-- The identifier's priority is the low three priority bits. -/
theorem canId2dataPriority_wireId (packet : FlexcanPacket) :
    canId2dataPriority (wireId packet) = packet.priority &&& canData2idPrMask := by
  have hm : canId2dataPrMask = place 32 canData2idPrMask canPriorityOffset := by decide
  simp only [canId2dataPriority, wireId, moduleId, canData2idPriority, canData2idSSys,
    canData2idDSys, canData2idSSmod, canData2idDSmod, canData2idSum, get_or]
  rw [hm, get_put (by decide), get_put_disjoint (by decide), get_put_disjoint (by decide),
    get_put_disjoint (by decide), get_put_disjoint (by decide), get_put_disjoint (by decide)]
  simp only [BitVec.or_zero]

/-- The identifier's upper source nibble. -/
theorem canId2dataSSys_wireId (packet : FlexcanPacket) :
    canId2dataSSys (wireId packet) = packet.sId &&& canData2idSysMask := by
  have hm : canId2dataSSysMask = place 32 canData2idSysMask canSSysOffset := by decide
  simp only [canId2dataSSys, wireId, moduleId, canData2idPriority, canData2idSSys,
    canData2idDSys, canData2idSSmod, canData2idDSmod, canData2idSum, get_or]
  rw [hm, get_put_disjoint (by decide), get_put (by decide), get_put_disjoint (by decide),
    get_put_disjoint (by decide), get_put_disjoint (by decide), get_put_disjoint (by decide)]
  simp only [BitVec.or_zero, BitVec.zero_or]

/-- The identifier's upper destination nibble. -/
theorem canId2dataDSys_wireId (packet : FlexcanPacket) :
    canId2dataDSys (wireId packet) = packet.dId &&& canData2idSysMask := by
  have hm : canId2dataDSysMask = place 32 canData2idSysMask canDSysOffset := by decide
  simp only [canId2dataDSys, wireId, moduleId, canData2idPriority, canData2idSSys,
    canData2idDSys, canData2idSSmod, canData2idDSmod, canData2idSum, get_or]
  rw [hm, get_put_disjoint (by decide), get_put_disjoint (by decide), get_put (by decide),
    get_put_disjoint (by decide), get_put_disjoint (by decide), get_put_disjoint (by decide)]
  simp only [BitVec.or_zero, BitVec.zero_or]

/-- The identifier's lower source nibble. -/
theorem canId2dataSSmod_wireId (packet : FlexcanPacket) :
    canId2dataSSmod (wireId packet) = packet.sId &&& canData2idSmodMask := by
  have hm : canId2dataSSmodMask = place 32 canData2idSmodMask canSSmodOffset := by decide
  simp only [canId2dataSSmod, wireId, moduleId, canData2idPriority, canData2idSSys,
    canData2idDSys, canData2idSSmod, canData2idDSmod, canData2idSum, get_or]
  rw [hm, get_put_disjoint (by decide), get_put_disjoint (by decide),
    get_put_disjoint (by decide), get_put (by decide), get_put_disjoint (by decide),
    get_put_disjoint (by decide)]
  simp only [BitVec.or_zero, BitVec.zero_or]

/-- The identifier's lower destination nibble. -/
theorem canId2dataDSmod_wireId (packet : FlexcanPacket) :
    canId2dataDSmod (wireId packet) = packet.dId &&& canData2idSmodMask := by
  have hm : canId2dataDSmodMask = place 32 canData2idSmodMask canDSmodOffset := by decide
  simp only [canId2dataDSmod, wireId, moduleId, canData2idPriority, canData2idSSys,
    canData2idDSys, canData2idSSmod, canData2idDSmod, canData2idSum, get_or]
  rw [hm, get_put_disjoint (by decide), get_put_disjoint (by decide),
    get_put_disjoint (by decide), get_put_disjoint (by decide), get_put (by decide),
    get_put_disjoint (by decide)]
  simp only [BitVec.or_zero, BitVec.zero_or]

/-- The identifier's fragment count. -/
theorem canId2dataSum_wireId (packet : FlexcanPacket) :
    canId2dataSum (wireId packet) = packet.sum &&& canData2idSumMask := by
  have hm : canId2dataSumMask = place 32 canData2idSumMask canSumOffset := by decide
  simp only [canId2dataSum, wireId, moduleId, canData2idPriority, canData2idSSys,
    canData2idDSys, canData2idSSmod, canData2idDSmod, canData2idSum, get_or]
  rw [hm, get_put_disjoint (by decide), get_put_disjoint (by decide),
    get_put_disjoint (by decide), get_put_disjoint (by decide), get_put_disjoint (by decide),
    get_put (by decide)]
  simp only [BitVec.zero_or]

/-- The two nibbles of a module id make up the id. -/
theorem sys_or_smod (id : Byte) :
    id &&& canData2idSysMask ||| id &&& canData2idSmodMask = id := by
  rw [and_or_mask]
  have hm : canData2idSysMask ||| canData2idSmodMask = BitVec.allOnes 8 := by decide
  rw [hm, BitVec.and_allOnes]

/-- Source ids survive the identifier although they travel in two pieces. -/
theorem canId2dataSModule_wireId (packet : FlexcanPacket) :
    canId2dataSModule (wireId packet) = packet.sId := by
  rw [canId2dataSModule, canId2dataSSys_wireId, canId2dataSSmod_wireId, sys_or_smod]

/-- Destination ids survive the identifier although they travel in two pieces. -/
theorem canId2dataDModule_wireId (packet : FlexcanPacket) :
    canId2dataDModule (wireId packet) = packet.dId := by
  rw [canId2dataDModule, canId2dataDSys_wireId, canId2dataDSmod_wireId, sys_or_smod]

/-- Masking by the extended mask keeps every identifier field. -/
theorem fields_and_canEffMask (id : BitVec 32) :
    canId2dataPriority (id &&& canEffMask) = canId2dataPriority id ∧
      canId2dataSModule (id &&& canEffMask) = canId2dataSModule id ∧
      canId2dataDModule (id &&& canEffMask) = canId2dataDModule id ∧
      canId2dataSum (id &&& canEffMask) = canId2dataSum id := by
  simp only [canId2dataPriority, canId2dataSModule, canId2dataDModule, canId2dataSSys,
    canId2dataSSmod, canId2dataDSys, canId2dataDSmod, canId2dataSum]
  rw [get_and (by decide), get_and (by decide), get_and (by decide), get_and (by decide),
    get_and (by decide), get_and (by decide)]
  exact ⟨rfl, rfl, rfl, rfl⟩

/-- The extended identifier carries the extended flag, no error flag, and the
same 29 bits. -/
theorem extendedId_flags (id : BitVec 32) :
    extendedId id &&& canErrFlag = 0 ∧ extendedId id &&& canEffFlag ≠ 0 ∧
      extendedId id &&& canEffMask = id &&& canEffMask := by
  have he : canEffMask &&& canErrFlag = 0#32 := by decide
  have hf : canEffFlag &&& canErrFlag = 0#32 := by decide
  have hm : canEffFlag &&& canEffMask = 0#32 := by decide
  have hself : canEffFlag &&& canEffFlag = canEffFlag := BitVec.and_self
  have hne : canEffMask &&& canEffFlag = 0#32 := by decide
  have hdist : ∀ mask : BitVec 32, extendedId id &&& mask =
      id &&& (canEffMask &&& mask) ||| canEffFlag &&& mask := by
    intro mask
    rw [extendedId, BitVec.and_comm, ← and_or_mask, BitVec.and_comm mask, BitVec.and_comm mask,
      BitVec.and_assoc]
  refine ⟨?_, ?_, ?_⟩
  · rw [hdist, he, hf, BitVec.and_zero, BitVec.or_zero]
    rfl
  · rw [hdist, hne, hself, BitVec.and_zero, BitVec.zero_or]
    decide
  · rw [hdist, hm, BitVec.and_self, BitVec.or_zero]

/-- A block copied to the start of zeroed cells is followed by zeros. -/
theorem memcpy_zeroData (block : List Byte) :
    memcpy zeroData 0 block = block ++ List.replicate (canDataMaxLen - block.length) 0 := by
  rw [memcpy_zero, zeroData, List.drop_replicate]

/-- A fragment's cells: packet id, fragment number, data, then zeros. -/
theorem memcpy_fragment (packetId packetSN : Byte) (block : List Byte) :
    memcpy (memcpy zeroData 0 [packetId, packetSN]) canSubPacketOffset block =
      packetId :: packetSN :: (block ++ List.replicate (canSubPacketSize - block.length) 0) := by
  have hcells : memcpy zeroData 0 [packetId, packetSN] =
      packetId :: packetSN :: List.replicate canSubPacketSize 0 := rfl
  rw [memcpy, hcells, Nat.add_comm, canSubPacketOffset, List.drop_succ_cons, List.drop_succ_cons,
    List.drop_replicate]
  rfl

/-- The lengths `flexcan_send` puts on the bus: up to eight bytes in a complete
packet, up to six in a fragment, and never none. -/
def Sendable (packet : FlexcanPacket) : Prop :=
  1 ≤ packet.len ∧ packet.len ≤ (if packet.sum = 0 then canDataMaxLen else canSubPacketSize)

/-- What a sent packet looks like after it crossed the bus: three priority
bits, no fragment data when complete, and zeros behind the payload. -/
def received (packet : FlexcanPacket) : FlexcanPacket where
  packetId := if packet.sum = 0 then 0 else packet.packetId
  priority := packet.priority &&& canData2idPrMask
  sId := packet.sId
  dId := packet.dId
  data := memcpy zeroData 0 (packet.data.take packet.len)
  len := packet.len
  packetSN := if packet.sum = 0 then 0 else packet.packetSN
  sum := packet.sum
  data_length := by
    rw [length_memcpy]
    · rfl
    · simp only [List.length_take, packet.data_length, zeroData_length]
      omega

/-- Sending a packet of any allowed length and receiving its frame gives back
the packet as `received` describes it. -/
theorem flexcanRecv_flexcanSend {packet : FlexcanPacket} (h : Sendable packet) :
    ∃ frame, flexcanSend packet = some frame ∧
      flexcanRecv frame zeroPacket = some (received packet) := by
  obtain ⟨hpos, hle⟩ := h
  have hflags := extendedId_flags (wireId packet)
  obtain ⟨hpr, hs, hd, hsum⟩ := fields_and_canEffMask (wireId packet)
  have hall : canData2idSumMask = BitVec.allOnes 8 := by decide
  have hsize : canSubPacketSize ≤ canDataMaxLen := by decide
  rw [canId2dataPriority_wireId] at hpr
  rw [canId2dataSModule_wireId] at hs
  rw [canId2dataDModule_wireId] at hd
  rw [canId2dataSum_wireId, hall, BitVec.and_allOnes] at hsum
  have htake : (packet.data.take packet.len).length = packet.len := by
    rw [List.length_take, packet.data_length]
    split at hle <;> omega
  by_cases hz : packet.sum = 0
  · rw [if_pos hz] at hle
    have hlen : ¬(packet.len ≤ 0 ∨ packet.len > canDataMaxLen) := by omega
    have hcopy : (memcpy zeroData 0 (packet.data.take packet.len)).take packet.len =
        packet.data.take packet.len := by
      have hc := take_memcpy_zero zeroData (packet.data.take packet.len)
      rwa [htake] at hc
    rw [flexcanSend, dif_neg hlen, if_pos hz, ← wireId_of_sum_zero hz]
    refine ⟨_, rfl, ?_⟩
    simp only [flexcanRecv, hflags, hpr, hs, hd, hsum, ne_eq, not_true_eq_false, if_false, hz,
      if_true, hcopy]
    simp only [received, hz, if_true, zeroPacket]
  · rw [if_neg hz] at hle
    have hlen : ¬(packet.len ≤ 0 ∨ packet.len > canDataMaxLen) := by omega
    have hsub : ¬packet.len > canSubPacketSize := by omega
    have hdlc : ¬packet.len + canSubPacketOffset < canSubPacketOffset + 1 := by omega
    rw [flexcanSend, dif_neg hlen, if_neg hz, dif_neg hsub, ← wireId]
    refine ⟨_, rfl, ?_⟩
    have hcopy : List.take packet.len (List.drop canSubPacketOffset (packet.packetId ::
        packet.packetSN :: (packet.data.take packet.len ++ List.replicate
          (canSubPacketSize - (packet.data.take packet.len).length) 0))) =
        packet.data.take packet.len := by
      rw [canSubPacketOffset, List.drop_succ_cons, List.drop_succ_cons, List.drop_zero,
        List.take_append_of_le_length htake.ge, List.take_of_length_le htake.le]
    simp only [flexcanRecv, hflags, hpr, hs, hd, hsum, ne_eq, not_true_eq_false, if_false, hz,
      hdlc, memcpy_fragment, Nat.add_sub_cancel, hcopy]
    simp only [received, hz, if_false, zeroPacket, List.getD_cons_zero, List.getD_cons_succ]

/-- A priority of at most seven fits the three bits of the identifier. -/
theorem priority_and_mask {priority : Byte} (h : priority ≤ 7) :
    priority &&& canData2idPrMask = priority := by
  revert priority
  decide

/-- A packet whose cells behind the payload are zero, whose priority fits and
which carries no fragment data when complete, is received as it was sent. -/
theorem received_eq_self {packet : FlexcanPacket} (hp : packet.priority ≤ 7)
    (hid : packet.sum = 0 → packet.packetId = 0 ∧ packet.packetSN = 0)
    (hdata : packet.data = memcpy zeroData 0 (packet.data.take packet.len)) :
    received packet = packet := by
  obtain ⟨packetId, priority, sId, dId, data, len, packetSN, sum, hl⟩ := packet
  dsimp only at hp hid hdata
  simp only [received, priority_and_mask hp, FlexcanPacket.mk.injEq, true_and, and_true]
  refine ⟨?_, hdata.symm, ?_⟩
  · split
    · next hz => exact (hid hz).1.symm
    · rfl
  · split
    · next hz => exact (hid hz).2.symm
    · rfl

/-- The identifier bits no field uses. -/
def unusedIdMask : BitVec 32 := 0x00030000

/-- Writing back the six fields read from an identifier restores every bit a
field covers. -/
theorem wireId_of_fields {packet : FlexcanPacket} {id : BitVec 32}
    (hp : packet.priority = canId2dataPriority id) (hs : packet.sId = canId2dataSModule id)
    (hd : packet.dId = canId2dataDModule id) (hm : packet.sum = canId2dataSum id) :
    wireId packet = id &&& (canEffMask &&& ~~~unusedIdMask) := by
  have hpr : canId2dataPrMask = place 32 canData2idPrMask canPriorityOffset := by decide
  have hss : canId2dataSSysMask = place 32 canData2idSysMask canSSysOffset := by decide
  have hds : canId2dataDSysMask = place 32 canData2idSysMask canDSysOffset := by decide
  have hsm : canId2dataSSmodMask = place 32 canData2idSmodMask canSSmodOffset := by decide
  have hdm : canId2dataDSmodMask = place 32 canData2idSmodMask canDSmodOffset := by decide
  have hsu : canId2dataSumMask = place 32 canData2idSumMask canSumOffset := by decide
  -- Each nibble pair was joined by a union whose parts avoid the other's mask.
  have hlow : ∀ offset, get 8 (place 32 canData2idSmodMask offset) offset id &&&
      canData2idSysMask = 0#8 := by
    intro offset
    rw [← get_and_mask, BitVec.and_assoc,
      show canData2idSmodMask &&& canData2idSysMask = 0#8 by decide, BitVec.and_zero]
  have hhigh : ∀ offset, get 8 (place 32 canData2idSysMask offset) offset id &&&
      canData2idSmodMask = 0#8 := by
    intro offset
    rw [← get_and_mask, BitVec.and_assoc,
      show canData2idSysMask &&& canData2idSmodMask = 0#8 by decide, BitVec.and_zero]
  have hcover : canId2dataPrMask ||| canId2dataSSysMask ||| canId2dataDSysMask |||
      canId2dataSSmodMask ||| canId2dataDSmodMask ||| canId2dataSumMask =
      canEffMask &&& ~~~unusedIdMask := by decide
  rw [wireId, moduleId, hp, hs, hd, hm, ← hcover]
  simp only [canId2dataSModule, canId2dataDModule, canId2dataSSys, canId2dataSSmod,
    canId2dataDSys, canId2dataDSmod, canId2dataPriority, canId2dataSum, canData2idPriority,
    canData2idSSys, canData2idDSys, canData2idSSmod, canData2idDSmod, canData2idSum,
    hpr, hss, hds, hsm, hdm, hsu]
  rw [put_or_of_disjoint (hlow _), put_or_of_disjoint (hlow _), BitVec.or_comm (get _ _ _ _),
    put_or_of_disjoint (hhigh _), BitVec.or_comm (get _ _ _ _), put_or_of_disjoint (hhigh _)]
  simp only [put_get, and_or_mask]

/-- An accepted identifier without the remote flag is determined by its 29
identifier bits. -/
theorem extendedId_of_accepted {id : BitVec 32} (herr : id &&& canErrFlag = 0)
    (heff : id &&& canEffFlag ≠ 0) (hrtr : id &&& canRtrFlag = 0) : extendedId id = id := by
  have hbit : canEffFlag = BitVec.twoPow 32 31 := by decide
  have hone : id &&& canEffFlag = canEffFlag := by
    rw [hbit] at heff ⊢
    exact and_twoPow_eq_of_ne_zero heff
  have hrest : id &&& (canErrFlag ||| canRtrFlag) = 0#32 := by
    rw [← and_or_mask, herr, hrtr]
    rfl
  have hall : canEffMask ||| canEffFlag ||| (canErrFlag ||| canRtrFlag) = BitVec.allOnes 32 := by
    decide
  calc extendedId id = id &&& canEffMask ||| id &&& canEffFlag := by rw [extendedId, hone]
    _ = id &&& (canEffMask ||| canEffFlag) := and_or_mask _ _ _
    _ = id := and_eq_self hall hrest

/-- The identifier reassembled from an accepted frame's fields is the frame's. -/
theorem extendedId_wireId_of_fields (packet : FlexcanPacket) {id : BitVec 32}
    (herr : id &&& canErrFlag = 0) (heff : id &&& canEffFlag ≠ 0) (hrtr : id &&& canRtrFlag = 0)
    (hunused : id &&& unusedIdMask = 0)
    (hp : packet.priority = canId2dataPriority (id &&& canEffMask))
    (hs : packet.sId = canId2dataSModule (id &&& canEffMask))
    (hd : packet.dId = canId2dataDModule (id &&& canEffMask))
    (hm : packet.sum = canId2dataSum (id &&& canEffMask)) :
    extendedId (wireId packet) = id := by
  have hall : ~~~unusedIdMask ||| unusedIdMask = BitVec.allOnes 32 := by decide
  have hkeep : id &&& ~~~unusedIdMask = id := and_eq_self hall hunused
  have hwire : wireId packet = id &&& canEffMask := by
    rw [wireId_of_fields hp hs hd hm, BitVec.and_assoc, ← BitVec.and_assoc canEffMask,
      BitVec.and_self, BitVec.and_comm canEffMask, ← BitVec.and_assoc, hkeep]
  rw [hwire, extendedId, BitVec.and_assoc, BitVec.and_self, ← extendedId,
    extendedId_of_accepted herr heff hrtr]

/-- Zero cells behind the data are the zeros a fresh frame starts with. -/
theorem data_eq_take_append {data : List Byte} {dlc : ℕ} (hl : data.length = canDataMaxLen)
    (h : ∀ cell ∈ data.drop dlc, cell = 0) :
    data = data.take dlc ++ List.replicate (canDataMaxLen - dlc) 0 := by
  have hdrop : data.drop dlc = List.replicate (canDataMaxLen - dlc) 0 := by
    apply List.eq_replicate_iff.mpr
    exact ⟨by rw [List.length_drop, hl], h⟩
  rw [← hdrop, List.take_append_drop]

/-- Every accepted frame with data, no stray identifier bits, no remote flag
and zeros behind its data is the frame `flexcan_send` writes for the packet
received. -/
theorem flexcanSend_flexcanRecv {frame : CanFrame} {packet : FlexcanPacket}
    (h : flexcanRecv frame zeroPacket = some packet) (hpos : 1 ≤ frame.canDlc)
    (hunused : frame.canId &&& unusedIdMask = 0) (hrtr : frame.canId &&& canRtrFlag = 0)
    (htail : ∀ cell ∈ frame.data.drop frame.canDlc, cell = 0) :
    flexcanSend packet = some frame := by
  have hdata := data_eq_take_append frame.data_length htail
  have hdlc := frame.dlc_le
  unfold flexcanRecv at h
  dsimp only at h
  split_ifs at h with herr heff hsum hshort
  · -- A complete packet: all eight cells are data.
    have hid := extendedId_wireId_of_fields packet (not_not.mp herr) heff hrtr hunused
      (by cases h; rfl) (by cases h; rfl) (by cases h; rfl) (by cases h; rfl)
    have hz : packet.sum = 0 := by cases h; exact hsum
    have hlen : packet.len = frame.canDlc := by cases h; rfl
    have htake : packet.data.take packet.len = frame.data.take frame.canDlc := by
      rw [hlen, ← Option.some.inj h]
      dsimp only [zeroPacket]
      rw [take_memcpy_zero_le (by
        rw [List.length_take, frame.data_length]
        omega), List.take_take, Nat.min_self]
    rw [flexcanSend, dif_neg (by omega), if_pos hz, ← wireId_of_sum_zero hz]
    simp only [Option.some.injEq]
    rw [CanFrame.mk.injEq]
    refine ⟨hid, hlen, ?_⟩
    rw [htake, memcpy_zeroData, List.length_take, frame.data_length, Nat.min_eq_left hdlc, ← hdata]
  · -- A fragment: two header cells, then the data.
    have hid := extendedId_wireId_of_fields packet (not_not.mp herr) heff hrtr hunused
      (by cases h; rfl) (by cases h; rfl) (by cases h; rfl) (by cases h; rfl)
    have hz : packet.sum ≠ 0 := by cases h; exact hsum
    have hlen : packet.len = frame.canDlc - canSubPacketOffset := by cases h; rfl
    have hsize : canSubPacketSize + canSubPacketOffset = canDataMaxLen := by decide
    have hblock : ((frame.data.drop canSubPacketOffset).take packet.len).length = packet.len := by
      rw [List.length_take, List.length_drop, frame.data_length, hlen]
      omega
    have htake : packet.data.take packet.len =
        (frame.data.drop canSubPacketOffset).take packet.len := by
      rw [← Option.some.inj h]
      dsimp only [zeroPacket]
      rw [take_memcpy_zero_le (by
        rw [List.length_take, List.length_drop, frame.data_length]
        omega), List.take_take, Nat.min_self]
    have hcells : frame.data = packet.packetId :: packet.packetSN ::
        frame.data.drop canSubPacketOffset := by
      have hl := frame.data_length
      rw [← Option.some.inj h]
      dsimp only
      rcases hd : frame.data with _ | ⟨a, _ | ⟨b, rest⟩⟩
      · rw [hd] at hl
        simp [canDataMaxLen] at hl
      · rw [hd] at hl
        simp [canDataMaxLen] at hl
      · simp [canSubPacketOffset]
    have hrest : frame.data.drop canSubPacketOffset =
        (frame.data.drop canSubPacketOffset).take packet.len ++
          List.replicate (canSubPacketSize - packet.len) 0 := by
      have hzero : (frame.data.drop canSubPacketOffset).drop packet.len =
          List.replicate (canSubPacketSize - packet.len) 0 := by
        have hdlc' : canSubPacketOffset + packet.len = frame.canDlc := by omega
        rw [List.drop_drop, hdlc']
        apply List.eq_replicate_iff.mpr
        refine ⟨?_, htail⟩
        rw [List.length_drop, frame.data_length]
        omega
      rw [← hzero, List.take_append_drop]
    rw [flexcanSend, dif_neg (by omega), if_neg hz, dif_neg (by omega), ← wireId]
    simp only [Option.some.injEq]
    rw [CanFrame.mk.injEq]
    refine ⟨hid, by omega, ?_⟩
    rw [memcpy_fragment, htake, hblock, ← hrest, ← hcells]

/-- The codec loses nothing in either direction. A packet of an allowed length
and priority comes back with every field and byte it was sent with, and a
plain accepted frame is written again from the packet it decodes to. -/
theorem frameCodec_lossless :
    (∀ packet : FlexcanPacket, packet.priority ≤ 7 →
      (packet.sum = 0 ∧ 1 ≤ packet.len ∧ packet.len ≤ 8 ∨
        packet.sum ≠ 0 ∧ 1 ≤ packet.len ∧ packet.len ≤ 6) →
      ∃ frame back, flexcanSend packet = some frame ∧
        flexcanRecv frame zeroPacket = some back ∧
        back.priority = packet.priority ∧ back.sId = packet.sId ∧ back.dId = packet.dId ∧
        back.sum = packet.sum ∧ back.len = packet.len ∧
        back.data.take packet.len = packet.data.take packet.len ∧
        back.packetId = (if packet.sum = 0 then 0 else packet.packetId) ∧
        back.packetSN = (if packet.sum = 0 then 0 else packet.packetSN)) ∧
    (∀ (frame : CanFrame) (packet : FlexcanPacket), flexcanRecv frame zeroPacket = some packet →
      1 ≤ frame.canDlc → frame.canId &&& unusedIdMask = 0 → frame.canId &&& canRtrFlag = 0 →
      (∀ cell ∈ frame.data.drop frame.canDlc, cell = 0) →
      flexcanSend packet = some frame) := by
  constructor
  · intro packet hpr hlen
    have hsend : Sendable packet := by
      rcases hlen with ⟨hz, hpos, hle⟩ | ⟨hz, hpos, hle⟩
      · exact ⟨hpos, by rwa [if_pos hz]⟩
      · exact ⟨hpos, by rwa [if_neg hz]⟩
    obtain ⟨frame, hframe, hback⟩ := flexcanRecv_flexcanSend hsend
    refine ⟨frame, received packet, hframe, hback, priority_and_mask hpr, rfl, rfl, rfl, rfl, ?_,
      rfl, rfl⟩
    have htake : (packet.data.take packet.len).length = packet.len := by
      rw [List.length_take, packet.data_length, canDataMaxLen]
      omega
    have hc := take_memcpy_zero zeroData (packet.data.take packet.len)
    rwa [htake] at hc
  · intro frame packet hrecv hpos hunused hrtr htail
    exact flexcanSend_flexcanRecv hrecv hpos hunused hrtr htail

/-- Third of five fragments, with both module ids split over the identifier. -/
def sampleFragment : FlexcanPacket := ⟨7, 3, 0x52, 0x31, [1, 2, 3, 4, 5, 6, 0, 0], 6, 2, 4, rfl⟩

/-- The frame of `sampleFragment`. -/
def sampleFrame : CanFrame := ⟨0x8D4C0421, 8, [7, 2, 1, 2, 3, 4, 5, 6], by decide, rfl⟩

/-- The codec laws at a fragment and at its frame. -/
theorem frameCodec_lossless_sampleFragment :
    (∃ frame back, flexcanSend sampleFragment = some frame ∧
      flexcanRecv frame zeroPacket = some back ∧
      back.priority = 3 ∧ back.sId = 0x52 ∧ back.dId = 0x31 ∧ back.sum = 4 ∧ back.len = 6 ∧
      back.data.take 6 = [1, 2, 3, 4, 5, 6] ∧ back.packetId = 7 ∧ back.packetSN = 2) ∧
    flexcanRecv sampleFrame zeroPacket = some sampleFragment ∧
    flexcanSend sampleFragment = some sampleFrame :=
  ⟨frameCodec_lossless.1 sampleFragment (by decide) (by decide), by decide,
    frameCodec_lossless.2 sampleFrame sampleFragment (by decide) (by decide) (by decide)
      (by decide) (by decide)⟩

end RobotOta.CanFrameCodec
