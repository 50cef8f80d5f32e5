import RobotOta.CanFragmentation

/-!
# The capacity of fragmentation

The protocol has room for 256 fragments, but `sendToCan` counts them in eight
bits. Up to 255 fragments the count is right and the frames carry the payload
exactly; from 256 on it has wrapped, and the copy of the last fragment
outgrows the data cells.
-/

namespace RobotOta.FragmentationCapacity

open ByteBuffer CanFrameCodec CanReassembly CanFragmentation

/-- What a receiver makes of the frames on a bus. -/
def receivedPackets (bus : List CanFrame) : List (Option FlexcanPacket) :=
  bus.map fun frame => flexcanRecv frame zeroPacket

/-- The packets are the numbered pieces of a payload, all under one packet id. -/
structure NumberedPieces (payloadBytes : List Byte) (packets : List FlexcanPacket) : Prop where
  /-- There are `ceil(len / 6)` of them. -/
  count : packets.length = (payloadBytes.length + 5) / canSubPacketSize
  packetId : ∃ packetId, ∀ canData ∈ packets, canData.packetId = packetId
  packetSN : packets.map (fun canData => canData.packetSN.toNat) = List.range packets.length
  sum : ∀ canData ∈ packets, canData.sum.toNat = packets.length - 1
  bytes : packets.flatMap payload = payloadBytes

/-- What the protocol asks of a send over a bus that takes every frame: up to
eight bytes in one complete packet, up to the total size in numbered pieces,
anything else refused, and never a copy past the data cells. -/
def ExactlySent (packet : CanPacket) (packetsId : Byte) : Prop :=
  ∃ ret nextId bus, sendToCan putOnBus packet packetsId [] = .ok (ret, nextId, bus) ∧
    if 1 ≤ packet.pData.length ∧ packet.pData.length ≤ canDataMaxLen then
      ret = 0 ∧ ∃ canData, receivedPackets bus = [some canData] ∧
        canData.sum = 0 ∧ payload canData = packet.pData
    else if canDataMaxLen < packet.pData.length ∧ packet.pData.length ≤ canDataTotalSize then
      ret = 0 ∧ ∃ packets, receivedPackets bus = packets.map some ∧
        NumberedPieces packet.pData packets
    else ret ≠ 0 ∧ bus = []

/-- A sendable packet crosses the bus as `received` describes it. -/
theorem putOnBus_sendable {canData : FlexcanPacket} (h : Sendable canData) :
    ∃ frame, putOnBus [] canData = (0, [frame]) ∧
      flexcanRecv frame zeroPacket = some (received canData) := by
  obtain ⟨frame, hsend, hrecv⟩ := flexcanRecv_flexcanSend h
  refine ⟨frame, ?_, hrecv⟩
  rw [putOnBus, hsend]
  rfl

/-- The bus delivers the payload bytes as they were. -/
theorem payload_received {canData : FlexcanPacket} (h : Sendable canData) :
    payload (received canData) = payload canData := by
  have hlen : (canData.data.take canData.len).length = canData.len := by
    rw [List.length_take, canData.data_length]
    have hle := h.2
    have hsub : canSubPacketSize ≤ canDataMaxLen := by decide
    split_ifs at hle <;> omega
  have htake := take_memcpy_zero zeroData (canData.data.take canData.len)
  rwa [hlen] at htake

/-- Up to eight bytes are one complete packet, and no bytes are refused. -/
theorem exactlySent_of_short {packet : CanPacket} (hlen : packet.pData.length ≤ canDataMaxLen)
    (packetsId : Byte) : ExactlySent packet packetsId := by
  have hsend : sendToCan putOnBus packet packetsId [] =
      .ok ((putOnBus [] (fillData { commonData packet with len := packet.pData.length }
          packet.pData hlen)).1, packetsId,
        (putOnBus [] (fillData { commonData packet with len := packet.pData.length }
          packet.pData hlen)).2) := by
    rw [sendToCan, dif_pos hlen]
  refine ⟨_, _, _, hsend, ?_⟩
  by_cases hpos : 1 ≤ packet.pData.length
  · rw [if_pos ⟨hpos, hlen⟩]
    have hsendable : Sendable (fillData { commonData packet with len := packet.pData.length }
        packet.pData hlen) := ⟨hpos, hlen⟩
    obtain ⟨frame, hput, hrecv⟩ := putOnBus_sendable hsendable
    rw [hput]
    refine ⟨rfl, _, ?_, ?_, payload_received hsendable |>.trans (take_memcpy_zero _ _)⟩
    · rw [receivedPackets, List.map_singleton, hrecv]
    · rfl
  · rw [if_neg (fun h => hpos h.1), if_neg (by omega)]
    have hrefused : flexcanSend (fillData { commonData packet with len := packet.pData.length }
        packet.pData hlen) = none := by
      rw [flexcanSend, dif_pos]
      left
      exact Nat.le_of_not_lt hpos
    rw [putOnBus, hrefused]
    exact ⟨by decide, rfl⟩

/-- A recording bus holds what it was handed, as the bus delivers it. -/
theorem receivedPackets_foldl_putOnBus {packets : List FlexcanPacket}
    (h : ∀ canData ∈ packets, Sendable canData) (bus : List CanFrame) :
    receivedPackets (packets.foldl (fun bus canData => (putOnBus bus canData).2) bus) =
      receivedPackets bus ++ (packets.map received).map some := by
  induction packets generalizing bus with
  | nil => simp
  | cons canData packets ih =>
    obtain ⟨frame, hsend, hrecv⟩ := flexcanRecv_flexcanSend (h canData List.mem_cons_self)
    rw [List.foldl_cons, ih (fun other hother => h other (List.mem_cons_of_mem _ hother)),
      putOnBus, hsend]
    simp [receivedPackets, hrecv]

/-- The fragments of a long message, as the bus delivers them, are its numbered pieces. -/
theorem numberedPieces_fragments {packet : CanPacket} (hlong : LongLength packet.pData.length)
    (packetId : Byte) :
    NumberedPieces packet.pData
      (((List.range (pieceCount packet.pData.length)).map (fragment packet packetId)).map
        received) := by
  have hb := pieceCount_bounds hlong
  have hsum : ∀ i, i < pieceCount packet.pData.length →
      (fragment packet packetId i).sum ≠ 0 := fun i hi => (sendable_fragment hlong packetId hi).1
  refine ⟨?_, ⟨packetId, ?_⟩, ?_, ?_, ?_⟩
  · rw [List.length_map, List.length_map, List.length_range]
    rfl
  · intro canData hmem
    obtain ⟨sent, hsent, rfl⟩ := List.mem_map.mp hmem
    obtain ⟨i, hi, rfl⟩ := List.mem_map.mp hsent
    rw [received, if_neg (hsum i (List.mem_range.mp hi))]
    rfl
  · rw [List.map_map, List.map_map, List.length_map, List.length_map, List.length_range]
    refine (List.map_congr_left ?_).trans (List.map_id _)
    intro i hi
    rw [List.mem_range] at hi
    simp only [Function.comp_apply, received, if_neg (hsum i hi), id_eq]
    rw [fragment, BitVec.toNat_ofNat]
    omega
  · intro canData hmem
    obtain ⟨sent, hsent, rfl⟩ := List.mem_map.mp hmem
    obtain ⟨i, -, rfl⟩ := List.mem_map.mp hsent
    rw [List.length_map, List.length_map, List.length_range]
    simp only [received, fragment, BitVec.toNat_ofNat]
    omega
  · have hpiece : ∀ i ∈ List.range (pieceCount packet.pData.length),
        payload (received (fragment packet packetId i)) = piece packet.pData i := by
      intro i hi
      rw [payload_received (sendable_of_piece packetId (List.mem_range.mp hi))]
      exact take_memcpy_zero _ _
    rw [List.map_map, List.flatMap_map]
    calc (List.range (pieceCount packet.pData.length)).flatMap
          (fun i => payload (received (fragment packet packetId i)))
        = (List.range (pieceCount packet.pData.length)).flatMap (piece packet.pData) :=
          List.flatMap_congr hpiece
      _ = packet.pData.take (canSubPacketSize * pieceCount packet.pData.length) :=
          flatMap_piece _ _
      _ = packet.pData := by
        apply List.take_of_length_le
        rw [pieceCount, canSubPacketSize_eq]
        omega

/-- Up to 255 pieces are sent as numbered pieces. -/
theorem exactlySent_of_long {packet : CanPacket} (hlong : LongLength packet.pData.length)
    (packetsId : Byte) : ExactlySent packet packetsId := by
  have hsend := sendToCan_accepted hlong (fun i hi => putOnBus_fragment packetsId hi) []
  refine ⟨_, _, _, hsend, ?_⟩
  obtain ⟨hlo, hhi⟩ := hlong
  have hmax : canDataMaxLen = 8 := rfl
  have htotal : canDataTotalSize = 1536 := rfl
  rw [if_neg (by omega), if_pos (by omega)]
  refine ⟨rfl, _, ?_, numberedPieces_fragments ⟨hlo, hhi⟩ packetsId⟩
  rw [receivedPackets_foldl_putOnBus]
  · rfl
  · intro canData hmem
    obtain ⟨i, hi, rfl⟩ := List.mem_map.mp hmem
    exact sendable_of_piece packetsId (List.mem_range.mp hi)

/-- A count that lags 256 pieces behind leaves more than the data cells hold,
also where it is zero and the length grows by a piece. -/
theorem left_of_wrapped {len pieces num : ℕ} (hover : 1530 < len) (hlen : len < 2 ^ 32)
    (hpieces : pieces = (len + 5) / 6) (hnum : num = pieces % 256) :
    8 < (((len : ℤ) - ((num : ℤ) - 1) * 6) % 2 ^ 32).toNat := by
  have hlo : len ≤ 6 * pieces := by omega
  have hhi : 6 * pieces < len + 6 := by omega
  have hlt : (len : ℤ) - ((num : ℤ) - 1) * 6 < 2 ^ 32 := by
    by_contra h
    -- only a zero count adds to the length, and it is not zero near the end of the range
    have hzero : num = 0 := by omega
    omega
  have hleft : 8 < (len : ℤ) - ((num : ℤ) - 1) * 6 := by omega
  rw [Int.emod_eq_of_lt (by omega) hlt]
  omega

/-- Once the count has wrapped, the last copy does not fit the data cells. -/
theorem lastLength_wrapped {len : ℕ} (hover : 1530 < len) (hlen : len < 2 ^ 32) :
    canDataMaxLen < lastLength len (fragmentNum len) := by
  have hnum : (fragmentNum len).toNat = pieceCount len % 256 := by
    rw [fragmentNum_eq_pieceCount, BitVec.toNat_ofNat]
  exact left_of_wrapped hover hlen rfl hnum

/-- The wrapped count leaves fewer fragments in front of the last copy than there are pieces. -/
theorem fragmentNum_lt_pieceCount {len : ℕ} (hover : 1530 < len) :
    (fragmentNum len).toNat - 1 < pieceCount len := by
  rw [fragmentNum_eq_pieceCount, BitVec.toNat_ofNat, pieceCount, canSubPacketSize_eq]
  omega

/-- Once the count has wrapped, the last copy overruns the data cells, if none of
the fragments in front of it is refused. -/
theorem sendToCan_overlong {σ : Type*} (send : σ → FlexcanPacket → Int × σ) {packet : CanPacket}
    (hover : 1530 < packet.pData.length) (hlen : packet.pData.length < 2 ^ 32)
    (packetsId : Byte) (state : σ) :
    sendToCan send packet packetsId state =
      let sent := sendAll send ((List.range ((fragmentNum packet.pData.length).toNat - 1)).map
        (fragment packet packetsId)) state
      if sent.1 ≠ 0 then .ok (sent.1, packetsId + 1, sent.2)
      else .error (.bufferOverrun
        (lastLength packet.pData.length (fragmentNum packet.pData.length))) := by
  have hmax : canDataMaxLen = 8 := rfl
  have hcount := fragmentNum_lt_pieceCount hover
  have hin : canSubPacketSize * ((fragmentNum packet.pData.length).toNat - 1) ≤
      packet.pData.length := by
    rw [pieceCount, canSubPacketSize_eq] at hcount
    rw [canSubPacketSize_eq]
    omega
  obtain ⟨lastSN, hlast⟩ := sendToCan_eq_last send packetsId (by omega) rfl hin state
  have hleft := lastLength_wrapped hover hlen
  rw [hlast]
  dsimp only
  rw [dif_neg (by omega)]

/-- On a willing bus it does overrun them. -/
theorem sendToCan_wrapped {packet : CanPacket} (hover : 1530 < packet.pData.length)
    (hlen : packet.pData.length < 2 ^ 32) (packetsId : Byte) :
    sendToCan putOnBus packet packetsId [] =
      .error (.bufferOverrun
        (lastLength packet.pData.length (fragmentNum packet.pData.length))) := by
  rw [sendToCan_overlong putOnBus hover hlen, sendAll_accepted]
  · rfl
  · intro canData hmem state
    obtain ⟨i, hi, rfl⟩ := List.mem_map.mp hmem
    exact putOnBus_fragment packetsId
      ((List.mem_range.mp hi).trans (fragmentNum_lt_pieceCount hover)) state

/-- A send is exact if and only if its pieces can be counted in eight bits. -/
theorem exactlySent_iff (packet : CanPacket) (packetsId : Byte)
    (hlen : packet.pData.length < 2 ^ 32) :
    ExactlySent packet packetsId ↔ packet.pData.length ≤ 1530 := by
  constructor
  · rintro ⟨ret, nextId, bus, hsend, -⟩
    by_contra hover
    rw [sendToCan_wrapped (Nat.lt_of_not_le hover) hlen] at hsend
    cases hsend
  · intro hle
    by_cases hshort : packet.pData.length ≤ canDataMaxLen
    · exact exactlySent_of_short hshort packetsId
    · exact exactlySent_of_long ⟨Nat.lt_of_not_le hshort, hle⟩ packetsId

/-- A full message of 256 pieces: the count is zero when it is used. -/
theorem exactlySent_iff_full :
    ExactlySent ⟨0, 0, 0, List.replicate canDataTotalSize 0⟩ 0 ↔
      (List.replicate canDataTotalSize (0 : Byte)).length ≤ 1530 :=
  exactlySent_iff ⟨0, 0, 0, List.replicate canDataTotalSize 0⟩ 0 (by
    rw [List.length_replicate]
    decide)

/-- The smallest message that the protocol has room for and the count has not. -/
theorem not_exactlySent_wrapped : ¬ExactlySent ⟨0, 0, 0, List.replicate 1531 0⟩ 0 := by
  rintro ⟨ret, nextId, bus, hsend, -⟩
  rw [sendToCan_wrapped] at hsend
  · cases hsend
  · rw [List.length_replicate]
    decide
  · rw [List.length_replicate]
    decide

end RobotOta.FragmentationCapacity
