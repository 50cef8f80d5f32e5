import RobotOta.CanReassembly

/-!
# The send side of the CAN link

`sendToCan` sends up to eight bytes as one complete packet and splits anything
longer into six-byte fragments that share a packet id. The sender of a single
packet is a parameter, so that results hold for a bus that takes every frame
and for one that refuses some. The fragment count is an eight-bit counter, and
a last copy that outgrows the eight data cells is a fault.
-/

namespace RobotOta.CanFragmentation

open ByteBuffer CanFrameCodec CanReassembly

variable {σ : Type*}

/-- The fields `sendToCan` fills first. -/
def commonData (packet : CanPacket) : FlexcanPacket :=
  { zeroPacket with priority := packet.priority, sId := packet.srcId, dId := packet.dstId }

/-- `memcpy(can_data.data, p, n)` with a block that fits the data cells. -/
def fillData (canData : FlexcanPacket) (block : List Byte) (h : block.length ≤ canDataMaxLen) :
    FlexcanPacket :=
  { canData with
    data := memcpy canData.data 0 block
    data_length := by rw [length_memcpy (by rw [canData.data_length]; omega), canData.data_length] }

/-- `memset(can_data.data, 0, CAN_SUB_PACKET_SIZE)`. -/
def clearData (canData : FlexcanPacket) : FlexcanPacket :=
  fillData canData (List.replicate canSubPacketSize 0) (by decide)

/-- A block cut to the fragment size fits the data cells. -/
theorem length_take_canSubPacketSize (p : List Byte) :
    (p.take canSubPacketSize).length ≤ canDataMaxLen :=
  (List.length_take_le _ _).trans (by decide)

/-- The loop of `sendToCan` over all fragments but the last, from fragment `i`
on: the result that ended it, and what the last fragment starts from. -/
def sendFragments (send : σ → FlexcanPacket → Int × σ) :
    (remaining i : ℕ) → FlexcanPacket → List Byte → σ → Int × FlexcanPacket × List Byte × σ
  | 0, _, canData, p, state => (0, canData, p, state)
  | remaining + 1, i, canData, p, state =>
    let canData := fillData { canData with packetSN := BitVec.ofNat 8 i }
      (p.take canSubPacketSize) (length_take_canSubPacketSize p)
    let (ret, state) := send state canData
    if ret ≠ 0 then (ret, canData, p, state)
    else sendFragments send remaining (i + 1) (clearData canData) (p.drop canSubPacketSize) state

/-- `num` of `sendToCan`, an eight-bit counter. -/
def fragmentNum (len : ℕ) : Byte :=
  BitVec.ofNat 8
    (if len % canSubPacketSize = 0 then len / canSubPacketSize else len / canSubPacketSize + 1)

/-- `left` of `sendToCan`, computed in 32 bits from the signed `num - 1`. -/
def lastLength (len : ℕ) (num : Byte) : ℕ :=
  (((len : ℤ) - ((num.toNat : ℤ) - 1) * canSubPacketSize) % 2 ^ 32).toNat

/-- `sendToCan` over a sender of single packets: its return value, the next
value of `g_PacketsId` and the sender's state. -/
def sendToCan (send : σ → FlexcanPacket → Int × σ) (packet : CanPacket) (packetsId : Byte)
    (state : σ) : Except MemoryFault (Int × Byte × σ) :=
  if h : packet.pData.length ≤ canDataMaxLen then
    let (ret, state) :=
      send state (fillData { commonData packet with len := packet.pData.length } packet.pData h)
    .ok (ret, packetsId, state)
  else
    let num := fragmentNum packet.pData.length
    let canData :=
      { commonData packet with packetId := packetsId, sum := num - 1, len := canSubPacketSize }
    match sendFragments send (num.toNat - 1) 0 canData packet.pData state with
    | (ret, canData, p, state) =>
      if ret ≠ 0 then .ok (ret, packetsId + 1, state)
      else
        let left := lastLength packet.pData.length num
        if hleft : left ≤ canDataMaxLen then
          let (ret, state) := send state
            (fillData { canData with len := left, packetSN := num - 1 } (p.take left)
              ((List.length_take_le _ _).trans hleft))
          .ok (ret, packetsId + 1, state)
        else .error (.bufferOverrun left)

/-- The number of six-byte pieces of a payload. -/
def pieceCount (len : ℕ) : ℕ := (len + 5) / canSubPacketSize

/-- The `i`-th six-byte piece of a payload; the last one may be shorter. -/
def piece (payload : List Byte) (i : ℕ) : List Byte :=
  (payload.drop (canSubPacketSize * i)).take canSubPacketSize

/-- The packet that carries piece `i` of a long message. -/
def fragment (packet : CanPacket) (packetId : Byte) (i : ℕ) : FlexcanPacket where
  packetId := packetId
  priority := packet.priority
  sId := packet.srcId
  dId := packet.dstId
  data := memcpy zeroData 0 (piece packet.pData i)
  len := (piece packet.pData i).length
  packetSN := BitVec.ofNat 8 i
  sum := BitVec.ofNat 8 (pieceCount packet.pData.length - 1)
  data_length := by
    rw [length_memcpy, zeroData_length]
    rw [Nat.zero_add, zeroData_length]
    exact length_take_canSubPacketSize _

theorem canSubPacketSize_eq : canSubPacketSize = 6 := rfl

/-- A piece never exceeds six bytes. -/
theorem length_piece_le (payload : List Byte) (i : ℕ) :
    (piece payload i).length ≤ canSubPacketSize := List.length_take_le _ _

/-- Every piece in range is non-empty. -/
theorem length_piece_pos {payload : List Byte} {i : ℕ} (h : i < pieceCount payload.length) :
    1 ≤ (piece payload i).length := by
  rw [pieceCount, canSubPacketSize_eq] at h
  rw [piece, List.length_take, List.length_drop, canSubPacketSize_eq]
  omega

/-- The payload is the sequence of its pieces. -/
theorem flatMap_piece (payload : List Byte) (r : ℕ) :
    (List.range r).flatMap (piece payload) = payload.take (canSubPacketSize * r) := by
  induction r with
  | zero => simp
  | succ r ih =>
    rw [List.range_succ, List.flatMap_append, ih, List.flatMap_singleton, piece, Nat.mul_succ,
      List.take_add]

/-- The lengths a long message may have without wrapping the fragment counter
past what the receiver can match. -/
def LongLength (len : ℕ) : Prop := 9 ≤ len ∧ len ≤ 1530

/-- A long message has 2 to 255 pieces. -/
theorem pieceCount_bounds {len : ℕ} (h : LongLength len) :
    2 ≤ pieceCount len ∧ pieceCount len ≤ 255 := by
  obtain ⟨hlo, hhi⟩ := h
  rw [pieceCount, canSubPacketSize_eq]
  omega

/-- The eight-bit counter is the number of pieces modulo 256. -/
theorem fragmentNum_eq_pieceCount (len : ℕ) :
    fragmentNum len = BitVec.ofNat 8 (pieceCount len) := by
  have hcount : (if len % canSubPacketSize = 0 then len / canSubPacketSize
      else len / canSubPacketSize + 1) = pieceCount len := by
    rw [pieceCount, canSubPacketSize_eq]
    split_ifs <;> omega
  rw [fragmentNum, hcount]

/-- The fragment counter does not wrap on a long message. -/
theorem fragmentNum_eq {len : ℕ} (h : LongLength len) :
    (fragmentNum len).toNat = pieceCount len := by
  have hb := pieceCount_bounds h
  rw [fragmentNum_eq_pieceCount, BitVec.toNat_ofNat]
  omega

/-- `left` is the length of the last piece. -/
theorem lastLength_eq {payload : List Byte} (h : LongLength payload.length) :
    lastLength payload.length (fragmentNum payload.length) =
      (piece payload (pieceCount payload.length - 1)).length := by
  rw [lastLength, fragmentNum_eq h]
  obtain ⟨hlo, hhi⟩ := h
  rw [piece, pieceCount, canSubPacketSize_eq, List.length_take, List.length_drop]
  omega

/-- `num - 1` is the number of the last piece, in eight bits. -/
theorem fragmentNum_sub_one {len : ℕ} (h : 1 ≤ pieceCount len) :
    fragmentNum len - 1 = BitVec.ofNat 8 (pieceCount len - 1) := by
  have hone : BitVec.toNat (1 : Byte) = 1 := rfl
  apply BitVec.eq_of_toNat_eq
  rw [fragmentNum_eq_pieceCount, BitVec.toNat_sub, hone, BitVec.toNat_ofNat, BitVec.toNat_ofNat]
  omega

/-- Refilling the data cells from the start forgets a shorter block. -/
theorem memcpy_zero_memcpy_zero {α : Type*} {buffer first second : List α}
    (h : first.length ≤ second.length) :
    memcpy (memcpy buffer 0 first) 0 second = memcpy buffer 0 second := by
  rw [memcpy_zero, memcpy_zero, memcpy_zero, List.drop_append, List.drop_eq_nil_of_le h,
    List.nil_append, List.drop_drop]
  congr 2
  omega

/-- Clearing after a fragment leaves zero cells again. -/
theorem clearData_fillData {canData : FlexcanPacket} (hz : canData.data = zeroData)
    (block : List Byte) (h : block.length ≤ canDataMaxLen)
    (hsub : block.length ≤ canSubPacketSize) :
    clearData (fillData canData block h) = canData := by
  obtain ⟨packetId, priority, sId, dId, data, len, packetSN, sum, hl⟩ := canData
  dsimp only at hz
  subst hz
  simp only [clearData, fillData, FlexcanPacket.mk.injEq, true_and, and_true]
  rw [memcpy_zero_memcpy_zero (by rwa [List.length_replicate])]
  rfl

/-- What every fragment of a long message shares, in front of its own number
and bytes. -/
def fragmentHead (packet : CanPacket) (packetId packetSN : Byte) : FlexcanPacket :=
  { commonData packet with
    packetId := packetId
    packetSN := packetSN
    sum := BitVec.ofNat 8 (pieceCount packet.pData.length - 1)
    len := canSubPacketSize }

/-- Packets handed to the sender one by one, up to the first that it refuses. -/
def sendAll (send : σ → FlexcanPacket → Int × σ) : List FlexcanPacket → σ → Int × σ
  | [], state => (0, state)
  | canData :: rest, state =>
    let (ret, state) := send state canData
    if ret ≠ 0 then (ret, state) else sendAll send rest state

section sendAll

variable (send : σ → FlexcanPacket → Int × σ)

theorem sendAll_cons (canData : FlexcanPacket) (rest : List FlexcanPacket) (state : σ) :
    sendAll send (canData :: rest) state =
      if (send state canData).1 ≠ 0 then send state canData
      else sendAll send rest (send state canData).2 := rfl

/-- What follows is sent where nothing before it was refused. -/
theorem sendAll_append (first rest : List FlexcanPacket) (state : σ) :
    sendAll send (first ++ rest) state =
      if (sendAll send first state).1 ≠ 0 then sendAll send first state
      else sendAll send rest (sendAll send first state).2 := by
  induction first generalizing state with
  | nil => rw [List.nil_append, sendAll, if_neg (not_not.mpr rfl)]
  | cons canData first ih =>
    rw [List.cons_append, sendAll_cons, sendAll_cons]
    by_cases hret : (send state canData).1 ≠ 0
    · rw [if_pos hret, if_pos hret, if_pos hret]
    · rw [if_neg hret, if_neg hret, ih]

theorem sendAll_singleton (canData : FlexcanPacket) (state : σ) :
    sendAll send [canData] state = send state canData := by
  rw [sendAll_cons]
  split_ifs with hret
  · rfl
  · rw [ne_eq, not_not] at hret
    exact Prod.ext hret.symm rfl

/-- A sender that accepts the packets sees them all, in order. -/
theorem sendAll_accepted {packets : List FlexcanPacket}
    (hsend : ∀ canData ∈ packets, ∀ state, (send state canData).1 = 0) (state : σ) :
    sendAll send packets state =
      (0, packets.foldl (fun state canData => (send state canData).2) state) := by
  induction packets generalizing state with
  | nil => rfl
  | cons canData packets ih =>
    rw [sendAll_cons, hsend canData List.mem_cons_self, if_neg (not_not.mpr rfl),
      ih fun other hother => hsend other (List.mem_cons_of_mem _ hother)]
    rfl

end sendAll

/-- The loop sends the fragments in order up to the first that is refused, and
stands in front of the next piece where none is. -/
theorem sendFragments_eq_sendAll (send : σ → FlexcanPacket → Int × σ) {packet : CanPacket}
    (packetId : Byte) {remaining i : ℕ}
    (hin : canSubPacketSize * (i + remaining) ≤ packet.pData.length)
    (packetSN : Byte) (state : σ) :
    ∃ canData p, sendFragments send remaining i (fragmentHead packet packetId packetSN)
        (packet.pData.drop (canSubPacketSize * i)) state =
      ((sendAll send ((List.range' i remaining).map (fragment packet packetId)) state).1, canData,
        p, (sendAll send ((List.range' i remaining).map (fragment packet packetId)) state).2) ∧
      ((sendAll send ((List.range' i remaining).map (fragment packet packetId)) state).1 = 0 →
        p = packet.pData.drop (canSubPacketSize * (i + remaining)) ∧
          ∃ lastSN, canData = fragmentHead packet packetId lastSN) := by
  induction remaining generalizing i packetSN state with
  | zero => exact ⟨_, _, rfl, fun _ => ⟨rfl, packetSN, rfl⟩⟩
  | succ remaining ih =>
    have hlen : (piece packet.pData i).length = canSubPacketSize := by
      rw [piece, List.length_take, List.length_drop]
      rw [← Nat.add_assoc, Nat.mul_add, Nat.mul_add] at hin
      omega
    have hfill : fillData { fragmentHead packet packetId packetSN with
          packetSN := BitVec.ofNat 8 i }
        ((packet.pData.drop (canSubPacketSize * i)).take canSubPacketSize)
        (length_take_canSubPacketSize _) = fragment packet packetId i := by
      simp only [fillData, fragment, fragmentHead, commonData, zeroPacket, hlen]
      rfl
    have hclear : clearData (fragment packet packetId i) =
        fragmentHead packet packetId (BitVec.ofNat 8 i) := by
      rw [← hfill]
      exact clearData_fillData rfl _ _ hlen.le
    rw [sendFragments, hfill]
    dsimp only
    rw [List.range'_succ, List.map_cons, sendAll_cons]
    by_cases hret : (send state (fragment packet packetId i)).1 ≠ 0
    · rw [if_pos hret, if_pos hret]
      exact ⟨_, _, rfl, fun hzero => absurd hzero hret⟩
    · rw [if_neg hret, if_neg hret, hclear, List.drop_drop, ← Nat.mul_succ, Nat.add_comm remaining,
        ← Nat.add_assoc]
      exact ih (by rwa [Nat.add_right_comm, Nat.add_assoc]) _ _

/-- What `sendToCan` does with a long message: all fragments but the last, and
where none of them is refused the last copy and its send. -/
theorem sendToCan_eq_last (send : σ → FlexcanPacket → Int × σ) {packet : CanPacket}
    (packetsId : Byte) {n : ℕ} (hshort : ¬packet.pData.length ≤ canDataMaxLen)
    (hn : (fragmentNum packet.pData.length).toNat - 1 = n)
    (hin : canSubPacketSize * n ≤ packet.pData.length) (state : σ) :
    ∃ lastSN, sendToCan send packet packetsId state =
      let sent := sendAll send ((List.range n).map (fragment packet packetsId)) state
      if sent.1 ≠ 0 then .ok (sent.1, packetsId + 1, sent.2)
      else if hleft : lastLength packet.pData.length (fragmentNum packet.pData.length) ≤
          canDataMaxLen then
        let (ret, state) := send sent.2
          (fillData { fragmentHead packet packetsId lastSN with
              len := lastLength packet.pData.length (fragmentNum packet.pData.length)
              packetSN := fragmentNum packet.pData.length - 1 }
            ((packet.pData.drop (canSubPacketSize * n)).take
              (lastLength packet.pData.length (fragmentNum packet.pData.length)))
            ((List.length_take_le _ _).trans hleft))
        .ok (ret, packetsId + 1, state)
      else
        .error (.bufferOverrun
          (lastLength packet.pData.length (fragmentNum packet.pData.length))) := by
  have hin' : canSubPacketSize * (0 + n) ≤ packet.pData.length := by rwa [Nat.zero_add]
  obtain ⟨canData, p, hloop, hrest⟩ := sendFragments_eq_sendAll send packetsId hin' 0 state
  have hpieces : 1 ≤ pieceCount packet.pData.length := by
    simp only [canDataMaxLen] at hshort
    rw [pieceCount, canSubPacketSize_eq]
    omega
  have hhead : { commonData packet with
        packetId := packetsId
        sum := fragmentNum packet.pData.length - 1
        len := canSubPacketSize } = fragmentHead packet packetsId 0 := by
    rw [fragmentHead, fragmentNum_sub_one hpieces]
    rfl
  rw [Nat.mul_zero, List.drop_zero, ← List.range_eq_range'] at hloop
  rw [Nat.zero_add, ← List.range_eq_range'] at hrest
  rw [sendToCan, dif_neg hshort]
  dsimp only at hhead ⊢
  rw [hhead, hn, hloop]
  dsimp only
  by_cases hret : (sendAll send ((List.range n).map (fragment packet packetsId)) state).1 ≠ 0
  · rw [if_pos hret]
    exact ⟨0, by rw [if_pos hret]⟩
  · obtain ⟨rfl, lastSN, rfl⟩ := hrest (not_not.mp hret)
    rw [if_neg hret]
    exact ⟨lastSN, by rw [if_neg hret]⟩

/-- `sendToCan` hands a long message to the sender as exactly its pieces, in
order, under one packet id, up to the first piece that is refused. -/
theorem sendToCan_long (send : σ → FlexcanPacket → Int × σ) {packet : CanPacket}
    (packetsId : Byte) (hlong : LongLength packet.pData.length) (state : σ) :
    sendToCan send packet packetsId state =
      let sent := sendAll send
        ((List.range (pieceCount packet.pData.length)).map (fragment packet packetsId)) state
      .ok (sent.1, packetsId + 1, sent.2) := by
  have hb := pieceCount_bounds hlong
  obtain ⟨n, hn⟩ : ∃ n, pieceCount packet.pData.length = n + 1 :=
    ⟨_, (Nat.sub_add_cancel (by omega)).symm⟩
  have hnum : (fragmentNum packet.pData.length).toNat - 1 = n := by
    rw [fragmentNum_eq hlong, hn, Nat.add_sub_cancel]
  have hin : canSubPacketSize * n ≤ packet.pData.length := by
    rw [pieceCount, canSubPacketSize_eq] at hn
    rw [canSubPacketSize_eq]
    omega
  have hshort : ¬packet.pData.length ≤ canDataMaxLen := by
    simp only [canDataMaxLen]
    have := hlong.1
    omega
  have hleft := lastLength_eq hlong
  rw [hn, Nat.add_sub_cancel] at hleft
  have hfit : lastLength packet.pData.length (fragmentNum packet.pData.length) ≤ canDataMaxLen := by
    rw [hleft]
    exact (length_piece_le packet.pData n).trans (by decide)
  obtain ⟨lastSN, hlast⟩ := sendToCan_eq_last send packetsId hshort hnum hin state
  have hfill : fillData { fragmentHead packet packetsId lastSN with
        len := lastLength packet.pData.length (fragmentNum packet.pData.length)
        packetSN := fragmentNum packet.pData.length - 1 }
      ((packet.pData.drop (canSubPacketSize * n)).take
        (lastLength packet.pData.length (fragmentNum packet.pData.length)))
      ((List.length_take_le _ _).trans hfit) = fragment packet packetsId n := by
    have hbytes : (packet.pData.drop (canSubPacketSize * n)).take
        (piece packet.pData n).length = piece packet.pData n := by
      rw [piece, List.length_take, ← List.take_take, List.take_length]
    have hpieces : 1 ≤ pieceCount packet.pData.length := by omega
    simp only [fillData, fragment, fragmentHead, commonData, zeroPacket, hleft, hbytes,
      fragmentNum_sub_one hpieces, hn, Nat.add_sub_cancel]
  rw [hlast, hn, List.range_succ, List.map_append, List.map_singleton]
  dsimp only
  rw [sendAll_append, sendAll_singleton, dif_pos hfit, hfill]
  split_ifs <;> rfl

/-- Over a sender that accepts its fragments, `sendToCan` hands over all pieces
of a long message. -/
theorem sendToCan_accepted {send : σ → FlexcanPacket → Int × σ} {packet : CanPacket}
    {packetsId : Byte} (hlong : LongLength packet.pData.length)
    (hsend : ∀ i, i < pieceCount packet.pData.length → ∀ state,
      (send state (fragment packet packetsId i)).1 = 0) (state : σ) :
    sendToCan send packet packetsId state =
      .ok (0, packetsId + 1,
        ((List.range (pieceCount packet.pData.length)).map (fragment packet packetsId)).foldl
          (fun state canData => (send state canData).2) state) := by
  rw [sendToCan_long send packetsId hlong, sendAll_accepted]
  intro canData hmem state
  obtain ⟨i, hi, rfl⟩ := List.mem_map.mp hmem
  exact hsend i (List.mem_range.mp hi) state

/-- A bus that takes every frame `flexcan_send` writes, recording the frames. -/
def putOnBus (bus : List CanFrame) (canData : FlexcanPacket) : Int × List CanFrame :=
  match flexcanSend canData with
  | none => (-1, bus)
  | some frame => (0, bus ++ [frame])

/-- The frames `sendToCan` puts on a willing bus for one message. -/
def messageFrames (packet : CanPacket) (packetsId : Byte) : List CanFrame :=
  match sendToCan putOnBus packet packetsId [] with
  | .ok (_, _, bus) => bus
  | .error _ => []

/-- A fragment that carries a piece is of a length `flexcan_send` takes. -/
theorem sendable_of_piece {packet : CanPacket} (packetId : Byte) {i : ℕ}
    (hi : i < pieceCount packet.pData.length) : Sendable (fragment packet packetId i) := by
  have hle := length_piece_le packet.pData i
  refine ⟨length_piece_pos hi, hle.trans ?_⟩
  split_ifs <;> decide

/-- The fragments of a long message are of a length `flexcan_send` takes, and
none of them claims to be complete. -/
theorem sendable_fragment {packet : CanPacket} (hlong : LongLength packet.pData.length)
    (packetId : Byte) {i : ℕ} (hi : i < pieceCount packet.pData.length) :
    (fragment packet packetId i).sum ≠ 0 ∧ Sendable (fragment packet packetId i) := by
  have hb := pieceCount_bounds hlong
  refine ⟨?_, sendable_of_piece packetId hi⟩
  intro hz
  have := congrArg BitVec.toNat hz
  rw [fragment, BitVec.toNat_ofNat] at this
  have hzero : BitVec.toNat (0 : Byte) = 0 := rfl
  omega

/-- A fragment arrives exactly as it was sent. -/
theorem received_fragment {packet : CanPacket} (hlong : LongLength packet.pData.length)
    (hpr : packet.priority ≤ 7) (packetId : Byte) {i : ℕ}
    (hi : i < pieceCount packet.pData.length) :
    received (fragment packet packetId i) = fragment packet packetId i := by
  refine received_eq_self hpr (fun hz => absurd hz (sendable_fragment hlong packetId hi).1) ?_
  rw [fragment, take_memcpy_zero]

/-- A willing bus takes a fragment that carries a piece. -/
theorem putOnBus_fragment {packet : CanPacket} (packetId : Byte) {i : ℕ}
    (hi : i < pieceCount packet.pData.length) (bus : List CanFrame) :
    (putOnBus bus (fragment packet packetId i)).1 = 0 := by
  obtain ⟨frame, h, -⟩ := flexcanRecv_flexcanSend (sendable_of_piece packetId hi)
  rw [putOnBus, h]

/-- A recording bus ends up with the frames of the packets it was handed, if
all of them have one. -/
theorem foldl_putOnBus {packets : List FlexcanPacket}
    (h : ∀ canData ∈ packets, (flexcanSend canData).isSome) (bus : List CanFrame) :
    (packets.foldl (fun bus canData => (putOnBus bus canData).2) bus).map some =
      bus.map some ++ packets.map flexcanSend := by
  induction packets generalizing bus with
  | nil => simp
  | cons canData packets ih =>
    obtain ⟨frame, hframe⟩ := Option.isSome_iff_exists.mp (h canData List.mem_cons_self)
    rw [List.foldl_cons, ih (fun other hother => h other (List.mem_cons_of_mem _ hother)),
      putOnBus, hframe, List.map_cons, hframe]
    simp

/-- The frames of a long message are those of its fragments, in order. -/
theorem messageFrames_eq {packet : CanPacket} (hlong : LongLength packet.pData.length)
    (packetId : Byte) :
    (messageFrames packet packetId).map some =
      (List.range (pieceCount packet.pData.length)).map
        fun i => flexcanSend (fragment packet packetId i) := by
  have hframe : ∀ i, i < pieceCount packet.pData.length →
      (flexcanSend (fragment packet packetId i)).isSome := by
    intro i hi
    obtain ⟨frame, h, -⟩ := flexcanRecv_flexcanSend (sendable_fragment hlong packetId hi).2
    rw [h]
    rfl
  rw [messageFrames, sendToCan_accepted hlong fun i hi => putOnBus_fragment packetId hi]
  dsimp only
  rw [foldl_putOnBus, List.map_nil, List.nil_append, List.map_map]
  · rfl
  · intro canData hmem
    obtain ⟨i, hi, rfl⟩ := List.mem_map.mp hmem
    exact hframe i (List.mem_range.mp hi)

/-- A long message puts as many frames on the bus as it has pieces. -/
theorem length_messageFrames {packet : CanPacket} (hlong : LongLength packet.pData.length)
    (packetId : Byte) :
    (messageFrames packet packetId).length = pieceCount packet.pData.length := by
  have h := congrArg List.length (messageFrames_eq hlong packetId)
  simpa using h

/-- Frame `i` of a long message is received as fragment `i`. -/
theorem flexcanRecv_messageFrames {packet : CanPacket} (hlong : LongLength packet.pData.length)
    (hpr : packet.priority ≤ 7) {packetId : Byte} {i : ℕ} {frame : CanFrame}
    (h : (messageFrames packet packetId)[i]? = some frame) :
    i < pieceCount packet.pData.length ∧
      flexcanRecv frame zeroPacket = some (fragment packet packetId i) := by
  obtain ⟨hi, -⟩ := List.getElem?_eq_some_iff.mp h
  rw [length_messageFrames hlong] at hi
  refine ⟨hi, ?_⟩
  obtain ⟨sent, hsent, hback⟩ := flexcanRecv_flexcanSend (sendable_fragment hlong packetId hi).2
  have hmap : ((messageFrames packet packetId).map some)[i]? =
      ((List.range (pieceCount packet.pData.length)).map
        fun i => flexcanSend (fragment packet packetId i))[i]? := by
    rw [messageFrames_eq hlong packetId]
  rw [List.getElem?_map, List.getElem?_map, h, List.getElem?_range hi, Option.map_some,
    Option.map_some, hsent] at hmap
  cases hmap
  rw [hback, received_fragment hlong hpr packetId hi]

end RobotOta.CanFragmentation
