import RobotOta.BoardUpgrade
import Mathlib.Data.List.Dedup

/-!
# The transcript of a firmware transfer

Runs of `sendFirmware` against any surroundings at all, seen through the log
of the messages handed to `sendCANData`. A successful run falls into successful
runs of its steps, and the last copies each step issued spell out the image.
-/

namespace RobotOta.UpgradeTranscript

open CanFrameCodec HexLoader RequestProgram BoardUpgrade

/-- The messages a request issues. -/
def issued : (r : UpdateRequest) → UpdateAnswer r → List (List Byte)
  | .sendCANData _ _ pdata, _ => [pdata]
  | .sockFd, _ => []
  | .waitRounds _, _ => []
  | .popFromRecvList .., _ => []
  | .loadHex .., _ => []
  | .downloadProgress .., _ => []
  | .ensurePathMounted _, _ => []
  | .openCANDevice, _ => []
  | .closeCANDevice, _ => []

/-- A run that issues these messages, whatever the answers are. -/
def Issues {α : Type} (p : UpdateM α) (value : α) (log : List (List Byte)) : Prop :=
  Exec (logging issued) [] p value log

/-- The last copy of each message, in the order of the last copies. -/
def lastCopies (log : List (List Byte)) : List (List Byte) := log.dedup

/-- The value of big-endian bytes. -/
def bigEndianValue (bytes : List Byte) : ℕ :=
  bytes.foldl (fun value byte => 256 * value + byte.toNat) 0

section Grammar

variable (codes : MessageCodes) (ids : ModuleIds) (module : Byte)

/-- An ADDR message: the address in four big-endian bytes. -/
def IsAddressMessage (address : BitVec 32) (message : List Byte) : Prop :=
  ∃ bytes, message = codes.cmd .dataAddress :: 6 :: bytes ∧ bytes.length = 4 ∧
    bigEndianValue bytes = address.toNat

/-- A DATA message: a two-byte length field of payload and head, then the payload. -/
def IsDataMessage (payload message : List Byte) : Prop :=
  ∃ field, message = codes.cmd .firmwareData :: (field ++ payload) ∧ field.length = 2 ∧
    bigEndianValue field = payload.length + 3

/-- A CRC message: the checksum of the payload in two big-endian bytes. -/
def IsCRCMessage (payload message : List Byte) : Prop :=
  ∃ bytes, message = codes.cmd .dataCRC :: 4 :: bytes ∧ bytes.length = 2 ∧
    bigEndianValue bytes = (crc16 payload).toNat

/-- The log falls into successful chunk steps whose payloads make up the data,
and the last copies of each are a DATA message and its CRC message. -/
inductive DataSegments : (data : List Byte) → (segments : List (List (List Byte))) → Prop where
  | nil : DataSegments [] []
  | cons {payload rest dataMessage crcMessage : List Byte} {segment : List (List Byte)}
    {segments : List (List (List Byte))} {total before after : BitVec 32} :
    1 ≤ payload.length → payload.length ≤ dataPacketLength →
    Issues (sendFirmwareData codes ids module payload total before) (0, after) segment →
    lastCopies segment = [dataMessage, crcMessage] →
    IsDataMessage codes payload dataMessage → IsCRCMessage codes payload crcMessage →
    DataSegments rest segments → DataSegments (payload ++ rest) (segment :: segments)

/-- The log falls, element by element, into a successful address step with one
ADDR message as its last copy and the segments of the element's data. -/
inductive ImageSegments :
    (elements : List ImageElement) → (segments : List (List (List Byte))) → Prop where
  | nil : ImageSegments [] []
  | cons {element : ImageElement} {elements : List ImageElement} {addressMessage : List Byte}
    {segment : List (List Byte)} {own others : List (List (List Byte))} :
    Issues (sendDataAddress codes ids module element.address) 0 segment →
    lastCopies segment = [addressMessage] →
    IsAddressMessage codes element.address addressMessage →
    DataSegments codes ids module element.data own → ImageSegments elements others →
    ImageSegments (element :: elements) (segment :: (own ++ others))

end Grammar

/-- The log of a sequence is that of its parts. -/
theorem issues_bind {α β : Type} {p : UpdateM α} {k : α → UpdateM β} {result : β}
    {log : List (List Byte)} (h : Issues (p >>= k) result log) :
    ∃ value front behind, Issues p value front ∧ Issues (k value) result behind ∧
      log = front ++ behind :=
  exec_logging_bind h

theorem issues_pure {α : Type} {value result : α} {log : List (List Byte)}
    (h : Issues (pure value : UpdateM α) result log) : result = value ∧ log = [] :=
  exec_pure.mp h

theorem issues_ask {r : UpdateRequest} {answer : UpdateAnswer r} {log : List (List Byte)}
    (h : Issues (ask r) answer log) : log = issued r answer :=
  (exec_ask.mp h).trans (List.nil_append _)

/-- Reading issues nothing. -/
theorem issues_readCANData {expSId expMsgType : Byte} {len timeout : ℕ}
    {result : Int × List Byte} {log : List (List Byte)}
    (h : Issues (readCANData expSId expMsgType len timeout) result log) : log = [] := by
  have hround : ∀ {otherwise : UpdateM (Int × List Byte)},
      (∀ {result log}, Issues otherwise result log → log = []) →
      ∀ {result log}, Issues (readRound expSId expMsgType len otherwise) result log →
        log = [] := by
    intro otherwise hother result log h
    obtain ⟨packet, front, behind, hpop, hrest, rfl⟩ := issues_bind h
    rw [issues_ask hpop]
    cases packet with
    | none => exact hother hrest
    | some packet =>
      dsimp only at hrest
      split_ifs at hrest
      · exact (issues_pure hrest).2
      · exact hother hrest
  have hloop : ∀ rounds {result log}, Issues (readLoop expSId expMsgType len rounds) result log →
      log = [] := by
    intro rounds
    induction rounds with
    | zero => exact hround fun h => (issues_pure h).2
    | succ rounds ih => exact hround ih
  unfold readCANData at h
  obtain ⟨fd, front, behind, hfd, hrest, rfl⟩ := issues_bind h
  rw [issues_ask hfd]
  split_ifs at hrest
  · exact (issues_pure hrest).2
  · obtain ⟨rounds, front, behind, hwait, hread, rfl⟩ := issues_bind hrest
    rw [issues_ask hwait]
    exact hloop rounds hread

/-- A retry loop issues copies of its message, and at least one before it ends
with zero. -/
theorem issues_exchange {sId module : Byte} {data : List Byte} {resp : Byte} {timeout : ℕ}
    {deal : List Byte → Int} {count : ℕ} {ret : Int} {result : Int × ℕ} {log : List (List Byte)}
    (h : Issues (exchange sId module data resp timeout deal count ret) result log) :
    ∃ copies, log = List.replicate copies data ∧ (ret ≠ 0 → result.1 = 0 → 1 ≤ copies) := by
  induction count generalizing ret log with
  | zero =>
    obtain ⟨rfl, rfl⟩ := issues_pure h
    exact ⟨0, rfl, fun hret hzero => absurd hzero hret⟩
  | succ count ih =>
    obtain ⟨ret', front, behind, hsend, hrest, rfl⟩ := issues_bind h
    rw [issues_ask hsend]
    -- Whatever follows the send adds copies behind the first one.
    have hmore : ∀ {log : List (List Byte)}, (∃ copies, log = List.replicate copies data) →
        ∃ copies, [data] ++ log = List.replicate copies data ∧
          (ret ≠ 0 → result.1 = 0 → 1 ≤ copies) := by
      rintro log ⟨copies, rfl⟩
      exact ⟨copies + 1, rfl, fun _ _ => by omega⟩
    apply hmore
    split_ifs at hrest
    · obtain ⟨copies, hcopies, -⟩ := ih hrest
      exact ⟨copies, hcopies⟩
    · obtain ⟨read, front, behind, hread, hdeal, rfl⟩ := issues_bind hrest
      rw [issues_readCANData hread, List.nil_append]
      dsimp only at hdeal
      split_ifs at hdeal
      · rw [(issues_pure hdeal).2]
        exact ⟨0, rfl⟩
      · obtain ⟨copies, hcopies, -⟩ := ih hdeal
        exact ⟨copies, hcopies⟩

/-- Four big-endian bytes stand for the value. -/
theorem bigEndianValue_bigEndian32 (value : BitVec 32) :
    bigEndianValue (bigEndian32 value) = value.toNat := by
  simp only [bigEndianValue, bigEndian32, List.foldl_cons, List.foldl_nil, BitVec.toNat_setWidth,
    BitVec.toNat_ushiftRight, Nat.shiftRight_eq_div_pow]
  have := value.isLt
  omega

/-- Two big-endian bytes stand for the value. -/
theorem bigEndianValue_bigEndian16 (value : BitVec 16) :
    bigEndianValue (bigEndian16 value) = value.toNat := by
  simp only [bigEndianValue, bigEndian16, List.foldl_cons, List.foldl_nil, BitVec.toNat_setWidth,
    BitVec.toNat_ushiftRight, Nat.shiftRight_eq_div_pow]
  have := value.isLt
  omega

theorem isAddressMessage (codes : MessageCodes) (address : BitVec 32) :
    IsAddressMessage codes address (addressMessage codes address) :=
  ⟨bigEndian32 address, rfl, rfl, bigEndianValue_bigEndian32 address⟩

theorem isCRCMessage (codes : MessageCodes) (payload : List Byte) :
    IsCRCMessage codes payload (crcMessage codes (crc16 payload)) :=
  ⟨bigEndian16 (crc16 payload), rfl, rfl, bigEndianValue_bigEndian16 _⟩

/-- The length field of a packet that fits the buffer does not wrap. -/
theorem isDataMessage (codes : MessageCodes) {payload : List Byte}
    (h : payload.length ≤ dataPacketLength) :
    IsDataMessage codes payload (dataMessage codes payload) := by
  refine ⟨bigEndian16 (BitVec.ofNat 16 (payload.length + 3)), rfl, rfl, ?_⟩
  rw [bigEndianValue_bigEndian16, BitVec.toNat_ofNat]
  unfold dataPacketLength at h
  omega

/-- Messages of different kinds differ. -/
theorem dataMessage_ne_crcMessage (codes : MessageCodes) (payload : List Byte) (crc : BitVec 16) :
    dataMessage codes payload ≠ crcMessage codes crc := by
  intro h
  have hkind := codes.cmd_injective (List.cons.inj h).1
  cases hkind

/-- Copies of one message have one last copy. -/
theorem lastCopies_replicate {copies : ℕ} (h : 1 ≤ copies) (message : List Byte) :
    lastCopies (List.replicate copies message) = [message] :=
  List.replicate_dedup (by omega)

/-- A list that ends in copies of one value and then of another has these two
as its last copies, if nothing else stands in it. -/
theorem dedup_two {α : Type} [DecidableEq α] {first second : α} (hne : first ≠ second)
    {front : List α} (hfront : ∀ value ∈ front, value = first ∨ value = second)
    {m n : ℕ} (hm : 1 ≤ m) (hn : 1 ≤ n) :
    (front ++ (List.replicate m first ++ List.replicate n second)).dedup = [first, second] := by
  have htail : (List.replicate m first ++ List.replicate n second).dedup = [first, second] := by
    rw [List.dedup_append, List.replicate_dedup (by omega)]
    obtain ⟨k, rfl⟩ : ∃ k, m = k + 1 := ⟨m - 1, by omega⟩
    clear hm
    induction k with
    | zero => simp [hne]
    | succ k ih =>
      rw [List.replicate_succ, List.cons_union, ih]
      exact List.insert_of_mem List.mem_cons_self
  rw [List.dedup_append, htail]
  apply List.Subset.union_eq_right
  intro value hvalue
  simpa using hfront value hvalue

section Steps

variable {codes : MessageCodes} {ids : ModuleIds} {module : Byte}

/-- A successful address step issues copies of its ADDR message. -/
theorem issues_sendDataAddress {address : BitVec 32} {log : List (List Byte)}
    (h : Issues (sendDataAddress codes ids module address) 0 log) :
    lastCopies log = [addressMessage codes address] := by
  obtain ⟨⟨ret, left⟩, front, behind, hrun, hret, rfl⟩ := issues_bind h
  obtain ⟨hzero, rfl⟩ := issues_pure hret
  obtain ⟨copies, rfl, hcopies⟩ := issues_exchange hrun
  rw [List.append_nil]
  exact lastCopies_replicate (hcopies (by decide) hzero.symm) _

/-- A CRC exchange issues copies of its CRC message. -/
theorem issues_sendDataCRC {crc : BitVec 16} {ret : Int} {log : List (List Byte)}
    (h : Issues (sendDataCRC codes ids module crc) ret log) :
    ∃ copies, log = List.replicate copies (crcMessage codes crc) ∧ (ret = 0 → 1 ≤ copies) := by
  obtain ⟨⟨ret', left⟩, front, behind, hrun, hret, rfl⟩ := issues_bind h
  obtain ⟨rfl, rfl⟩ := issues_pure hret
  obtain ⟨copies, rfl, hcopies⟩ := issues_exchange hrun
  exact ⟨copies, List.append_nil _, fun hzero => hcopies (by decide) hzero⟩

/-- The rounds of a chunk that succeed end in copies of its DATA message and
then of its CRC message; earlier rounds issued nothing else, and the payload is
counted once. -/
theorem issues_dataRounds {buf : List Byte} {total : BitVec 32} {count dataCount : ℕ} {ret : Int}
    {before after : BitVec 32} {log : List (List Byte)} (hret : ret ≠ 0)
    (h : Issues (dataRounds codes ids module buf total count dataCount ret before) (0, after)
      log) :
    ∃ front m n, log = front ++ (List.replicate m (dataMessage codes buf) ++
        List.replicate n (crcMessage codes (crc16 buf))) ∧ 1 ≤ m ∧ 1 ≤ n ∧
      (∀ message ∈ front,
        message = dataMessage codes buf ∨ message = crcMessage codes (crc16 buf)) ∧
      after = before + BitVec.ofNat 32 buf.length := by
  induction count generalizing dataCount ret log with
  | zero =>
    have hzero := (issues_pure h).1
    exact absurd (congrArg Prod.fst hzero).symm hret
  | succ count ih =>
    obtain ⟨⟨ret', dataCount'⟩, front, behind, hdata, hrest, rfl⟩ := issues_bind h
    obtain ⟨copies, rfl, hcopies⟩ := issues_exchange hdata
    dsimp only at hrest hcopies
    have hmem : ∀ message ∈ List.replicate copies (dataMessage codes buf),
        message = dataMessage codes buf ∨ message = crcMessage codes (crc16 buf) :=
      fun message hmessage => Or.inl (List.eq_of_mem_replicate hmessage)
    split_ifs at hrest with hzero
    · obtain ⟨crcRet, front, behind, hcrc, hend, rfl⟩ := issues_bind hrest
      obtain ⟨crcCopies, rfl, hcrcCopies⟩ := issues_sendDataCRC hcrc
      split_ifs at hend with hcrcZero
      · obtain ⟨_, front, behind, hprogress, hpure, rfl⟩ := issues_bind hend
        obtain ⟨hresult, rfl⟩ := issues_pure hpure
        rw [issues_ask hprogress]
        refine ⟨[], copies, crcCopies, by simp [issued], hcopies hret hzero,
          hcrcCopies hcrcZero, by simp, ?_⟩
        exact congrArg Prod.snd hresult
      · obtain ⟨front, m, n, rfl, hm, hn, hfront, hafter⟩ := ih hcrcZero hend
        refine ⟨List.replicate copies (dataMessage codes buf) ++
          (List.replicate crcCopies (crcMessage codes (crc16 buf)) ++ front), m, n,
          by simp only [List.append_assoc], hm, hn, ?_, hafter⟩
        intro message hmessage
        rcases List.mem_append.mp hmessage with hin | hin
        · exact hmem message hin
        · rcases List.mem_append.mp hin with hin | hin
          · exact Or.inr (List.eq_of_mem_replicate hin)
          · exact hfront message hin
    · obtain ⟨front, m, n, rfl, hm, hn, hfront, hafter⟩ := ih hzero hrest
      refine ⟨List.replicate copies (dataMessage codes buf) ++ front, m, n,
        by simp only [List.append_assoc], hm, hn, ?_, hafter⟩
      intro message hmessage
      rcases List.mem_append.mp hmessage with hin | hin
      · exact hmem message hin
      · exact hfront message hin

/-- A successful chunk step leaves its DATA message and its CRC message as the
last copies and counts the payload. -/
theorem issues_sendFirmwareData {buf : List Byte} {total before after : BitVec 32}
    {log : List (List Byte)}
    (h : Issues (sendFirmwareData codes ids module buf total before) (0, after) log) :
    lastCopies log = [dataMessage codes buf, crcMessage codes (crc16 buf)] ∧
      after = before + BitVec.ofNat 32 buf.length := by
  obtain ⟨front, m, n, rfl, hm, hn, hfront, hafter⟩ := issues_dataRounds (by decide) h
  exact ⟨dedup_two (dataMessage_ne_crcMessage codes buf _) hfront hm hn, hafter⟩

/-- A successful chunk step of an allowed size is one segment in front of
others. -/
theorem DataSegments.cons_of_issues {buf rest : List Byte} {total before after : BitVec 32}
    {log : List (List Byte)} {segments : List (List (List Byte))} (hpos : 1 ≤ buf.length)
    (hle : buf.length ≤ dataPacketLength)
    (h : Issues (sendFirmwareData codes ids module buf total before) (0, after) log)
    (hrest : DataSegments codes ids module rest segments) :
    DataSegments codes ids module (buf ++ rest) (log :: segments) :=
  DataSegments.cons hpos hle h (issues_sendFirmwareData h).1 (isDataMessage codes hle)
    (isCRCMessage codes buf) hrest

/-- The loop over full packets, if it succeeds, puts that many packets of data
in front of whatever follows. -/
theorem issues_sendFullPackets {total : BitVec 32} {packets : ℕ} {data : List Byte}
    {before after : BitVec 32} {log : List (List Byte)}
    (hin : packets * dataPacketLength ≤ data.length)
    (h : Issues (sendFullPackets codes ids module total packets data before) (0, after) log) :
    ∃ segments, log = segments.flatten ∧
      after = before + BitVec.ofNat 32 (packets * dataPacketLength) ∧
      ∀ {rest others}, DataSegments codes ids module rest others →
        DataSegments codes ids module (data.take (packets * dataPacketLength) ++ rest)
          (segments ++ others) := by
  induction packets generalizing data before log with
  | zero =>
    obtain ⟨hresult, rfl⟩ := issues_pure h
    have hafter : after = before := congrArg Prod.snd hresult
    refine ⟨[], rfl, by simp [hafter], ?_⟩
    intro rest others hrest
    simpa using hrest
  | succ packets ih =>
    obtain ⟨⟨ret, sended⟩, front, behind, hfirst, hrest, rfl⟩ := issues_bind h
    dsimp only at hrest
    obtain ⟨rfl, hrest⟩ := exec_passed (by simp) hrest
    rw [Nat.succ_mul] at hin
    have hlen : (data.take dataPacketLength).length = dataPacketLength := by
      rw [List.length_take]
      omega
    obtain ⟨segments, rfl, hafter, hsegments⟩ :=
      ih (by rw [List.length_drop]; omega) hrest
    obtain ⟨-, hsended⟩ := issues_sendFirmwareData hfirst
    refine ⟨front :: segments, rfl, ?_, ?_⟩
    · rw [hafter, hsended, hlen, BitVec.add_assoc, ← BitVec.ofNat_add, Nat.succ_mul,
        Nat.add_comm dataPacketLength]
    · intro rest others hothers
      have hpos : 0 < dataPacketLength := by decide
      have hsplit : data.take ((packets + 1) * dataPacketLength) ++ rest =
          data.take dataPacketLength ++
            ((data.drop dataPacketLength).take (packets * dataPacketLength) ++ rest) := by
        rw [Nat.succ_mul, Nat.add_comm, List.take_add, List.append_assoc]
      rw [hsplit]
      exact DataSegments.cons_of_issues (by omega) hlen.le hfirst (hsegments hothers)

/-- All packets of a long element but the last are full, and the last is not empty. -/
theorem packetNum_bounds {length : ℕ} (h : dataPacketLength < length) :
    (packetNum length - 1) * dataPacketLength < length ∧
      length - (packetNum length - 1) * dataPacketLength ≤ dataPacketLength := by
  unfold packetNum
  unfold dataPacketLength at h ⊢
  split_ifs <;> omega

/-- The data step of an element, if it succeeds, spells out the element's bytes. -/
theorem issues_sendElementData {total : BitVec 32} {data : List Byte} {before after : BitVec 32}
    {log : List (List Byte)} (hpos : 1 ≤ data.length)
    (h : Issues (sendElementData codes ids module total data before) (0, after) log) :
    ∃ segments, log = segments.flatten ∧ DataSegments codes ids module data segments ∧
      after = before + BitVec.ofNat 32 data.length := by
  unfold sendElementData at h
  split_ifs at h with hshort
  · obtain ⟨⟨ret, sended⟩, front, behind, hsend, hret, rfl⟩ := issues_bind h
    dsimp only at hret
    obtain ⟨rfl, hret⟩ := exec_passed (by simp) hret
    obtain ⟨hresult, rfl⟩ := issues_pure hret
    obtain rfl : after = sended := congrArg Prod.snd hresult
    refine ⟨[front], by simp, ?_, (issues_sendFirmwareData hsend).2⟩
    rw [← List.append_nil data]
    exact DataSegments.cons_of_issues hpos hshort hsend DataSegments.nil
  · rw [not_le] at hshort
    obtain ⟨hlast, hfits⟩ := packetNum_bounds hshort
    dsimp only at h
    generalize packetNum data.length - 1 = full at h hlast hfits
    obtain ⟨⟨ret, sended⟩, front, behind, hfull, hrest, rfl⟩ := issues_bind h
    dsimp only at hrest
    obtain ⟨rfl, hrest⟩ := exec_passed (by simp) hrest
    obtain ⟨segments, rfl, hsended, hsegments⟩ := issues_sendFullPackets hlast.le hfull
    obtain ⟨⟨ret, sended'⟩, last, behind, hsend, hret, rfl⟩ := issues_bind hrest
    dsimp only at hret
    obtain ⟨rfl, hret⟩ := exec_passed (by simp) hret
    obtain ⟨hresult, rfl⟩ := issues_pure hret
    obtain rfl : after = sended' := congrArg Prod.snd hresult
    -- The remainder is everything behind the full packets.
    have hleft : (data.drop (full * dataPacketLength)).take
        (data.length - full * dataPacketLength) = data.drop (full * dataPacketLength) :=
      List.take_of_length_le (by rw [List.length_drop])
    rw [hleft] at hsend
    have hlen : (data.drop (full * dataPacketLength)).length =
        data.length - full * dataPacketLength := List.length_drop
    refine ⟨segments ++ [last], by simp, ?_, ?_⟩
    · have hall := hsegments (DataSegments.cons_of_issues (by omega) (by omega) hsend
        DataSegments.nil)
      rwa [List.append_nil, List.take_append_drop] at hall
    · rw [(issues_sendFirmwareData hsend).2, hsended, hlen, BitVec.add_assoc,
        ← BitVec.ofNat_add]
      congr 2
      omega

/-- The loop over the elements, if it succeeds, spells out all of them. -/
theorem issues_sendElements {total : BitVec 32} {elements : List ImageElement}
    {before after : BitVec 32} {log : List (List Byte)}
    (hpos : ∀ element ∈ elements, 1 ≤ element.data.length)
    (h : Issues (sendElements codes ids module total elements before) (0, after) log) :
    ∃ segments, log = segments.flatten ∧ ImageSegments codes ids module elements segments ∧
      after = before + BitVec.ofNat 32 (elements.map fun e => e.data.length).sum := by
  induction elements generalizing before log with
  | nil =>
    obtain ⟨hresult, rfl⟩ := issues_pure h
    obtain rfl : after = before := congrArg Prod.snd hresult
    exact ⟨[], rfl, ImageSegments.nil, by simp⟩
  | cons element elements ih =>
    obtain ⟨ret, address, behind, haddress, hrest, rfl⟩ := issues_bind h
    obtain ⟨rfl, hrest⟩ := exec_passed (by simp) hrest
    obtain ⟨⟨ret, sended⟩, front, behind, hdata, hothers, rfl⟩ := issues_bind hrest
    dsimp only at hothers
    obtain ⟨rfl, hothers⟩ := exec_passed (by simp) hothers
    obtain ⟨own, rfl, hown, hsended⟩ :=
      issues_sendElementData (hpos element List.mem_cons_self) hdata
    obtain ⟨others, rfl, helements, hafter⟩ :=
      ih (fun e he => hpos e (List.mem_cons_of_mem _ he)) hothers
    refine ⟨address :: (own ++ others), by simp, ?_, ?_⟩
    · exact ImageSegments.cons haddress (issues_sendDataAddress haddress)
        (isAddressMessage codes element.address) hown helements
    · rw [hafter, hsended, BitVec.add_assoc, ← BitVec.ofNat_add, List.map_cons, List.sum_cons]

/-- A successful `sendFirmware` spells out the image: the last copies each of
its steps issued are the element's ADDR message, then a DATA message and its
CRC message for every piece of the element's data, and `g_DataSended` ends as
the number of bytes in the image. -/
theorem sendFirmware_spellsImage (codes : MessageCodes) (ids : ModuleIds) (module : Byte)
    (image : HexImage) (hpos : ∀ element ∈ image.elements, 1 ≤ element.data.length)
    (sended : BitVec 32) (log : List (List Byte))
    (h : Issues (sendFirmware codes ids module image) (0, sended) log) :
    ∃ segments, log = segments.flatten ∧
      ImageSegments codes ids module image.elements segments ∧
      sended.toNat = (image.elements.map fun e => e.data.length).sum := by
  obtain ⟨_, front, behind, hprogress, hrest, rfl⟩ := issues_bind h
  rw [issues_ask hprogress]
  obtain ⟨segments, rfl, hsegments, hsended⟩ := issues_sendElements hpos hrest
  refine ⟨segments, rfl, hsegments, ?_⟩
  rw [hsended, BitVec.ofNat_eq_ofNat, BitVec.zero_add, BitVec.toNat_ofNat,
    Nat.mod_eq_of_lt image.fits]

end Steps

/-- The bytes of a one-byte element fit into the memory. -/
theorem oneByteElements_fit :
    (([⟨0x10, [0x41]⟩] : List ImageElement).map fun e => e.data.length).sum < 2 ^ 32 := by
  decide

/-- An image of one byte. -/
def oneByteImage : HexImage := ⟨[⟨0x10, [0x41]⟩], 1, oneByteElements_fit⟩

/-- An element one byte longer than a packet, and a short one. -/
def longAndShort : List ImageElement :=
  [⟨0x10, List.replicate 501 0x41⟩, ⟨0x400, [0x42]⟩]

theorem longAndShort_fits : (longAndShort.map fun e => e.data.length).sum < 2 ^ 32 := by
  rw [longAndShort, List.map_cons, List.length_replicate]
  decide

/-- Their image. -/
def longAndShortImage : HexImage := ⟨longAndShort, 502, longAndShort_fits⟩

/-- A link whose first answer gets lost, with a board that rejects the first checksum. -/
def lossyReply (r : UpdateRequest) (log : List (List Byte)) : UpdateAnswer r × List (List Byte) :=
  let answer : UpdateAnswer r :=
    match r with
    | .popFromRecvList expSId expMsgType =>
      if log.length = 1 then none
      else if log.length = 4 then some ⟨0, expSId, 0, [expMsgType, 3, 1]⟩
      else some ⟨0, expSId, 0, [expMsgType, 3, 0]⟩
    | r => perfectReply r
  (answer, log ++ issued r answer)

/-- What is issued over it: the first address twice, and the first packet twice with its
checksum. -/
def lossyLog : List (List Byte) :=
  let long := List.replicate 500 0x41
  [addressMessage default 0x10, addressMessage default 0x10,
    dataMessage default long, crcMessage default (crc16 long),
    dataMessage default long, crcMessage default (crc16 long),
    dataMessage default [0x41], crcMessage default (crc16 [0x41]),
    addressMessage default 0x400,
    dataMessage default [0x42], crcMessage default (crc16 [0x42])]

set_option maxRecDepth 20000 in
/-- Both elements are spelled out all the same. -/
theorem sendFirmware_spellsImage_longAndShort :
    ∃ segments : List (List (List Byte)), lossyLog = segments.flatten ∧
      ImageSegments default default 5 longAndShort segments ∧
      (502 : BitVec 32).toNat = (longAndShort.map fun e => e.data.length).sum := by
  have hrun := @exec_run _ _ _ _ (logging issued) lossyReply (fun _ _ => rfl)
    (sendFirmware default default 5 longAndShortImage) []
  have hends : (sendFirmware default default 5 longAndShortImage).run lossyReply [] =
      ((0, 502), lossyLog) := by
    rfl
  rw [hends] at hrun
  exact sendFirmware_spellsImage default default 5 longAndShortImage
    (by decide +kernel) 502 _ hrun

end RobotOta.UpgradeTranscript
