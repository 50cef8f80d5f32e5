import RobotOta.UpgradeOrder

/-!
# The attempts at a chunk and its verification

A record of `sendDataCRC` or `sendFirmwareData` falls into the records of its
attempts, and what the two functions return can be read off them: whether the
status of a chunk was good, and how its rounds share one retry counter.
-/

namespace RobotOta.ChunkVerification

open CanFrameCodec CanReassembly RequestProgram BoardUpgrade AttemptRecords UpgradeOrder

section Status

/-- `sendDataCRC` returns zero only on an accepted answer that has a third byte,
and that byte is zero. -/
def VerifiedExplicitly (codes : MessageCodes) (module : Byte) (ret : Int)
    (record : List UpdateEvent) : Prop :=
  ret = 0 → ∃ event ∈ record, ∃ packet, Accepts codes module .dataCRC packet event ∧
    packet.pData[2]? = some 0x00

/-- No accepted CRC answer is too short for the status byte. -/
def StatusCarried (codes : MessageCodes) (module : Byte) (record : List UpdateEvent) : Prop :=
  ∀ event ∈ record, ∀ packet, Accepts codes module .dataCRC packet event →
    3 ≤ packet.pData.length

/-- A status byte that came is the one that is read. -/
theorem dealCRC_eq_zero_iff {pData : List Byte} (h : 3 ≤ pData.length) :
    dealCRC (pData.take 3) = 0 ↔ pData[2]? = some 0x00 := by
  have hthird : (pData.take 3).getD 2 0 = pData[2] := by
    rw [List.getD_eq_getElem?_getD, List.getElem?_take_of_lt (by decide),
      List.getElem?_eq_getElem (by omega), Option.getD_some]
  rw [dealCRC, hthird, List.getElem?_eq_getElem (by omega), Option.some.injEq]
  split_ifs with hzero
  · exact iff_of_true rfl hzero
  · exact iff_of_false (by decide) hzero

/-- One that did not come is read as zero. -/
theorem dealCRC_short {pData : List Byte} (h : ¬3 ≤ pData.length) :
    dealCRC (pData.take 3) = 0 := by
  have hthird : (pData.take 3).getD 2 0 = 0 := by
    rw [List.getD_eq_getElem?_getD, List.getElem?_eq_none, Option.getD_none]
    rw [List.length_take]
    omega
  rw [dealCRC, hthird, if_pos rfl]

/-- `sendDataCRC` asks for an explicit good status in exactly the runs in which
no accepted answer is too short to carry one. -/
theorem verifiedExplicitly_iff (codes : MessageCodes) (ids : ModuleIds) (module : Byte)
    (crc : BitVec 16) (ret : Int) (record : List UpdateEvent)
    (h : Records (sendDataCRC codes ids module crc) ret record) :
    VerifiedExplicitly codes module ret record ↔ StatusCarried codes module record := by
  obtain ⟨⟨ret', left⟩, own, behind, hrun, hret, rfl⟩ := records_bind h
  obtain ⟨rfl, rfl⟩ := records_pure hret
  rw [List.append_nil]
  rcases records_exchange_answers hrun with
    ⟨hne, hnone⟩ | ⟨front, packet, rfl, -, hfront, hexp, rfl⟩
  · refine iff_of_true (fun hzero => absurd hzero (hne (by decide))) ?_
    rintro event hin packet ⟨rfl, hexpected⟩
    exact absurd hin (hnone packet hexpected)
  -- The answer is the last event and the only one.
  have hlast : ∀ event ∈ front ++ [⟨.popFromRecvList module (codes.resp .dataCRC), some packet⟩],
      ∀ other, Accepts codes module .dataCRC other event → other = packet := by
    rintro event hin other ⟨rfl, hexpected⟩
    rcases List.mem_append.mp hin with hin | hin
    · exact absurd hin (hfront other hexpected)
    · exact Option.some.inj (eq_of_heq (Sigma.mk.inj (List.mem_singleton.mp hin)).2)
  have haccepts : Accepts codes module .dataCRC packet
      ⟨.popFromRecvList module (codes.resp .dataCRC), some packet⟩ := ⟨rfl, hexp⟩
  have hmem := List.mem_append_right front
    (List.mem_singleton_self (⟨.popFromRecvList module (codes.resp .dataCRC), some packet⟩ :
      UpdateEvent))
  by_cases hlen : 3 ≤ packet.pData.length
  · refine iff_of_true (fun hzero => ?_) ?_
    · exact ⟨_, hmem, packet, haccepts, (dealCRC_eq_zero_iff hlen).mp hzero⟩
    · intro event hin other hother
      rwa [hlast event hin other hother]
  · refine iff_of_false (fun hverified => ?_) fun hcarried => hlen (hcarried _ hmem packet haccepts)
    obtain ⟨event, hin, other, hother, hstatus⟩ := hverified (dealCRC_short hlen)
    rw [hlast event hin other hother, List.getElem?_eq_none (by omega)] at hstatus
    exact absurd hstatus (by simp)

/-- Surroundings whose answers are one byte long. -/
def shortReply : (r : UpdateRequest) → UpdateAnswer r
  | .popFromRecvList expSId expMsgType => some ⟨0, expSId, 0, [expMsgType]⟩
  | r => perfectReply r

/-- The record of a CRC command there. -/
def shortRecord : List UpdateEvent :=
  ((sendDataCRC default default 5 0x707F).run
    (replyAndLog (fun r answer => [⟨r, answer⟩]) shortReply) []).2

/-- The record of a CRC command whose answer has a status. -/
def statusRecord : List UpdateEvent :=
  ((sendDataCRC default default 5 0x707F).run
    (replyAndLog (fun r answer => [⟨r, answer⟩]) perfectReply) []).2

/-- An answer of one byte counts as success. -/
theorem not_verifiedExplicitly_short :
    Records (sendDataCRC default default 5 0x707F) 0 shortRecord ∧
      ¬VerifiedExplicitly default 5 0 shortRecord := by
  refine ⟨exec_replyAndLog _ shortReply _ [], ?_⟩
  intro hverified
  obtain ⟨event, hin, packet, ⟨rfl, -⟩, hstatus⟩ := hverified rfl
  have hpacket : packet = ⟨0, 5, 0, [35]⟩ := by
    have hrecord : shortRecord = [⟨.sendCANData 2 5 [19, 4, 0x70, 0x7F], (0 : Int)⟩,
        ⟨.sockFd, (3 : Int)⟩, ⟨.waitRounds 30, (0 : ℕ)⟩,
        ⟨.popFromRecvList 5 35, some ⟨0, 5, 0, [35]⟩⟩] := rfl
    rw [hrecord] at hin
    simp only [List.mem_cons, List.not_mem_nil, or_false] at hin
    rcases hin with hin | hin | hin | hin
    · exact absurd (Sigma.mk.inj hin).1 (by simp)
    · exact absurd (Sigma.mk.inj hin).1 (by simp)
    · exact absurd (Sigma.mk.inj hin).1 (by simp)
    · exact Option.some.inj (eq_of_heq (Sigma.mk.inj hin).2)
  rw [hpacket] at hstatus
  exact absurd hstatus (by decide)

/-- With a status byte the check is explicit. -/
theorem verifiedExplicitly_status : VerifiedExplicitly default 5 0 statusRecord ↔
    StatusCarried default 5 statusRecord :=
  verifiedExplicitly_iff default default 5 0x707F 0 statusRecord
    (exec_replyAndLog _ perfectReply _ [])

end Status

section Rounds

variable (codes : MessageCodes) (ids : ModuleIds) (module : Byte) (buf : List Byte)

/-- One round of `sendFirmwareData`: DATA until it is acknowledged or its
counter has run out, and a CRC exchange if it was acknowledged. -/
def dataRound (dataCount : ℕ) (ret : Int) : UpdateM (Int × ℕ) := do
  let (ret, dataCount) ← exchange ids.rmUpgradeId module (dataMessage codes buf)
    (codes.resp .firmwareData) dataTimeout dealAny dataCount ret
  if ret = 0 then
    let ret ← sendDataCRC codes ids module (crc16 buf)
    pure (ret, dataCount)
  else pure (ret, dataCount)

/-- The record of a complete round: its DATA counter starts at `RESEND_COUNT`. -/
def CompleteRound (ret : Int) (record : List UpdateEvent) : Prop :=
  ∃ left, Records (dataRound codes ids module buf resendCount (-1)) (ret, left) record

/-- The retry budget of a chunk: failure only after `RESEND_COUNT` complete
rounds, and DATA once more behind a first round that fails. -/
structure RetryBudget (ret : Int) (record : List UpdateEvent) : Prop where
  /-- Before it gives up, all rounds have been gone through. -/
  rounds : ret ≠ 0 → ∃ rounds : List (List UpdateEvent), rounds.length = resendCount ∧
    record = rounds.flatten ∧
    ∀ round ∈ rounds, ∃ failed, failed ≠ 0 ∧ CompleteRound codes ids module buf failed round
  /-- Behind a round that failed the chunk is sent again. -/
  resent : ∀ failed first rest, record = first ++ rest →
    CompleteRound codes ids module buf failed first → failed ≠ 0 →
    ∃ sent ∈ rest, Sends sent (dataMessage codes buf)

/-- A DATA message that is acknowledged. -/
def Acked (record : List UpdateEvent) : Prop :=
  ∃ ret retData, Records (attempt ids.rmUpgradeId module (dataMessage codes buf)
    (codes.resp .firmwareData) dataTimeout) (ret, some retData) record

/-- A DATA message that is not. -/
def Unacked (record : List UpdateEvent) : Prop :=
  ∃ ret, Records (attempt ids.rmUpgradeId module (dataMessage codes buf)
    (codes.resp .firmwareData) dataTimeout) (ret, none) record

/-- A CRC exchange that does not verify the chunk. -/
def CRCFails (record : List UpdateEvent) : Prop :=
  ∃ ret, ret ≠ 0 ∧ Records (sendDataCRC codes ids module (crc16 buf)) ret record

/-- One counter serves the DATA messages of all rounds. It is used up too early
when the chunk fails with one of its two DATA messages unacknowledged. -/
inductive CounterUsedUp : List UpdateEvent → Prop where
  | neverAcked {first second : List UpdateEvent} : Unacked codes ids module buf first →
    Unacked codes ids module buf second → CounterUsedUp (first ++ second)
  | ackedLate {first second crc : List UpdateEvent} : Unacked codes ids module buf first →
    Acked codes ids module buf second → CRCFails codes ids module buf crc →
    CounterUsedUp (first ++ (second ++ crc))
  | ackedOnce {first crc second : List UpdateEvent} : Acked codes ids module buf first →
    CRCFails codes ids module buf crc → Unacked codes ids module buf second →
    CounterUsedUp (first ++ (crc ++ second))

variable {codes ids module buf}

/-- The outer loop runs its rounds over what is left of the counter. -/
theorem dataRounds_succ (total : BitVec 32) (count dataCount : ℕ) (ret : Int)
    (sended : BitVec 32) :
    dataRounds codes ids module buf total (count + 1) dataCount ret sended =
      dataRound codes ids module buf dataCount ret >>= fun result =>
        if result.1 = 0 then do
          downloadProgress (sended + BitVec.ofNat 32 buf.length) total
          pure (result.1, sended + BitVec.ofNat 32 buf.length)
        else dataRounds codes ids module buf total count result.2 result.1 sended := by
  rw [dataRounds, dataRound, bind_assoc]
  congr 1
  funext result
  by_cases hret : result.1 = 0
  · simp only [hret, if_true, bind_assoc, pure_bind]
  · simp only [hret, if_false, pure_bind]

/-- A round whose counter is zero does nothing. -/
theorem dataRound_zero {ret : Int} (hret : ret ≠ 0) :
    dataRound codes ids module buf 0 ret = pure (ret, 0) := by
  rw [dataRound, exchange, pure_bind]
  exact if_neg hret

/-- A round with an attempt left makes it: an acknowledgement leads to the CRC
exchange, anything else to the rest of the counter. -/
theorem records_dataRound_succ {count left : ℕ} {ret ret' : Int} {record : List UpdateEvent}
    (h : Records (dataRound codes ids module buf (count + 1) ret) (ret', left) record) :
    (∃ first crc, Acked codes ids module buf first ∧
      Records (sendDataCRC codes ids module (crc16 buf)) ret' crc ∧ left = count ∧
      record = first ++ crc) ∨
    ∃ got first rest, got ≠ 0 ∧ Unacked codes ids module buf first ∧
      Records (dataRound codes ids module buf count got) (ret', left) rest ∧
      record = first ++ rest := by
  rw [dataRound, exchange_succ, bind_assoc] at h
  obtain ⟨⟨got, outcome⟩, first, behind, hrun, hrest, rfl⟩ := records_bind h
  cases outcome with
  | none =>
    exact Or.inr ⟨got, first, behind, ((attemptLeaves hrun).unanswered rfl).1, ⟨got, hrun⟩, hrest,
      rfl⟩
  | some retData =>
    rw [pure_bind] at hrest
    simp only [dealAny, if_true] at hrest
    obtain ⟨crcRet, crc, last, hcrc, hend, rfl⟩ := records_bind hrest
    obtain ⟨hresult, rfl⟩ := records_pure hend
    obtain ⟨rfl, rfl⟩ := Prod.mk.inj hresult
    exact Or.inl ⟨first, crc, ⟨got, retData, hrun⟩, hcrc, rfl, by rw [List.append_nil]⟩

/-- An acknowledged attempt and a CRC exchange are a round. -/
theorem Acked.round {first crc : List UpdateEvent} {ret : Int}
    (h : Acked codes ids module buf first)
    (hcrc : Records (sendDataCRC codes ids module (crc16 buf)) ret crc) (count : ℕ) (start : Int) :
    Records (dataRound codes ids module buf (count + 1) start) (ret, count) (first ++ crc) := by
  obtain ⟨got, retData, hrun⟩ := h
  rw [dataRound, exchange_succ, bind_assoc]
  refine hrun.bind ?_
  rw [pure_bind]
  simp only [dealAny, if_true]
  have hpure : Records (pure (ret, count) : UpdateM (Int × ℕ)) (ret, count) [] := Exec.pure
  have hend : Records (sendDataCRC codes ids module (crc16 buf) >>= fun ret => pure (ret, count))
      (ret, count) (crc ++ []) := hcrc.bind hpure
  rwa [List.append_nil] at hend

/-- An unacknowledged attempt goes in front of the rest of its round. -/
theorem Unacked.round {first : List UpdateEvent} (h : Unacked codes ids module buf first) :
    ∃ got, got ≠ 0 ∧ ∀ (count : ℕ) (start : Int) (result : Int × ℕ) (rest : List UpdateEvent),
      Records (dataRound codes ids module buf count got) result rest →
      Records (dataRound codes ids module buf (count + 1) start) result (first ++ rest) := by
  obtain ⟨got, hrun⟩ := h
  refine ⟨got, ((attemptLeaves hrun).unanswered rfl).1, fun count start result rest hrest => ?_⟩
  rw [dataRound, exchange_succ, bind_assoc]
  exact hrun.bind hrest

/-- A used-up counter is zero behind the first round, which fails; or the second
round has one attempt left, which is not acknowledged. -/
theorem CounterUsedUp.cases {record : List UpdateEvent}
    (h : CounterUsedUp codes ids module buf record) :
    (∃ ret, ret ≠ 0 ∧ Records (dataRound codes ids module buf resendCount (-1)) (ret, 0) record) ∨
    ∃ ret first second, ret ≠ 0 ∧ Unacked codes ids module buf second ∧
      Records (dataRound codes ids module buf resendCount (-1)) (ret, 1) first ∧
      record = first ++ second := by
  cases h with
  | neverAcked hfirst hsecond =>
    obtain ⟨got, hgot, hround⟩ := hfirst.round
    obtain ⟨got', hgot', hround'⟩ := hsecond.round
    have hend : Records (dataRound codes ids module buf 0 got') (got', 0) [] := by
      rw [dataRound_zero hgot']
      exact Exec.pure
    have hrounds := hround 1 (-1) _ _ (hround' 0 got _ _ hend)
    rw [List.append_nil] at hrounds
    exact Or.inl ⟨got', hgot', hrounds⟩
  | ackedLate hfirst hsecond hcrc =>
    obtain ⟨got, hgot, hround⟩ := hfirst.round
    obtain ⟨ret, hret, hcrc⟩ := hcrc
    exact Or.inl ⟨ret, hret, hround 1 (-1) _ _ (hsecond.round hcrc 0 got)⟩
  | @ackedOnce first crc second hfirst hcrc hsecond =>
    obtain ⟨ret, hret, hcrc⟩ := hcrc
    exact Or.inr ⟨ret, first ++ crc, second, hret, hsecond, hfirst.round hcrc 1 (-1),
      (List.append_assoc _ _ _).symm⟩

/-- A first round that leaves the counter at zero and fails has used it up; one
that leaves an attempt was acknowledged at once. -/
theorem firstRound_cases {ret : Int} {left : ℕ} {record : List UpdateEvent} (hret : ret ≠ 0)
    (h : Records (dataRound codes ids module buf resendCount (-1)) (ret, left) record) :
    (left = 0 ∧ CounterUsedUp codes ids module buf record) ∨
    (left = 1 ∧ ∃ first crc, Acked codes ids module buf first ∧
      CRCFails codes ids module buf crc ∧ record = first ++ crc) := by
  rcases records_dataRound_succ h with ⟨first, crc, hfirst, hcrc, rfl, rfl⟩ |
    ⟨got, first, rest, hgot, hfirst, hrest, rfl⟩
  · exact Or.inr ⟨rfl, first, crc, hfirst, ⟨ret, hret, hcrc⟩, rfl⟩
  rcases records_dataRound_succ hrest with ⟨second, crc, hsecond, hcrc, rfl, rfl⟩ |
    ⟨got', second, rest, hgot', hsecond, hend, rfl⟩
  · exact Or.inl ⟨rfl, CounterUsedUp.ackedLate hfirst hsecond ⟨ret, hret, hcrc⟩⟩
  · rw [dataRound_zero hgot'] at hend
    obtain ⟨hresult, rfl⟩ := records_pure hend
    rw [List.append_nil]
    exact Or.inl ⟨congrArg Prod.snd hresult, CounterUsedUp.neverAcked hfirst hsecond⟩

/-- An attempt sends its message. -/
theorem Acked.sends {record : List UpdateEvent} (h : Acked codes ids module buf record) :
    ∃ sent ∈ record, Sends sent (dataMessage codes buf) := by
  obtain ⟨ret, retData, hrun⟩ := h
  obtain ⟨ret, hsent⟩ := (attemptLeaves hrun).sent
  exact ⟨_, hsent, _, _, ret, rfl⟩

theorem Unacked.sends {record : List UpdateEvent} (h : Unacked codes ids module buf record) :
    ∃ sent ∈ record, Sends sent (dataMessage codes buf) := by
  obtain ⟨ret, hrun⟩ := h
  obtain ⟨ret, hsent⟩ := (attemptLeaves hrun).sent
  exact ⟨_, hsent, _, _, ret, rfl⟩

/-- An unacknowledged attempt alone is no complete round. -/
theorem Unacked.not_completeRound {record : List UpdateEvent}
    (h : Unacked codes ids module buf record) (ret : Int) :
    ¬CompleteRound codes ids module buf ret record := by
  rintro ⟨left, hround⟩
  obtain ⟨got, hrun⟩ := h
  have hshort : ∀ {first rest : List UpdateEvent} {outcome},
      Records (attempt ids.rmUpgradeId module (dataMessage codes buf) (codes.resp .firmwareData)
        dataTimeout) outcome first →
      record = first ++ rest → outcome = (got, none) ∧ rest = [] := by
    intro first rest outcome hfirst hsplit
    obtain ⟨hvalue, -, hrest⟩ := records_cancel hfirst hrun
      (hsplit.symm.trans (List.append_nil record).symm)
    exact ⟨hvalue, hrest⟩
  rcases records_dataRound_succ hround with ⟨first, crc, ⟨got', retData, hfirst⟩, -, -, hsplit⟩ |
    ⟨_, first, rest, -, ⟨got', hfirst⟩, hrest, hsplit⟩
  · exact absurd (congrArg Prod.snd (hshort hfirst hsplit).1) (by simp)
  · -- The second attempt would have sent its message.
    obtain ⟨-, rfl⟩ := hshort hfirst hsplit
    rcases records_dataRound_succ hrest with ⟨second, crc, hsecond, -, -, hnil⟩ |
      ⟨_, second, rest, -, hsecond, -, hnil⟩
    · obtain ⟨sent, hin, -⟩ := hsecond.sends
      rw [(List.append_eq_nil_iff.mp hnil.symm).1] at hin
      exact absurd hin List.not_mem_nil
    · obtain ⟨sent, hin, -⟩ := hsecond.sends
      rw [(List.append_eq_nil_iff.mp hnil.symm).1] at hin
      exact absurd hin List.not_mem_nil

/-- Where the first round is verified, the budget is kept and the counter is
not used up. -/
theorem retryBudget_of_verified {left : ℕ} {first : List UpdateEvent}
    (h : Records (dataRound codes ids module buf resendCount (-1)) (0, left) first)
    (rest : List UpdateEvent) :
    RetryBudget codes ids module buf 0 (first ++ rest) ∧
      ¬CounterUsedUp codes ids module buf (first ++ rest) := by
  refine ⟨⟨fun hret => absurd rfl hret, ?_⟩, ?_⟩
  · rintro failed other behind hsplit ⟨left', hother⟩ hfailed
    exact absurd (congrArg Prod.fst (records_cancel h hother hsplit).1).symm hfailed
  · intro hused
    rcases hused.cases with ⟨ret, hret, hround⟩ | ⟨ret, other, second, hret, -, hround, hsplit⟩
    · have hsame := records_cancel h hround (List.append_nil (first ++ rest)).symm
      exact hret (congrArg Prod.fst hsame.1).symm
    · exact hret (congrArg Prod.fst (records_cancel h hround hsplit).1).symm

/-- Where the second DATA message is acknowledged, the second round is complete
and the budget is kept. -/
theorem retryBudget_of_acked {failed ret : Int} {first own crc rest : List UpdateEvent}
    (hfailed : failed ≠ 0)
    (hfirst : Records (dataRound codes ids module buf resendCount (-1)) (failed, 1) first)
    (hown : Acked codes ids module buf own)
    (hcrc : Records (sendDataCRC codes ids module (crc16 buf)) ret crc)
    (hrest : ret ≠ 0 → rest = []) :
    RetryBudget codes ids module buf ret (first ++ (own ++ crc ++ rest)) ∧
      ¬CounterUsedUp codes ids module buf (first ++ (own ++ crc ++ rest)) := by
  refine ⟨⟨fun hret => ?_, ?_⟩, fun hused => ?_⟩
  · refine ⟨[first, own ++ crc], rfl, by simp [hrest hret], ?_⟩
    intro round hin
    rcases List.mem_pair.mp hin with rfl | rfl
    · exact ⟨failed, hfailed, 1, hfirst⟩
    · exact ⟨ret, hret, 1, hown.round hcrc 1 (-1)⟩
  · rintro failed' other behind hsplit ⟨left', hother⟩ -
    obtain ⟨-, -, rfl⟩ := records_cancel hfirst hother hsplit
    obtain ⟨sent, hin, hsends⟩ := hown.sends
    exact ⟨sent, by simp [hin], hsends⟩
  · rcases hused.cases with ⟨ret', -, hround⟩ |
      ⟨ret', other, behind, -, ⟨got, hunacked⟩, hround, hsplit⟩
    · have hsame := (records_cancel hfirst hround (List.append_nil _).symm).1
      exact absurd (congrArg Prod.snd hsame) Nat.one_ne_zero
    · obtain ⟨-, -, rfl⟩ := records_cancel hfirst hround hsplit
      obtain ⟨got', retData, hacked⟩ := hown
      have hjoin : own ++ (crc ++ rest) = own ++ crc ++ rest ++ [] := by
        rw [List.append_nil, List.append_assoc]
      have hsame := records_cancel hacked hunacked hjoin
      exact absurd (congrArg Prod.snd hsame.1) (by simp)

/-- Where it is not, there is no third one: the counter is used up, and the
second round was cut short. -/
theorem counterUsedUp_of_unacked {failed ret : Int} {first own : List UpdateEvent}
    (hfailed : failed ≠ 0) (hret : ret ≠ 0)
    (hfirst : Records (dataRound codes ids module buf resendCount (-1)) (failed, 1) first)
    (hown : Unacked codes ids module buf own) :
    ¬RetryBudget codes ids module buf ret (first ++ own) ∧
      CounterUsedUp codes ids module buf (first ++ own) := by
  constructor
  · intro hbudget
    obtain ⟨rounds, hlen, hsplit, hrounds⟩ := hbudget.rounds hret
    obtain ⟨one, two, rfl⟩ := List.length_eq_two.mp hlen
    obtain ⟨_, -, left', hone⟩ := hrounds one (by simp)
    obtain ⟨ret', -, htwo⟩ := hrounds two (by simp)
    obtain ⟨-, -, rfl⟩ := records_cancel hfirst hone (by simpa using hsplit)
    exact hown.not_completeRound ret' htwo
  · rcases firstRound_cases hfailed hfirst with ⟨hleft, -⟩ | ⟨-, data, crc, hdata, hcrc, rfl⟩
    · exact absurd hleft (by decide)
    · rw [List.append_assoc]
      exact CounterUsedUp.ackedOnce hdata hcrc hown

/-- A run of `sendFirmwareData` in its rounds: the first one is verified, or it
used the counter up and was the last, or a second one went on with one attempt. -/
theorem records_sendFirmwareData {total before after : BitVec 32} {ret : Int}
    {record : List UpdateEvent}
    (h : Records (sendFirmwareData codes ids module buf total before) (ret, after) record) :
    (∃ left first rest, ret = 0 ∧
      Records (dataRound codes ids module buf resendCount (-1)) (0, left) first ∧
      record = first ++ rest) ∨
    (ret ≠ 0 ∧ CounterUsedUp codes ids module buf record ∧
      CompleteRound codes ids module buf ret record) ∨
    ∃ failed first second rest left, failed ≠ 0 ∧
      Records (dataRound codes ids module buf resendCount (-1)) (failed, 1) first ∧
      Records (dataRound codes ids module buf 1 failed) (ret, left) second ∧
      (ret ≠ 0 → rest = []) ∧ record = first ++ (second ++ rest) := by
  rw [sendFirmwareData, resendCount, dataRounds_succ] at h
  obtain ⟨⟨failed, left⟩, first, behind, hfirst, hrest, rfl⟩ := records_bind h
  dsimp only at hrest
  split_ifs at hrest with hfailed
  · subst hfailed
    obtain ⟨_, progress, last, -, hend, -⟩ := records_bind hrest
    exact Or.inl ⟨left, first, behind, congrArg Prod.fst (records_pure hend).1, hfirst, rfl⟩
  rw [dataRounds_succ] at hrest
  obtain ⟨⟨got, left'⟩, second, behind, hsecond, hend, rfl⟩ := records_bind hrest
  dsimp only at hend
  have hgot : got = ret ∧ (ret ≠ 0 → behind = []) := by
    split_ifs at hend with hzero
    · obtain ⟨_, progress, last, -, hpure, -⟩ := records_bind hend
      have hret := congrArg Prod.fst (records_pure hpure).1
      exact ⟨hret.symm, fun hne => absurd (hret.trans hzero) hne⟩
    · obtain ⟨hresult, rfl⟩ := records_pure hend
      exact ⟨(congrArg Prod.fst hresult).symm, fun _ => rfl⟩
  obtain ⟨rfl, hbehind⟩ := hgot
  rcases firstRound_cases hfailed hfirst with ⟨rfl, hused⟩ | ⟨rfl, -⟩
  · rw [dataRound_zero hfailed] at hsecond
    obtain ⟨hresult, rfl⟩ := records_pure hsecond
    obtain rfl : got = failed := congrArg Prod.fst hresult
    rw [hbehind hfailed, List.append_nil, List.append_nil]
    exact Or.inr (Or.inl ⟨hfailed, hused, 0, hfirst⟩)
  · exact Or.inr (Or.inr ⟨failed, first, second, behind, left', hfailed, hfirst, hsecond, hbehind,
      rfl⟩)

/-- The retry budget is kept in exactly the runs that do not use the counter of
the DATA messages up before the rounds are over. -/
theorem retryBudget_iff (codes : MessageCodes) (ids : ModuleIds) (module : Byte)
    (buf : List Byte) (total before after : BitVec 32) (ret : Int) (record : List UpdateEvent)
    (h : Records (sendFirmwareData codes ids module buf total before) (ret, after) record) :
    RetryBudget codes ids module buf ret record ↔ ¬CounterUsedUp codes ids module buf record := by
  rcases records_sendFirmwareData h with ⟨left, first, rest, rfl, hfirst, rfl⟩ |
    ⟨hret, hused, hround⟩ |
    ⟨failed, first, second, rest, left, hfailed, hfirst, hsecond, hrest, rfl⟩
  · obtain ⟨hbudget, hnot⟩ := retryBudget_of_verified hfirst rest
    exact iff_of_true hbudget hnot
  · refine iff_of_false (fun hbudget => ?_) (not_not.mpr hused)
    obtain ⟨sent, hin, -⟩ := hbudget.resent ret record [] (List.append_nil _).symm hround hret
    exact absurd hin List.not_mem_nil
  rcases records_dataRound_succ hsecond with ⟨own, crc, hown, hcrc, -, rfl⟩ |
    ⟨got, own, last, hgot, hown, hlast, rfl⟩
  · obtain ⟨hbudget, hnot⟩ := retryBudget_of_acked hfailed hfirst hown hcrc hrest
    exact iff_of_true hbudget hnot
  · rw [dataRound_zero hgot] at hlast
    obtain ⟨hresult, rfl⟩ := records_pure hlast
    obtain ⟨rfl, -⟩ := Prod.mk.inj hresult
    rw [hrest hgot, List.append_nil, List.append_nil]
    obtain ⟨hnot, hused⟩ := counterUsedUp_of_unacked hfailed hgot hfirst hown
    exact iff_of_false hnot (not_not.mpr hused)

end Rounds

/-- The record of a chunk of one byte over a link without losses. -/
def verifiedRecord : List UpdateEvent :=
  ((sendFirmwareData default default 5 [0x41] 1 0).run
    (replyAndLog (fun r answer => [⟨r, answer⟩]) perfectReply) []).2

theorem retryBudget_iff_verified : RetryBudget default default 5 [0x41] 0 verifiedRecord ↔
    ¬CounterUsedUp default default 5 [0x41] verifiedRecord :=
  retryBudget_iff default default 5 [0x41] 1 0 1 0 verifiedRecord
    (exec_replyAndLog _ perfectReply _ [])

/-- Surroundings in which every message is sent and none is answered. -/
def silentReply : (r : UpdateRequest) → UpdateAnswer r
  | .popFromRecvList .. => none
  | r => perfectReply r

/-- The record of a chunk of one byte there. -/
def silentRecord : List UpdateEvent :=
  ((sendFirmwareData default default 5 [0x41] 1 0).run
    (replyAndLog (fun r answer => [⟨r, answer⟩]) silentReply) []).2

/-- The first round sends DATA twice, and the second round sends nothing. -/
theorem not_retryBudget_silent :
    Records (sendFirmwareData default default 5 [0x41] 1 0) (-1, 0) silentRecord ∧
      ¬RetryBudget default default 5 [0x41] (-1) silentRecord := by
  refine ⟨exec_replyAndLog _ silentReply _ [], ?_⟩
  intro hbudget
  have hround : CompleteRound default default 5 [0x41] (-1) silentRecord :=
    ⟨0, exec_replyAndLog _ silentReply (dataRound default default 5 [0x41] resendCount (-1)) []⟩
  obtain ⟨sent, hin, -⟩ := hbudget.resent (-1) silentRecord [] (List.append_nil _).symm hround
    (by decide)
  exact absurd hin List.not_mem_nil

end RobotOta.ChunkVerification
