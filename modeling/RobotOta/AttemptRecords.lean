import RobotOta.BoardUpgrade
import RobotOta.RecordedRun

/-!
# The attempts of the retry loop

A command is sent in attempts, each of which is answered or not. A record of
the retry loop falls into the records of its attempts: none of them found an
answer, or the last one did, and what it found is the last event.
-/

namespace RobotOta.AttemptRecords

open CanFrameCodec CanReassembly RequestProgram BoardUpgrade

/-- What an update asked and was answered. -/
abbrev UpdateRecord := List (Event UpdateRequest UpdateAnswer)

/-- One pass of the retry loop: its `ret`, and `ret_data` if an answer came. -/
def attempt (sId module : Byte) (data : List Byte) (resp : Byte) (timeout : ℕ) :
    UpdateM (Int × Option (List Byte)) := do
  let ret ← sendCANData sId module data
  if ret ≠ 0 then pure (ret, none)
  else
    let (ret, retData) ← readCANData module resp 3 timeout
    if 0 < ret then pure (ret, some retData) else pure (ret, none)

section Attempts

variable {sId module resp : Byte} {data : List Byte} {timeout : ℕ}

/-- The retry loop makes one attempt after the other until one is answered. -/
theorem exchange_succ (deal : List Byte → Int) (count : ℕ) (ret : Int) :
    exchange sId module data resp timeout deal (count + 1) ret =
      attempt sId module data resp timeout >>= fun result =>
        match result.2 with
        | some retData => pure (deal retData, count)
        | none => exchange sId module data resp timeout deal count result.1 := by
  rw [exchange, attempt, bind_assoc]
  congr 1
  funext ret
  by_cases hret : ret = 0
  · simp only [hret, ne_eq, not_true_eq_false, if_false, bind_assoc]
    congr 1
    funext answer
    by_cases hpos : 0 < answer.1
    · simp only [hpos, if_true, pure_bind]
    · simp only [hpos, if_false, pure_bind]
  · simp only [hret, ne_eq, not_false_eq_true, if_true, pure_bind]

/-- No packet on record is an answer. -/
def NoAnswer (module resp : Byte) (record : UpdateRecord) : Prop :=
  ∀ packet, expected module resp packet →
    (⟨.popFromRecvList module resp, some packet⟩ : Event UpdateRequest UpdateAnswer) ∉ record

theorem NoAnswer.append {front behind : UpdateRecord} (hfront : NoAnswer module resp front)
    (hbehind : NoAnswer module resp behind) : NoAnswer module resp (front ++ behind) := by
  intro packet hexpected hin
  rcases List.mem_append.mp hin with hin | hin
  · exact hfront packet hexpected hin
  · exact hbehind packet hexpected hin

theorem noAnswer_nil : NoAnswer module resp [] := fun _ _ hin => absurd hin List.not_mem_nil

/-- A request that takes no packet gets no answer. -/
theorem noAnswer_other {r : UpdateRequest} {answer : UpdateAnswer r}
    (h : r ≠ .popFromRecvList module resp) : NoAnswer module resp [⟨r, answer⟩] := by
  intro packet _ hin
  exact h (Sigma.mk.inj (List.mem_singleton.mp hin)).1.symm

/-- Neither is a packet that is not expected an answer. -/
theorem noAnswer_popped {popped : Option CanPacket}
    (h : ∀ packet, popped = some packet → ¬expected module resp packet) :
    NoAnswer module resp [⟨.popFromRecvList module resp, popped⟩] := by
  intro packet hexpected hin
  have hpopped := eq_of_heq (Sigma.mk.inj (List.mem_singleton.mp hin)).2
  exact h packet hpopped.symm hexpected

/-- How a read ends: without an answer, or with the first one. -/
def ReadFinds (module resp : Byte) (len : ℕ) (result : Int × List Byte)
    (record : UpdateRecord) : Prop :=
  (result.1 = -1 ∧ NoAnswer module resp record) ∨ ∃ front packet,
    record = front ++ [⟨.popFromRecvList module resp, some packet⟩] ∧
    NoAnswer module resp front ∧ expected module resp packet ∧
    result = ((packet.pData.length : Int), packet.pData.take len)

/-- Events in front that are no answers do not change how a read ends. -/
theorem ReadFinds.behind {len : ℕ} {result : Int × List Byte} {front record : UpdateRecord}
    (h : ReadFinds module resp len result record) (hfront : NoAnswer module resp front) :
    ReadFinds module resp len result (front ++ record) := by
  rcases h with ⟨hret, hnone⟩ | ⟨own, packet, rfl, hnone, hpacket⟩
  · exact Or.inl ⟨hret, hfront.append hnone⟩
  · exact Or.inr ⟨front ++ own, packet, (List.append_assoc _ _ _).symm, hfront.append hnone,
      hpacket⟩

/-- One round finds an answer or leaves the end to what follows. -/
theorem readFinds_readRound {len : ℕ} {otherwise : UpdateM (Int × List Byte)}
    (hother : ∀ result record, Records otherwise result record →
      ReadFinds module resp len result record)
    {result : Int × List Byte} {record : UpdateRecord}
    (h : Records (readRound module resp len otherwise) result record) :
    ReadFinds module resp len result record := by
  obtain ⟨popped, front, behind, hpop, hrest, rfl⟩ := records_bind h
  obtain rfl := records_ask hpop
  cases popped with
  | none => exact (hother _ _ hrest).behind (noAnswer_popped (by simp))
  | some packet =>
    dsimp only at hrest
    split_ifs at hrest with hexpected
    · obtain ⟨rfl, rfl⟩ := records_pure hrest
      exact Or.inr ⟨[], packet, rfl, noAnswer_nil, hexpected, rfl⟩
    · refine (hother _ _ hrest).behind (noAnswer_popped ?_)
      rintro _ ⟨⟩
      exact hexpected

/-- A read ends in one of these ways. -/
theorem readFinds_readCANData {len : ℕ} {result : Int × List Byte} {record : UpdateRecord}
    (h : Records (readCANData module resp len timeout) result record) :
    ReadFinds module resp len result record := by
  have hloop : ∀ rounds result record, Records (readLoop module resp len rounds) result
      record → ReadFinds module resp len result record := by
    intro rounds
    induction rounds with
    | zero =>
      intro result record h
      refine readFinds_readRound (fun _ _ hend => Or.inl ?_) h
      obtain ⟨rfl, rfl⟩ := records_pure hend
      exact ⟨rfl, noAnswer_nil⟩
    | succ rounds ih =>
      intro result record h
      exact readFinds_readRound ih h
  obtain ⟨fd, front, behind, hfd, hrest, rfl⟩ := records_bind h
  obtain rfl := records_ask hfd
  have hnone : NoAnswer module resp [⟨.sockFd, fd⟩] := noAnswer_other (by simp)
  split_ifs at hrest
  · obtain ⟨rfl, rfl⟩ := records_pure hrest
    exact Or.inl ⟨rfl, hnone.append noAnswer_nil⟩
  · obtain ⟨rounds, wait, behind, hwait, hread, rfl⟩ := records_bind hrest
    obtain rfl := records_ask hwait
    exact ((hloop rounds _ _ hread).behind (noAnswer_other (by simp))).behind hnone

/-- What an attempt leaves on record: its message first; and no answer at all,
or one last of all that `ret_data` holds the first bytes of. -/
structure AttemptLeaves (sId module resp : Byte) (data : List Byte)
    (result : Int × Option (List Byte)) (record : UpdateRecord) : Prop where
  sent : ∃ ret, ⟨.sendCANData sId module data, ret⟩ ∈ record
  unanswered : result.2 = none → result.1 ≠ 0 ∧ NoAnswer module resp record
  answered : ∀ retData, result.2 = some retData → ∃ front packet,
    record = front ++ [⟨.popFromRecvList module resp, some packet⟩] ∧
    (∃ ret, ⟨.sendCANData sId module data, ret⟩ ∈ front) ∧ NoAnswer module resp front ∧
    expected module resp packet ∧ retData = packet.pData.take 3

theorem attemptLeaves {result : Int × Option (List Byte)} {record : UpdateRecord}
    (h : Records (attempt sId module data resp timeout) result record) :
    AttemptLeaves sId module resp data result record := by
  obtain ⟨ret, first, behind, hsend, hrest, rfl⟩ := records_bind h
  obtain rfl := records_ask hsend
  have hsent (rest : UpdateRecord) : ∃ ret',
      ⟨.sendCANData sId module data, ret'⟩ ∈ [⟨.sendCANData sId module data, ret⟩] ++ rest :=
    ⟨ret, List.mem_cons_self⟩
  have hnone : NoAnswer module resp [⟨.sendCANData sId module data, ret⟩] :=
    noAnswer_other (by simp)
  split_ifs at hrest with hret
  · obtain ⟨rfl, rfl⟩ := records_pure hrest
    exact ⟨hsent _, fun _ => ⟨hret, hnone.append noAnswer_nil⟩, by simp⟩
  · obtain ⟨⟨got, retData⟩, read, behind, hread, hdeal, rfl⟩ := records_bind hrest
    dsimp only at hdeal
    rcases readFinds_readCANData hread with ⟨hgot, hread⟩ | ⟨own, packet, rfl, hown, hexp, hgot⟩
    · obtain rfl : got = -1 := hgot
      obtain ⟨rfl, rfl⟩ := records_pure hdeal
      refine ⟨hsent _, fun _ => ⟨by decide, hnone.append ?_⟩, by simp⟩
      rwa [List.append_nil]
    · obtain ⟨rfl, rfl⟩ := Prod.mk.inj hgot
      have hne : packet.pData ≠ [] := by
        rintro hnil
        rw [expected, hnil] at hexp
        exact absurd hexp.2 (by simp)
      have hlen := List.length_pos_of_ne_nil hne
      rw [if_pos (by omega)] at hdeal
      obtain ⟨rfl, rfl⟩ := records_pure hdeal
      refine ⟨hsent _, by simp, ?_⟩
      rintro retData ⟨⟩
      exact ⟨_, packet, by simp only [List.append_assoc, List.append_nil], hsent own,
        hnone.append hown, hexp, rfl⟩

/-- How a retry loop ends: no attempt was answered, and its `ret` is not zero
but for the one it came with; or the last attempt was answered, the first of all. -/
theorem records_exchange_answers {deal : List Byte → Int} {count left : ℕ} {ret ret' : Int}
    {record : UpdateRecord}
    (h : Records (exchange sId module data resp timeout deal count ret) (ret', left) record) :
    ((ret ≠ 0 → ret' ≠ 0) ∧ NoAnswer module resp record) ∨ ∃ front packet,
      record = front ++ [⟨.popFromRecvList module resp, some packet⟩] ∧
      (∃ sent, ⟨.sendCANData sId module data, sent⟩ ∈ front) ∧ NoAnswer module resp front ∧
      expected module resp packet ∧ ret' = deal (packet.pData.take 3) := by
  induction count generalizing ret record with
  | zero =>
    obtain ⟨hresult, rfl⟩ := records_pure h
    obtain rfl := congrArg Prod.fst hresult
    exact Or.inl ⟨id, noAnswer_nil⟩
  | succ count ih =>
    rw [exchange_succ] at h
    obtain ⟨⟨got, outcome⟩, own, behind, hrun, hrest, rfl⟩ := records_bind h
    have hleaves := attemptLeaves hrun
    cases outcome with
    | none =>
      obtain ⟨hgot, hnone⟩ := hleaves.unanswered rfl
      rcases ih hrest with ⟨hret, hbehind⟩ | ⟨front, packet, rfl, ⟨sent, hsent⟩, hfront, hpacket⟩
      · exact Or.inl ⟨fun _ => hret hgot, hnone.append hbehind⟩
      · exact Or.inr ⟨own ++ front, packet, (List.append_assoc _ _ _).symm,
          ⟨sent, List.mem_append_right own hsent⟩, hnone.append hfront, hpacket⟩
    | some retData =>
      obtain ⟨front, packet, rfl, hsent, hfront, hexpected, rfl⟩ := hleaves.answered retData rfl
      obtain ⟨hresult, rfl⟩ := records_pure hrest
      exact Or.inr ⟨front, packet, List.append_nil _, hsent, hfront, hexpected,
        congrArg Prod.fst hresult⟩

end Attempts

end RobotOta.AttemptRecords
