import RobotOta.AttemptRecords
import RobotOta.UpgradeAgreement
import RobotOta.UpgradeTranscript

/-!
# The order of commands in an upgrade

`upgrade` against any surroundings, with everything it asks and is answered on
record. Behind the loading of the image it is a walk over START, the address
and the chunks of each element, and END: no step sends before the steps in
front of it were acknowledged, and the first one that fails ends the run.
-/

namespace RobotOta.UpgradeOrder

open CanFrameCodec CanReassembly HexLoader RequestProgram BoardUpgrade UpgradeAgreement
open AttemptRecords UpgradeTranscript

/-- A request of the upgrade with its answer. -/
abbrev UpdateEvent := Event UpdateRequest UpdateAnswer

/-- The event hands this message to `sendCANData`. -/
def Sends (event : UpdateEvent) (message : List Byte) : Prop :=
  ∃ sId dId ret, event = ⟨.sendCANData sId dId message, ret⟩

/-- The event is a read that takes this packet for the answer to a command of
this kind. -/
def Accepts (codes : MessageCodes) (module : Byte) (kind : MessageKind) (packet : CanPacket)
    (event : UpdateEvent) : Prop :=
  event = ⟨.popFromRecvList module (codes.resp kind), some packet⟩ ∧
    expected module (codes.resp kind) packet

/-- The status of a CRC answer as `sendDataCRC` reads it from the three bytes
of `ret_data`. -/
def statusRead (packet : CanPacket) : Byte := (packet.pData.take 3).getD 2 0

/-- One step of an upgrade. -/
inductive UpgradeStep where
  | start
  | address (addr : BitVec 32)
  | chunk (buf : List Byte)
  | finish

/-- The kind of command whose answer ends the step. -/
def UpgradeStep.lastKind : UpgradeStep → MessageKind
  | .start => .startFlag
  | .address _ => .dataAddress
  | .chunk _ => .dataCRC
  | .finish => .endFlag

/-- The last command of the step. -/
def UpgradeStep.lastMessage (codes : MessageCodes) : UpgradeStep → List Byte
  | .start => startMessage codes
  | .address addr => addressMessage codes addr
  | .chunk buf => crcMessage codes (crc16 buf)
  | .finish => endMessage codes

/-- The commands the step may send. -/
def UpgradeStep.messages (codes : MessageCodes) : UpgradeStep → List (List Byte)
  | .start => [startMessage codes]
  | .address addr => [addressMessage codes addr]
  | .chunk buf => chunkMessages codes buf
  | .finish => [endMessage codes]

/-- The step as `upgrade` and `sendFirmware` make it; the state is `g_DataSended`. -/
def UpgradeStep.run (codes : MessageCodes) (ids : ModuleIds) (module : Byte)
    (dataTotal : BitVec 32) (step : UpgradeStep) (dataSended : BitVec 32) :
    UpdateM (Int × BitVec 32) :=
  match step with
  | .start => do
    let ret ← sendStartFlag codes ids module
    if ret ≠ 0 then pure (ret, dataSended)
    else
      downloadProgress dataSended dataTotal
      pure (0, dataSended)
  | .address addr => do
    let ret ← sendDataAddress codes ids module addr
    pure (ret, dataSended)
  | .chunk buf => sendFirmwareData codes ids module buf dataTotal dataSended
  | .finish => do
    let ret ← sendEndFlag codes ids module
    pure (ret, dataSended)

/-- The steps of one element. -/
def elementSteps (element : ImageElement) : List UpgradeStep :=
  .address element.address :: (chunks element.data).map .chunk

/-- The steps in front of END. -/
def stepsBeforeEnd (image : HexImage) : List UpgradeStep :=
  .start :: image.elements.flatMap elementSteps

/-- The steps of an upgrade. -/
def upgradeSteps (image : HexImage) : List UpgradeStep := stepsBeforeEnd image ++ [.finish]

/-- The width of the records that `upgrade` loads. -/
def addrBytes (ids : ModuleIds) (module : Byte) : ℕ :=
  if module = ids.rpUpgradeId ∨ module = ids.rfUpgradeId then 1 else 2

/-- `LoadHex` has returned true and left this image. -/
def loaded (ids : ModuleIds) (module : Byte) (file : String) (image : HexImage) : UpdateEvent :=
  ⟨.loadHex file (addrBytes ids module), some image⟩

/-- `upgrade` as a walk over the steps of the image it loads. -/
def upgradeWalk (codes : MessageCodes) (ids : ModuleIds) (module : Byte) (file : String) :
    UpdateM Int := do
  match ← loadHex file (addrBytes ids module) with
  | none => pure (-1)
  | some image =>
    let (ret, _) ← walk (UpgradeStep.run codes ids module image.dataSize) (upgradeSteps image) 0
    if ret ≠ 0 then pure (-1) else pure 0

/-- The step's last command was sent and then its answer accepted; the status
of a CRC answer was read as zero. -/
def Acknowledged (codes : MessageCodes) (module : Byte) (step : UpgradeStep)
    (record : List UpdateEvent) : Prop :=
  ∃ front packet event behind, record = front ++ event :: behind ∧
    (∃ sent ∈ front, Sends sent (step.lastMessage codes)) ∧
    Accepts codes module step.lastKind packet event ∧
    (step.lastKind = .dataCRC → statusRead packet = 0)

/-- The order that a record of `upgrade` keeps. -/
structure Ordered (codes : MessageCodes) (ids : ModuleIds) (module : Byte) (file : String)
    (record : List UpdateEvent) : Prop where
  /-- Commands are those of an image that was loaded before. -/
  sends_loaded : ∀ front event behind message, record = front ++ event :: behind →
    Sends event message →
    ∃ image, loaded ids module file image ∈ front ∧ message ∈ upgradeMessages codes image
  /-- ADDR, DATA and CRC come behind an accepted answer to START. -/
  sends_started : ∀ front event behind message kind, record = front ++ event :: behind →
    Sends event message → IsKind codes kind message →
    kind = .dataAddress ∨ kind = .firmwareData ∨ kind = .dataCRC →
    ∃ accepted ∈ front, ∃ packet, Accepts codes module .startFlag packet accepted
  /-- END comes when START and, element by element, the address and every chunk
  have been acknowledged. -/
  end_last : ∀ front event behind message, record = front ++ event :: behind →
    Sends event message → IsKind codes .endFlag message →
    ∃ image pieces rest, front = loaded ids module file image :: (pieces.flatten ++ rest) ∧
      List.Forall₂ (Acknowledged codes module) (stepsBeforeEnd image) pieces
  /-- Behind a step that has failed, with those in front of it behind, nothing
  is sent or asked for. -/
  failed_silent : ∀ image done step later front failed behind sended sended' ret,
    upgradeSteps image = done ++ step :: later →
    record = loaded ids module file image :: (front ++ (failed ++ behind)) →
    Records (walk (UpgradeStep.run codes ids module image.dataSize) done 0) (0, sended) front →
    Records (step.run codes ids module image.dataSize sended) (ret, sended') failed →
    ret ≠ 0 → behind = []

section Walk

variable {codes : MessageCodes} {ids : ModuleIds} {module : Byte} {total : BitVec 32}

/-- The loop over full packets walks over their chunks. -/
theorem sendFullPackets_eq_walk (packets : ℕ) (data : List Byte) (sended : BitVec 32) :
    sendFullPackets codes ids module total packets data sended =
      walk (UpgradeStep.run codes ids module total) ((fullChunks packets data).map .chunk)
        sended := by
  induction packets generalizing data sended with
  | zero => rfl
  | succ packets ih =>
    rw [sendFullPackets, fullChunks, List.map_cons, walk]
    simp only [ih]
    rfl

/-- The data step of an element walks over its chunks. -/
theorem sendElementData_eq_walk (data : List Byte) (sended : BitVec 32) :
    sendElementData codes ids module total data sended =
      walk (UpgradeStep.run codes ids module total) ((chunks data).map .chunk) sended := by
  unfold sendElementData chunks
  split_ifs with hshort
  · have hnum : packetNum data.length - 1 = 0 := by
      unfold packetNum dataPacketLength at *
      split_ifs <;> omega
    rw [hnum]
    simp only [fullChunks, Nat.zero_mul, List.drop_zero, List.nil_append]
    rfl
  · rw [List.map_append, walk_append, ← sendFullPackets_eq_walk]
    dsimp only
    rw [List.take_of_length_le (by rw [List.length_drop])]
    rfl

/-- The loop over the elements walks over their steps. -/
theorem sendElements_eq_walk (elements : List ImageElement) (sended : BitVec 32) :
    sendElements codes ids module total elements sended =
      walk (UpgradeStep.run codes ids module total) (elements.flatMap elementSteps) sended := by
  induction elements generalizing sended with
  | nil => rfl
  | cons element elements ih =>
    rw [sendElements, List.flatMap_cons, elementSteps, List.cons_append, walk, UpgradeStep.run,
      bind_assoc]
    congr 1
    funext ret
    rw [pure_bind]
    dsimp only
    split_ifs with hret
    · rfl
    · rw [walk_append, ← sendElementData_eq_walk]
      simp only [ih]

/-- Behind the loading of the image, `upgrade` walks over the steps. -/
theorem upgrade_eq_walk (file : String) :
    upgrade codes ids module file = upgradeWalk codes ids module file := by
  unfold upgrade upgradeWalk
  dsimp only [addrBytes]
  congr 1
  funext image
  cases image with
  | none => rfl
  | some image =>
    dsimp only
    rw [upgradeSteps, stepsBeforeEnd, List.cons_append, walk, UpgradeStep.run, bind_assoc,
      bind_assoc]
    congr 1
    funext ret
    by_cases hret : ret = 0
    · simp only [hret, sendFirmware, bind_assoc, ne_eq, not_true_eq_false, if_false, pure_bind,
        walk_append, sendElements_eq_walk]
      congr 1
      funext _
      congr 1
      funext result
      by_cases hsent : result.1 = 0
      · simp only [hsent, walk, UpgradeStep.run, bind_assoc, not_true_eq_false, if_false,
          pure_bind]
        congr 1
        funext ret
        by_cases hend : ret = 0
        · simp only [hend, ne_eq, not_true_eq_false, if_false, pure_bind]
        · simp only [hend, ne_eq, not_false_eq_true, if_true, pure_bind]
          rfl
      · simp only [hsent, not_false_eq_true, if_true, pure_bind]
        rfl
    · simp only [hret, ne_eq, not_false_eq_true, if_true, pure_bind]
      rfl

end Walk

/-- Nothing but these messages is sent. -/
def SendsOnly (messages : List (List Byte)) (record : List UpdateEvent) : Prop :=
  ∀ event ∈ record, ∀ message, Sends event message → message ∈ messages

section Sends

variable {messages : List (List Byte)}

/-- A request that sends nothing adds no message. -/
theorem keeps_quiet {r : UpdateRequest} (h : ∀ sId dId pdata, r ≠ .sendCANData sId dId pdata) :
    Keeps recording (SendsOnly messages) (ask r) := by
  apply keeps_ask
  rintro record answer _ hrecord rfl event hevent message ⟨sId, dId, ret, hsend⟩
  rcases List.mem_append.mp hevent with hin | hin
  · exact hrecord event hin message ⟨sId, dId, ret, hsend⟩
  · rw [List.mem_singleton.mp hin] at hsend
    exact absurd (Sigma.mk.inj hsend).1 (h sId dId message)

/-- A send adds its message. -/
theorem keeps_sendCANData {sId dId : Byte} {pdata : List Byte} (h : pdata ∈ messages) :
    Keeps recording (SendsOnly messages) (sendCANData sId dId pdata) := by
  apply keeps_ask
  rintro record answer _ hrecord rfl event hevent message hsends
  rcases List.mem_append.mp hevent with hin | hin
  · exact hrecord event hin message hsends
  · obtain ⟨sId', dId', ret, hsend⟩ := hsends
    rw [List.mem_singleton.mp hin] at hsend
    cases hsend
    exact h

/-- A retry loop sends its message only. -/
theorem keeps_exchange_sends {sId module resp : Byte} {data : List Byte} {timeout count : ℕ}
    {deal : List Byte → Int} {ret : Int} (h : data ∈ messages) :
    Keeps recording (SendsOnly messages)
      (exchange sId module data resp timeout deal count ret) := by
  refine keeps_exchange (keeps_sendCANData h) ?_ deal count ret
  exact keeps_readCANData (keeps_quiet (by simp)) (fun _ => keeps_quiet (by simp))
    (keeps_quiet (by simp)) 3 timeout

variable {codes : MessageCodes} {ids : ModuleIds} {module : Byte} {total : BitVec 32}

/-- The rounds of a chunk send its two messages only. -/
theorem keeps_dataRounds {buf : List Byte} {count dataCount : ℕ} {ret : Int} {sended : BitVec 32} :
    Keeps recording (SendsOnly (chunkMessages codes buf))
      (dataRounds codes ids module buf total count dataCount ret sended) := by
  induction count generalizing dataCount ret with
  | zero => exact keeps_pure _
  | succ count ih =>
    refine keeps_bind (keeps_exchange_sends (by simp [chunkMessages])) fun result => keeps_ite ?_ ih
    refine keeps_bind (keeps_bind (keeps_exchange_sends (by simp [chunkMessages])) fun _ =>
      keeps_pure _) fun ret => keeps_ite ?_ ih
    exact keeps_bind (keeps_quiet (by simp)) fun _ => keeps_pure _

/-- A step sends its own commands only. -/
theorem keeps_run (step : UpgradeStep) (sended : BitVec 32) :
    Keeps recording (SendsOnly (step.messages codes))
      (step.run codes ids module total sended) := by
  cases step with
  | start =>
    refine keeps_bind (keeps_bind (keeps_exchange_sends List.mem_cons_self) fun _ => keeps_pure _)
      fun ret => keeps_ite (keeps_pure _) ?_
    exact keeps_bind (keeps_quiet (by simp)) fun _ => keeps_pure _
  | address addr =>
    exact keeps_bind (keeps_bind (keeps_exchange_sends List.mem_cons_self) fun _ => keeps_pure _)
      fun _ => keeps_pure _
  | chunk buf => exact keeps_dataRounds
  | finish =>
    exact keeps_bind (keeps_bind (keeps_exchange_sends List.mem_cons_self) fun _ => keeps_pure _)
      fun _ => keeps_pure _

/-- What a step has recorded so far holds its own commands only. -/
theorem sendsOnly_of_recorded {step : UpgradeStep} {sended : BitVec 32}
    {record : List UpdateEvent}
    (h : Recorded (step.run codes ids module total sended) record) :
    SendsOnly (step.messages codes) record :=
  keeps_run step sended [] record (by simp [SendsOnly]) h

end Sends

section Answers

/-- A retry loop that ends with zero has sent its message and then accepted,
last of all, an answer that was dealt with as zero. -/
theorem records_exchange {sId module resp : Byte} {data : List Byte} {timeout count left : ℕ}
    {deal : List Byte → Int} {ret : Int} {record : List UpdateEvent} (hret : ret ≠ 0)
    (h : Records (exchange sId module data resp timeout deal count ret) (0, left) record) :
    ∃ front packet, record = front ++ [⟨.popFromRecvList module resp, some packet⟩] ∧
      (∃ sent ∈ front, Sends sent data) ∧ expected module resp packet ∧
      deal (packet.pData.take 3) = 0 := by
  rcases records_exchange_answers h with
    ⟨hne, -⟩ | ⟨front, packet, hrecord, ⟨sent, hsent⟩, -, hexpected, hdeal⟩
  · exact absurd rfl (hne hret)
  · exact ⟨front, packet, hrecord, ⟨_, hsent, sId, module, sent, rfl⟩, hexpected, hdeal.symm⟩

/-- A command that returns zero has had its answer. -/
theorem records_command {sId module resp : Byte} {data : List Byte} {timeout count : ℕ}
    {deal : List Byte → Int} {record : List UpdateEvent}
    (h : Records (do
      let (ret, _) ← exchange sId module data resp timeout deal count (-1)
      pure ret) 0 record) :
    ∃ front packet, record = front ++ [⟨.popFromRecvList module resp, some packet⟩] ∧
      (∃ sent ∈ front, Sends sent data) ∧ expected module resp packet ∧
      deal (packet.pData.take 3) = 0 := by
  obtain ⟨⟨ret, left⟩, own, behind, hrun, hret, rfl⟩ := records_bind h
  obtain ⟨rfl, rfl⟩ := records_pure hret
  rw [List.append_nil]
  exact records_exchange (by decide) hrun

/-- A CRC answer is dealt with as zero when its status is read as zero. -/
theorem statusRead_eq_zero {packet : CanPacket} (h : dealCRC (packet.pData.take 3) = 0) :
    statusRead packet = 0 := by
  unfold dealCRC at h
  split_ifs at h with hstatus
  exact hstatus

variable {codes : MessageCodes} {ids : ModuleIds} {module : Byte} {total : BitVec 32}

/-- Something recorded in front and behind does not take an acknowledgement away. -/
theorem Acknowledged.extend {step : UpgradeStep} {record : List UpdateEvent}
    (h : Acknowledged codes module step record) (before behind : List UpdateEvent) :
    Acknowledged codes module step (before ++ (record ++ behind)) := by
  obtain ⟨front, packet, event, rest, rfl, ⟨sent, hin, hsent⟩, hpacket⟩ := h
  exact ⟨before ++ front, packet, event, rest ++ behind, by simp,
    ⟨sent, List.mem_append_right _ hin, hsent⟩, hpacket⟩

/-- The rounds of a chunk that end with zero end in an acknowledged CRC command. -/
theorem acknowledged_dataRounds {buf : List Byte} {count dataCount : ℕ} {ret : Int}
    {before after : BitVec 32} {record : List UpdateEvent} (hret : ret ≠ 0)
    (h : Records (dataRounds codes ids module buf total count dataCount ret before) (0, after)
      record) : Acknowledged codes module (.chunk buf) record := by
  induction count generalizing dataCount ret record with
  | zero => exact absurd (congrArg Prod.fst (records_pure h).1).symm hret
  | succ count ih =>
    obtain ⟨⟨ret', left⟩, data, behind, hdata, hrest, rfl⟩ := records_bind h
    dsimp only at hrest
    split_ifs at hrest with hzero
    · obtain ⟨crcRet, crc, behind, hcrc, hend, rfl⟩ := records_bind hrest
      split_ifs at hend with hcrcZero
      · subst hcrcZero
        obtain ⟨front, packet, rfl, hsent, hexpected, hdeal⟩ := records_command hcrc
        have hchunk : Acknowledged codes module (.chunk buf)
            (front ++ [⟨.popFromRecvList module (codes.resp .dataCRC), some packet⟩]) :=
          ⟨front, packet, _, [], rfl, hsent, ⟨rfl, hexpected⟩, fun _ => statusRead_eq_zero hdeal⟩
        exact hchunk.extend data behind
      · have hlater := (ih hcrcZero hend).extend (data ++ crc) []
        rwa [List.append_nil, List.append_assoc] at hlater
    · have hlater := (ih hzero hrest).extend data []
      rwa [List.append_nil] at hlater

/-- The command of a step without data is acknowledged when it returns zero. -/
theorem acknowledged_command (step : UpgradeStep) {sId : Byte} {timeout count : ℕ}
    {deal : List Byte → Int} {record : List UpdateEvent} (hkind : step.lastKind ≠ .dataCRC)
    (h : Records (do
      let (ret, _) ← exchange sId module (step.lastMessage codes) (codes.resp step.lastKind)
        timeout deal count (-1)
      pure ret) 0 record) (behind : List UpdateEvent) :
    Acknowledged codes module step (record ++ behind) := by
  obtain ⟨front, packet, rfl, hsent, hexpected, -⟩ := records_command h
  exact ⟨front, packet, _, behind, List.append_assoc _ _ _, hsent, ⟨rfl, hexpected⟩,
    fun hcrc => absurd hcrc hkind⟩

/-- A step that succeeds has been acknowledged. -/
theorem acknowledged_of_succeeds {step : UpgradeStep} {record : List UpdateEvent}
    (h : Succeeds (UpgradeStep.run codes ids module total) step record) :
    Acknowledged codes module step record := by
  obtain ⟨before, after, hrun⟩ := h
  cases step with
  | start =>
    obtain ⟨ret, own, behind, hcommand, hrest, rfl⟩ := records_bind hrun
    have hzero : ret = 0 := by
      split_ifs at hrest with hret
      · exact (congrArg Prod.fst (records_pure hrest).1).symm
      · exact not_not.mp hret
    subst hzero
    exact acknowledged_command .start (by decide) hcommand behind
  | address addr =>
    obtain ⟨ret, own, behind, hcommand, hrest, rfl⟩ := records_bind hrun
    obtain rfl : ret = 0 := (congrArg Prod.fst (records_pure hrest).1).symm
    exact acknowledged_command (.address addr) (by simp [UpgradeStep.lastKind]) hcommand behind
  | chunk buf => exact acknowledged_dataRounds (by decide) hrun
  | finish =>
    obtain ⟨ret, own, behind, hcommand, hrest, rfl⟩ := records_bind hrun
    obtain rfl : ret = 0 := (congrArg Prod.fst (records_pure hrest).1).symm
    exact acknowledged_command .finish (by decide) hcommand behind

end Answers

section Order

variable {codes : MessageCodes} {ids : ModuleIds} {module : Byte}

/-- The kind of a message a step may send. -/
theorem kind_of_mem_messages {step : UpgradeStep} {message : List Byte} {kind : MessageKind}
    (hmem : message ∈ step.messages codes) (hkind : IsKind codes kind message) :
    kind = step.lastKind ∨ (kind = .firmwareData ∧ step.lastKind = .dataCRC) := by
  have hcmd : ∀ {other rest}, message = codes.cmd other :: rest → kind = other := by
    rintro other rest rfl
    exact (codes.cmd_injective (Option.some.inj hkind)).symm
  cases step with
  | start => exact Or.inl (hcmd (List.mem_singleton.mp hmem))
  | address addr => exact Or.inl (hcmd (List.mem_singleton.mp hmem))
  | chunk buf =>
    rcases List.mem_pair.mp hmem with h | h
    · exact Or.inr ⟨hcmd h, rfl⟩
    · exact Or.inl (hcmd h)
  | finish => exact Or.inl (hcmd (List.mem_singleton.mp hmem))

/-- The steps send the messages of the upgrade. -/
theorem flatMap_messages (image : HexImage) :
    (upgradeSteps image).flatMap (UpgradeStep.messages codes) = upgradeMessages codes image := by
  have helement : ∀ element, (elementSteps element).flatMap (UpgradeStep.messages codes) =
      elementMessages codes element := by
    intro element
    rw [elementSteps, List.flatMap_cons, List.flatMap_map]
    rfl
  rw [upgradeSteps, stepsBeforeEnd, List.cons_append, List.flatMap_cons, List.flatMap_append,
    List.flatMap_assoc]
  simp only [helement]
  rfl

/-- END is the last step and stands nowhere else. -/
theorem done_eq_stepsBeforeEnd {image : HexImage} {done later : List UpgradeStep}
    (h : upgradeSteps image = done ++ .finish :: later) : done = stepsBeforeEnd image := by
  have hnot : UpgradeStep.finish ∉ stepsBeforeEnd image := by
    simp [stepsBeforeEnd, elementSteps]
  rcases List.append_eq_append_iff.mp h with ⟨more, hdone, hlast⟩ | ⟨more, hbefore, hlast⟩
  · have hlen := congrArg List.length hlast
    rw [List.length_append, List.length_cons, List.length_cons, List.length_nil] at hlen
    obtain rfl := List.eq_nil_of_length_eq_zero (by omega : more.length = 0)
    rw [hdone, List.append_nil]
  · cases more with
    | nil => rw [hbefore, List.append_nil]
    | cons first more =>
      obtain ⟨rfl, -⟩ := List.cons.inj hlast
      exact absurd (hbefore ▸ List.mem_append_right done List.mem_cons_self) hnot

/-- A record begins with the loading of the image; what follows is a walk over
its steps. -/
theorem recorded_upgrade {file : String} {first : UpdateEvent} {record : List UpdateEvent}
    (h : Recorded (upgrade codes ids module file) (first :: record)) :
    (∃ answer, first = ⟨.loadHex file (addrBytes ids module), answer⟩) ∧
      (record = [] ∨ ∃ image, first = loaded ids module file image ∧
        Recorded (walk (UpgradeStep.run codes ids module image.dataSize) (upgradeSteps image) 0
          >>= fun result => if result.1 ≠ 0 then (pure (-1) : UpdateM Int) else pure 0)
        record) := by
  rw [upgrade_eq_walk] at h
  obtain ⟨answer, rfl, hrest⟩ := recorded_request h
  refine ⟨⟨answer, rfl⟩, ?_⟩
  cases answer with
  | none => exact Or.inl (recorded_pure hrest)
  | some image => exact Or.inr ⟨image, rfl, hrest⟩

/-- A message on record was sent in one step, when the image was loaded and the
steps in front of that one were acknowledged. -/
theorem sent_in_step {file : String} {front behind : List UpdateEvent} {event : UpdateEvent}
    {message : List Byte}
    (h : Recorded (upgrade codes ids module file) (front ++ event :: behind))
    (hsends : Sends event message) :
    ∃ image done step later pieces inner, upgradeSteps image = done ++ step :: later ∧
      front = loaded ids module file image :: (pieces.flatten ++ inner) ∧
      List.Forall₂ (Acknowledged codes module) done pieces ∧ message ∈ step.messages codes := by
  cases front with
  | nil =>
    obtain ⟨⟨answer, rfl⟩, -⟩ := recorded_upgrade h
    obtain ⟨sId, dId, ret, hsend⟩ := hsends
    exact absurd (Sigma.mk.inj hsend).1 (by simp)
  | cons first front =>
    obtain ⟨-, hnil | ⟨image, rfl, hrest⟩⟩ := recorded_upgrade h
    · exact absurd hnil (by simp)
    have hwalk : Recorded (walk (UpgradeStep.run codes ids module image.dataSize)
        (upgradeSteps image) 0) (front ++ event :: behind) := by
      rcases recorded_bind hrest with hin | ⟨⟨ret, after⟩, own, last, hrun, hlast, hsplit⟩
      · exact hin
      · have hnone : last = [] := by
          split_ifs at hlast <;> exact recorded_pure hlast
        have hown : front ++ event :: behind = own := by rwa [hnone, List.append_nil] at hsplit
        rw [hown]
        exact hrun.recorded
    obtain ⟨done, step, later, pieces, inner, hsteps, rfl, hdone, before, rest, hin⟩ :=
      recorded_walk hwalk
    refine ⟨image, done, step, later, pieces, inner, hsteps, rfl,
      hdone.imp fun _ _ => acknowledged_of_succeeds, ?_⟩
    exact sendsOnly_of_recorded hin event (by simp) message hsends

/-- Every record of `upgrade`, finished or not, keeps the order: nothing is sent
before the image is loaded, ADDR, DATA and CRC only behind an accepted answer to
START, END only when every address was answered and every chunk had a CRC status
read as zero, and nothing behind a step that has failed. -/
theorem upgrade_ordered (codes : MessageCodes) (ids : ModuleIds) (module : Byte) (file : String)
    (record : List UpdateEvent) (h : Recorded (upgrade codes ids module file) record) :
    Ordered codes ids module file record where
  sends_loaded := by
    rintro front event behind message rfl hsends
    obtain ⟨image, done, step, later, pieces, inner, hsteps, rfl, -, hmem⟩ := sent_in_step h hsends
    refine ⟨image, List.mem_cons_self, ?_⟩
    rw [← flatMap_messages, hsteps]
    exact List.mem_flatMap.mpr ⟨step, by simp, hmem⟩
  sends_started := by
    rintro front event behind message kind rfl hsends hkind hone
    obtain ⟨image, done, step, later, pieces, inner, hsteps, rfl, hdone, hmem⟩ :=
      sent_in_step h hsends
    cases hdone with
    | nil =>
      -- The first step sends START only.
      rw [upgradeSteps, stepsBeforeEnd, List.cons_append, List.nil_append] at hsteps
      obtain ⟨rfl, -⟩ := List.cons.inj hsteps
      have hstart := kind_of_mem_messages hmem hkind
      simp only [UpgradeStep.lastKind] at hstart
      rcases hone with rfl | rfl | rfl <;> simp at hstart
    | @cons first piece done pieces hfirst _ =>
      rw [upgradeSteps, stepsBeforeEnd, List.cons_append, List.cons_append] at hsteps
      obtain ⟨rfl, -⟩ := List.cons.inj hsteps
      obtain ⟨own, packet, accepted, rest, rfl, -, haccepts, -⟩ := hfirst
      exact ⟨accepted, by simp, packet, haccepts⟩
  end_last := by
    rintro front event behind message rfl hsends hkind
    obtain ⟨image, done, step, later, pieces, inner, hsteps, rfl, hdone, hmem⟩ :=
      sent_in_step h hsends
    refine ⟨image, pieces, inner, rfl, ?_⟩
    have hfinish : step = .finish := by
      have hend := kind_of_mem_messages hmem hkind
      cases step <;> simp [UpgradeStep.lastKind] at hend ⊢
    subst hfinish
    rwa [done_eq_stepsBeforeEnd hsteps] at hdone
  failed_silent := by
    rintro image done step later front failed behind sended sended' ret hsteps rfl hfront hfailed
      hret
    obtain ⟨-, hnil | ⟨loadedImage, hloaded, hwalk⟩⟩ := recorded_upgrade h
    · simp only [List.append_eq_nil_iff] at hnil
      exact hnil.2.2
    cases hloaded
    rw [hsteps, walk_append, bind_assoc] at hwalk
    have hstep := hwalk.of_records hfront
    simp only [ne_eq, not_true_eq_false, if_false, walk, bind_assoc] at hstep
    have hend := hstep.of_records hfailed
    simp only [hret, not_false_eq_true, if_true, pure_bind] at hend
    exact recorded_pure hend

end Order

/-- Surroundings in which nothing is lost and the file has one byte of data. -/
def oneByteReply : (r : UpdateRequest) → UpdateAnswer r
  | .loadHex .. => some oneByteImage
  | r => perfectReply r

/-- The record of an upgrade of board 5 there. -/
def oneByteRecord : List UpdateEvent :=
  ((upgrade default default 5 "/mnt/internal_sd/rp.hex").run
    (replyAndLog (fun r answer => [⟨r, answer⟩]) oneByteReply) []).2

/-- It goes on to END and keeps the order. -/
theorem upgrade_ordered_oneByte :
    (∃ event ∈ oneByteRecord, Sends event (endMessage default)) ∧
      Ordered default default 5 "/mnt/internal_sd/rp.hex" oneByteRecord := by
  refine ⟨?_, ?_⟩
  · have hend : oneByteRecord[19]? = some ⟨.sendCANData 2 5 [20, 2], (0 : Int)⟩ := by rfl
    exact ⟨_, List.mem_of_getElem? hend, 2, 5, (0 : Int), rfl⟩
  · exact upgrade_ordered default default 5 "/mnt/internal_sd/rp.hex" oneByteRecord
      (exec_replyAndLog _ oneByteReply _ []).reaches

end RobotOta.UpgradeOrder
