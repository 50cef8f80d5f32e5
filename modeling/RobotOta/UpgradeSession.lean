import RobotOta.RecordedSequence
import RobotOta.UpgradeOrder

/-!
# The upgrade session of the robot

`robotSubSysUpdate` against any surroundings, with everything it asks on
record. A session is a sequence of steps between `openCANDevice` and
`closeCANDevice`: every subsystem enters the upgrade mode, every module is
upgraded, every subsystem leaves the mode. No step is left out because an
earlier one failed, and nothing is asked outside of them.
-/

namespace RobotOta.UpgradeSession

open CanFrameCodec CanReassembly HexLoader RequestProgram BoardUpgrade AttemptRecords
open UpgradeTranscript UpgradeOrder

/-- One step of a session. -/
inductive SessionStep where
  | enter (module : Byte)
  | update (module : Byte) (file : String)
  | leave (module : Byte)

/-- The step as `robotSubSysUpdate` makes it. -/
def SessionStep.run (codes : MessageCodes) (ids : ModuleIds) : SessionStep → UpdateM Int
  | .enter module => enterUpgradeMode ids module
  | .update module file => upgrade codes ids module file
  | .leave module => exitUpgradeMode ids module

/-- The steps of a session in order. -/
def sessionSteps (ids : ModuleIds) (modules : List (Byte × String)) : List SessionStep :=
  (sysCtrlModules ids).map .enter ++
    (modules.map (fun m => .update m.1 m.2) ++ (sysCtrlModules ids).map .leave)

/-- The requests of a read that waits for this answer. -/
def ReadAsks (module resp : Byte) (r : UpdateRequest) : Prop :=
  r = .sockFd ∨ (∃ timeout, r = .waitRounds timeout) ∨ r = .popFromRecvList module resp

/-- The requests a step may make: the commands of its own module, the reads of
that module's answers, and for an upgrade its file and the progress bar. -/
def SessionStep.Asks (codes : MessageCodes) (ids : ModuleIds) :
    SessionStep → UpdateRequest → Prop
  | .enter module, r =>
    r = .sendCANData ids.rmSysctrlId module [commonSysctrlUpgradeCmd, 2] ∨
      ReadAsks module commonSysctrlUpgradeCmdRep r
  | .update module file, r =>
    r = .loadHex file (addrBytes ids module) ∨
      (∃ data, r = .sendCANData ids.rmUpgradeId module data) ∨
      (∃ kind, ReadAsks module (codes.resp kind) r) ∨ ∃ cur tol, r = .downloadProgress cur tol
  | .leave module, r =>
    r = .sendCANData ids.rmSysctrlId module [commonSysctrlExitUpgradeCmd, 2] ∨
      ReadAsks module commonSysctrlExitUpgradeCmdRep r

/-- The card has been mounted. -/
def mounted : UpdateEvent := ⟨.ensurePathMounted "/mnt/internal_sd", (0 : Int)⟩

/-- The device has been opened. -/
def opened : UpdateEvent := ⟨.openCANDevice, (0 : Int)⟩

/-- The device has been closed. -/
def closed : UpdateEvent := ⟨.closeCANDevice, ()⟩

/-- Where an event of a session stands: behind this front, and nowhere else. -/
inductive Placed (codes : MessageCodes) (ids : ModuleIds) (modules : List (Byte × String)) :
    (front : List UpdateEvent) → UpdateEvent → Prop where
  | mount {answer : Int} :
    Placed codes ids modules [] ⟨.ensurePathMounted "/mnt/internal_sd", answer⟩
  | openDevice {answer : Int} : Placed codes ids modules [mounted] ⟨.openCANDevice, answer⟩
  | inStep {done later : List SessionStep} {step : SessionStep}
    {pieces : List (List UpdateEvent)} {inner : List UpdateEvent} {event : UpdateEvent} :
    sessionSteps ids modules = done ++ step :: later →
      List.Forall₂ (Completes (SessionStep.run codes ids)) done pieces →
      step.Asks codes ids event.1 →
      Placed codes ids modules (mounted :: opened :: (pieces.flatten ++ inner)) event
  | closeDevice {pieces : List (List UpdateEvent)} :
    List.Forall₂ (Completes (SessionStep.run codes ids)) (sessionSteps ids modules) pieces →
      Placed codes ids modules (mounted :: opened :: pieces.flatten) closed

/-- The event is a call of `sendCANData`. -/
def isSend (event : UpdateEvent) : Bool :=
  match event.1 with
  | .sendCANData .. => true
  | _ => false

/-- The message was handed to `sendCANData` for this module first of all, and
nothing was sent more often than the retry loop allows. -/
def Told (ids : ModuleIds) (data : List Byte) (module : Byte) (piece : List UpdateEvent) : Prop :=
  (∃ sent rest, piece = ⟨.sendCANData ids.rmSysctrlId module data, sent⟩ :: rest) ∧
    piece.countP isSend ≤ resendCount

/-- The order of a session. -/
structure SessionOrdered (codes : MessageCodes) (ids : ModuleIds)
    (modules : List (Byte × String)) (record : List UpdateEvent) : Prop where
  /-- Every event has its place. -/
  placed : ∀ front event behind, record = front ++ event :: behind →
    Placed codes ids modules front event
  /-- No file is loaded before each subsystem was told to enter the upgrade mode. -/
  entered : ∀ front file bytes image behind,
    record = front ++ ⟨.loadHex file bytes, image⟩ :: behind →
    ∃ pieces rest, front = mounted :: opened :: (pieces.flatten ++ rest) ∧
      List.Forall₂ (Told ids [commonSysctrlUpgradeCmd, 2]) (sysCtrlModules ids) pieces
  /-- The device is closed when each subsystem was told to leave it, whatever became
  of the upgrades. -/
  left : ∀ front behind, record = front ++ closed :: behind → behind = [] ∧
    ∃ pieces rest, front = rest ++ pieces.flatten ∧
      List.Forall₂ (Told ids [commonSysctrlExitUpgradeCmd, 2]) (sysCtrlModules ids) pieces

section Asks

variable {codes : MessageCodes} {ids : ModuleIds} {module : Byte}

/-- A read makes the requests of a read. -/
theorem keeps_readAsks {allowed : UpdateRequest → Prop} {resp : Byte} {len timeout : ℕ}
    (h : ∀ r, ReadAsks module resp r → allowed r) :
    Keeps recording (AllAsk allowed) (readCANData module resp len timeout) :=
  keeps_readCANData (keeps_allowed (h _ (Or.inl rfl)))
    (fun t => keeps_allowed (h _ (Or.inr (Or.inl ⟨t, rfl⟩))))
    (keeps_allowed (h _ (Or.inr (Or.inr rfl)))) len timeout

/-- A retry loop makes its send and the requests of its read. -/
theorem keeps_exchangeAsks {allowed : UpdateRequest → Prop} {sId resp : Byte}
    {data : List Byte} {timeout count : ℕ} {deal : List Byte → Int} {ret : Int}
    (hsend : allowed (.sendCANData sId module data))
    (hread : ∀ r, ReadAsks module resp r → allowed r) :
    Keeps recording (AllAsk allowed)
      (exchange sId module data resp timeout deal count ret) :=
  keeps_exchange (keeps_allowed hsend) (keeps_readAsks hread) deal count ret

/-- An upgrade asks for its file, and then as one of its steps does. -/
theorem keeps_upgradeAsks (file : String) :
    Keeps recording (AllAsk ((SessionStep.update module file).Asks codes ids))
      (upgrade codes ids module file) := by
  have hexchange : ∀ kind data timeout deal count ret, Keeps recording
      (AllAsk ((SessionStep.update module file).Asks codes ids))
      (exchange ids.rmUpgradeId module data (codes.resp kind) timeout deal count ret) :=
    fun kind data timeout deal count ret =>
      keeps_exchangeAsks (Or.inr (Or.inl ⟨data, rfl⟩)) fun r hr =>
        Or.inr (Or.inr (Or.inl ⟨kind, hr⟩))
  have hprogress : ∀ cur tol, Keeps recording
      (AllAsk ((SessionStep.update module file).Asks codes ids)) (downloadProgress cur tol) :=
    fun cur tol => keeps_allowed (Or.inr (Or.inr (Or.inr ⟨cur, tol, rfl⟩)))
  have hrounds : ∀ buf total count dataCount ret sended, Keeps recording
      (AllAsk ((SessionStep.update module file).Asks codes ids))
      (dataRounds codes ids module buf total count dataCount ret sended) := by
    intro buf total count
    induction count with
    | zero => exact fun _ _ _ => keeps_pure _
    | succ count ih =>
      intro dataCount ret sended
      refine keeps_bind (hexchange .firmwareData _ _ _ _ _) fun result =>
        keeps_ite ?_ (ih _ _ _)
      refine keeps_bind (keeps_bind (hexchange .dataCRC _ _ _ _ _) fun _ => keeps_pure _)
        fun ret => keeps_ite ?_ (ih _ _ _)
      exact keeps_bind (hprogress _ _) fun _ => keeps_pure _
  have hstep : ∀ total step sended, Keeps recording
      (AllAsk ((SessionStep.update module file).Asks codes ids))
      (UpgradeStep.run codes ids module total step sended) := by
    intro total step sended
    cases step with
    | start =>
      refine keeps_bind (keeps_bind (hexchange .startFlag _ _ _ _ _) fun _ => keeps_pure _)
        fun ret => keeps_ite (keeps_pure _) ?_
      exact keeps_bind (hprogress _ _) fun _ => keeps_pure _
    | address addr =>
      exact keeps_bind (keeps_bind (hexchange .dataAddress _ _ _ _ _) fun _ => keeps_pure _)
        fun _ => keeps_pure _
    | chunk buf => exact hrounds _ _ _ _ _ _
    | finish =>
      exact keeps_bind (keeps_bind (hexchange .endFlag _ _ _ _ _) fun _ => keeps_pure _)
        fun _ => keeps_pure _
  rw [upgrade_eq_walk]
  refine keeps_bind (keeps_allowed (Or.inl rfl)) fun image => ?_
  cases image with
  | none => exact keeps_pure _
  | some image =>
    exact keeps_bind (keeps_walk (hstep _) _ _) fun _ => keeps_ite (keeps_pure _) (keeps_pure _)

/-- A step makes its own requests only. -/
theorem asks_of_recorded {step : SessionStep} {record : List UpdateEvent}
    (h : Recorded (step.run codes ids) record) : AllAsk (step.Asks codes ids) record := by
  have hkeeps : Keeps recording (AllAsk (step.Asks codes ids)) (step.run codes ids) := by
    cases step with
    | enter module =>
      exact keeps_bind (keeps_exchangeAsks (Or.inl rfl) fun _ hr => Or.inr hr) fun _ =>
        keeps_pure _
    | update module file => exact keeps_upgradeAsks file
    | leave module =>
      exact keeps_bind (keeps_exchangeAsks (Or.inl rfl) fun _ hr => Or.inr hr) fun _ =>
        keeps_pure _
  exact hkeeps [] record (fun event hevent => absurd hevent List.not_mem_nil) h

end Asks

/-- A session between the opening and the closing of the device. -/
def session (codes : MessageCodes) (ids : ModuleIds) (modules : List (Byte × String))
    (ret : Int) : UpdateM (Int × List Int) := do
  let _ ← inOrder (SessionStep.run codes ids) ((sysCtrlModules ids).map .enter)
  let outcomes ← inOrder (SessionStep.run codes ids) (modules.map fun m => .update m.1 m.2)
  let _ ← inOrder (SessionStep.run codes ids) ((sysCtrlModules ids).map .leave)
  closeCANDevice
  pure (ret, outcomes)

section Session

variable {codes : MessageCodes} {ids : ModuleIds} {modules : List (Byte × String)}

/-- The loops of a session as sequences of its steps. -/
theorem robotSubSysUpdate_eq :
    robotSubSysUpdate codes ids modules =
      ensurePathMounted "/mnt/internal_sd" >>= fun mounting =>
        if mounting ≠ 0 then pure (-1, [])
        else openCANDevice >>= fun opening =>
          if opening ≠ 0 then pure (-1, []) else session codes ids modules opening := by
  have hloop : ∀ (f : Byte → UpdateM Int) (systems : List Byte),
      (systems.forM fun module => do
        let _ ← f module
        pure ()) = inOrder f systems >>= fun _ => pure () := by
    intro f systems
    induction systems with
    | nil => rfl
    | cons system systems ih =>
      have hcons : ∀ g : Byte → UpdateM Unit, (system :: systems).forM g =
          g system >>= fun _ => systems.forM g := fun _ => rfl
      rw [hcons, inOrder, ih]
      simp only [bind_assoc, pure_bind]
  have hupgrades : ∀ modules : List (Byte × String), upgradeModules codes ids modules =
      inOrder (fun m => upgrade codes ids m.1 m.2) modules := by
    intro modules
    induction modules with
    | nil => rfl
    | cons m modules ih => rw [upgradeModules, inOrder, ih]
  unfold robotSubSysUpdate allEnterUpgradeMode allExitUpgradeMode session
  rw [hloop, hloop, hupgrades]
  simp only [inOrder_map, bind_assoc, pure_bind]
  rfl

/-- The closing of the device is the last event. -/
theorem recorded_closing {α : Type} {value : α} {front behind : List UpdateEvent}
    {event : UpdateEvent}
    (h : Recorded (closeCANDevice >>= fun _ => pure value) (front ++ event :: behind)) :
    front = [] ∧ event = closed ∧ behind = [] := by
  cases front with
  | nil =>
    obtain ⟨answer, rfl, hrest⟩ := recorded_request h
    exact ⟨rfl, rfl, recorded_pure hrest⟩
  | cons first front =>
    obtain ⟨answer, rfl, hrest⟩ := recorded_request h
    exact absurd (recorded_pure hrest) (by simp)

/-- Between the opening and the closing of the device every event belongs to a
step, with the steps in front of it behind it. -/
theorem recorded_session {ret : Int} {front behind : List UpdateEvent} {event : UpdateEvent}
    (h : Recorded (session codes ids modules ret) (front ++ event :: behind)) :
    InStep (SessionStep.run codes ids) (sessionSteps ids modules) front event ∨
      ∃ pieces, front = pieces.flatten ∧
        List.Forall₂ (Completes (SessionStep.run codes ids)) (sessionSteps ids modules) pieces ∧
        event = closed ∧ behind = [] := by
  rcases recorded_inOrder_bind h with hin | ⟨_, entered, own, rfl, hentered, hrest⟩
  · exact Or.inl (hin.followed _)
  rcases recorded_inOrder_bind hrest with hin | ⟨_, updated, more, rfl, hupdated, hlast⟩
  · exact Or.inl ((hin.followed _).preceded hentered)
  rcases recorded_inOrder_bind hlast with hin | ⟨_, left, last, rfl, hleft, hclose⟩
  · exact Or.inl ((hin.preceded hupdated).preceded hentered)
  obtain ⟨rfl, rfl, rfl⟩ := recorded_closing hclose
  refine Or.inr ⟨entered ++ (updated ++ left), ?_, ?_, rfl, rfl⟩
  · rw [List.append_nil, List.flatten_append, List.flatten_append]
  · exact List.rel_append hentered (List.rel_append hupdated hleft)

/-- No step closes the device. -/
theorem not_asks_close (step : SessionStep) : ¬ step.Asks codes ids .closeCANDevice := by
  cases step <;> simp [SessionStep.Asks, ReadAsks]

/-- A request for a number comes with its answer. -/
theorem recorded_number {α : Type} {k : Int → UpdateM α} {record : List UpdateEvent}
    {event : UpdateEvent} :
    (Recorded (ensurePathMounted "/mnt/internal_sd" >>= k) (event :: record) →
      ∃ answer : Int, event = ⟨.ensurePathMounted "/mnt/internal_sd", answer⟩ ∧
        Recorded (k answer) record) ∧
      (Recorded (openCANDevice >>= k) (event :: record) →
        ∃ answer : Int, event = ⟨.openCANDevice, answer⟩ ∧ Recorded (k answer) record) :=
  ⟨recorded_request, recorded_request⟩

/-- Every event of a session has its place, and nothing follows the closing. -/
theorem placed_of_recorded {front behind : List UpdateEvent} {event : UpdateEvent}
    (h : Recorded (robotSubSysUpdate codes ids modules) (front ++ event :: behind)) :
    Placed codes ids modules front event ∧ (event = closed → behind = []) := by
  rw [robotSubSysUpdate_eq] at h
  cases front with
  | nil =>
    obtain ⟨mounting, rfl, -⟩ := recorded_number.1 h
    exact ⟨Placed.mount, fun hclosed => absurd (Sigma.mk.inj hclosed).1 (by simp)⟩
  | cons first front =>
    obtain ⟨mounting, rfl, hrest⟩ := recorded_number.1 h
    obtain ⟨rfl, hopening⟩ := recorded_passed (by simp) hrest
    cases front with
    | nil =>
      obtain ⟨opening, rfl, -⟩ := recorded_number.2 hopening
      exact ⟨Placed.openDevice, fun hclosed => absurd (Sigma.mk.inj hclosed).1 (by simp)⟩
    | cons second front =>
      obtain ⟨opening, rfl, hopened⟩ := recorded_number.2 hopening
      obtain ⟨rfl, hsession⟩ := recorded_passed (by simp) hopened
      rcases recorded_session hsession with
        ⟨done, step, later, pieces, inner, rest, hsteps, rfl, hdone, hin⟩ |
          ⟨pieces, rfl, hdone, rfl, rfl⟩
      · have hasks := asks_of_recorded hin event (by simp)
        refine ⟨Placed.inStep hsteps hdone hasks, ?_⟩
        rintro rfl
        exact absurd hasks (not_asks_close step)
      · exact ⟨Placed.closeDevice hdone, fun _ => rfl⟩

/-- A retry loop begins with its message and sends it no more often than it may. -/
theorem told_exchange {sId module resp : Byte} {data : List Byte} {timeout count : ℕ}
    {deal : List Byte → Int} {ret : Int} {result : Int × ℕ} {record : List UpdateEvent}
    (h : Records (exchange sId module data resp timeout deal count ret) result record) :
    (count ≠ 0 → ∃ sent rest, record = ⟨.sendCANData sId module data, sent⟩ :: rest) ∧
      record.countP isSend ≤ count := by
  induction count generalizing ret record with
  | zero =>
    obtain ⟨-, rfl⟩ := records_pure h
    exact ⟨fun hne => absurd rfl hne, le_rfl⟩
  | succ count ih =>
    obtain ⟨sent, front, rest, hsend, hrest, rfl⟩ := records_bind h
    obtain rfl := records_ask hsend
    refine ⟨fun _ => ⟨sent, rest, rfl⟩, ?_⟩
    have hmore : rest.countP isSend ≤ count := by
      by_cases hsent : sent ≠ 0
      · rw [if_pos hsent] at hrest
        exact (ih hrest).2
      · rw [if_neg hsent] at hrest
        obtain ⟨⟨heard, retData⟩, read, more, hread, hlast, rfl⟩ := records_bind hrest
        dsimp only at hlast
        have hquiet : AllAsk (ReadAsks module resp) read :=
          keeps_readAsks (fun _ hr => hr) [] read
            (fun event hevent => absurd hevent List.not_mem_nil) hread.recorded
        have hnone : read.countP isSend = 0 := by
          refine List.countP_eq_zero.mpr fun event hevent => ?_
          rcases hquiet event hevent with hr | ⟨t, hr⟩ | hr <;> simp [isSend, hr]
        rw [List.countP_append, hnone, Nat.zero_add]
        split_ifs at hlast with hanswer
        · obtain ⟨-, rfl⟩ := records_pure hlast
          exact Nat.zero_le _
        · exact (ih hlast).2
    rw [List.countP_append]
    have hone : ([⟨.sendCANData sId module data, sent⟩] : List UpdateEvent).countP isSend = 1 := rfl
    omega

/-- A system that has been told to enter the mode. -/
theorem told_enter {module : Byte} {piece : List UpdateEvent}
    (h : Completes (SessionStep.run codes ids) (.enter module) piece) :
    Told ids [commonSysctrlUpgradeCmd, 2] module piece := by
  obtain ⟨value, hrun⟩ := h
  obtain ⟨result, front, behind, hexchange, hpure, rfl⟩ := records_bind hrun
  obtain ⟨-, rfl⟩ := records_pure hpure
  rw [List.append_nil]
  obtain ⟨hfirst, hcount⟩ := told_exchange hexchange
  exact ⟨hfirst (by decide), hcount⟩

/-- A system that has been told to leave the mode. -/
theorem told_leave {module : Byte} {piece : List UpdateEvent}
    (h : Completes (SessionStep.run codes ids) (.leave module) piece) :
    Told ids [commonSysctrlExitUpgradeCmd, 2] module piece := by
  obtain ⟨value, hrun⟩ := h
  obtain ⟨result, front, behind, hexchange, hpure, rfl⟩ := records_bind hrun
  obtain ⟨-, rfl⟩ := records_pure hpure
  rw [List.append_nil]
  obtain ⟨hfirst, hcount⟩ := told_exchange hexchange
  exact ⟨hfirst (by decide), hcount⟩

/-- A step that loads a file comes behind all steps that enter the mode. -/
theorem entered_before_update {done later : List SessionStep} {step : SessionStep}
    (hsteps : sessionSteps ids modules = done ++ step :: later) {file : String} {bytes : ℕ}
    (hasks : step.Asks codes ids (.loadHex file bytes)) :
    ∃ more, done = (sysCtrlModules ids).map .enter ++ more := by
  rcases List.append_eq_append_iff.mp hsteps with ⟨more, hdone, -⟩ | ⟨more, henter, hlater⟩
  · exact ⟨more, hdone⟩
  -- Otherwise the step would itself be one of those, and they load nothing.
  cases more with
  | nil => exact ⟨[], by rw [henter, List.append_nil, List.append_nil]⟩
  | cons first more =>
    rw [List.cons_append] at hlater
    obtain ⟨rfl, -⟩ := List.cons.inj hlater
    have hmem : step ∈ (sysCtrlModules ids).map SessionStep.enter := by
      rw [henter]
      simp
    obtain ⟨module, -, rfl⟩ := List.mem_map.mp hmem
    simp [SessionStep.Asks, ReadAsks] at hasks

/-- A record keeps the order of a session. -/
theorem sessionOrdered_of_recorded {record : List UpdateEvent}
    (h : Recorded (robotSubSysUpdate codes ids modules) record) :
    SessionOrdered codes ids modules record where
  placed := by
    rintro front event behind rfl
    exact (placed_of_recorded h).1
  entered := by
    rintro front file bytes image behind rfl
    cases (placed_of_recorded h).1 with
    | @inStep done later step pieces inner _ hsteps hdone hasks =>
      obtain ⟨more, rfl⟩ := entered_before_update hsteps hasks
      obtain ⟨first, rest, rfl, hfirst, -⟩ := forall₂_parts hdone
      refine ⟨first, rest.flatten ++ inner, ?_, ?_⟩
      · rw [List.flatten_append, List.append_assoc]
      · exact (List.forall₂_map_left_iff.mp hfirst).imp fun _ _ => told_enter
  left := by
    rintro front behind rfl
    obtain ⟨hplaced, hlast⟩ := placed_of_recorded h
    refine ⟨hlast rfl, ?_⟩
    generalize hevent : closed = event at hplaced
    cases hplaced with
    | mount => exact absurd (Sigma.mk.inj hevent).1 (by simp)
    | openDevice => exact absurd (Sigma.mk.inj hevent).1 (by simp)
    | inStep _ _ hasks => exact absurd (hevent ▸ hasks) (not_asks_close _)
    | closeDevice hdone =>
      rw [sessionSteps, ← List.append_assoc] at hdone
      obtain ⟨first, last, rfl, -, hlast⟩ := forall₂_parts hdone
      refine ⟨last, mounted :: opened :: first.flatten, ?_, ?_⟩
      · rw [List.flatten_append]
        rfl
      · exact (List.forall₂_map_left_iff.mp hlast).imp fun _ _ => told_leave

theorem opened_ne_mount (answer : Int) :
    opened ≠ ⟨.ensurePathMounted "/mnt/internal_sd", answer⟩ :=
  fun h => absurd (Sigma.mk.inj h).1 (by simp)

/-- A session that has opened the device and come to its end has closed it. -/
theorem closed_of_records {result : Int × List Int} {record : List UpdateEvent}
    (h : Records (robotSubSysUpdate codes ids modules) result record)
    (hopened : opened ∈ record) : closed ∈ record := by
  rw [robotSubSysUpdate_eq] at h
  obtain ⟨mounting, front, behind, hmount, hrest, rfl⟩ := records_bind h
  obtain rfl := records_ask hmount
  split_ifs at hrest with hmounting
  · obtain ⟨-, rfl⟩ := records_pure hrest
    exact absurd (List.mem_singleton.mp hopened) (opened_ne_mount mounting)
  obtain ⟨opening, second, last, hopen, hsession, rfl⟩ := records_bind hrest
  obtain rfl := records_ask hopen
  split_ifs at hsession with hopening
  · obtain ⟨-, rfl⟩ := records_pure hsession
    rcases List.mem_cons.mp hopened with hmounted | hzero
    · exact absurd hmounted (opened_ne_mount mounting)
    · have hevent := List.mem_singleton.mp hzero
      exact absurd (eq_of_heq (Sigma.mk.inj hevent).2).symm hopening
  obtain ⟨_, entered, _, -, hupgrades, rfl⟩ := records_bind hsession
  obtain ⟨_, updated, _, -, hleave, rfl⟩ := records_bind hupgrades
  obtain ⟨_, left, _, -, hclose, rfl⟩ := records_bind hleave
  obtain ⟨_, closing, _, hask, -, rfl⟩ := records_bind hclose
  obtain rfl := records_ask hask
  simp [closed]

/-- Every record of `robotSubSysUpdate`, finished or not, keeps the order: the device is
opened before anything is sent, all six subsystems are told to enter the upgrade mode before
the first file is loaded, every module has its turn whatever became of the earlier ones, all
six are told to leave it, and then the device is closed, last of all. A session that has come
to its end has closed the device if it has opened it. -/
theorem session_ordered (codes : MessageCodes) (ids : ModuleIds) (modules : List (Byte × String))
    (record : List UpdateEvent) (h : Recorded (robotSubSysUpdate codes ids modules) record) :
    SessionOrdered codes ids modules record ∧
      ∀ result, Records (robotSubSysUpdate codes ids modules) result record →
        opened ∈ record → closed ∈ record :=
  ⟨sessionOrdered_of_recorded h, fun _ hrun => closed_of_records hrun⟩

/-- A session with one board there. -/
def sampleSession : List UpdateEvent :=
  ((robotSubSysUpdate default default [(11, "/mnt/internal_sd/rc.hex")]).run
    (replyAndLog (fun r answer => [⟨r, answer⟩]) oneByteReply) []).2

/-- It keeps the order and comes to its end. -/
theorem session_ordered_sample :
    SessionOrdered default default [(11, "/mnt/internal_sd/rc.hex")] sampleSession ∧
      closed ∈ sampleSession := by
  have hrun := exec_replyAndLog (fun r answer => [(⟨r, answer⟩ : UpdateEvent)]) oneByteReply
    (robotSubSysUpdate default default [(11, "/mnt/internal_sd/rc.hex")]) []
  have hopened : opened ∈ sampleSession :=
    List.mem_of_getElem? (by rfl : sampleSession[1]? = some opened)
  have hordered := session_ordered default default [(11, "/mnt/internal_sd/rc.hex")]
    sampleSession hrun.reaches
  exact ⟨hordered.1, hordered.2 _ hrun hopened⟩

end Session

end RobotOta.UpgradeSession
