import RobotOta.RecoveryMain

/-!
# Failed board upgrades

What becomes of an `upgrade` call that returns -1: `robotSubSysUpdate` drops
its result, `main` drops that of `robotSubSysUpdate`, and nothing but a system
update can change the status from success.
-/

namespace RobotOta.BoardFailure

open CanFrameCodec RequestProgram BoardUpgrade RecoveryRequests RkImageInstall RecoveryMain

variable {World : Type}

/-- A lifted program runs as it does by itself. -/
theorem exec_liftUpdate {α : Type} {act : Effect RecoveryRequest RecoveryAnswer World}
    {p : UpdateM α} {value : α} {w w' : World} :
    Exec act w (liftUpdate p) value w' ↔
      Exec (fun r => act (RecoveryRequest.update r)) w p value w' := by
  induction p generalizing w with
  | pure result =>
    constructor
    · intro h
      cases h
      exact Exec.pure
    · intro h
      cases h
      exact Exec.pure
  | request r next ih =>
    constructor
    · intro h
      cases h with
      | request hact hrest => exact Exec.request hact ((ih _).mp hrest)
    · intro h
      cases h with
      | request hact hrest => exact Exec.request hact ((ih _).mpr hrest)

/-- Once `robotSubSysUpdate` gets to its `upgrade` calls, it returns zero. -/
theorem robotSubSysUpdate_returnsZero {act : Effect UpdateRequest UpdateAnswer World}
    {codes : MessageCodes} {ids : ModuleIds} {modules : List (Byte × String)} {ret : Int}
    {outcomes : List Int} {w w' : World}
    (h : Exec act w (robotSubSysUpdate codes ids modules) (ret, outcomes) w')
    (houtcomes : outcomes ≠ []) : ret = 0 := by
  obtain ⟨mounted, w₁, -, hrest⟩ := exec_bind.mp h
  split_ifs at hrest with hmounted
  · exact absurd (congrArg Prod.snd (exec_pure.mp hrest).1) houtcomes
  obtain ⟨opened, w₂, -, hrest⟩ := exec_bind.mp hrest
  split_ifs at hrest with hopened
  · exact absurd (congrArg Prod.snd (exec_pure.mp hrest).1) houtcomes
  rw [not_not] at hopened
  obtain ⟨_, w₃, -, hrest⟩ := exec_bind.mp hrest
  obtain ⟨_, w₄, -, hrest⟩ := exec_bind.mp hrest
  obtain ⟨_, w₅, -, hrest⟩ := exec_bind.mp hrest
  obtain ⟨_, w₆, -, hrest⟩ := exec_bind.mp hrest
  exact (congrArg Prod.fst (exec_pure.mp hrest).1).trans hopened

/-- The `upgrade` results of a run of `main`. -/
def upgradeOutcomes (ended : MainEnd) : List Int := (ended.robot.map Prod.snd).getD []

/-- A failed `upgrade` shows in what `robotSubSysUpdate` returns and in the
status the run ends with. -/
def FailureReported (codes : InstallCodes) (ended : MainEnd) : Prop :=
  -1 ∈ upgradeOutcomes ended →
    (∃ ret outcomes, ended.robot = some (ret, outcomes) ∧ ret ≠ 0) ∧
      ended.status ≠ codes.success

/-- The robot part of `main` ends with a return value of zero, or without `upgrade` calls. -/
theorem robotUpdate_returnsZero {act : Effect RecoveryRequest RecoveryAnswer World}
    {config : RecoveryConfig} {options : Options} {ret : Int} {outcomes : List Int}
    {w w' : World} (h : Exec act w (robotUpdate config options) (some (ret, outcomes)) w')
    (houtcomes : outcomes ≠ []) : ret = 0 := by
  unfold robotUpdate at h
  generalize robotModules config.ids options = modules at h
  dsimp only at h
  split_ifs at h
  · obtain ⟨result, w₁, hrun, hpure⟩ := exec_bind.mp h
    obtain ⟨hresult, -⟩ := exec_pure.mp hpure
    obtain rfl := Option.some.inj hresult
    exact robotSubSysUpdate_returnsZero (exec_liftUpdate.mp hrun) houtcomes
  · cases (exec_pure.mp h).1

/-- The ghost of a run of `main` is that of its robot part. -/
theorem exec_robotUpdate_of_main {act : Effect RecoveryRequest RecoveryAnswer World}
    {config : RecoveryConfig} {argv : List String} {ended : MainEnd} {result : Int × List Int}
    {w w' : World} (h : Exec act w (recoveryMain config argv) (some ended) w')
    (hrobot : ended.robot = some result) :
    ∃ options w₁ w₂, Exec act w₁ (robotUpdate config options) (some result) w₂ := by
  unfold recoveryMain at h
  split_ifs at h
  · obtain ⟨_, w₁, -, hpure⟩ := exec_bind.mp h
    exact absurd (exec_pure.mp hpure).1 (by simp)
  obtain ⟨internalRoot, w₁, -, h⟩ := exec_bind.mp h
  obtain ⟨externalRoot, w₂, -, h⟩ := exec_bind.mp h
  obtain ⟨arguments, w₃, -, h⟩ := exec_bind.mp h
  obtain ⟨mainEnd, w₄, hmain, hpure⟩ := exec_bind.mp h
  obtain rfl := Option.some.inj (exec_pure.mp hpure).1
  refine ⟨parseOptions config arguments, ?_⟩
  unfold mainOptions at hmain
  obtain ⟨sdboot, w₅, -, hmain⟩ := exec_bind.mp hmain
  split_ifs at hmain
  · obtain ⟨sdtool, w₆, -, hmain⟩ := exec_bind.mp hmain
    obtain ⟨_, w₇, -, hmain⟩ := exec_bind.mp hmain
    obtain ⟨_, w₈, -, hpure⟩ := exec_bind.mp hmain
    obtain ⟨rfl, -⟩ := exec_pure.mp hpure
    cases hrobot
  · obtain ⟨argumentsEnd, w₆, hupdate, hmain⟩ := exec_bind.mp hmain
    obtain ⟨_, w₇, -, hmain⟩ := exec_bind.mp hmain
    obtain ⟨_, w₈, -, hpure⟩ := exec_bind.mp hmain
    obtain ⟨rfl, -⟩ := exec_pure.mp hpure
    obtain ⟨paths, w₉, -, hupdate⟩ := exec_bind.mp hupdate
    obtain ⟨robot, w₁₀, hrun, hupdate⟩ := exec_bind.mp hupdate
    obtain ⟨system, w₁₁, -, hpure⟩ := exec_bind.mp hupdate
    obtain ⟨rfl, -⟩ := exec_pure.mp hpure
    obtain rfl : robot = some result := hrobot
    exact ⟨w₉, w₁₀, hrun⟩

/-- A run reports failed board upgrades exactly if it has none. -/
theorem failureReported_iff (config : RecoveryConfig) (argv : List String)
    (act : Effect RecoveryRequest RecoveryAnswer World) (w w' : World) (ended : MainEnd)
    (h : Exec act w (recoveryMain config argv) (some ended) w') :
    FailureReported config.install ended ↔ -1 ∉ upgradeOutcomes ended := by
  constructor
  · intro hreported hfailed
    obtain ⟨⟨ret, outcomes, hrobot, hret⟩, -⟩ := hreported hfailed
    obtain ⟨options, w₁, w₂, hrun⟩ := exec_robotUpdate_of_main h hrobot
    have hnonempty : outcomes ≠ [] := by
      rintro rfl
      rw [upgradeOutcomes, hrobot] at hfailed
      cases hfailed
    exact hret (robotUpdate_returnsZero hrun hnonempty)
  · intro hnone hfailed
    exact absurd hfailed hnone

/-- What finishing an update leaves behind. -/
inductive FinishEvent where
  | messageSet (boot : BootloaderMessage)
  | unlinked (path : String)
  | rebooted
  deriving DecidableEq

/-- The events of a request. -/
def finishEvents : (r : RecoveryRequest) → RecoveryAnswer r → List FinishEvent
  | .setBootloaderMessage boot, _ => [.messageSet boot]
  | .unlink path, _ => [.unlinked path]
  | .androidReboot _, _ => [.rebooted]
  | _, _ => []

/-- Three firmware files, for five boards. -/
def threeFiles : List String :=
  ["--update_rc=/cache/rc.hex", "--update_rp=/cache/rp.hex", "--update_rb=/cache/rb.hex"]

/-- Two elements of firmware. -/
def sampleImage : HexImage := ⟨[⟨0x1000, [1, 2, 3]⟩, ⟨0x2000, [4, 5]⟩], 5, by decide⟩

/-- Every board answers, and one of the files cannot be loaded. -/
def onePoorFile : (r : RecoveryRequest) → RecoveryAnswer r
  | .update (.loadHex file _) => if file = "/cache/rp.hex" then none else some sampleImage
  | r => calmReply r

/-- The second of five boards is not upgraded. -/
def secondBoardFailed : MainEnd := ⟨0, some (0, [0, -1, 0, 0, 0])⟩

/-- A run in which one of several boards fails, and does not report it. -/
theorem failureReported_iff_fiveBoards :
    ∃ log, Exec (logging finishEvents) [] (recoveryMain default threeFiles)
        (some secondBoardFailed) log ∧
      (FailureReported default secondBoardFailed ↔ -1 ∉ upgradeOutcomes secondBoardFailed) ∧
      -1 ∈ upgradeOutcomes secondBoardFailed := by
  have hrun := exec_replyAndLog finishEvents onePoorFile (recoveryMain default threeFiles) []
  have hends : ((recoveryMain default threeFiles).run
      (replyAndLog finishEvents onePoorFile) []).1 = some secondBoardFailed := by
    rfl
  rw [hends] at hrun
  exact ⟨_, hrun, failureReported_iff default threeFiles _ _ _ secondBoardFailed hrun, by decide⟩

/-- The only board cannot be upgraded, yet the run ends with success: the
message is cleared, the command file removed, and the robot rebooted. -/
theorem boardFailure_notReported :
    ∃ ended log,
      Exec (logging finishEvents) [] (recoveryMain default ["--update_rc=/cache/rc.hex"])
        (some ended) log ∧
      -1 ∈ upgradeOutcomes ended ∧ ¬ FailureReported default ended ∧
      log = [.messageSet ⟨"boot-recovery", "", "recovery\n--update_rc=/cache/rc.hex\n", ""⟩,
        .messageSet BootloaderMessage.zero, .unlinked "/cache/recovery/command", .rebooted] := by
  have hrun := exec_replyAndLog finishEvents calmReply
    (recoveryMain default ["--update_rc=/cache/rc.hex"]) []
  have hends : ((recoveryMain default ["--update_rc=/cache/rc.hex"]).run
      (replyAndLog finishEvents calmReply) []).1 = some ⟨0, some (0, [-1])⟩ := by
    rfl
  rw [hends] at hrun
  refine ⟨_, _, hrun, by decide, ?_, by rfl⟩
  intro hreported
  exact (hreported (by decide)).2 rfl

end RobotOta.BoardFailure
