import RobotOta.DownloadTask

/-!
# How an install attempt ends

`installUpdate` with all that its calls can do: return, throw, or reboot the
device. The `catch` clause takes `IOException` only and sets no error, and the
`finally` block reports a failure only where an error was set. Battery and
space are looked at first, then the package, its digest and its archive.
-/

namespace RobotOta.InstallAttempt

open OtaDownload DownloadTask

/-- What a call throws: something the `catch` clause takes, or something else. -/
inductive Thrown where
  | ioException
  | unchecked
  deriving DecidableEq

/-- `pm.reboot`. -/
inductive RebootEnd where
  | reboots
  | returns
  | throws
  deriving DecidableEq

/-- What the calls of one attempt come back with. -/
structure InstallCalls where
  /-- `isBatteryEnough`. -/
  batteryEnough : Bool
  /-- `getInternalMemorySize`; `StatFs` throws where it finds no file system. -/
  memorySize : Option ℕ
  /-- `Util.getFileMD5`. -/
  fileMD5 : Option String
  /-- Whether the file of a failed check can be deleted. -/
  packageDeleted : Bool
  /-- The entries `unzipFile` has written, to its end or to its exception. -/
  entries : List String
  /-- What `unzipFile` throws. -/
  unzipThrows : Option Thrown
  /-- From the canonical paths of `installPackages` to `command.close()`. -/
  commandThrows : Option Thrown
  /-- How `pm.reboot` ends. -/
  rebootEnds : RebootEnd

/-- `INSTALL_MEMORY_NEED`. -/
def installMemoryNeed : ℕ := 700 * 1024 * 1024

/-- How the `try` block ends. -/
inductive TryEnd where
  | returned
  | threw (e : Thrown)
  | rebooted
  deriving DecidableEq

/-- `RecoverySystem.installPackages` with `bootCommand`, which throws where the
reboot returns. -/
def bootCommand (calls : InstallCalls) : TryEnd :=
  match calls.commandThrows with
  | some e => .threw e
  | none =>
    match calls.rebootEnds with
    | .reboots => .rebooted
    | .returns => .threw .ioException
    | .throws => .threw .unchecked

/-- `installUpdate` behind the digest check. -/
def unzipAndInstall (calls : InstallCalls) (state : OtaState) : TryEnd × OtaState :=
  let written := calls.entries.foldl writeEntry state
  match calls.unzipThrows with
  | some e => (.threw e, written)
  | none =>
    let sigFile := String.join (calls.entries.map fun fl => getName fl ++ ";")
    (bootCommand calls, { written with unzipTmpFiles := some sigFile })

/-- The `try` block of `installUpdate`. -/
def tryBlock (calls : InstallCalls) (state : OtaState) : TryEnd × OtaState :=
  if ¬ calls.batteryEnough then (.returned, setError errorLowBattery state)
  else
    match calls.memorySize with
    | none => (.threw .unchecked, state)
    | some size =>
      if size < installMemoryNeed then (.returned, setError errorStorage state)
      else if state.installPackage.isNone then (.returned, setError errorFileNotFound state)
      else
        let state := setStatus .installing state
        if state.mNewVerMD5.isNone then (.returned, checkFailed calls.packageDeleted state)
        else
          match getFileMD5 calls.fileMD5 state with
          -- `md5.equals` on null
          | none => (.threw .unchecked, state)
          | some md5 =>
            if some md5 ≠ state.mNewVerMD5 then
              (.returned, checkFailed calls.packageDeleted state)
            else unzipAndInstall calls state

/-- An attempt at its end, with the statuses that `notifyClientStatus` reported. -/
structure AttemptEnd where
  /-- The device has been restarted. -/
  rebooted : Bool
  /-- The service behind the attempt. -/
  state : OtaState
  /-- The statuses reported by `notifyClientStatus`. -/
  notified : List UpdateStatus

/-- The `finally` block. -/
def finallyBlock (state : OtaState) : AttemptEnd :=
  if state.mError ≠ errorNone then
    let failed := setStatus .installFailed state
    ⟨false, failed, [failed.status]⟩
  else ⟨false, state, []⟩

/-- Behind a reboot nothing more runs; behind an exception, caught or not, the
`finally` block does. -/
def leaveTry : TryEnd × OtaState → AttemptEnd
  | (.rebooted, state) => ⟨true, state, []⟩
  | (.returned, state) | (.threw _, state) => finallyBlock state

/-- The thread of `installUpdate`. -/
def installAttempt (calls : InstallCalls) (state : OtaState) : AttemptEnd :=
  leaveTry (tryBlock calls (setError errorNone state))

/-- Without a reboot the attempt is reported as failed. -/
def Reported (attempt : AttemptEnd) : Prop :=
  attempt.rebooted = false → attempt.state.status = .installFailed ∧
    attempt.state.mError ≠ errorNone ∧ .installFailed ∈ attempt.notified

/-- The attempt passes its first checks. -/
def PassesChecks (calls : InstallCalls) (state : OtaState) : Prop :=
  calls.batteryEnough = true ∧ (∃ size, calls.memorySize = some size ∧ installMemoryNeed ≤ size) ∧
    state.installPackage.isSome

/-- The digest of the package is the expected one. -/
def DigestMatches (calls : InstallCalls) (state : OtaState) : Prop :=
  ∃ md5, calls.fileMD5 = some md5 ∧ state.mNewVerMD5 = some md5

/-- The attempt ends in an exception: no exit of this kind sets an error. -/
inductive Throws (calls : InstallCalls) (state : OtaState) : Prop where
  | spaceUnknown : calls.batteryEnough = true → calls.memorySize = none → Throws calls state
  | digestUnreadable : PassesChecks calls state → state.mNewVerMD5.isSome →
    calls.fileMD5 = none → Throws calls state
  | unzip : PassesChecks calls state → DigestMatches calls state → calls.unzipThrows.isSome →
    Throws calls state
  | command : PassesChecks calls state → DigestMatches calls state → calls.unzipThrows = none →
    calls.commandThrows.isSome → Throws calls state
  | reboot : PassesChecks calls state → DigestMatches calls state → calls.unzipThrows = none →
    calls.commandThrows = none → calls.rebootEnds ≠ .reboots → Throws calls state

section Exits

variable {calls : InstallCalls} {state : OtaState}

/-- An exit that sets an error is reported. -/
theorem reported_of_error (h : state.mError ≠ errorNone) : Reported (finallyBlock state) := by
  rw [finallyBlock, if_pos h]
  exact fun _ => ⟨rfl, h, List.mem_singleton_self _⟩

/-- One that sets none is not. -/
theorem not_reported_of_none (h : state.mError = errorNone) : ¬Reported (finallyBlock state) := by
  rw [finallyBlock, if_neg (not_not.mpr h)]
  exact fun hreported => (hreported rfl).2.1 h

/-- Writing the entries sets no error. -/
theorem mError_foldl_writeEntry (entries : List String) (state : OtaState) :
    (entries.foldl writeEntry state).mError = state.mError := by
  obtain ⟨tmpFile, package, hfiles⟩ := foldl_writeEntry_files entries state
  rw [hfiles]

/-- An exception needs enough battery. -/
theorem Throws.battery (h : Throws calls state) : calls.batteryEnough = true := by
  cases h with
  | spaceUnknown hbattery _ => exact hbattery
  | digestUnreadable hchecks _ _ => exact hchecks.1
  | unzip hchecks _ _ => exact hchecks.1
  | command hchecks _ _ _ => exact hchecks.1
  | reboot hchecks _ _ _ _ => exact hchecks.1

/-- One behind the look at the space needs all first checks passed, an expected
digest, and a digest that is either unreadable or right. -/
theorem Throws.behindSpace {size : ℕ} (h : Throws calls state)
    (hsize : calls.memorySize = some size) :
    PassesChecks calls state ∧ state.mNewVerMD5.isSome ∧
      (calls.fileMD5 = none ∨ DigestMatches calls state) := by
  have hmatch : DigestMatches calls state → state.mNewVerMD5.isSome := by
    rintro ⟨md5, -, hexpected⟩
    rw [hexpected]
    rfl
  cases h with
  | spaceUnknown _ hnone => exact absurd (hnone.symm.trans hsize) (by simp)
  | digestUnreadable hchecks hexpected hnone => exact ⟨hchecks, hexpected, Or.inl hnone⟩
  | unzip hchecks hdigest _ => exact ⟨hchecks, hmatch hdigest, Or.inr hdigest⟩
  | command hchecks hdigest _ _ => exact ⟨hchecks, hmatch hdigest, Or.inr hdigest⟩
  | reboot hchecks hdigest _ _ _ => exact ⟨hchecks, hmatch hdigest, Or.inr hdigest⟩

/-- Behind the digest check the attempt ends in an exception or in the reboot. -/
theorem unzipAndInstall_cases (hchecks : PassesChecks calls state)
    (hdigest : DigestMatches calls state) (other : OtaState) (hnone : other.mError = errorNone) :
    (∃ e failed, unzipAndInstall calls other = (.threw e, failed) ∧ failed.mError = errorNone ∧
      Throws calls state) ∨
    (∃ done, unzipAndInstall calls other = (.rebooted, done) ∧ ¬Throws calls state) := by
  have hwritten : (calls.entries.foldl writeEntry other).mError = errorNone :=
    (mError_foldl_writeEntry calls.entries other).trans hnone
  unfold unzipAndInstall bootCommand
  cases hunzip : calls.unzipThrows with
  | some e =>
    exact Or.inl ⟨e, _, rfl, hwritten, Throws.unzip hchecks hdigest (by rw [hunzip]; rfl)⟩
  | none =>
    cases hcommand : calls.commandThrows with
    | some e =>
      exact Or.inl ⟨e, _, rfl, hwritten,
        Throws.command hchecks hdigest hunzip (by rw [hcommand]; rfl)⟩
    | none =>
      have hfails : calls.rebootEnds ≠ .reboots → Throws calls state :=
        Throws.reboot hchecks hdigest hunzip hcommand
      cases hreboot : calls.rebootEnds with
      | returns => exact Or.inl ⟨_, _, rfl, hwritten, hfails (by simp [hreboot])⟩
      | throws => exact Or.inl ⟨_, _, rfl, hwritten, hfails (by simp [hreboot])⟩
      | reboots =>
        refine Or.inr ⟨_, rfl, ?_⟩
        intro hthrows
        obtain ⟨md5, hmd5, -⟩ := hdigest
        obtain ⟨size, hsize, -⟩ := hchecks.2.1
        cases hthrows with
        | spaceUnknown _ hunknown => exact absurd (hunknown.symm.trans hsize) (by simp)
        | digestUnreadable _ _ hunread => exact absurd (hunread.symm.trans hmd5) (by simp)
        | unzip _ _ hsome => exact absurd hsome (by simp [hunzip])
        | command _ _ _ hsome => exact absurd hsome (by simp [hcommand])
        | reboot _ _ _ _ hother => exact hother hreboot

/-- Behind the first checks the digest check takes one of the three exits: it sets an
error, an exception sets none, and otherwise there is the reboot. -/
theorem tryBlock_checked (hnone : state.mError = errorNone) (hchecks : PassesChecks calls state) :
    (∃ failed, tryBlock calls state = (.returned, failed) ∧ failed.mError ≠ errorNone ∧
      ¬Throws calls state) ∨
    (∃ e failed, tryBlock calls state = (.threw e, failed) ∧ failed.mError = errorNone ∧
      Throws calls state) ∨
    (∃ done, tryBlock calls state = (.rebooted, done) ∧ ¬Throws calls state) := by
  obtain ⟨hbattery, ⟨size, hsize, henough⟩, hsome⟩ := id hchecks
  have hpackage : ¬state.installPackage.isNone := by
    simpa [Option.isSome_iff_ne_none] using hsome
  rw [tryBlock, if_neg (not_not.mpr hbattery), hsize]
  dsimp only
  rw [if_neg (Nat.not_lt_of_le henough), if_neg hpackage]
  cases hexpected : state.mNewVerMD5 with
  | none =>
    have hnull : (setStatus .installing state).mNewVerMD5.isNone := by
      rw [setStatus, hexpected]
      rfl
    rw [if_pos hnull]
    refine Or.inl ⟨_, rfl, (by decide : errorCheckFailed ≠ errorNone), fun hthrows => ?_⟩
    have hthere := (hthrows.behindSpace hsize).2.1
    rw [hexpected] at hthere
    cases hthere
  | some expected =>
    have hnull : ¬(setStatus .installing state).mNewVerMD5.isNone := by
      rw [setStatus, hexpected]
      exact Bool.false_ne_true
    have hdigest : getFileMD5 calls.fileMD5 (setStatus .installing state) = calls.fileMD5 :=
      if_pos hsome
    have hheld : (setStatus .installing state).mNewVerMD5 = some expected := hexpected
    rw [if_neg hnull, hdigest, hheld]
    cases hmd5 : calls.fileMD5 with
    | none =>
      refine Or.inr (Or.inl ⟨_, _, rfl, hnone, Throws.digestUnreadable hchecks ?_ hmd5⟩)
      rw [hexpected]
      rfl
    | some md5 =>
      dsimp only
      by_cases hdiffers : some md5 ≠ some expected
      · rw [if_pos hdiffers]
        refine Or.inl ⟨_, rfl, (by decide : errorCheckFailed ≠ errorNone), fun hthrows => ?_⟩
        rcases (hthrows.behindSpace hsize).2.2 with hunread | ⟨other, hother, hexp⟩
        · exact absurd (hunread.symm.trans hmd5) (by simp)
        · exact hdiffers (hmd5.symm.trans (hother.trans (hexp.symm.trans hexpected)))
      · rw [if_neg hdiffers]
        rw [not_not] at hdiffers
        exact Or.inr (unzipAndInstall_cases hchecks ⟨md5, hmd5, hexpected.trans hdiffers.symm⟩
          (setStatus .installing state) hnone)

/-- Which exit the `try` block takes: one of the checks, which set an error, an
exception, which sets none, or the reboot. -/
theorem tryBlock_cases (hnone : state.mError = errorNone) :
    (∃ failed, tryBlock calls state = (.returned, failed) ∧ failed.mError ≠ errorNone ∧
      ¬Throws calls state) ∨
    (∃ e failed, tryBlock calls state = (.threw e, failed) ∧ failed.mError = errorNone ∧
      Throws calls state) ∨
    (∃ done, tryBlock calls state = (.rebooted, done) ∧ ¬Throws calls state) := by
  by_cases hchecks : PassesChecks calls state
  · exact tryBlock_checked hnone hchecks
  unfold tryBlock
  by_cases hbattery : calls.batteryEnough = true
  · rw [if_neg (not_not.mpr hbattery)]
    cases hsize : calls.memorySize with
    | none => exact Or.inr (Or.inl ⟨_, _, rfl, hnone, Throws.spaceUnknown hbattery hsize⟩)
    | some size =>
      have hnothrow : ¬Throws calls state := fun hthrows =>
        hchecks (hthrows.behindSpace hsize).1
      dsimp only
      by_cases hspace : size < installMemoryNeed
      · rw [if_pos hspace]
        exact Or.inl ⟨_, rfl, (by decide : errorStorage ≠ errorNone), hnothrow⟩
      have hpackage : state.installPackage.isNone := by
        by_contra hthere
        exact hchecks ⟨hbattery, ⟨size, hsize, Nat.le_of_not_lt hspace⟩,
          by simpa [Option.isSome_iff_ne_none] using hthere⟩
      rw [if_neg hspace, if_pos hpackage]
      exact Or.inl ⟨_, rfl, (by decide : errorFileNotFound ≠ errorNone), hnothrow⟩
  · rw [if_pos hbattery]
    exact Or.inl ⟨_, rfl, (by decide : errorLowBattery ≠ errorNone),
      fun hthrows => hbattery hthrows.battery⟩

end Exits

/-- An attempt without a reboot is reported as failed just when it does not end
in an exception. -/
theorem reported_iff (calls : InstallCalls) (state : OtaState) :
    Reported (installAttempt calls state) ↔ ¬Throws calls (setError errorNone state) := by
  unfold installAttempt
  rcases @tryBlock_cases calls (setError errorNone state) rfl with
    ⟨failed, hend, herror, hnot⟩ | ⟨e, failed, hend, hnone, hthrows⟩ | ⟨done, hend, hnot⟩
  · rw [hend]
    exact iff_of_true (reported_of_error herror) hnot
  · rw [hend]
    exact iff_of_false (not_reported_of_none hnone) (not_not.mpr hthrows)
  · rw [hend]
    exact iff_of_true (fun hrebooted => absurd hrebooted (by simp [leaveTry])) hnot

/-- An archive that cannot be unzipped: the package has the right digest, and
`unzipFile` throws an `IOException`, which is caught. -/
def unzipFailureCalls : InstallCalls where
  batteryEnough := true
  memorySize := some installMemoryNeed
  fileMD5 := some "0f"
  packageDeleted := true
  entries := []
  unzipThrows := some .ioException
  commandThrows := none
  rebootEnds := .reboots

/-- A downloaded package, and the digest that the server gave. -/
def downloadedState : OtaState :=
  { initialState with
    status := .downloadOk
    mNewVerMD5 := some "0f"
    installPackage := some (.download "/ota.zip" true) }

/-- The exception is caught, and the status stays at `INSTALLING` without an error. -/
theorem not_reported_unzipFailure :
    ¬Reported (installAttempt unzipFailureCalls downloadedState) ∧
      (installAttempt unzipFailureCalls downloadedState).rebooted = false ∧
      (installAttempt unzipFailureCalls downloadedState).state.status = .installing ∧
      (installAttempt unzipFailureCalls downloadedState).notified = [] := by
  refine ⟨?_, rfl, rfl, rfl⟩
  intro hreported
  exact absurd (hreported rfl).1 (by decide)

section Service

variable (calls : InstallCalls) (state : OtaState)

theorem finallyBlock_state : (finallyBlock state).state = installEnd state := by
  unfold finallyBlock installEnd
  split_ifs <;> rfl

/-- Behind the digest check the attempt leaves what the service does there. -/
theorem leaveTry_unzipAndInstall (hnone : state.mError = errorNone) :
    (leaveTry (unzipAndInstall calls state)).state =
      let written := calls.entries.foldl writeEntry state
      if calls.unzipThrows.isNone then
        let sigFile := String.join (calls.entries.map fun fl => getName fl ++ ";")
        installEnd { written with unzipTmpFiles := some sigFile }
      else installEnd written := by
  have hwritten : (calls.entries.foldl writeEntry state).mError = errorNone :=
    (mError_foldl_writeEntry calls.entries state).trans hnone
  unfold unzipAndInstall
  cases hunzip : calls.unzipThrows with
  | some e => exact finallyBlock_state _
  | none =>
    simp only [Option.isNone_none, if_true]
    cases hboot : bootCommand calls with
    | returned => exact finallyBlock_state _
    | threw e => exact finallyBlock_state _
    | rebooted => rw [installEnd, if_neg (not_not.mpr hwritten), leaveTry]

/-- An attempt that fails its first checks leaves what the step of the service does. -/
theorem installAttempt_state_refused {size : ℕ} (hsize : calls.memorySize = some size)
    (hchecks : ¬PassesChecks calls state) :
    (installAttempt calls state).state =
      installUpdate calls.batteryEnough (decide (installMemoryNeed ≤ size)) state := by
  unfold installAttempt tryBlock installUpdate
  by_cases hbattery : calls.batteryEnough = true
  · rw [if_neg (not_not.mpr hbattery), if_neg (not_not.mpr hbattery), hsize]
    dsimp only
    by_cases hspace : size < installMemoryNeed
    · rw [if_pos hspace, if_pos (by simpa using hspace)]
      exact finallyBlock_state _
    · have hpackage : state.installPackage.isNone := by
        rw [Option.isNone_iff_eq_none]
        by_contra hsome
        exact hchecks ⟨hbattery, ⟨size, hsize, by omega⟩, Option.isSome_iff_ne_none.mpr hsome⟩
      have henough : ¬¬decide (installMemoryNeed ≤ size) = true := by
        simpa using hspace
      have hpackage' : (setError errorNone state).installPackage.isNone := hpackage
      rw [if_neg hspace, if_pos hpackage', if_neg henough, if_pos hpackage]
      exact finallyBlock_state _
  · rw [if_pos hbattery, if_pos hbattery]
    exact finallyBlock_state _

/-- One that passes them leaves what the two steps of the service do, one up to
the digest of the package and one from there on. -/
theorem installAttempt_state_passed (hchecks : PassesChecks calls state) :
    (installAttempt calls state).state =
      installPackages calls.fileMD5 calls.packageDeleted calls.entries calls.unzipThrows.isNone
        (installUpdate true true state) := by
  obtain ⟨hbattery, ⟨size, hsize, henough⟩, hpackage⟩ := hchecks
  have hthere : ¬state.installPackage.isNone := by
    rw [Option.isNone_iff_eq_none]
    exact Option.isSome_iff_ne_none.mp hpackage
  have hthere' : ¬(setError errorNone state).installPackage.isNone := hthere
  have hsteps (md5 : Option String) (deleted unzipped : Bool) (entries : List String) :
      installPackages md5 deleted entries unzipped (installUpdate true true state) =
        checkAndUnzip md5 deleted entries unzipped
          (setStatus .installing (setError errorNone state)) := by
    rw [installUpdate, if_neg (by simp), if_neg (by simp), if_neg hthere, installPackages,
      if_neg (Nat.succ_ne_zero _)]
    rfl
  rw [hsteps]
  unfold installAttempt tryBlock
  rw [if_neg (not_not.mpr hbattery), hsize]
  dsimp only
  rw [if_neg (by omega : ¬size < installMemoryNeed), if_neg hthere']
  generalize hchecked : setStatus .installing (setError errorNone state) = checked
  have hnone : checked.mError = errorNone := by rw [← hchecked]; rfl
  unfold checkAndUnzip
  by_cases hnull : checked.mNewVerMD5.isNone
  · rw [if_pos hnull, if_pos hnull]
    exact finallyBlock_state _
  · rw [if_neg hnull, if_neg hnull]
    cases hmd5 : getFileMD5 calls.fileMD5 checked with
    | none => exact finallyBlock_state _
    | some md5 =>
      dsimp only
      by_cases hdiffers : some md5 ≠ checked.mNewVerMD5
      · rw [if_pos hdiffers, if_pos hdiffers]
        exact finallyBlock_state _
      · rw [if_neg hdiffers, if_neg hdiffers]
        exact leaveTry_unzipAndInstall calls checked hnone

/-- Where the free space is not known, the attempt leaves what the `finally` block does. -/
theorem installAttempt_state_unknown (hsize : calls.memorySize = none) :
    ∃ e, (installAttempt calls state).state = installEnd (setError e state) := by
  unfold installAttempt tryBlock
  by_cases hbattery : calls.batteryEnough = true
  · rw [if_neg (not_not.mpr hbattery), hsize]
    exact ⟨errorNone, finallyBlock_state _⟩
  · rw [if_pos hbattery]
    exact ⟨errorLowBattery, finallyBlock_state _⟩

/-- However an attempt ends, the bookkeeping of the download is kept. -/
theorem taskInvariant_installAttempt (h : TaskInvariant state) :
    TaskInvariant (installAttempt calls state).state := by
  by_cases hchecks : PassesChecks calls state
  · rw [installAttempt_state_passed calls state hchecks]
    exact (h.installUpdate true true).installPackages _ _ _ _
  · cases hsize : calls.memorySize with
    | none =>
      obtain ⟨e, hstate⟩ := installAttempt_state_unknown calls state hsize
      have herror : TaskInvariant (setError e state) := ⟨h.saved, h.current, h.stored⟩
      rw [hstate]
      exact herror.installEnd
    | some size =>
      rw [installAttempt_state_refused calls state hsize hchecks]
      exact h.installUpdate _ _

/-- So it is over any number of attempts, one after the other. -/
theorem taskInvariant_installAttempts (attempts : List InstallCalls) (h : TaskInvariant state) :
    TaskInvariant
      (attempts.foldl (fun state calls => (installAttempt calls state).state) state) := by
  refine List.foldlRecOn attempts _ h fun state hstate calls _ => ?_
  exact taskInvariant_installAttempt calls state hstate

end Service

end RobotOta.InstallAttempt
