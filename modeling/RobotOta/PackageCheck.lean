import RobotOta.OtaDownload
import Mathlib.Data.List.Basic

/-!
# The digest check of an install

The threads behind `getUpdatePackageMD5` and `installUpdate` share the expected
digest with the version queries. Here they run in single reads and writes of
what they share, between which anything else may happen: handlers, other such
threads, restarts. A digest fetch may end with any digest or none.
-/

namespace RobotOta.PackageCheck

open OtaDownload

/-- What a digest check saw: the package when its digest was taken and what
`getFileMD5` returned, the expected digest that the service held, and the one
the server had given last. The code keeps the second only. -/
structure Check where
  /-- The package when its digest was taken. -/
  package : Option FileContent
  /-- What `getFileMD5` returned. -/
  md5 : Option String
  /-- The digest that the service expected. -/
  held : Option String
  /-- The digest that the server had given last. -/
  advertised : Option String
  deriving DecidableEq

/-- An install thread past its first checks. -/
inductive InstallPhase where
  /-- It has the digest of the file, or none where it could not be read. -/
  | hashed (package : Option FileContent) (md5 : Option String)
  /-- The expected digest was not null. -/
  | known (package : Option FileContent) (md5 : Option String)
  /-- The check has failed. -/
  | rejected (check : Check)
  /-- The check has passed. -/
  | passed
  deriving DecidableEq

/-- The service with its threads. -/
structure CheckState where
  /-- Here `md5Queries` and `installs` count the threads that have not taken
  their first step below. -/
  ota : OtaState
  /-- The URLs that threads of `getUpdatePackageMD5` have read. -/
  fetches : List (Option String)
  /-- The install threads behind their first step. -/
  installs : List InstallPhase
  /-- The digest in the last reply of the server that had one. -/
  advertisedMD5 : Option String

/-- The service is started for the first time. -/
def initialCheckState : CheckState := ⟨initialState, [], [], none⟩

/-- One step of some thread. -/
inductive CheckEvent where
  /-- A handler other than the two threads. -/
  | handler (event : OtaEvent)
  /-- `getUpdatePackageMD5` reads the URL. -/
  | fetchStarts
  /-- It stores what the server sent, if it sent anything. -/
  | fetchEnds (index : ℕ) (md5 : Option String)
  /-- `installUpdate` takes the digest of the package. -/
  | readsPackage (readable : Bool)
  /-- `mNewVerMD5 == null`. -/
  | testsNull (index : ℕ)
  /-- `!md5.equals(mNewVerMD5)`. -/
  | testsEqual (index : ℕ)
  | deletesPackage (index : ℕ) (deleted : Bool)
  | unzips (index : ℕ) (entries : List String) (unzipped : Bool)

/-- A step of an install attempt. -/
def CheckEvent.isInstall : CheckEvent → Bool
  | .handler _ | .fetchStarts | .fetchEnds .. => false
  | .readsPackage _ | .testsNull _ | .testsEqual _ | .deletesPackage .. | .unzips .. => true

/-- The digest a version reply gives. -/
def repliedMD5 : VersionReply → Option String
  | .returned rtCode (some _) (some md5) => if rtCode = "000" then some md5 else none
  | _ => none

/-- The digest that a handler gets from the server. -/
def deliveredMD5 (state : OtaState) : OtaEvent → Option String
  | .queryReplied reply _ => if state.querying then repliedMD5 reply else none
  | _ => none

/-- A handler. The two threads have steps of their own, and do not survive a restart. -/
def handlerStep (state : CheckState) : OtaEvent → CheckState
  | .md5Replied _ | .installPackages .. => state
  | .restart deletable =>
    ⟨restart deletable state.ota, [], [], state.advertisedMD5⟩
  | event =>
    { state with
      ota := otaStep state.ota event
      advertisedMD5 := deliveredMD5 state.ota event <|> state.advertisedMD5 }

/-- The first step of a thread of `getUpdatePackageMD5`. -/
def fetchStarts (state : CheckState) : CheckState :=
  if state.ota.md5Queries = 0 then state
  else
    { state with
      ota := { state.ota with md5Queries := state.ota.md5Queries - 1 }
      fetches := state.fetches ++ [state.ota.mNewVerUrl] }

/-- `mNewVerMD5 = queryMD5ByHttp()`. -/
def fetchEnds (index : ℕ) (md5 : Option String) (state : CheckState) : CheckState :=
  match state.fetches[index]? with
  | none => state
  | some url =>
    let result := if url.isNone then none else md5
    { state with
      ota := { state.ota with mNewVerMD5 := result }
      fetches := state.fetches.eraseIdx index
      advertisedMD5 := result <|> state.advertisedMD5 }

section Install

variable (fileMD5 : FileContent → String)

/-- `Util.getFileMD5(updatePackage)`. -/
def readsPackage (readable : Bool) (state : CheckState) : CheckState :=
  if state.ota.installs = 0 then state
  else
    let md5 := if readable then state.ota.installPackage.map fileMD5 else none
    { state with
      ota := { state.ota with installs := state.ota.installs - 1 }
      installs := state.installs ++ [.hashed state.ota.installPackage md5] }

/-- The first half of the check. -/
def testsNull (index : ℕ) (state : CheckState) : CheckState :=
  match state.installs[index]? with
  | some (.hashed package md5) =>
    let check : Check := ⟨package, md5, state.ota.mNewVerMD5, state.advertisedMD5⟩
    let phase := if state.ota.mNewVerMD5.isNone then .rejected check else .known package md5
    { state with installs := state.installs.set index phase }
  | _ => state

/-- The second half; without a digest of the file, `md5.equals` throws. -/
def testsEqual (index : ℕ) (state : CheckState) : CheckState :=
  match state.installs[index]? with
  | some (.known _ none) =>
    { state with ota := installEnd state.ota, installs := state.installs.eraseIdx index }
  | some (.known package (some md5)) =>
    let check : Check := ⟨package, some md5, state.ota.mNewVerMD5, state.advertisedMD5⟩
    let phase := if some md5 ≠ state.ota.mNewVerMD5 then .rejected check else .passed
    { state with installs := state.installs.set index phase }
  | _ => state

/-- `updatePackage.delete()` and the error. -/
def deletesPackage (index : ℕ) (deleted : Bool) (state : CheckState) : CheckState :=
  match state.installs[index]? with
  | some (.rejected _) =>
    { state with
      ota := installEnd (checkFailed deleted state.ota)
      installs := state.installs.eraseIdx index }
  | _ => state

/-- The archive is unpacked next to itself, and the attempt ends. -/
def unzips (index : ℕ) (entries : List String) (unzipped : Bool) (state : CheckState) :
    CheckState :=
  match state.installs[index]? with
  | some .passed =>
    let written := entries.foldl writeEntry state.ota
    let sigFile := String.join (entries.map fun fl => getName fl ++ ";")
    let ended :=
      if unzipped then installEnd { written with unzipTmpFiles := some sigFile }
      else installEnd written
    { state with ota := ended, installs := state.installs.eraseIdx index }
  | _ => state

/-- One step. -/
def checkStep (state : CheckState) : CheckEvent → CheckState
  | .handler event => handlerStep state event
  | .fetchStarts => fetchStarts state
  | .fetchEnds index md5 => fetchEnds index md5 state
  | .readsPackage readable => readsPackage fileMD5 readable state
  | .testsNull index => testsNull index state
  | .testsEqual index => testsEqual index state
  | .deletesPackage index deleted => deletesPackage index deleted state
  | .unzips index entries unzipped => unzips index entries unzipped state

/-- The state after a list of steps. -/
def checkRun (events : List CheckEvent) : CheckState :=
  events.foldl (checkStep fileMD5) initialCheckState

/-- The check found no expected digest, or the one the server had given last,
and this one is not the digest of the package it had read. -/
def Justified (check : Check) : Prop :=
  check.held = none ∨ ∃ expected md5, check.held = some expected ∧
    check.advertised = some expected ∧ check.package.map fileMD5 = some md5 ∧ md5 ≠ expected

end Install

section Handlers

variable {state : OtaState}

/-- A version reply stores the digest it gives, and otherwise leaves the old one. -/
theorem queryVerByHttp_mNewVerMD5 (reply : VersionReply) :
    (queryVerByHttp reply state).2.mNewVerMD5 = (repliedMD5 reply <|> state.mNewVerMD5) := by
  cases reply with
  | ioException | noEntity | notJson => rfl
  | returned rtCode downloadPath md5 =>
    unfold queryVerByHttp repliedMD5
    cases downloadPath <;> cases md5 <;> dsimp only <;> split_ifs <;> rfl

/-- A handler leaves the expected digest alone, unless the server gives one. -/
theorem otaStep_mNewVerMD5 (event : OtaEvent) (hmd5 : ∀ md5, event ≠ .md5Replied md5)
    (hrestart : ∀ deletable, event ≠ .restart deletable)
    (hinstall : ∀ digest deleted entries unzipped,
      event ≠ .installPackages digest deleted entries unzipped) :
    (otaStep state event).mNewVerMD5 = (deliveredMD5 state event <|> state.mNewVerMD5) := by
  cases event with
  | queryNewVersion connected =>
    simp only [otaStep, queryNewVersion]
    split_ifs <;> rfl
  | queryReplied reply renamed =>
    simp only [otaStep, queryReplied, deliveredMD5]
    have hreplied : (queryVerByHttp reply { state with querying := false }).2.mNewVerMD5 =
        (repliedMD5 reply <|> state.mNewVerMD5) := queryVerByHttp_mNewVerMD5 reply
    by_cases hquerying : state.querying = true
    · rw [if_pos hquerying, if_pos hquerying, ← hreplied]
      split_ifs
      · exact queryDownload_mNewVerMD5 renamed _
      · rfl
    · rw [if_neg hquerying, if_neg hquerying]
      rfl
  | md5Replied md5 => exact absurd rfl (hmd5 md5)
  | downloadUpdate connected storageEnough deleted =>
    simp only [otaStep, downloadUpdate]
    split_ifs <;> simp [setError, setStatus, deliveredMD5]
  | taskReports id status =>
    simp only [otaStep, taskReports]
    split
    · rfl
    · split_ifs <;> rfl
  | taskRemoved id =>
    simp only [otaStep, remove]
    split <;> rfl
  | onChange => rfl
  | handleMessage renamed =>
    simp only [otaStep, handleMessage]
    split
    · rfl
    · unfold handleStatus
      split <;> simp [setStatus, deliveredMD5]
  | installUpdate batteryEnough storageEnough =>
    simp only [otaStep, installUpdate, installEnd]
    split_ifs <;> rfl
  | installPackages digest deleted entries unzipped =>
    exact absurd rfl (hinstall digest deleted entries unzipped)
  | restart deletable => exact absurd rfl (hrestart deletable)

/-- A restarted service holds no digest. -/
theorem restart_mNewVerMD5 (deletable : String → Bool) :
    (restart deletable state).mNewVerMD5 = none := by
  unfold restart clearDownloadPackage
  split
  · rfl
  · rename_i tmpFiles _
    obtain ⟨tmpFile, package, hfiles⟩ :=
      foldl_deleteFile_files ((tmpFiles.splitOn ";").filter deletable)
        { initialState with
          mDwloadId := state.downloadIdPref
          downloadIdPref := state.downloadIdPref
          unzipTmpFiles := state.unzipTmpFiles
          rows := state.rows
          lastId := state.lastId
          tmpFile := state.tmpFile
          installPackage := state.installPackage
          advertised := state.advertised }
    rw [hfiles]
    rfl

/-- A failed check leaves the expected digest alone. -/
theorem checkFailed_mNewVerMD5 (deleted : Bool) :
    (checkFailed deleted state).mNewVerMD5 = state.mNewVerMD5 := by
  unfold checkFailed setError
  split_ifs
  · exact deleteFile_mNewVerMD5 state installPackageName
  · rfl

/-- Unpacking leaves the expected digest alone. -/
theorem foldl_writeEntry_mNewVerMD5 (entries : List String) :
    (entries.foldl writeEntry state).mNewVerMD5 = state.mNewVerMD5 := by
  obtain ⟨tmpFile, package, hfiles⟩ := foldl_writeEntry_files entries state
  rw [hfiles]

/-- A package that is there is overwritten at most. -/
theorem foldl_writeEntry_isSome (entries : List String) (h : state.installPackage.isSome) :
    (entries.foldl writeEntry state).installPackage.isSome := by
  induction entries generalizing state with
  | nil => exact h
  | cons name entries ih =>
    refine ih ?_
    unfold writeEntry
    split_ifs
    · rfl
    · exact h
    · exact h

end Handlers

section Invariant

variable {fileMD5 : FileContent → String} {state : CheckState}

/-- What an install thread knows is true of the package it read, and it has
rejected with good reason. -/
def PhaseSound (fileMD5 : FileContent → String) : InstallPhase → Prop
  | .hashed package md5 | .known package md5 => md5 = none ∨ md5 = package.map fileMD5
  | .rejected check => Justified fileMD5 check
  | .passed => True

/-- The service holds no digest or the one the server gave last, and its install
threads are sound. -/
structure CheckInvariant (fileMD5 : FileContent → String) (state : CheckState) : Prop where
  /-- The service holds no digest but the last one of the server. -/
  held : state.ota.mNewVerMD5 = none ∨ state.ota.mNewVerMD5 = state.advertisedMD5
  /-- Every install thread is sound. -/
  phases : ∀ phase ∈ state.installs, PhaseSound fileMD5 phase

/-- It holds in the beginning. -/
theorem checkInvariant_initial : CheckInvariant fileMD5 initialCheckState :=
  ⟨Or.inl rfl, by simp [initialCheckState]⟩

/-- What the server gives is held and was given last. -/
theorem held_orElse {held advertised : Option String} (delivered : Option String)
    (h : held = none ∨ held = advertised) :
    (delivered <|> held) = none ∨ (delivered <|> held) = (delivered <|> advertised) := by
  cases delivered with
  | none => exact h
  | some md5 => exact Or.inr rfl

/-- Handlers keep it. -/
theorem CheckInvariant.handlerStep (h : CheckInvariant fileMD5 state) (event : OtaEvent) :
    CheckInvariant fileMD5 (handlerStep state event) := by
  have hother : ∀ ota advertisedMD5,
      ota.mNewVerMD5 = (deliveredMD5 state.ota event <|> state.ota.mNewVerMD5) →
      advertisedMD5 = (deliveredMD5 state.ota event <|> state.advertisedMD5) →
      CheckInvariant fileMD5 { state with ota := ota, advertisedMD5 := advertisedMD5 } := by
    rintro ota _ hota rfl
    refine ⟨?_, h.phases⟩
    dsimp only
    rw [hota]
    exact held_orElse _ h.held
  cases event with
  | md5Replied md5 => exact h
  | installPackages digest deleted entries unzipped => exact h
  | restart deletable =>
    exact ⟨Or.inl (restart_mNewVerMD5 deletable), by simp [PackageCheck.handlerStep]⟩
  | queryNewVersion | queryReplied | downloadUpdate | taskReports | taskRemoved | onChange
  | handleMessage | installUpdate =>
    exact hother _ _ (otaStep_mNewVerMD5 _ (by simp) (by simp) (by simp)) rfl

/-- So do the digest fetches. -/
theorem CheckInvariant.fetchStarts (h : CheckInvariant fileMD5 state) :
    CheckInvariant fileMD5 (fetchStarts state) := by
  unfold PackageCheck.fetchStarts
  split_ifs
  · exact h
  · exact ⟨h.held, h.phases⟩

theorem CheckInvariant.fetchEnds (h : CheckInvariant fileMD5 state) (index : ℕ)
    (md5 : Option String) : CheckInvariant fileMD5 (fetchEnds index md5 state) := by
  unfold PackageCheck.fetchEnds
  cases state.fetches[index]? with
  | none => exact h
  | some url =>
    refine ⟨?_, h.phases⟩
    dsimp only
    generalize (if url.isNone then none else md5) = result
    cases result with
    | none => exact Or.inl rfl
    | some md5 => exact Or.inr rfl

/-- Taking the digest of the package adds a sound thread. -/
theorem CheckInvariant.readsPackage (h : CheckInvariant fileMD5 state) (readable : Bool) :
    CheckInvariant fileMD5 (readsPackage fileMD5 readable state) := by
  unfold PackageCheck.readsPackage
  by_cases hzero : state.ota.installs = 0
  · rw [if_pos hzero]
    exact h
  · rw [if_neg hzero]
    refine ⟨h.held, ?_⟩
    intro phase hphase
    rcases List.mem_append.mp hphase with hold | hnew
    · exact h.phases phase hold
    · obtain rfl := List.mem_singleton.mp hnew
      dsimp only [PhaseSound]
      split_ifs
      · exact Or.inr rfl
      · exact Or.inl rfl

/-- A thread that moves on keeps the invariant if it stays sound. -/
theorem CheckInvariant.set (h : CheckInvariant fileMD5 state) {phase : InstallPhase}
    (hphase : PhaseSound fileMD5 phase) (index : ℕ) :
    CheckInvariant fileMD5 { state with installs := state.installs.set index phase } := by
  refine ⟨h.held, ?_⟩
  intro other hother
  rcases List.mem_or_eq_of_mem_set hother with hold | rfl
  · exact h.phases other hold
  · exact hphase

/-- A thread that ends keeps it if the expected digest stays. -/
theorem CheckInvariant.eraseIdx (h : CheckInvariant fileMD5 state) {ota : OtaState}
    (hota : ota.mNewVerMD5 = state.ota.mNewVerMD5) (index : ℕ) :
    CheckInvariant fileMD5
      { state with ota := ota, installs := state.installs.eraseIdx index } := by
  refine ⟨?_, fun phase hphase => h.phases phase (List.mem_of_mem_eraseIdx hphase)⟩
  dsimp only
  rw [hota]
  exact h.held

/-- A check that finds no digest rejects with good reason. -/
theorem CheckInvariant.testsNull (h : CheckInvariant fileMD5 state) (index : ℕ) :
    CheckInvariant fileMD5 (testsNull index state) := by
  unfold PackageCheck.testsNull
  split
  · rename_i package md5 hthread
    refine h.set ?_ index
    split_ifs with hnone
    · exact Or.inl (Option.isNone_iff_eq_none.mp hnone)
    · have hsound : PhaseSound fileMD5 (.hashed package md5) :=
        h.phases _ (List.mem_of_getElem? hthread)
      exact hsound
  · exact h

/-- So does one that finds another digest. -/
theorem CheckInvariant.testsEqual (h : CheckInvariant fileMD5 state) (index : ℕ) :
    CheckInvariant fileMD5 (testsEqual index state) := by
  unfold PackageCheck.testsEqual
  split
  · exact h.eraseIdx (installEnd_keeps OtaState.mNewVerMD5 (fun _ _ => rfl) _) index
  · rename_i package md5 hthread
    have hpackage : some md5 = none ∨ some md5 = package.map fileMD5 :=
      h.phases _ (List.mem_of_getElem? hthread)
    refine h.set ?_ index
    split_ifs with hdiffers
    · rcases h.held with hnone | hheld
      · exact Or.inl hnone
      · cases hexpected : state.ota.mNewVerMD5 with
        | none => exact Or.inl rfl
        | some expected =>
          rw [hexpected] at hdiffers hheld
          refine Or.inr ⟨expected, md5, rfl, hheld.symm, ?_, ?_⟩
          · exact (hpackage.resolve_left (by simp)).symm
          · rintro rfl
            exact hdiffers rfl
    · trivial
  · exact h

/-- Every step keeps the invariant. -/
theorem CheckInvariant.step (h : CheckInvariant fileMD5 state) (event : CheckEvent) :
    CheckInvariant fileMD5 (checkStep fileMD5 state event) := by
  cases event with
  | handler event => exact h.handlerStep event
  | fetchStarts => exact h.fetchStarts
  | fetchEnds index md5 => exact h.fetchEnds index md5
  | readsPackage readable => exact h.readsPackage readable
  | testsNull index => exact h.testsNull index
  | testsEqual index => exact h.testsEqual index
  | deletesPackage index deleted =>
    simp only [checkStep, deletesPackage]
    split
    · refine h.eraseIdx ?_ index
      rw [installEnd_keeps OtaState.mNewVerMD5 fun _ _ => rfl, checkFailed_mNewVerMD5]
    · exact h
  | unzips index entries unzipped =>
    simp only [checkStep, unzips]
    split
    · refine h.eraseIdx ?_ index
      split_ifs
      · rw [installEnd_keeps OtaState.mNewVerMD5 fun _ _ => rfl]
        exact foldl_writeEntry_mNewVerMD5 entries
      · rw [installEnd_keeps OtaState.mNewVerMD5 fun _ _ => rfl]
        exact foldl_writeEntry_mNewVerMD5 entries
    · exact h

/-- So it holds after every run. -/
theorem checkInvariant_run (events : List CheckEvent) :
    CheckInvariant fileMD5 (checkRun fileMD5 events) :=
  List.foldlRecOn events (checkStep fileMD5) checkInvariant_initial
    fun _ h event _ => h.step event

end Invariant

/-- A download whose digest the service never gets: the version reply has none,
and the fetch behind the download returns nothing. Then an install begins and
finds no digest. -/
def unverifiedRun : List CheckEvent :=
  [.handler (.queryNewVersion true),
    .handler (.queryReplied (.returned "000" (some "http://ota/download/robot.zip") none) false),
    .handler (.downloadUpdate true true false), .handler (.taskReports 1 .successful),
    .handler .onChange, .handler (.handleMessage true), .fetchStarts, .fetchEnds 0 none,
    .handler (.installUpdate true true), .readsPackage true, .testsNull 0]

/-- A digest for every file. -/
def sampleMD5 (_ : FileContent) : String := "5d41402abc4b2a76b9719d911017c592"

/-- The package is there when the check has failed. -/
theorem unverifiedRun_package :
    (checkRun sampleMD5 unverifiedRun).ota.installPackage =
      some (.download "http://ota/download/robot.zip" true) := by
  rfl

/-- The next step deletes it. -/
theorem unverifiedRun_deleted :
    (checkRun sampleMD5 (unverifiedRun ++ [.deletesPackage 0 true])).ota.installPackage = none := by
  rfl

/-- No digest was ever known. -/
theorem unverifiedRun_unknown : (checkRun sampleMD5 unverifiedRun).advertisedMD5 = none := by
  rfl

end RobotOta.PackageCheck
