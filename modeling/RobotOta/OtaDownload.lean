import Mathlib.Data.Nat.Basic
import Mathlib.Logic.Function.Basic

/-!
# The download service

`OTAUpdateService` and `OTADownloadMgr`, one handler a step: version queries,
the download task, the messages its observer posts, installs and restarts of
the process. What the system decides (a reply, a rename, a deletion) is an
argument of the step, and the `DownloadManager` answers every query. Progress,
the dialogs and the client callback are left out.
-/

namespace RobotOta.OtaDownload

/-- The values of `UpdateStatus`. -/
inductive UpdateStatus where
  | idle | refresh | catchNew | catchNone | serverError | downloading | downloadFailed
  | downloadOk | checking | checkFailed | checkOk | installing | installFailed
  | storageInequacy
  deriving DecidableEq, Repr

/-- `ERROR_NONE`. -/
def errorNone : Int := 0

/-- There is no version to download. -/
def errorNoUpdate : Int := -1

/-- A download is under way. -/
def errorDownloading : Int := -2

/-- There is no package to install. -/
def errorFileNotFound : Int := -3

/-- The network is not connected. -/
def errorNetConnect : Int := -4

/-- The package has another digest than the server gave. -/
def errorCheckFailed : Int := -5

/-- The battery is low and not charging. -/
def errorLowBattery : Int := -6

/-- There is too little room. -/
def errorStorage : Int := -7

/-- `DOWNLOAD_TMP_NAME`. -/
def downloadTmpName : String := "update.zip.tmp"

/-- `INSTALL_PACKAGE`. -/
def installPackageName : String := "robot_update.zip"

/-- The `STATUS_` values of a `DownloadManager` task. -/
inductive DownloadStatus where
  | pending | running | paused | successful | failed
  deriving DecidableEq, Repr

/-- A task of the `DownloadManager`. -/
structure DownloadRow where
  /-- What is downloaded. -/
  url : String
  /-- How far it has come. -/
  status : DownloadStatus
  deriving DecidableEq, Repr

/-- The content of a file: what a task stored of a URL, whole or in part, or
what an archive entry held. -/
inductive FileContent where
  | download (url : String) (complete : Bool)
  | entry
  deriving DecidableEq, Repr

/-- The service, its preferences, the `DownloadManager` and the two files of
the download directory. `advertised` is the URL the last successful version
query returned; the code does not keep it. -/
structure OtaState where
  /-- The status of the service. -/
  status : UpdateStatus
  /-- The error of the last operation. -/
  mError : Int
  /-- The URL of the new version. -/
  mNewVerUrl : Option String
  /-- The digest its package has to have. -/
  mNewVerMD5 : Option String
  /-- `mQueryThrad` is running. -/
  querying : Bool
  /-- Threads that ask for the digest. -/
  md5Queries : ℕ
  /-- Install threads past their first checks. -/
  installs : ℕ
  /-- The id of the task in memory, zero for none. -/
  mDwloadId : ℕ
  /-- The statuses posted to `mDwloadHandler`; `none` for a task that is gone. -/
  messages : List (Option DownloadStatus)
  /-- The id in the preferences. -/
  downloadIdPref : ℕ
  /-- The names of the unpacked files in the preferences. -/
  unzipTmpFiles : Option String
  /-- The tasks of the `DownloadManager` by their ids. -/
  rows : ℕ → Option DownloadRow
  /-- The last id that it gave to a task. -/
  lastId : ℕ
  /-- What stands under the temporary name. -/
  tmpFile : Option FileContent
  /-- What stands under the name of the package. -/
  installPackage : Option FileContent
  /-- The URL that the last successful version query returned. -/
  advertised : Option String

/-- The first start, with nothing stored. -/
def initialState : OtaState where
  status := .idle
  mError := errorNone
  mNewVerUrl := none
  mNewVerMD5 := none
  querying := false
  md5Queries := 0
  installs := 0
  mDwloadId := 0
  messages := []
  downloadIdPref := 0
  unzipTmpFiles := none
  rows := fun _ => none
  lastId := 0
  tmpFile := none
  installPackage := none
  advertised := none

/-- `UpdateStatus.setStatus`. -/
def setStatus (status : UpdateStatus) (state : OtaState) : OtaState :=
  { state with status := status }

/-- `setError`. -/
def setError (e : Int) (state : OtaState) : OtaState := { state with mError := e }

/-- `renameTo` from the temporary name to the package name. It fails without a
source file, and may fail with one. -/
def renameTo (renamed : Bool) (state : OtaState) : OtaState :=
  match renamed, state.tmpFile with
  | true, some content => { state with tmpFile := none, installPackage := some content }
  | _, _ => state

section rename

variable (renamed : Bool) (state : OtaState)

@[simp] theorem renameTo_mDwloadId : (renameTo renamed state).mDwloadId = state.mDwloadId := by
  unfold renameTo
  split <;> rfl

@[simp] theorem renameTo_downloadIdPref :
    (renameTo renamed state).downloadIdPref = state.downloadIdPref := by
  unfold renameTo
  split <;> rfl

@[simp] theorem renameTo_rows : (renameTo renamed state).rows = state.rows := by
  unfold renameTo
  split <;> rfl

@[simp] theorem renameTo_advertised :
    (renameTo renamed state).advertised = state.advertised := by
  unfold renameTo
  split <;> rfl

@[simp] theorem renameTo_mNewVerMD5 :
    (renameTo renamed state).mNewVerMD5 = state.mNewVerMD5 := by
  unfold renameTo
  split <;> rfl

/-- The package after a rename is the temporary file, where there is one and
the rename takes place. -/
theorem renameTo_installPackage :
    (renameTo renamed state).installPackage =
      if renamed ∧ state.tmpFile.isSome then state.tmpFile else state.installPackage := by
  unfold renameTo
  cases renamed <;> cases htmp : state.tmpFile <;> rfl

end rename

/-- `DownloadManager.remove`: the task goes, and the file it stored under the
temporary name with it. -/
def remove (id : ℕ) (state : OtaState) : OtaState :=
  match state.rows id with
  | some _ => { state with rows := Function.update state.rows id none, tmpFile := none }
  | none => state

section remove

variable (id : ℕ) (state : OtaState)

@[simp] theorem remove_status : (remove id state).status = state.status := by
  unfold remove
  split <;> rfl

@[simp] theorem remove_mDwloadId : (remove id state).mDwloadId = state.mDwloadId := by
  unfold remove
  split <;> rfl

@[simp] theorem remove_downloadIdPref :
    (remove id state).downloadIdPref = state.downloadIdPref := by
  unfold remove
  split <;> rfl

@[simp] theorem remove_installPackage :
    (remove id state).installPackage = state.installPackage := by
  unfold remove
  split <;> rfl

@[simp] theorem remove_advertised : (remove id state).advertised = state.advertised := by
  unfold remove
  split <;> rfl

@[simp] theorem remove_mNewVerMD5 : (remove id state).mNewVerMD5 = state.mNewVerMD5 := by
  unfold remove
  split <;> rfl

end remove

/-- The task id is forgotten, here and in the preferences. -/
def clearDownloadId (state : OtaState) : OtaState :=
  { state with mDwloadId := 0, downloadIdPref := 0 }

/-- `downloadSuccess`; the result of the rename is only logged. -/
def downloadSuccess (renamed : Bool) (state : OtaState) : OtaState :=
  if state.mDwloadId ≠ 0 then
    clearDownloadId (remove state.mDwloadId (renameTo renamed state))
  else state

@[simp] theorem downloadSuccess_advertised (renamed : Bool) (state : OtaState) :
    (downloadSuccess renamed state).advertised = state.advertised := by
  unfold downloadSuccess
  split_ifs
  · simp [clearDownloadId]
  · rfl

@[simp] theorem downloadSuccess_mNewVerMD5 (renamed : Bool) (state : OtaState) :
    (downloadSuccess renamed state).mNewVerMD5 = state.mNewVerMD5 := by
  unfold downloadSuccess
  split_ifs
  · simp [clearDownloadId]
  · rfl

/-- No task is left after a success. -/
@[simp] theorem downloadSuccess_mDwloadId (renamed : Bool) (state : OtaState) :
    (downloadSuccess renamed state).mDwloadId = 0 := by
  unfold downloadSuccess
  split_ifs with hid
  · rfl
  · rwa [not_not] at hid

/-- The package after a success is the temporary file of a task, where its
rename takes place. -/
theorem downloadSuccess_installPackage (renamed : Bool) (state : OtaState) :
    (downloadSuccess renamed state).installPackage =
      if state.mDwloadId ≠ 0 ∧ renamed ∧ state.tmpFile.isSome then state.tmpFile
      else state.installPackage := by
  unfold downloadSuccess
  by_cases hid : state.mDwloadId ≠ 0
  · rw [if_pos hid]
    simp only [clearDownloadId, remove_installPackage, renameTo_installPackage, hid,
      not_false_eq_true, true_and, ne_eq]
  · rw [if_neg hid, if_neg (fun h => hid h.1)]

/-- `downloadFailed`. -/
def downloadFailed (state : OtaState) : OtaState :=
  if state.mDwloadId ≠ 0 then clearDownloadId (remove state.mDwloadId state) else state

@[simp] theorem downloadFailed_mNewVerMD5 (state : OtaState) :
    (downloadFailed state).mNewVerMD5 = state.mNewVerMD5 := by
  unfold downloadFailed
  split_ifs
  · simp [clearDownloadId]
  · rfl

/-- `queryDownload`. -/
def queryDownload (renamed : Bool) (state : OtaState) : OtaState :=
  if state.mDwloadId = 0 then
    if state.installPackage.isSome then setStatus .downloadOk state else state
  else
    match state.rows state.mDwloadId with
    | some row =>
      match row.status with
      | .pending | .paused | .running => setStatus .downloading state
      | .successful => setStatus .downloadOk (downloadSuccess renamed state)
      | .failed => setStatus .downloadFailed (downloadFailed state)
    | none => clearDownloadId state

@[simp] theorem queryDownload_mNewVerMD5 (renamed : Bool) (state : OtaState) :
    (queryDownload renamed state).mNewVerMD5 = state.mNewVerMD5 := by
  unfold queryDownload
  split_ifs
  · rfl
  · rfl
  · split
    · split <;> simp [setStatus]
    · rfl

/-- Deletion of a file of the download directory by its name. -/
def deleteFile (state : OtaState) (name : String) : OtaState :=
  if name = installPackageName then { state with installPackage := none }
  else if name = downloadTmpName then { state with tmpFile := none }
  else state

@[simp] theorem deleteFile_mNewVerMD5 (state : OtaState) (name : String) :
    (deleteFile state name).mNewVerMD5 = state.mNewVerMD5 := by
  unfold deleteFile
  split_ifs <;> rfl

/-- Two states differ in the files of the download directory only. -/
def FilesOnly (before after : OtaState) : Prop :=
  ∃ tmpFile installPackage,
    after = { before with tmpFile := tmpFile, installPackage := installPackage }

/-- What changes files only for one name does so for a list of names. -/
theorem FilesOnly.foldl {step : OtaState → String → OtaState}
    (h : ∀ state name, FilesOnly state (step state name)) (names : List String)
    (state : OtaState) : FilesOnly state (names.foldl step state) := by
  induction names generalizing state with
  | nil => exact ⟨state.tmpFile, state.installPackage, rfl⟩
  | cons name names ih =>
    obtain ⟨tmpFile, package, hstep⟩ := h state name
    obtain ⟨tmpFile', package', hrest⟩ := ih (step state name)
    refine ⟨tmpFile', package', ?_⟩
    rw [List.foldl_cons, hrest, hstep]

/-- Deletions change files only. -/
theorem foldl_deleteFile_files (names : List String) (state : OtaState) :
    FilesOnly state (names.foldl deleteFile state) := by
  refine FilesOnly.foldl ?_ names state
  intro state name
  unfold deleteFile
  split_ifs <;> exact ⟨_, _, rfl⟩

/-- `clearDownloadPackage`; a deletion that fails is only logged. -/
def clearDownloadPackage (deletable : String → Bool) (state : OtaState) : OtaState :=
  match state.unzipTmpFiles with
  | none => state
  | some tmpFiles =>
    { ((tmpFiles.splitOn ";").filter deletable).foldl deleteFile state with
      unzipTmpFiles := none }

/-- `download`; the result of the deletion is not looked at. -/
def download (deleted : Bool) (url : Option String) (state : OtaState) : OtaState :=
  if state.mDwloadId ≠ 0 then state
  else
    match url with
    | none => state
    | some url =>
      let cleared := if deleted then deleteFile state installPackageName else state
      let id := state.lastId + 1
      { cleared with
        lastId := id
        rows := Function.update state.rows id (some ⟨url, .pending⟩)
        mDwloadId := id
        downloadIdPref := id }

@[simp] theorem download_mNewVerMD5 (deleted : Bool) (url : Option String) (state : OtaState) :
    (download deleted url state).mNewVerMD5 = state.mNewVerMD5 := by
  unfold download
  split_ifs
  · rfl
  · cases url with
    | none => rfl
    | some url => exact deleteFile_mNewVerMD5 state installPackageName
  · cases url <;> rfl

/-- `getDownloadStatus`, without the byte counts. -/
def getDownloadStatus (id : ℕ) (state : OtaState) : Option DownloadStatus :=
  (state.rows id).map DownloadRow.status

/-- `onChange` of the observer. A change posted before the observer is
unregistered still arrives, so it may come at any time. -/
def onChange (state : OtaState) : OtaState :=
  { state with messages := state.messages ++ [getDownloadStatus state.mDwloadId state] }

/-- `handleMessage` of `mDwloadHandler` on one status. -/
def handleStatus (renamed : Bool) (state : OtaState) : Option DownloadStatus → OtaState
  | some .successful =>
    let done := setStatus .downloadOk (downloadSuccess renamed state)
    { done with md5Queries := done.md5Queries + 1 }
  | some .failed => setStatus .downloadFailed (downloadFailed state)
  | some .paused | some .pending | some .running | none => state

/-- The looper takes the oldest message. -/
def handleMessage (renamed : Bool) (state : OtaState) : OtaState :=
  match state.messages with
  | [] => state
  | status :: rest => handleStatus renamed { state with messages := rest } status

/-- What a version query gets back. `returned` is a JSON object with the return
code, and the two strings of its body where it has them. -/
inductive VersionReply where
  | ioException | noEntity | notJson
  | returned (rtCode : String) (downloadPath md5 : Option String)
  deriving DecidableEq, Repr

/-- `queryVerByHttp`: whether the query succeeded, and the state it leaves. -/
def queryVerByHttp (reply : VersionReply) (state : OtaState) : Bool × OtaState :=
  match reply with
  | .noEntity => (false, state)
  | .ioException | .notJson => (false, setStatus .serverError state)
  | .returned rtCode downloadPath md5 =>
    if rtCode = "000" then
      match downloadPath, md5 with
      | some url, some md5 =>
        (true, setStatus .catchNew
          { state with mNewVerUrl := some url, mNewVerMD5 := some md5, advertised := some url })
      -- the URL is stored before the missing digest raises the exception
      | some url, none => (false, setStatus .serverError { state with mNewVerUrl := some url })
      | none, _ => (false, setStatus .serverError state)
    else if rtCode = "104" then (true, setStatus .catchNone state)
    else (false, setStatus .serverError state)

/-- `queryNewVersion` up to the request. -/
def queryNewVersion (connected : Bool) (state : OtaState) : OtaState :=
  if state.querying then state
  else
    let reset := { state with mNewVerUrl := none }
    if connected then setStatus .refresh { reset with querying := true }
    else setStatus .serverError reset

/-- `queryNewVersion` from the reply on. -/
def queryReplied (reply : VersionReply) (renamed : Bool) (state : OtaState) : OtaState :=
  if state.querying then
    let (ret, replied) := queryVerByHttp reply { state with querying := false }
    if ret ∧ replied.status = .catchNew then queryDownload renamed replied else replied
  else state

/-- The thread of `getUpdatePackageMD5` ends. -/
def md5Replied (md5 : Option String) (state : OtaState) : OtaState :=
  if state.md5Queries = 0 then state
  else
    { state with
      md5Queries := state.md5Queries - 1
      mNewVerMD5 := if state.mNewVerUrl.isNone then none else md5 }

/-- `downloadUpdate`. -/
def downloadUpdate (connected storageEnough deleted : Bool) (state : OtaState) : OtaState :=
  if state.mNewVerUrl.isNone then setError errorNoUpdate state
  else if state.status = .downloading then setError errorDownloading state
  else if ¬ connected then setError errorNetConnect state
  else if ¬ storageEnough then setError errorStorage state
  else setError errorNone (download deleted state.mNewVerUrl (setStatus .downloading state))

/-- The `finally` block of the install thread. -/
def installEnd (state : OtaState) : OtaState :=
  if state.mError ≠ errorNone then setStatus .installFailed state else state

/-- It changes the status only. -/
theorem installEnd_keeps {α : Type} (field : OtaState → α)
    (hfield : ∀ status state, field (setStatus status state) = field state) (state : OtaState) :
    field (installEnd state) = field state := by
  unfold installEnd
  split_ifs
  · exact hfield .installFailed state
  · rfl

/-- `installUpdate` up to the digest of the package. -/
def installUpdate (batteryEnough storageEnough : Bool) (state : OtaState) : OtaState :=
  if ¬ batteryEnough then installEnd (setError errorLowBattery state)
  else if ¬ storageEnough then installEnd (setError errorStorage state)
  else if state.installPackage.isNone then installEnd (setError errorFileNotFound state)
  else
    let checked := setStatus .installing (setError errorNone state)
    { checked with installs := checked.installs + 1 }

/-- `getName` of a file below the download directory. -/
def getName (path : String) : String := (path.splitOn "/").getLastD ""

/-- `unzipFile` writes one entry, over a file that is there. -/
def writeEntry (state : OtaState) (name : String) : OtaState :=
  if name = installPackageName then { state with installPackage := some .entry }
  else if name = downloadTmpName then { state with tmpFile := some .entry }
  else state

/-- Entries change files only. -/
theorem foldl_writeEntry_files (entries : List String) (state : OtaState) :
    FilesOnly state (entries.foldl writeEntry state) := by
  refine FilesOnly.foldl ?_ entries state
  intro state name
  unfold writeEntry
  split_ifs <;> exact ⟨_, _, rfl⟩

/-- `getFileMD5`: the digest of the package, `none` where it cannot be read. -/
def getFileMD5 (digest : Option String) (state : OtaState) : Option String :=
  if state.installPackage.isSome then digest else none

/-- A package that fails its check is deleted. -/
def checkFailed (deleted : Bool) (state : OtaState) : OtaState :=
  setError errorCheckFailed (if deleted then deleteFile state installPackageName else state)

/-- `installUpdate` from the digest on: `entries` are the paths below the download
directory that are written, `unzipped` whether the archive is read to its end. -/
def checkAndUnzip (digest : Option String) (deleted : Bool) (entries : List String)
    (unzipped : Bool) (state : OtaState) : OtaState :=
  if state.mNewVerMD5.isNone then installEnd (checkFailed deleted state)
  else
    match getFileMD5 digest state with
    -- `md5.equals` throws, and only the `finally` block is left to run
    | none => installEnd state
    | some md5 =>
      if some md5 ≠ state.mNewVerMD5 then installEnd (checkFailed deleted state)
      else
        let written := entries.foldl writeEntry state
        if unzipped then
          let sigFile := String.join (entries.map fun fl => getName fl ++ ";")
          installEnd { written with unzipTmpFiles := some sigFile }
        else installEnd written

/-- An install thread past its first checks goes on to its end. -/
def installPackages (digest : Option String) (deleted : Bool) (entries : List String)
    (unzipped : Bool) (state : OtaState) : OtaState :=
  if state.installs = 0 then state
  else
    checkAndUnzip digest deleted entries unzipped { state with installs := state.installs - 1 }

/-- The `DownloadManager` moves a task on. A task that succeeds has stored all
of its URL under the temporary name; one that fails leaves no file. -/
def taskReports (id : ℕ) (status : DownloadStatus) (state : OtaState) : OtaState :=
  match state.rows id with
  | none => state
  | some row =>
    if row.status = .successful ∨ row.status = .failed then state
    else
      { state with
        rows := Function.update state.rows id (some ⟨row.url, status⟩)
        tmpFile :=
          match status with
          | .running => some (.download row.url false)
          | .successful => some (.download row.url true)
          | .failed => none
          | .pending | .paused => state.tmpFile }

/-- A new process starts the service: the constructor of `OTADownloadMgr` over
what is stored. -/
def restart (deletable : String → Bool) (state : OtaState) : OtaState :=
  clearDownloadPackage deletable
    { initialState with
      mDwloadId := state.downloadIdPref
      downloadIdPref := state.downloadIdPref
      unzipTmpFiles := state.unzipTmpFiles
      rows := state.rows
      lastId := state.lastId
      tmpFile := state.tmpFile
      installPackage := state.installPackage
      advertised := state.advertised }

/-- What can happen next, with what the system decides in it. -/
inductive OtaEvent where
  | queryNewVersion (connected : Bool)
  | queryReplied (reply : VersionReply) (renamed : Bool)
  | md5Replied (md5 : Option String)
  | downloadUpdate (connected storageEnough deleted : Bool)
  | taskReports (id : ℕ) (status : DownloadStatus)
  /-- Someone else removes a task. -/
  | taskRemoved (id : ℕ)
  | onChange
  | handleMessage (renamed : Bool)
  | installUpdate (batteryEnough storageEnough : Bool)
  | installPackages (digest : Option String) (deleted : Bool) (entries : List String)
      (unzipped : Bool)
  | restart (deletable : String → Bool)

/-- One handler runs to its end. -/
def otaStep (state : OtaState) : OtaEvent → OtaState
  | .queryNewVersion connected => queryNewVersion connected state
  | .queryReplied reply renamed => queryReplied reply renamed state
  | .md5Replied md5 => md5Replied md5 state
  | .downloadUpdate connected storageEnough deleted =>
    downloadUpdate connected storageEnough deleted state
  | .taskReports id status => taskReports id status state
  | .taskRemoved id => remove id state
  | .onChange => onChange state
  | .handleMessage renamed => handleMessage renamed state
  | .installUpdate batteryEnough storageEnough => installUpdate batteryEnough storageEnough state
  | .installPackages digest deleted entries unzipped =>
    installPackages digest deleted entries unzipped state
  | .restart deletable => restart deletable state

/-- The state after a list of events. -/
def otaRun (events : List OtaEvent) : OtaState := events.foldl otaStep initialState

end RobotOta.OtaDownload
