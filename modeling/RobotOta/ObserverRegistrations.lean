import RobotOta.DownloadBookkeeping
import RobotOta.DownloadedPackage

/-!
# The registrations of the download observer

`OTADownloadMgr` registers its observer with a new task and over a stored one,
and unregisters it when the task has succeeded. Beside the state of the
service runs the number of registrations: it is no part of that state, and its
functions take the branches of the functions of the service once more. It fits
the task in every state of a run just when no step forgets the task in another
way.
-/

namespace RobotOta.ObserverRegistrations

open EventRun OtaDownload DownloadBookkeeping DownloadedPackage

/-- One registration more. -/
def registerContentObserver (registrations : ℕ) : ℕ := registrations + 1

/-- All registrations of the observer go. -/
def unregisterContentObserver (_registrations : ℕ) : ℕ := 0

section Registrations

variable (state : OtaState) (registrations : ℕ)

/-- `downloadSuccess` unregisters. -/
def successRegistrations : ℕ :=
  if state.mDwloadId ≠ 0 then unregisterContentObserver registrations else registrations

/-- `downloadFailed` does not. -/
def failedRegistrations : ℕ := registrations

/-- `queryDownload`, by the branch it takes. -/
def queryRegistrations : ℕ :=
  if state.mDwloadId = 0 then registrations
  else
    match state.rows state.mDwloadId with
    | some row =>
      match row.status with
      | .pending | .paused | .running => registrations
      | .successful => successRegistrations state registrations
      | .failed => failedRegistrations registrations
    | none => registrations

/-- `handleMessage` of `mDwloadHandler` on one status. -/
def statusRegistrations : Option DownloadStatus → ℕ
  | some .successful => successRegistrations state registrations
  | some .failed => failedRegistrations registrations
  | some .paused | some .pending | some .running | none => registrations

/-- `download` registers behind a new task. -/
def downloadRegistrations (url : Option String) : ℕ :=
  if state.mDwloadId ≠ 0 then registrations
  else
    match url with
    | none => registrations
    | some _ => registerContentObserver registrations

/-- The constructor of `OTADownloadMgr` in a new process. -/
def startRegistrations (downloadIdPref : ℕ) : ℕ :=
  if downloadIdPref ≠ 0 then registerContentObserver 0 else 0

/-- The reply to a version query. -/
def repliedRegistrations (reply : VersionReply) : ℕ :=
  if state.querying then
    let (ret, replied) := queryVerByHttp reply { state with querying := false }
    if ret ∧ replied.status = .catchNew then queryRegistrations replied registrations
    else registrations
  else registrations

/-- `downloadUpdate`, where its checks let it reach `download`. -/
def updateRegistrations (connected storageEnough : Bool) : ℕ :=
  if state.mNewVerUrl.isNone then registrations
  else if state.status = .downloading then registrations
  else if ¬ connected then registrations
  else if ¬ storageEnough then registrations
  else downloadRegistrations state registrations state.mNewVerUrl

/-- The looper takes the oldest message. -/
def messageRegistrations : ℕ :=
  match state.messages with
  | [] => registrations
  | status :: rest => statusRegistrations { state with messages := rest } registrations status

/-- The handlers of the service that reach one of these. -/
def serviceRegistrations : OtaEvent → ℕ
  | .queryReplied reply _ => repliedRegistrations state registrations reply
  | .downloadUpdate connected storageEnough _ =>
    updateRegistrations state registrations connected storageEnough
  | .handleMessage _ => messageRegistrations state registrations
  | .restart _ => startRegistrations state.downloadIdPref
  | .queryNewVersion _ | .md5Replied _ | .taskReports .. | .taskRemoved _ | .onChange
  | .installUpdate .. | .installPackages .. => registrations

/-- The registrations behind one operation. -/
def managerRegistrations : ManagerEvent → ℕ
  | .download _ url => downloadRegistrations state registrations url
  | .queryDownload _ => queryRegistrations state registrations
  | .notified _ status => statusRegistrations state registrations status
  | .othersEnqueue _ => registrations
  | .service event => serviceRegistrations state registrations event

end Registrations

/-- The service with the registrations of its observer. -/
structure ObservedState where
  /-- The state of the service. -/
  service : OtaState
  /-- How often the observer is registered. -/
  registrations : ℕ

/-- One operation runs to its end. -/
def observedStep (state : ObservedState) (event : ManagerEvent) : ObservedState :=
  ⟨managerStep state.service event, managerRegistrations state.service state.registrations event⟩

/-- The first start finds no stored task. -/
def observedStart : ObservedState := ⟨initialState, startRegistrations 0⟩

/-- The state after a list of operations. -/
def observedRun (events : List ManagerEvent) : ObservedState :=
  events.foldl observedStep observedStart

/-- The observer is registered once while there is a task, and not at all
while there is none. -/
def ObservedOnce (state : ObservedState) : Prop :=
  state.registrations = if state.service.mDwloadId ≠ 0 then 1 else 0

/-- `queryDownload` finds that the task has failed, or does not find it. -/
def QueryForgets (state : OtaState) : Prop :=
  state.mDwloadId ≠ 0 ∧ ∀ row, state.rows state.mDwloadId = some row → row.status = .failed

/-- The operation forgets a task that has not succeeded. -/
def ForgetsTask (state : OtaState) : ManagerEvent → Prop
  | .queryDownload _ => QueryForgets state
  | .notified _ status => status = some .failed ∧ state.mDwloadId ≠ 0
  | .service (.queryReplied reply _) =>
    state.querying ∧ (advertisedUrl reply).isSome ∧ QueryForgets state
  | .service (.handleMessage _) =>
    state.messages.head? = some (some .failed) ∧ state.mDwloadId ≠ 0
  | _ => False

/-- The service runs as it does without the count. -/
theorem observedRun_service (events : List ManagerEvent) :
    (observedRun events).service = managerRun events := by
  have h : ∀ (state : ObservedState), (events.foldl observedStep state).service =
      events.foldl managerStep state.service := by
    induction events with
    | nil => exact fun _ => rfl
    | cons event events ih => exact fun state => ih (observedStep state event)
  exact h observedStart

section Steps

variable {state next : OtaState} {registrations : ℕ}

/-- What leaves the task and the count leaves them fitting. -/
theorem ObservedOnce.of_same (h : ObservedOnce ⟨state, registrations⟩)
    (hid : next.mDwloadId = state.mDwloadId) : ObservedOnce ⟨next, registrations⟩ := by
  unfold ObservedOnce at h ⊢
  rw [h, hid]

/-- A success takes the task and the registrations together. -/
theorem ObservedOnce.success (h : ObservedOnce ⟨state, registrations⟩) (renamed : Bool) :
    ObservedOnce ⟨downloadSuccess renamed state, successRegistrations state registrations⟩ := by
  unfold ObservedOnce at h ⊢
  dsimp only at h ⊢
  rw [downloadSuccess_mDwloadId, if_neg (not_not.mpr rfl), successRegistrations]
  split_ifs with hid
  · rfl
  · rw [h, if_neg hid]

/-- A failure takes the task only. -/
theorem observedOnce_failed (h : ObservedOnce ⟨state, registrations⟩) :
    ObservedOnce ⟨downloadFailed state, failedRegistrations registrations⟩ ↔
      ¬state.mDwloadId ≠ 0 := by
  unfold ObservedOnce at h ⊢
  dsimp only [failedRegistrations] at h ⊢
  unfold downloadFailed
  by_cases hid : state.mDwloadId ≠ 0
  · rw [if_pos hid] at h ⊢
    rw [h]
    exact iff_of_false Nat.one_ne_zero (not_not.mpr hid)
  · rw [if_neg hid]
    exact iff_of_true h hid

/-- So does a query that does not find the task. -/
theorem not_observedOnce_lost (h : ObservedOnce ⟨state, registrations⟩)
    (hid : state.mDwloadId ≠ 0) : ¬ObservedOnce ⟨clearDownloadId state, registrations⟩ := by
  unfold ObservedOnce at h ⊢
  dsimp only at h ⊢
  rw [if_pos hid] at h
  rw [h]
  exact Nat.one_ne_zero

/-- `queryDownload` keeps task and count fitting unless it forgets the task. -/
theorem observedOnce_query (h : ObservedOnce ⟨state, registrations⟩) (renamed : Bool) :
    ObservedOnce ⟨queryDownload renamed state, queryRegistrations state registrations⟩ ↔
      ¬QueryForgets state := by
  unfold queryDownload queryRegistrations QueryForgets
  by_cases hid : state.mDwloadId = 0
  · rw [if_pos hid, if_pos hid]
    refine iff_of_true ?_ (fun hforgets => hforgets.1 hid)
    split_ifs
    · exact h.of_same rfl
    · exact h
  rw [if_neg hid, if_neg hid]
  cases hrow : state.rows state.mDwloadId with
  | none => exact iff_of_false (not_observedOnce_lost h hid) (fun hkept => hkept ⟨hid, by simp⟩)
  | some row =>
    have hkept : row.status ≠ .failed →
        ¬(state.mDwloadId ≠ 0 ∧ ∀ found, some row = some found → found.status = .failed) :=
      fun hstatus hforgets => hstatus (hforgets.2 row rfl)
    dsimp only
    cases hreport : row.status with
    | pending | paused | running => exact iff_of_true (h.of_same rfl) (hkept (by simp [hreport]))
    | successful =>
      have hdone : ObservedOnce ⟨setStatus .downloadOk (downloadSuccess renamed state),
          successRegistrations state registrations⟩ := (h.success renamed).of_same rfl
      exact iff_of_true hdone (hkept (by simp [hreport]))
    | failed =>
      have hdone : ObservedOnce ⟨setStatus .downloadFailed (downloadFailed state),
          failedRegistrations registrations⟩ ↔ ¬state.mDwloadId ≠ 0 := observedOnce_failed h
      refine hdone.trans (iff_of_false (not_not.mpr hid) fun hfound => hfound ⟨hid, ?_⟩)
      rintro _ ⟨⟩
      exact hreport

/-- So does a status that arrives. -/
theorem observedOnce_status (h : ObservedOnce ⟨state, registrations⟩) (renamed : Bool)
    (status : Option DownloadStatus) :
    ObservedOnce ⟨handleStatus renamed state status,
        statusRegistrations state registrations status⟩ ↔
      ¬(status = some .failed ∧ state.mDwloadId ≠ 0) := by
  cases status with
  | none => exact iff_of_true h (by simp)
  | some status =>
    cases status with
    | pending | paused | running => exact iff_of_true h (by simp)
    | successful =>
      have hdone : ObservedOnce ⟨handleStatus renamed state (some .successful),
          successRegistrations state registrations⟩ := (h.success renamed).of_same rfl
      exact iff_of_true hdone (by simp)
    | failed =>
      have hdone : ObservedOnce ⟨setStatus .downloadFailed (downloadFailed state),
          failedRegistrations registrations⟩ ↔ ¬state.mDwloadId ≠ 0 := observedOnce_failed h
      exact hdone.trans (by simp)

/-- A new task is registered for. -/
theorem ObservedOnce.download (h : ObservedOnce ⟨state, registrations⟩) (deleted : Bool)
    (url : Option String) :
    ObservedOnce ⟨OtaDownload.download deleted url state,
      downloadRegistrations state registrations url⟩ := by
  unfold OtaDownload.download downloadRegistrations
  by_cases hid : state.mDwloadId ≠ 0
  · rw [if_pos hid, if_pos hid]
    exact h
  · rw [if_neg hid, if_neg hid]
    cases url with
    | none => exact h
    | some url =>
      unfold ObservedOnce at h ⊢
      dsimp only [registerContentObserver] at h ⊢
      rw [h, if_neg hid, if_pos (Nat.succ_ne_zero _)]

/-- A restart registers for the stored task. -/
theorem observedOnce_restart (deletable : String → Bool) (state : OtaState) :
    ObservedOnce ⟨restart deletable state, startRegistrations state.downloadIdPref⟩ := by
  have hid : (restart deletable state).mDwloadId = state.downloadIdPref := by
    unfold restart clearDownloadPackage
    cases state.unzipTmpFiles with
    | none => rfl
    | some tmpFiles =>
      dsimp only
      obtain ⟨tmpFile, package, hfiles⟩ := foldl_deleteFile_files
        ((tmpFiles.splitOn ";").filter deletable) { initialState with
          mDwloadId := state.downloadIdPref
          downloadIdPref := state.downloadIdPref
          unzipTmpFiles := some tmpFiles
          rows := state.rows
          lastId := state.lastId
          tmpFile := state.tmpFile
          installPackage := state.installPackage
          advertised := state.advertised }
      rw [hfiles]
  unfold ObservedOnce
  dsimp only [startRegistrations, registerContentObserver]
  rw [hid]

/-- The reply to a version query may lead to `queryDownload`. -/
theorem observedOnce_queryReplied (h : ObservedOnce ⟨state, registrations⟩)
    (reply : VersionReply) (renamed : Bool) :
    ObservedOnce ⟨queryReplied reply renamed state,
        repliedRegistrations state registrations reply⟩ ↔
      ¬(state.querying ∧ (advertisedUrl reply).isSome ∧ QueryForgets state) := by
  unfold queryReplied repliedRegistrations
  by_cases hquerying : state.querying = true
  · rw [if_pos hquerying, if_pos hquerying]
    cases hurl : advertisedUrl reply with
    | none =>
      refine iff_of_true ?_ (by simp)
      have hkept : (queryVerByHttp reply { state with querying := false }).2.mDwloadId =
          state.mDwloadId := by
        unfold queryVerByHttp
        split
        · rfl
        · rfl
        · rfl
        · split_ifs
          · split <;> rfl
          · rfl
          · rfl
      have hother : ¬((queryVerByHttp reply { state with querying := false }).1 = true ∧
          (queryVerByHttp reply { state with querying := false }).2.status = .catchNew) := by
        rcases queryVerByHttp_other hurl { state with querying := false } with heq | heq | heq
        · rw [heq]
          simp
        · rw [heq]
          simp
        · rw [heq]
          simp
      dsimp only
      rw [if_neg hother, if_neg hother]
      exact h.of_same hkept
    | some url =>
      obtain ⟨md5, heq⟩ := queryVerByHttp_advertised hurl { state with querying := false }
      rw [heq]
      dsimp only
      rw [if_pos ⟨rfl, rfl⟩, if_pos ⟨rfl, rfl⟩]
      have hreplied : ObservedOnce ⟨setStatus .catchNew
          { state with
            querying := false, mNewVerUrl := some url, mNewVerMD5 := some md5
            advertised := some url }, registrations⟩ := h.of_same rfl
      refine (observedOnce_query hreplied renamed).trans (not_congr ?_)
      exact ⟨fun hforgets => ⟨hquerying, rfl, hforgets⟩, fun hforgets => hforgets.2.2⟩
  · rw [if_neg hquerying, if_neg hquerying]
    exact iff_of_true h (fun hforgets => hquerying hforgets.1)

/-- A request to download reaches `download`, or registers nothing. -/
theorem ObservedOnce.downloadUpdate (h : ObservedOnce ⟨state, registrations⟩)
    (connected storageEnough deleted : Bool) :
    ObservedOnce ⟨OtaDownload.downloadUpdate connected storageEnough deleted state,
      updateRegistrations state registrations connected storageEnough⟩ := by
  unfold OtaDownload.downloadUpdate updateRegistrations
  split_ifs
  · exact h.of_same rfl
  · exact h.of_same rfl
  · have hstarted : ObservedOnce ⟨setStatus .downloading state, registrations⟩ := h.of_same rfl
    exact (hstarted.download deleted state.mNewVerUrl).of_same rfl
  · exact h.of_same rfl
  · exact h.of_same rfl

/-- A message the observer posted. -/
theorem observedOnce_handleMessage (h : ObservedOnce ⟨state, registrations⟩) (renamed : Bool) :
    ObservedOnce ⟨handleMessage renamed state, messageRegistrations state registrations⟩ ↔
      ¬(state.messages.head? = some (some .failed) ∧ state.mDwloadId ≠ 0) := by
  unfold handleMessage messageRegistrations
  cases hmessages : state.messages with
  | nil => exact iff_of_true h (by simp)
  | cons status rest =>
    have htaken : ObservedOnce ⟨{ state with messages := rest }, registrations⟩ := h.of_same rfl
    have hstatus := observedOnce_status htaken renamed status
    simpa using hstatus

/-- The handlers of an install leave the task. -/
theorem installUpdate_mDwloadId (batteryEnough storageEnough : Bool) (state : OtaState) :
    (installUpdate batteryEnough storageEnough state).mDwloadId = state.mDwloadId := by
  have hend := installEnd_keeps OtaState.mDwloadId fun _ _ => rfl
  unfold installUpdate
  split_ifs
  · exact hend _
  · rfl
  · exact hend _
  · exact hend _

theorem installPackages_mDwloadId (digest : Option String) (deleted : Bool)
    (entries : List String) (unzipped : Bool) (state : OtaState) :
    (installPackages digest deleted entries unzipped state).mDwloadId = state.mDwloadId := by
  have hend := installEnd_keeps OtaState.mDwloadId fun _ _ => rfl
  have hfailed : ∀ other : OtaState, (installEnd (checkFailed deleted other)).mDwloadId =
      other.mDwloadId := by
    intro other
    rw [hend]
    unfold checkFailed deleteFile
    split_ifs <;> rfl
  have hwritten : ∀ other : OtaState, (entries.foldl writeEntry other).mDwloadId =
      other.mDwloadId := by
    intro other
    obtain ⟨tmpFile, package, hfiles⟩ := foldl_writeEntry_files entries other
    rw [hfiles]
  unfold installPackages checkAndUnzip
  by_cases hinstalls : state.installs = 0
  · rw [if_pos hinstalls]
  · rw [if_neg hinstalls]
    by_cases hnone : state.mNewVerMD5.isNone
    · rw [if_pos hnone]
      exact hfailed _
    · rw [if_neg hnone]
      cases getFileMD5 digest { state with installs := state.installs - 1 } with
      | none => exact hend _
      | some md5 =>
        dsimp only
        split_ifs
        · exact hfailed _
        · exact (hend _).trans (hwritten _)
        · exact (hend _).trans (hwritten _)

/-- Every operation but the ones that forget a task keeps task and count fitting. -/
theorem observedOnce_step {state : ObservedState} (h : ObservedOnce state)
    (event : ManagerEvent) :
    ObservedOnce (observedStep state event) ↔ ¬ForgetsTask state.service event := by
  cases event with
  | download deleted url => exact iff_of_true (h.download deleted url) not_false
  | queryDownload renamed => exact observedOnce_query h renamed
  | notified renamed status => exact observedOnce_status h renamed status
  | othersEnqueue tasks => exact iff_of_true (h.of_same rfl) not_false
  | service event =>
    cases event with
    | queryNewVersion connected =>
      refine iff_of_true (h.of_same ?_) not_false
      unfold managerStep otaStep queryNewVersion
      dsimp only
      split_ifs <;> rfl
    | queryReplied reply renamed => exact observedOnce_queryReplied h reply renamed
    | md5Replied md5 =>
      refine iff_of_true (h.of_same ?_) not_false
      unfold managerStep otaStep md5Replied
      dsimp only
      split_ifs <;> rfl
    | downloadUpdate connected storageEnough deleted =>
      exact iff_of_true (h.downloadUpdate connected storageEnough deleted) not_false
    | taskReports id status =>
      refine iff_of_true (h.of_same ?_) not_false
      unfold managerStep otaStep taskReports
      dsimp only
      split
      · rfl
      · split_ifs <;> rfl
    | taskRemoved id => exact iff_of_true (h.of_same (remove_mDwloadId id _)) not_false
    | onChange => exact iff_of_true (h.of_same rfl) not_false
    | handleMessage renamed => exact observedOnce_handleMessage h renamed
    | installUpdate batteryEnough storageEnough =>
      exact iff_of_true (h.of_same (installUpdate_mDwloadId batteryEnough storageEnough _))
        not_false
    | installPackages digest deleted entries unzipped =>
      exact iff_of_true
        (h.of_same (installPackages_mDwloadId digest deleted entries unzipped _)) not_false
    | restart deletable =>
      exact iff_of_true (observedOnce_restart deletable state.service) not_false

end Steps

/-- Nothing is registered at the first start. -/
theorem observedOnce_start : ObservedOnce observedStart := rfl

/-- The observer is registered once with a task and not at all without one, in
every state of a run, just when no operation of the run forgets a task that has
not succeeded. -/
theorem observedOnce_iff (events : List ManagerEvent) :
    (∀ seen rest, events = seen ++ rest → ObservedOnce (observedRun seen)) ↔
      ∀ seen event rest, events = seen ++ event :: rest →
        ¬ForgetsTask (managerRun seen) event := by
  have hrun := foldl_good_iff observedStep (fun _ => True) ObservedOnce
    (fun state event => ¬ForgetsTask state.service event) (fun _ _ _ => trivial)
    (fun state event _ h => observedOnce_step h event) trivial observedOnce_start events
  refine hrun.trans ?_
  have hservice : ∀ seen, (seen.foldl observedStep observedStart).service = managerRun seen :=
    observedRun_service
  simp only [hservice]

/-- Behind a failed download the next one registers the observer once more. -/
theorem not_observedOnce_failedDownload : ¬ObservedOnce (observedRun
    [.download true (some "u"), .notified true (some .failed), .download true (some "u")]) := by
  intro h
  have htwo : (observedRun [.download true (some "u"), .notified true (some .failed),
      .download true (some "u")]).registrations = 2 := by decide
  rw [ObservedOnce, htwo] at h
  split_ifs at h
  exact absurd h (by decide)

end RobotOta.ObserverRegistrations
