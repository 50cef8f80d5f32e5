import RobotOta.OtaDownload

/-!
# The download task

What the `DownloadManager` keeps for the service: at most the current task,
and under the temporary name no download but its own.
-/

namespace RobotOta.DownloadTask

open OtaDownload

variable {state next : OtaState}

/-- What the `DownloadManager` keeps for the service: no task but the current
one, whose id is saved, and under the temporary name no download but that of
the current task, whole just when the task has succeeded. -/
structure TaskInvariant (state : OtaState) : Prop where
  /-- The id in the preferences is the one in memory. -/
  saved : state.downloadIdPref = state.mDwloadId
  /-- The only task is the current one. -/
  current : ∀ id row, state.rows id = some row → id = state.mDwloadId ∧ id ≠ 0
  /-- A download under the temporary name is that of the task. -/
  stored : ∀ url complete, state.tmpFile = some (.download url complete) →
    ∃ row, state.rows state.mDwloadId = some row ∧ row.url = url ∧
      (complete = true ↔ row.status = .successful)

/-- No task is there, and no download under the temporary name. -/
structure NoTask (state : OtaState) : Prop where
  rows : ∀ id, state.rows id = none
  tmpFile : ∀ url complete, state.tmpFile ≠ some (.download url complete)

/-- Nothing is stored at the first start. -/
theorem taskInvariant_initialState : TaskInvariant initialState := by
  refine ⟨rfl, ?_, ?_⟩
  · intro id row h
    cases h
  · intro url complete h
    cases h

/-- Without tasks and downloads the saved id is all there is to keep. -/
theorem NoTask.taskInvariant (h : NoTask state)
    (hsaved : state.downloadIdPref = state.mDwloadId) : TaskInvariant state := by
  refine ⟨hsaved, ?_, ?_⟩
  · intro id row hrow
    rw [h.rows id] at hrow
    cases hrow
  · intro url complete htmp
    exact absurd htmp (h.tmpFile url complete)

/-- A current task that has no row is no task at all. -/
theorem TaskInvariant.noTask (h : TaskInvariant state)
    (hrow : state.rows state.mDwloadId = none) : NoTask state := by
  constructor
  · intro id
    by_contra hid
    obtain ⟨row, hsome⟩ := Option.ne_none_iff_exists'.mp hid
    obtain ⟨rfl, -⟩ := h.current id row hsome
    exact hid hrow
  · intro url complete htmp
    obtain ⟨row, hsome, -⟩ := h.stored url complete htmp
    rw [hrow] at hsome
    cases hsome

/-- The id zero has no task. -/
theorem TaskInvariant.noTask_of_zero (h : TaskInvariant state) (hid : state.mDwloadId = 0) :
    NoTask state := by
  apply h.noTask
  by_contra hsome
  obtain ⟨row, hrow⟩ := Option.ne_none_iff_exists'.mp hsome
  exact (h.current _ row hrow).2 hid

/-- A step that leaves the task alone and stores no download keeps the invariant. -/
theorem TaskInvariant.of_same (h : TaskInvariant state)
    (hpref : next.downloadIdPref = state.downloadIdPref)
    (hid : next.mDwloadId = state.mDwloadId) (hrows : next.rows = state.rows)
    (htmp : ∀ content, next.tmpFile = some content →
      state.tmpFile = some content ∨ content = .entry) :
    TaskInvariant next := by
  refine ⟨by rw [hpref, hid, h.saved], ?_, ?_⟩
  · rw [hrows, hid]
    exact h.current
  · rw [hrows, hid]
    intro url complete hnext
    rcases htmp _ hnext with hsame | hentry
    · exact h.stored url complete hsame
    · cases hentry

/-- A rename takes the temporary file away or leaves it. -/
theorem TaskInvariant.renameTo (h : TaskInvariant state) (renamed : Bool) :
    TaskInvariant (renameTo renamed state) := by
  refine h.of_same (renameTo_downloadIdPref _ _) (renameTo_mDwloadId _ _) (renameTo_rows _ _) ?_
  intro content
  unfold OtaDownload.renameTo
  split
  · intro hnone
    cases hnone
  · exact Or.inl

/-- Removing the current task leaves none. -/
theorem TaskInvariant.noTask_remove (h : TaskInvariant state) :
    NoTask (remove state.mDwloadId state) := by
  unfold OtaDownload.remove
  cases hrow : state.rows state.mDwloadId with
  | none => exact h.noTask hrow
  | some row =>
    refine ⟨?_, fun url complete htmp => by cases htmp⟩
    intro id
    simp only [Function.update_apply]
    split_ifs with hid
    · rfl
    · by_contra hother
      obtain ⟨other, hsome⟩ := Option.ne_none_iff_exists'.mp hother
      exact hid (h.current id other hsome).1

/-- Whoever removes a task, the invariant stays. -/
theorem TaskInvariant.remove (h : TaskInvariant state) (id : ℕ) :
    TaskInvariant (remove id state) := by
  cases hrow : state.rows id with
  | none =>
    unfold OtaDownload.remove
    rw [hrow]
    exact h
  | some row =>
    obtain ⟨rfl, -⟩ := h.current id row hrow
    refine h.noTask_remove.taskInvariant ?_
    rw [remove_downloadIdPref, remove_mDwloadId, h.saved]

/-- Once there is no task, its id may be forgotten. -/
theorem NoTask.clearDownloadId (h : NoTask state) : TaskInvariant (clearDownloadId state) :=
  NoTask.taskInvariant ⟨h.rows, h.tmpFile⟩ rfl

/-- A success ends the task. -/
theorem TaskInvariant.downloadSuccess (h : TaskInvariant state) (renamed : Bool) :
    TaskInvariant (downloadSuccess renamed state) := by
  unfold OtaDownload.downloadSuccess
  split_ifs
  · have hnone := (h.renameTo renamed).noTask_remove
    rw [renameTo_mDwloadId] at hnone
    exact hnone.clearDownloadId
  · exact h

/-- A failure ends the task. -/
theorem TaskInvariant.downloadFailed (h : TaskInvariant state) :
    TaskInvariant (downloadFailed state) := by
  unfold OtaDownload.downloadFailed
  split_ifs
  · exact h.noTask_remove.clearDownloadId
  · exact h

/-- The status is none of the task's. -/
theorem TaskInvariant.setStatus (h : TaskInvariant state) (status : UpdateStatus) :
    TaskInvariant (setStatus status state) :=
  ⟨h.saved, h.current, h.stored⟩

/-- `queryDownload` ends the task, or leaves it as it is. -/
theorem TaskInvariant.queryDownload (h : TaskInvariant state) (renamed : Bool) :
    TaskInvariant (queryDownload renamed state) := by
  unfold OtaDownload.queryDownload
  split_ifs
  · exact h.setStatus _
  · exact h
  · cases hrow : state.rows state.mDwloadId with
    | none => exact (h.noTask hrow).clearDownloadId
    | some row =>
      dsimp only
      cases row.status with
      | pending | paused | running => exact h.setStatus _
      | successful => exact (h.downloadSuccess renamed).setStatus _
      | failed => exact h.downloadFailed.setStatus _

/-- A new task comes where there was none. -/
theorem TaskInvariant.download (h : TaskInvariant state) (deleted : Bool) (url : Option String) :
    TaskInvariant (download deleted url state) := by
  unfold OtaDownload.download
  by_cases hid : state.mDwloadId ≠ 0
  · rw [if_pos hid]
    exact h
  · rw [if_neg hid]
    rw [not_not] at hid
    obtain ⟨hrows, htmpFile⟩ := h.noTask_of_zero hid
    cases url with
    | none => exact h
    | some url =>
      refine ⟨rfl, ?_, ?_⟩
      · intro id row hrow
        simp only [Function.update_apply] at hrow
        split_ifs at hrow with heq
        · exact ⟨heq, by omega⟩
        · rw [hrows id] at hrow
          cases hrow
      · intro source complete htmp
        refine absurd ?_ (htmpFile source complete)
        rw [← htmp]
        cases deleted <;> rfl

/-- What the `DownloadManager` writes under the temporary name is of the task it reports. -/
theorem TaskInvariant.taskReports (h : TaskInvariant state) (id : ℕ) (status : DownloadStatus) :
    TaskInvariant (taskReports id status state) := by
  unfold OtaDownload.taskReports
  cases hrow : state.rows id with
  | none => exact h
  | some row =>
    dsimp only
    split_ifs with hended
    · exact h
    · obtain ⟨rfl, hzero⟩ := h.current id row hrow
      refine ⟨h.saved, ?_, ?_⟩
      · intro id other hother
        simp only [Function.update_apply] at hother
        split_ifs at hother with heq
        · exact ⟨heq, heq ▸ hzero⟩
        · exact h.current id other hother
      · intro url complete htmp
        refine ⟨⟨row.url, status⟩, Function.update_self _ _ _, ?_⟩
        -- a waiting task keeps its part of the file; it had not succeeded before
        have hkept : state.tmpFile = some (.download url complete) → status ≠ .successful →
            row.url = url ∧ (complete = true ↔ status = .successful) := by
          intro hsame hstatus
          obtain ⟨other, hother, rfl, hcomplete⟩ := h.stored url complete hsame
          obtain rfl := Option.some.inj (hrow.symm.trans hother)
          exact ⟨rfl, iff_of_false (fun hc => hended (Or.inl (hcomplete.mp hc))) hstatus⟩
        cases status with
        | pending | paused => exact hkept htmp (by decide)
        | running | successful =>
          cases htmp
          exact ⟨rfl, by simp⟩
        | failed => cases htmp

/-- Files are deleted, and nothing else changes. -/
theorem foldl_deleteFile_tmpFile (names : List String) (content : FileContent)
    (h : (names.foldl deleteFile state).tmpFile = some content) :
    state.tmpFile = some content := by
  induction names generalizing state with
  | nil => exact h
  | cons name names ih =>
    have hrest := ih h
    unfold deleteFile at hrest
    split_ifs at hrest
    · exact hrest
    · exact hrest

/-- Deletions leave the task alone. -/
theorem TaskInvariant.foldl_deleteFile (h : TaskInvariant state) (names : List String) :
    TaskInvariant (names.foldl deleteFile state) := by
  have htmp : ∀ content, (names.foldl deleteFile state).tmpFile = some content →
      state.tmpFile = some content := foldl_deleteFile_tmpFile names
  obtain ⟨tmpFile, package, hfiles⟩ := foldl_deleteFile_files names state
  rw [hfiles] at htmp ⊢
  exact h.of_same rfl rfl rfl fun content hcontent => Or.inl (htmp content hcontent)

/-- A new process finds its task where the last one left it. -/
theorem TaskInvariant.restart (h : TaskInvariant state) (deletable : String → Bool) :
    TaskInvariant (restart deletable state) := by
  have hfresh : TaskInvariant
      { initialState with
        mDwloadId := state.downloadIdPref
        downloadIdPref := state.downloadIdPref
        unzipTmpFiles := state.unzipTmpFiles
        rows := state.rows
        lastId := state.lastId
        tmpFile := state.tmpFile
        installPackage := state.installPackage
        advertised := state.advertised } :=
    ⟨rfl, h.saved ▸ h.current, h.saved ▸ h.stored⟩
  unfold OtaDownload.restart clearDownloadPackage
  split
  · exact hfresh
  · next tmpFiles _ =>
    have hdeleted := hfresh.foldl_deleteFile ((tmpFiles.splitOn ";").filter deletable)
    exact ⟨hdeleted.saved, hdeleted.current, hdeleted.stored⟩

/-- An entry may be written under the temporary name, but it is no download. -/
theorem foldl_writeEntry_tmpFile (entries : List String) (content : FileContent)
    (h : (entries.foldl writeEntry state).tmpFile = some content) :
    state.tmpFile = some content ∨ content = .entry := by
  induction entries generalizing state with
  | nil => exact Or.inl h
  | cons name entries ih =>
    have hrest := ih h
    unfold writeEntry at hrest
    split_ifs at hrest
    · exact hrest
    · rcases hrest with hentry | hentry
      · cases hentry
        exact Or.inr rfl
      · exact Or.inr hentry
    · exact hrest

/-- Unpacking leaves the task alone. -/
theorem TaskInvariant.foldl_writeEntry (h : TaskInvariant state) (entries : List String) :
    TaskInvariant (entries.foldl writeEntry state) := by
  have htmp : ∀ content, (entries.foldl writeEntry state).tmpFile = some content →
      state.tmpFile = some content ∨ content = .entry := foldl_writeEntry_tmpFile entries
  obtain ⟨tmpFile, package, hfiles⟩ := foldl_writeEntry_files entries state
  rw [hfiles] at htmp ⊢
  exact h.of_same rfl rfl rfl htmp

/-- The end of an install sets a status at most. -/
theorem TaskInvariant.installEnd (h : TaskInvariant state) :
    TaskInvariant (installEnd state) := by
  unfold OtaDownload.installEnd
  split_ifs
  · exact h.setStatus _
  · exact h

/-- A package that fails its check goes, and the task stays. -/
theorem TaskInvariant.checkFailed (h : TaskInvariant state) (deleted : Bool) :
    TaskInvariant (checkFailed deleted state) := by
  cases deleted
  · exact ⟨h.saved, h.current, h.stored⟩
  · exact ⟨h.saved, h.current, h.stored⟩

/-- An install leaves the task alone. -/
theorem TaskInvariant.checkAndUnzip (h : TaskInvariant state) (digest : Option String)
    (deleted : Bool) (entries : List String) (unzipped : Bool) :
    TaskInvariant (checkAndUnzip digest deleted entries unzipped state) := by
  unfold OtaDownload.checkAndUnzip
  by_cases hnone : state.mNewVerMD5.isNone
  · rw [if_pos hnone]
    exact (h.checkFailed deleted).installEnd
  rw [if_neg hnone]
  cases getFileMD5 digest state with
  | none => exact h.installEnd
  | some md5 =>
    dsimp only
    by_cases hmd5 : some md5 ≠ state.mNewVerMD5
    · rw [if_pos hmd5]
      exact (h.checkFailed deleted).installEnd
    rw [if_neg hmd5]
    have hwritten := h.foldl_writeEntry entries
    split_ifs
    · exact TaskInvariant.installEnd ⟨hwritten.saved, hwritten.current, hwritten.stored⟩
    · exact hwritten.installEnd

/-- An install thread goes on, or there is none. -/
theorem TaskInvariant.installPackages (h : TaskInvariant state) (digest : Option String)
    (deleted : Bool) (entries : List String) (unzipped : Bool) :
    TaskInvariant (installPackages digest deleted entries unzipped state) := by
  unfold OtaDownload.installPackages
  have hless : TaskInvariant { state with installs := state.installs - 1 } :=
    ⟨h.saved, h.current, h.stored⟩
  split_ifs
  · exact h
  · exact hless.checkAndUnzip digest deleted entries unzipped

/-- A query that is replied to leaves the task alone, up to `queryDownload`. -/
theorem TaskInvariant.queryVerByHttp (h : TaskInvariant state) (reply : VersionReply) :
    TaskInvariant (queryVerByHttp reply state).2 := by
  unfold OtaDownload.queryVerByHttp
  split
  · exact h
  · exact h.setStatus _
  · exact h.setStatus _
  · split_ifs
    · split <;> exact ⟨h.saved, h.current, h.stored⟩
    · exact h.setStatus _
    · exact h.setStatus _

/-- A query resets the version, and leaves the task alone. -/
theorem TaskInvariant.queryNewVersion (h : TaskInvariant state) (connected : Bool) :
    TaskInvariant (queryNewVersion connected state) := by
  unfold OtaDownload.queryNewVersion
  dsimp only
  split_ifs <;> exact ⟨h.saved, h.current, h.stored⟩

/-- After the reply `queryDownload` may end the task. -/
theorem TaskInvariant.queryReplied (h : TaskInvariant state) (reply : VersionReply)
    (renamed : Bool) : TaskInvariant (queryReplied reply renamed state) := by
  unfold OtaDownload.queryReplied
  dsimp only
  have hended : TaskInvariant { state with querying := false } :=
    ⟨h.saved, h.current, h.stored⟩
  have hreplied := hended.queryVerByHttp reply
  split_ifs
  · exact hreplied.queryDownload renamed
  · exact hreplied
  · exact h

/-- The digest is none of the task's. -/
theorem TaskInvariant.md5Replied (h : TaskInvariant state) (md5 : Option String) :
    TaskInvariant (md5Replied md5 state) := by
  unfold OtaDownload.md5Replied
  split_ifs <;> exact ⟨h.saved, h.current, h.stored⟩

/-- A request to download is refused, or starts a task. -/
theorem TaskInvariant.downloadUpdate (h : TaskInvariant state)
    (connected storageEnough deleted : Bool) :
    TaskInvariant (downloadUpdate connected storageEnough deleted state) := by
  have herror : ∀ e, TaskInvariant (setError e state) := fun e =>
    ⟨h.saved, h.current, h.stored⟩
  unfold OtaDownload.downloadUpdate
  split_ifs
  · exact herror _
  · exact herror _
  · have hdownload := (h.setStatus .downloading).download deleted state.mNewVerUrl
    exact ⟨hdownload.saved, hdownload.current, hdownload.stored⟩
  · exact herror _
  · exact herror _

/-- A status ends the task, or leaves it as it is. -/
theorem TaskInvariant.handleStatus (h : TaskInvariant state) (renamed : Bool)
    (status : Option DownloadStatus) : TaskInvariant (handleStatus renamed state status) := by
  unfold OtaDownload.handleStatus
  split
  · have hdone := h.downloadSuccess renamed
    exact ⟨hdone.saved, hdone.current, hdone.stored⟩
  · exact h.downloadFailed.setStatus _
  all_goals exact h

/-- The oldest message is handled, if there is one. -/
theorem TaskInvariant.handleMessage (h : TaskInvariant state) (renamed : Bool) :
    TaskInvariant (handleMessage renamed state) := by
  unfold OtaDownload.handleMessage
  cases state.messages with
  | nil => exact h
  | cons status rest =>
    have htaken : TaskInvariant { state with messages := rest } :=
      ⟨h.saved, h.current, h.stored⟩
    exact htaken.handleStatus renamed status

/-- The checks before an install leave the task alone. -/
theorem TaskInvariant.installUpdate (h : TaskInvariant state)
    (batteryEnough storageEnough : Bool) :
    TaskInvariant (installUpdate batteryEnough storageEnough state) := by
  have herror : ∀ e, TaskInvariant (setError e state) := fun e =>
    ⟨h.saved, h.current, h.stored⟩
  unfold OtaDownload.installUpdate
  split_ifs
  · exact (herror _).installEnd
  · exact ⟨h.saved, h.current, h.stored⟩
  · exact (herror _).installEnd
  · exact (herror _).installEnd

/-- Every handler keeps the invariant. -/
theorem taskInvariant_otaStep (event : OtaEvent) (h : TaskInvariant state) :
    TaskInvariant (otaStep state event) := by
  cases event with
  | queryNewVersion connected => exact h.queryNewVersion connected
  | queryReplied reply renamed => exact h.queryReplied reply renamed
  | md5Replied md5 => exact h.md5Replied md5
  | downloadUpdate connected storageEnough deleted =>
    exact h.downloadUpdate connected storageEnough deleted
  | taskReports id status => exact h.taskReports id status
  | taskRemoved id => exact h.remove id
  | onChange => exact ⟨h.saved, h.current, h.stored⟩
  | handleMessage renamed => exact h.handleMessage renamed
  | installUpdate batteryEnough storageEnough =>
    exact h.installUpdate batteryEnough storageEnough
  | installPackages digest deleted entries unzipped =>
    exact h.installPackages digest deleted entries unzipped
  | restart deletable => exact h.restart deletable

end RobotOta.DownloadTask
