import RobotOta.DownloadTask
import RobotOta.EventRun

/-!
# The package behind `DOWNLOAD_OK`

Three handlers set `DOWNLOAD_OK`: one on a posted message, one on a finished
task, one on a file that is there. None of them looks at the result of the
rename or at the URL the file came from, so the status is right in a run just
when each of these steps finds the right file.
-/

namespace RobotOta.DownloadedPackage

open EventRun OtaDownload DownloadTask

variable {state next : OtaState}

/-- The package is there, and is all of what was downloaded from the URL. -/
def PackageFrom (url : Option String) (state : OtaState) : Prop :=
  ∃ source, url = some source ∧ state.installPackage = some (.download source true)

/-- `DOWNLOAD_OK` comes with no task, and with the package of the last
advertised URL. -/
def DownloadOkSound (state : OtaState) : Prop :=
  state.status = .downloadOk → state.mDwloadId = 0 ∧ PackageFrom state.advertised state

/-- The URL a reply advertises. -/
def advertisedUrl : VersionReply → Option String
  | .returned rtCode (some url) (some _) => if rtCode = "000" then some url else none
  | _ => none

/-- The current task is one for this URL and has succeeded, and no archive
entry was written over its file. -/
def TaskDownloaded (url : Option String) (state : OtaState) : Prop :=
  ∃ row, state.rows state.mDwloadId = some row ∧ row.status = .successful ∧
    url = some row.url ∧ state.tmpFile ≠ some .entry

/-- What a download taken for finished must find: where a rename takes place,
a task that succeeded for the URL, and otherwise the package of the URL. -/
def SuccessSound (url : Option String) (renamed : Bool) (state : OtaState) : Prop :=
  if state.mDwloadId ≠ 0 ∧ renamed ∧ state.tmpFile.isSome then TaskDownloaded url state
  else PackageFrom url state

/-- What `queryDownload` takes for a finished download. -/
def FindsDownload (state : OtaState) : Prop :=
  if state.mDwloadId = 0 then state.installPackage.isSome = true
  else ∃ row, state.rows state.mDwloadId = some row ∧ row.status = .successful

/-- The condition on a step: what it takes for a finished download is one for
the advertised URL, and an archive that is unpacked under `DOWNLOAD_OK` has no
entry with the name of the package. -/
def SoundStep (state : OtaState) : OtaEvent → Prop
  | .queryReplied reply renamed =>
    state.querying → ∀ url, advertisedUrl reply = some url → FindsDownload state →
      SuccessSound (some url) renamed state
  | .handleMessage renamed =>
    state.messages.head? = some (some .successful) →
      SuccessSound state.advertised renamed state
  | .installPackages digest _ entries _ =>
    state.status = .downloadOk → state.installs ≠ 0 → state.mError = errorNone →
      state.mNewVerMD5.isSome → getFileMD5 digest state = state.mNewVerMD5 →
        installPackageName ∉ entries
  | _ => True

/-- A state with another status needs no package. -/
theorem downloadOkSound_of_ne (h : state.status ≠ .downloadOk) : DownloadOkSound state :=
  fun hok => absurd hok h

/-- Nor does one that another status has just been set in. -/
theorem downloadOkSound_setStatus {status : UpdateStatus} (h : status ≠ .downloadOk) :
    DownloadOkSound (setStatus status state) :=
  downloadOkSound_of_ne h

/-- What a success leaves is the package of the URL just when it finds what it must. -/
theorem packageFrom_downloadSuccess (h : TaskInvariant state) (url : Option String)
    (renamed : Bool) :
    PackageFrom url (downloadSuccess renamed state) ↔ SuccessSound url renamed state := by
  unfold PackageFrom SuccessSound
  rw [downloadSuccess_installPackage]
  by_cases hrename : state.mDwloadId ≠ 0 ∧ renamed = true ∧ state.tmpFile.isSome = true
  · rw [if_pos hrename, if_pos hrename]
    obtain ⟨content, htmp⟩ := Option.isSome_iff_exists.mp hrename.2.2
    constructor
    · rintro ⟨source, hurl, hstored⟩
      obtain ⟨row, hrow, rfl, hcomplete⟩ := h.stored source true hstored
      refine ⟨row, hrow, hcomplete.mp rfl, hurl, ?_⟩
      rw [hstored]
      simp
    · rintro ⟨row, hrow, hsuccess, hurl, hentry⟩
      cases content with
      | entry => exact absurd htmp hentry
      | download source complete =>
        obtain ⟨other, hother, rfl, hcomplete⟩ := h.stored source complete htmp
        obtain rfl := Option.some.inj (hrow.symm.trans hother)
        exact ⟨row.url, hurl, by rw [htmp, hcomplete.mpr hsuccess]⟩
  · rw [if_neg hrename, if_neg hrename]
    rfl

/-- A download taken for finished sets `DOWNLOAD_OK` rightly just when it finds
what it must. -/
theorem downloadOkSound_success (h : TaskInvariant state) (renamed : Bool) :
    DownloadOkSound (setStatus .downloadOk (downloadSuccess renamed state)) ↔
      SuccessSound state.advertised renamed state := by
  rw [← packageFrom_downloadSuccess h, ← downloadSuccess_advertised renamed state]
  constructor
  · intro hsound
    exact (hsound rfl).2
  · intro hpackage _
    exact ⟨downloadSuccess_mDwloadId renamed state, hpackage⟩

/-- `queryDownload` leaves a status other than `DOWNLOAD_OK` unless it takes a
download for finished. -/
theorem downloadOkSound_queryDownload (h : TaskInvariant state) (renamed : Bool)
    (hstatus : state.status ≠ .downloadOk) :
    DownloadOkSound (queryDownload renamed state) ↔
      (FindsDownload state → SuccessSound state.advertised renamed state) := by
  unfold queryDownload FindsDownload
  by_cases hid : state.mDwloadId = 0
  · rw [if_pos hid, if_pos hid]
    by_cases hpackage : state.installPackage.isSome
    · rw [if_pos hpackage]
      have hsuccess : SuccessSound state.advertised renamed state ↔
          PackageFrom state.advertised state := by
        unfold SuccessSound
        rw [if_neg (fun hrename => hrename.1 hid)]
      rw [hsuccess]
      constructor
      · intro hsound _
        exact (hsound rfl).2
      · intro hfound _
        exact ⟨hid, hfound hpackage⟩
    · rw [if_neg hpackage]
      exact iff_of_true (downloadOkSound_of_ne hstatus) (fun hsome => absurd hsome hpackage)
  · rw [if_neg hid, if_neg hid]
    cases hrow : state.rows state.mDwloadId with
    | none =>
      refine iff_of_true (downloadOkSound_of_ne hstatus) ?_
      rintro ⟨row, hsome, -⟩
      cases hsome
    | some row =>
      have hother : row.status ≠ .successful →
          (∃ found, some row = some found ∧ found.status = .successful) →
            SuccessSound state.advertised renamed state := by
        rintro hne ⟨found, hsame, hsuccess⟩
        obtain rfl := Option.some.inj hsame
        exact absurd hsuccess hne
      dsimp only
      cases hreport : row.status with
      | pending | paused | running | failed =>
        exact iff_of_true (downloadOkSound_setStatus (by decide)) (hother (by simp [hreport]))
      | successful =>
        rw [downloadOkSound_success h]
        exact ⟨fun hsound _ => hsound, fun hsound => hsound ⟨row, rfl, hreport⟩⟩

/-- A reply that advertises a URL stores it and sets `CATCH_NEW`. -/
theorem queryVerByHttp_advertised {reply : VersionReply} {url : String}
    (h : advertisedUrl reply = some url) (state : OtaState) :
    ∃ md5, queryVerByHttp reply state = (true, setStatus .catchNew
      { state with mNewVerUrl := some url, mNewVerMD5 := some md5, advertised := some url }) := by
  unfold advertisedUrl at h
  split at h
  · next rtCode source md5 =>
    split_ifs at h with hcode
    obtain rfl := Option.some.inj h
    exact ⟨md5, if_pos hcode⟩
  · cases h

/-- Any other reply leaves the state as it is or sets a status of its own, and
does not lead to `queryDownload`. -/
theorem queryVerByHttp_other {reply : VersionReply} (h : advertisedUrl reply = none)
    (state : OtaState) :
    (queryVerByHttp reply state = (false, state)) ∨
      (queryVerByHttp reply state).2.status = .serverError ∨
        (queryVerByHttp reply state).2.status = .catchNone := by
  cases reply with
  | noEntity => exact Or.inl rfl
  | ioException | notJson => exact Or.inr (Or.inl rfl)
  | returned rtCode downloadPath md5 =>
    right
    unfold queryVerByHttp
    dsimp only
    split_ifs with hcode hlatest
    · cases downloadPath with
      | none => exact Or.inl rfl
      | some url =>
        cases md5 with
        | none => exact Or.inl rfl
        | some md5 =>
          unfold advertisedUrl at h
          dsimp only at h
          rw [if_pos hcode] at h
          cases h
    · exact Or.inr rfl
    · exact Or.inl rfl

/-- The reply to a version query. -/
theorem downloadOkSound_queryReplied (h : TaskInvariant state) (hsound : DownloadOkSound state)
    (reply : VersionReply) (renamed : Bool) :
    DownloadOkSound (queryReplied reply renamed state) ↔
      SoundStep state (.queryReplied reply renamed) := by
  unfold queryReplied
  by_cases hquerying : state.querying = true
  · rw [if_pos hquerying]
    cases hurl : advertisedUrl reply with
    | none =>
      refine iff_of_true ?_ (fun _ url hsome => by rw [hurl] at hsome; cases hsome)
      rcases queryVerByHttp_other hurl { state with querying := false } with heq | heq | heq
      · rw [heq]
        exact hsound
      · dsimp only
        rw [heq, if_neg (by simp)]
        exact downloadOkSound_of_ne (by simp [heq])
      · dsimp only
        rw [heq, if_neg (by simp)]
        exact downloadOkSound_of_ne (by simp [heq])
    | some url =>
      obtain ⟨md5, heq⟩ := queryVerByHttp_advertised hurl { state with querying := false }
      rw [heq]
      dsimp only
      rw [if_pos ⟨rfl, rfl⟩]
      have hreplied := downloadOkSound_queryDownload
        (TaskInvariant.of_same h rfl rfl rfl (fun content => Or.inl) :
          TaskInvariant (setStatus .catchNew
            { state with
              querying := false, mNewVerUrl := some url, mNewVerMD5 := some md5
              advertised := some url })) renamed (by simp [setStatus])
      rw [hreplied]
      constructor
      · intro hfound _ source hsource hfinds
        obtain rfl := Option.some.inj (hurl.symm.trans hsource)
        exact hfound hfinds
      · intro hstep hfinds
        exact hstep hquerying url hurl hfinds
  · rw [if_neg hquerying]
    exact iff_of_true hsound (fun hq => absurd hq hquerying)

/-- A message the observer posted. -/
theorem downloadOkSound_handleMessage (h : TaskInvariant state) (hsound : DownloadOkSound state)
    (renamed : Bool) :
    DownloadOkSound (handleMessage renamed state) ↔
      SoundStep state (.handleMessage renamed) := by
  unfold handleMessage
  cases hmessages : state.messages with
  | nil =>
    refine iff_of_true hsound ?_
    intro hhead
    rw [hmessages] at hhead
    cases hhead
  | cons status rest =>
    have hother : status ≠ some .successful → SoundStep state (.handleMessage renamed) := by
      intro hne hhead
      rw [hmessages] at hhead
      exact absurd (Option.some.inj hhead) hne
    dsimp only
    cases status with
    | none => exact iff_of_true hsound (hother (by simp))
    | some status =>
      cases status with
      | pending | paused | running => exact iff_of_true hsound (hother (by simp))
      | failed =>
        exact iff_of_true (downloadOkSound_setStatus (by decide)) (hother (by simp))
      | successful =>
        have htaken : TaskInvariant { state with messages := rest } :=
          ⟨h.saved, h.current, h.stored⟩
        have hdone := downloadOkSound_success htaken renamed
        constructor
        · intro hsound _
          exact hdone.mp hsound
        · intro hstep
          exact hdone.mpr (hstep (by rw [hmessages]; rfl))

/-- An install that ends with an error sets a status of its own. -/
theorem downloadOkSound_installFailed (h : state.mError ≠ errorNone) :
    DownloadOkSound (installEnd state) := by
  unfold installEnd
  rw [if_pos h]
  exact downloadOkSound_setStatus (by decide)

/-- A package that fails its check is such an error. -/
theorem downloadOkSound_checkFailed (deleted : Bool) :
    DownloadOkSound (installEnd (checkFailed deleted state)) := by
  apply downloadOkSound_installFailed
  simp [checkFailed, setError, errorCheckFailed, errorNone]

/-- Unpacking changes the files only, and the package just when an entry has its name. -/
theorem foldl_writeEntry_package (entries : List String) :
    (entries.foldl writeEntry state).installPackage =
      if installPackageName ∈ entries then some .entry else state.installPackage := by
  induction entries generalizing state with
  | nil => rfl
  | cons name entries ih =>
    rw [List.foldl_cons, ih]
    by_cases hrest : installPackageName ∈ entries
    · rw [if_pos hrest, if_pos (List.mem_cons_of_mem _ hrest)]
    · rw [if_neg hrest]
      unfold writeEntry
      by_cases hname : name = installPackageName
      · have hmem : installPackageName ∈ name :: entries := hname ▸ List.mem_cons_self
        rw [if_pos hname, if_pos hmem]
      · have hmem : installPackageName ∉ name :: entries :=
          List.not_mem_cons_of_ne_of_not_mem (Ne.symm hname) hrest
        rw [if_neg hname, if_neg hmem]
        split_ifs <;> rfl

/-- The end of an install without an error leaves the status. -/
theorem downloadOkSound_unpacked (hsound : DownloadOkSound state) (entries : List String)
    (tmpFiles : Option String) :
    DownloadOkSound (installEnd { entries.foldl writeEntry state with unzipTmpFiles := tmpFiles }) ↔
      (state.status = .downloadOk → state.mError = errorNone →
        installPackageName ∉ entries) := by
  have hpackage : (entries.foldl writeEntry state).installPackage =
      if installPackageName ∈ entries then some .entry else state.installPackage :=
    foldl_writeEntry_package entries
  obtain ⟨tmpFile, package, hfiles⟩ := foldl_writeEntry_files entries state
  rw [hfiles] at hpackage ⊢
  dsimp only at hpackage
  unfold installEnd
  dsimp only
  by_cases hnone : state.mError = errorNone
  · rw [if_neg (not_not.mpr hnone)]
    constructor
    · intro hwritten hok _ hmem
      obtain ⟨-, source, -, hsource⟩ := hwritten hok
      dsimp only at hsource
      rw [hpackage, if_pos hmem] at hsource
      cases hsource
    · intro hentries hok
      obtain ⟨hzero, source, hurl, hsource⟩ := hsound hok
      rw [if_neg (hentries hok hnone)] at hpackage
      exact ⟨hzero, source, hurl, hpackage.trans hsource⟩
  · rw [if_pos hnone]
    exact iff_of_true (downloadOkSound_setStatus (by decide))
      (fun _ h => absurd h hnone)

/-- The second part of an install. -/
theorem downloadOkSound_checkAndUnzip (hsound : DownloadOkSound state)
    (digest : Option String) (deleted : Bool) (entries : List String) (unzipped : Bool) :
    DownloadOkSound (checkAndUnzip digest deleted entries unzipped state) ↔
      (state.status = .downloadOk → state.mError = errorNone → state.mNewVerMD5.isSome →
        getFileMD5 digest state = state.mNewVerMD5 → installPackageName ∉ entries) := by
  unfold checkAndUnzip
  by_cases hnone : state.mNewVerMD5.isNone
  · rw [if_pos hnone]
    refine iff_of_true (downloadOkSound_checkFailed deleted) ?_
    intro _ _ hsome
    rw [Option.isNone_iff_eq_none.mp hnone] at hsome
    cases hsome
  rw [if_neg hnone]
  have hsome : state.mNewVerMD5.isSome := by simpa [Option.isSome_iff_ne_none] using hnone
  cases getFileMD5 digest state with
  | none =>
    refine iff_of_true ?_ ?_
    · exact (downloadOkSound_unpacked hsound [] state.unzipTmpFiles).mpr
        (fun _ _ => List.not_mem_nil)
    · intro _ _ _ hsame
      rw [← hsame] at hsome
      cases hsome
  | some md5 =>
    dsimp only
    by_cases hdiffers : some md5 ≠ state.mNewVerMD5
    · rw [if_pos hdiffers]
      exact iff_of_true (downloadOkSound_checkFailed deleted)
        (fun _ _ _ hsame => absurd hsame hdiffers)
    · rw [if_neg hdiffers]
      rw [not_not] at hdiffers
      have hcondition : (state.status = .downloadOk → state.mError = errorNone →
          state.mNewVerMD5.isSome → some md5 = state.mNewVerMD5 → installPackageName ∉ entries) ↔
          (state.status = .downloadOk → state.mError = errorNone →
            installPackageName ∉ entries) :=
        ⟨fun h hok hzero => h hok hzero hsome hdiffers, fun h hok hzero _ _ => h hok hzero⟩
      rw [hcondition]
      split_ifs
      · exact downloadOkSound_unpacked hsound entries _
      · exact downloadOkSound_unpacked hsound entries _

/-- An install thread goes on with the package in place. -/
theorem downloadOkSound_installPackages (hsound : DownloadOkSound state)
    (digest : Option String) (deleted : Bool) (entries : List String) (unzipped : Bool) :
    DownloadOkSound (installPackages digest deleted entries unzipped state) ↔
      SoundStep state (.installPackages digest deleted entries unzipped) := by
  unfold installPackages
  by_cases hinstalls : state.installs = 0
  · rw [if_pos hinstalls]
    exact iff_of_true hsound (fun _ h => absurd hinstalls h)
  · rw [if_neg hinstalls]
    have hless : DownloadOkSound { state with installs := state.installs - 1 } := hsound
    rw [downloadOkSound_checkAndUnzip hless]
    exact ⟨fun h hok _ => h hok, fun h hok => h hok hinstalls⟩

/-- A query sets a status of its own, unless one is under way. -/
theorem downloadOkSound_queryNewVersion (hsound : DownloadOkSound state) (connected : Bool) :
    DownloadOkSound (queryNewVersion connected state) := by
  unfold queryNewVersion
  dsimp only
  split_ifs
  · exact hsound
  · exact downloadOkSound_setStatus (by decide)
  · exact downloadOkSound_setStatus (by decide)

/-- A request to download is refused, or sets `DOWNLOADING`. -/
theorem downloadOkSound_downloadUpdate (hsound : DownloadOkSound state)
    (connected storageEnough deleted : Bool) :
    DownloadOkSound (downloadUpdate connected storageEnough deleted state) := by
  have hstatus : ∀ s url, (download deleted url s).status = s.status := by
    intro s url
    unfold download
    by_cases hid : s.mDwloadId ≠ 0
    · rw [if_pos hid]
    · rw [if_neg hid]
      cases url with
      | none => rfl
      | some url => cases deleted <;> rfl
  unfold downloadUpdate
  split_ifs
  · exact hsound
  · exact hsound
  · apply downloadOkSound_of_ne
    exact (hstatus _ _).trans_ne (by simp [setStatus])
  · exact hsound
  · exact hsound

/-- The checks of an install set a status of their own. -/
theorem downloadOkSound_installUpdate (batteryEnough storageEnough : Bool) :
    DownloadOkSound (installUpdate batteryEnough storageEnough state) := by
  have hfailed : ∀ e, e ≠ errorNone → DownloadOkSound (installEnd (setError e state)) :=
    fun e he => downloadOkSound_installFailed he
  unfold installUpdate
  split_ifs
  · exact hfailed _ (by decide)
  · exact downloadOkSound_of_ne (by simp [setStatus])
  · exact hfailed _ (by decide)
  · exact hfailed _ (by decide)

/-- Reports of the `DownloadManager` do not touch the package. -/
theorem downloadOkSound_taskReports (hsound : DownloadOkSound state) (id : ℕ)
    (status : DownloadStatus) : DownloadOkSound (taskReports id status state) := by
  unfold taskReports
  cases state.rows id with
  | none => exact hsound
  | some row =>
    dsimp only
    split_ifs <;> exact hsound

/-- A new process starts with another status. -/
theorem downloadOkSound_restart (deletable : String → Bool) :
    DownloadOkSound (restart deletable state) := by
  apply downloadOkSound_of_ne
  unfold restart clearDownloadPackage
  split
  · simp [initialState]
  · next tmpFiles _ =>
    obtain ⟨tmpFile, package, hfiles⟩ :=
      foldl_deleteFile_files ((tmpFiles.splitOn ";").filter deletable) _
    rw [hfiles]
    simp [initialState]

/-- A handler keeps `DOWNLOAD_OK` right just when its step is sound. -/
theorem downloadOkSound_otaStep (event : OtaEvent) (h : TaskInvariant state)
    (hsound : DownloadOkSound state) :
    DownloadOkSound (otaStep state event) ↔ SoundStep state event := by
  cases event with
  | queryNewVersion connected =>
    exact iff_of_true (downloadOkSound_queryNewVersion hsound connected) trivial
  | queryReplied reply renamed => exact downloadOkSound_queryReplied h hsound reply renamed
  | md5Replied md5 =>
    refine iff_of_true ?_ trivial
    unfold otaStep md5Replied
    dsimp only
    split_ifs <;> exact hsound
  | downloadUpdate connected storageEnough deleted =>
    exact iff_of_true (downloadOkSound_downloadUpdate hsound connected storageEnough deleted)
      trivial
  | taskReports id status =>
    exact iff_of_true (downloadOkSound_taskReports hsound id status) trivial
  | taskRemoved id =>
    refine iff_of_true ?_ trivial
    unfold otaStep DownloadOkSound PackageFrom
    dsimp only
    rw [remove_status, remove_mDwloadId, remove_advertised, remove_installPackage]
    exact hsound
  | onChange => exact iff_of_true hsound trivial
  | handleMessage renamed => exact downloadOkSound_handleMessage h hsound renamed
  | installUpdate batteryEnough storageEnough =>
    exact iff_of_true (downloadOkSound_installUpdate batteryEnough storageEnough) trivial
  | installPackages digest deleted entries unzipped =>
    exact downloadOkSound_installPackages hsound digest deleted entries unzipped
  | restart deletable => exact iff_of_true (downloadOkSound_restart deletable) trivial

/-- In a run `DOWNLOAD_OK` comes with the package of the last advertised URL in
every state just when every step is sound. -/
theorem downloadOk_packaged_iff (events : List OtaEvent) :
    (∀ seen rest, events = seen ++ rest → DownloadOkSound (otaRun seen)) ↔
      ∀ seen event rest, events = seen ++ event :: rest → SoundStep (otaRun seen) event :=
  foldl_good_iff otaStep TaskInvariant DownloadOkSound SoundStep
    (fun _ event => taskInvariant_otaStep event) (fun _ event => downloadOkSound_otaStep event)
    taskInvariant_initialState (downloadOkSound_of_ne (by simp [initialState])) events

/-- A version is advertised and downloaded; the rename fails when the message
of its success is handled. -/
def failedRenameRun : List OtaEvent :=
  [.queryNewVersion true, .queryReplied (.returned "000" (some "http://ota/v2") (some "d2")) true,
    .downloadUpdate true true true, .taskReports 1 .running, .taskReports 1 .successful,
    .onChange, .handleMessage false]

/-- After the failed rename the status is `DOWNLOAD_OK` and the task has been
removed with its file. -/
theorem downloadOk_withoutPackage : ¬ ∀ events, DownloadOkSound (otaRun events) := by
  intro h
  have hstatus : (otaRun failedRenameRun).status = .downloadOk := by decide
  have hpackage : (otaRun failedRenameRun).installPackage = none := by decide
  obtain ⟨-, source, -, hsource⟩ := h failedRenameRun hstatus
  rw [hpackage] at hsource
  cases hsource

/-- The package of an older version is taken for the new one: its download
ended, and a new process queries a version that has another URL. -/
def olderPackageRun : List OtaEvent :=
  [.queryNewVersion true, .queryReplied (.returned "000" (some "http://ota/v1") (some "d1")) true,
    .downloadUpdate true true true, .taskReports 1 .successful, .onChange, .handleMessage true,
    .restart (fun _ => true), .queryNewVersion true,
    .queryReplied (.returned "000" (some "http://ota/v2") (some "d2")) true]

example : (otaRun olderPackageRun).status = .downloadOk ∧
    (otaRun olderPackageRun).advertised = some "http://ota/v2" ∧
    (otaRun olderPackageRun).installPackage = some (.download "http://ota/v1" true) := by
  decide

end RobotOta.DownloadedPackage
