import RobotOta.RecoveryLogRuns

/-!
# The logs and the locale of earlier runs

Recovery runs and the main system take turns on `/cache/recovery`. The numbered
last logs are the logs of the latest runs, and the saved locale comes back in
every run that is not given another one, also when the cache is formatted in
between.
-/

namespace RobotOta.RecoveryLogs

open CommandLine RecoveryRequests RotatingSlots ScanHex

/-- A recovery process begins or goes on, or the main system cleans up or asks
for recovery. -/
inductive DeviceEvent where
  | start (how : Start)
  | recovery (event : RecoveryEvent)
  | handleAftermath (deletes : String → Bool)
  | bootCommand (deletes : String → Bool) (created : File) (arg : List Char)

/-- The state behind an event. -/
def DeviceEvent.apply (config : LogConfig) (state : LogState) : DeviceEvent → LogState
  | .start how => startRecovery config state how
  | .recovery event => event.apply config state
  | .handleAftermath deletes =>
    { state with cache := RecoveryLogs.handleAftermath deletes state.cache }
  | .bootCommand deletes created arg =>
    { state with cache := RecoveryLogs.bootCommand deletes created state.cache arg }

/-- The cache mounts and its kept files can be written back, and a format brings
up no files. -/
def DeviceEvent.Keeps : DeviceEvent → Prop
  | .recovery (.eraseCache erasure) =>
    erasure.opendir = .opened ∧ (∀ name, erasure.restores name = .opened) ∧
      ∀ dir, ∀ name ∈ (erasure.format dir).2, name ∈ dir
  | .recovery (.sureCacheMount mounts _) => mounts = true
  | _ => True

section Contents

variable {config : LogConfig} {state next : LogState} {name : String}

/-- The files that changes can touch. -/
def changedFiles : List String := "log" :: "last_locale" :: "command" :: newFiles

theorem LogChange.contents_eq (h : LogChange config state next) (hname : name ∉ changedFiles) :
    contents next.cache name = contents state.cache name := by
  have hne : ∀ {written}, written ∈ changedFiles → name ≠ written :=
    fun hwritten heq => hname (heq ▸ hwritten)
  cases h with
  | said _ => rfl
  | wrote hnew text =>
    exact contents_putFile_ne (hne (List.mem_append_right ["log", "last_locale", "command"] hnew))
  | savedLocale _ => exact contents_putFile_ne (hne (by decide))
  | appended => exact contents_copyLogFile (hne (by decide)) true
  | protectedLogs => exact contents_protectLogs
  | removedCommand => exact contents_erase.trans (if_neg (hne (by decide)))
  | installed text => rfl
  | flagged path => rfl

theorem LogChanges.contents_eq (h : LogChanges config state next) (hname : name ∉ changedFiles) :
    contents next.cache name = contents state.cache name := by
  induction h with
  | refl => rfl
  | tail _ hchange ih => exact (hchange.contents_eq hname).trans ih

theorem LogChange.locale_eq (h : LogChange config state next) : next.locale = state.locale := by
  cases h with
  | said _ => rfl
  | wrote _ _ => rfl
  | savedLocale _ => rfl
  | appended => rfl
  | protectedLogs => rfl
  | removedCommand => rfl
  | installed _ => rfl
  | flagged _ => rfl

/-- The saved locale is the one in use, or the one of before. -/
theorem LogChanges.locale (h : LogChanges config state next) :
    next.locale = state.locale ∧
      (contents next.cache "last_locale" = contents state.cache "last_locale" ∨
        state.locale.isSome ∧ contents next.cache "last_locale" = state.locale) := by
  induction h with
  | refl => exact ⟨rfl, .inl rfl⟩
  | tail _ hchange ih =>
    obtain ⟨hlocale, hfile⟩ := ih
    refine ⟨hchange.locale_eq.trans hlocale, ?_⟩
    cases hchange with
    | said _ => exact hfile
    | @wrote name hnew text =>
      have hne : "last_locale" ≠ name := by
        rintro rfl
        exact absurd hnew (by decide)
      rw [contents_putFile_ne hne]
      exact hfile
    | savedLocale hsome =>
      rw [hlocale] at hsome
      rw [hsome]
      exact .inr ⟨rfl, contents_putFile config.created_empty⟩
    | appended =>
      rw [contents_copyLogFile (by decide)]
      exact hfile
    | protectedLogs =>
      rw [contents_protectLogs]
      exact hfile
    | removedCommand =>
      rw [contents_erase, if_neg (by decide)]
      exact hfile
    | installed _ => exact hfile
    | flagged _ => exact hfile

/-- A format that keeps the files of the last run keeps the first 512 KiB of each,
and the copies behind it are changes. -/
theorem eraseCache_kept {erasure : CacheErasure}
    (hkeeps : (DeviceEvent.recovery (.eraseCache erasure)).Keeps) :
    ∃ restored, LogChanges config restored (eraseCache config state erasure).2 ∧
      restored.locale = state.locale ∧
      ∀ name, startsWith name "last" = true →
        contents restored.cache name = (contents state.cache name).map (List.take (2 ^ 19)) := by
  obtain ⟨hopendir, hrestores, hleft⟩ := hkeeps
  obtain ⟨said, restored, hsaid, -, hrestored, hfiles, heq⟩ :=
    eraseCache_stages config state erasure
  refine ⟨{ restored with tmplogOffset := 0 }, ?_, ?_, fun name hname => ?_⟩
  · rw [heq]
    exact changes_copyLogs config _ _
  · exact hrestored.locale_eq.trans hsaid.locale.1
  · rw [hopendir] at hfiles
    dsimp only
    rw [hfiles]
    exact contents_saved config hrestores hname (hleft state.cache name)

/-- The main system leaves the files of the last run alone. -/
theorem contents_handleAftermath {dir : Directory} (deletes : String → Bool)
    (hname : startsWith name "last_" = true) :
    contents (handleAftermath deletes dir) name = contents dir name := by
  refine List.foldlRecOn dir.keys _ (motive := fun after => contents after name = contents dir name)
    rfl fun after hafter deleted _ => ?_
  split
  · exact hafter
  · next hdeleted =>
    rw [deleteFile]
    split
    · rw [contents_erase, if_neg fun h : name = deleted => hdeleted (h ▸ hname)]
      exact hafter
    · exact hafter

theorem contents_bootCommand {dir : Directory} {deletes : String → Bool} {created : File}
    {arg : List Char} (hcommand : name ≠ "command") (hlog : name ≠ "log") :
    contents (bootCommand deletes created dir arg) name = contents dir name := by
  rw [bootCommand, contents_putFile_ne hcommand, deleteFile, deleteFile]
  split <;> split <;> simp only [contents_erase, if_neg hcommand, if_neg hlog]

end Contents

section Archive

variable {config : LogConfig} {state : LogState}

/-- The last log and its numbered files. -/
theorem lastLog_injOn : Set.InjOn lastLog {i | i ≤ 10} := by
  have hnames : ∀ i < 11, ∀ j < 11, lastLog i = lastLog j → i = j := by decide
  exact fun i hi j hj heq => hnames i (Nat.lt_succ_of_le hi) j (Nat.lt_succ_of_le hj) heq

theorem lastLog_kept : ∀ i ≤ 10, startsWith (lastLog i) "last_" = true ∧
    startsWith (lastLog i) "last" = true := by
  decide

theorem lastLog_succ_unchanged : ∀ i < 10, lastLog (i + 1) ∉ changedFiles := by decide

/-- What the last logs of earlier runs were when the next run began, and what a
format of the cache has left of them. -/
def remember (state : LogState) (event : DeviceEvent) (older : List (Option (List Char))) :
    List (Option (List Char)) :=
  match event with
  | .start how =>
    if how.mounted then contents state.cache "last_log" :: older else older
  | .recovery (.eraseCache _) => older.map (Option.map (List.take (2 ^ 19)))
  | _ => older

/-- The device and what it should remember, behind a list of events. -/
def runDevice (config : LogConfig) (start : LogState × List (Option (List Char)))
    (events : List DeviceEvent) : LogState × List (Option (List Char)) :=
  events.foldl (fun run event => (event.apply config run.1, remember run.1 event run.2)) start

/-- The numbered last logs are those of the latest runs. -/
def Archived (run : LogState × List (Option (List Char))) : Prop :=
  Holds lastLog 10 (contents run.1.cache) (contents run.1.cache (lastLog 0) :: run.2)

/-- Changes leave the logs of earlier runs alone. -/
theorem Archived.changes {older : List (Option (List Char))} {next : LogState}
    (h : Archived (state, older)) (hchanges : LogChanges config state next) :
    Archived (next, older) :=
  Holds.write h (by omega) fun i hi => hchanges.contents_eq (lastLog_succ_unchanged i hi)

/-- So does everything that acts on other files. -/
theorem Archived.congr {older : List (Option (List Char))} {next : LogState}
    (h : Archived (state, older))
    (hcontents : ∀ i < 10, contents next.cache (lastLog (i + 1)) =
      contents state.cache (lastLog (i + 1))) : Archived (next, older) :=
  Holds.write h (by omega) hcontents

theorem loadLocale_cache (opening : Opening) (buffer : List Char) :
    (loadLocale config state opening buffer).cache = state.cache := by
  have hfailed : (state.fopenPath config (cachePath "last_locale") opening).cache =
      state.cache := by
    cases opening with
    | unmounted => rfl
    | refused => rfl
    | opened => rfl
  unfold loadLocale
  split
  · rfl
  · exact hfailed

theorem startRecovery_cache (how : Start) :
    (startRecovery config state how).cache =
      if how.mounted then rotateLastLogs 10 state.cache else state.cache := by
  unfold startRecovery
  cases how.locale with
  | none => exact loadLocale_cache _ _
  | some locale => rfl

/-- A run begins with a rotation, which remembers the last log. -/
theorem Archived.start {older : List (Option (List Char))} (h : Archived (state, older))
    (how : Start) :
    Archived (startRecovery config state how, remember state (.start how) older) := by
  rw [Archived, startRecovery_cache, remember]
  cases how.mounted with
  | false => exact h
  | true =>
    have hrotated := Holds.rotate (f:=File.data) h lastLog_injOn (by omega)
    have hfirst : contents (rotateLastLogs 10 state.cache) (lastLog 0) = none :=
      hrotated.latest 0 (by omega)
    rw [if_pos rfl, if_pos rfl, hfirst]
    exact hrotated

/-- A format of the cache cuts the remembered logs. -/
theorem Archived.eraseCache {older : List (Option (List Char))} (h : Archived (state, older))
    {erasure : CacheErasure} (hkeeps : (DeviceEvent.recovery (.eraseCache erasure)).Keeps) :
    Archived ((RecoveryLogs.eraseCache config state erasure).2,
      older.map (Option.map (List.take (2 ^ 19)))) := by
  obtain ⟨restored, hchanges, -, hkept⟩ := @eraseCache_kept config _ erasure hkeeps
  have hmap := Holds.map h fun i hi => hkept (lastLog i) (lastLog_kept i hi).2
  rw [List.map_cons, ← hkept (lastLog 0) (by decide)] at hmap
  have harchived : Archived (restored, older.map (Option.map (List.take (2 ^ 19)))) := hmap
  exact harchived.changes hchanges

/-- Every event. -/
theorem Archived.apply {older : List (Option (List Char))} (h : Archived (state, older))
    {event : DeviceEvent} (hkeeps : event.Keeps) :
    Archived (event.apply config state, remember state event older) := by
  cases event with
  | start how => exact h.start how
  | handleAftermath deletes =>
    exact h.congr fun i hi =>
      contents_handleAftermath deletes (lastLog_kept (i + 1) (Nat.succ_le_of_lt hi)).1
  | bootCommand deletes created arg =>
    refine h.congr fun i hi => contents_bootCommand ?_ ?_
    · exact fun heq => lastLog_succ_unchanged i hi (heq ▸ by decide)
    · exact fun heq => lastLog_succ_unchanged i hi (heq ▸ by decide)
  | recovery event =>
    have hother (hformats : event.formats = false) (hplain : event.Plain) :
        Archived (event.apply config state, older) :=
      h.changes (changes_apply config state hformats hplain)
    cases event with
    | eraseCache erasure => exact h.eraseCache hkeeps
    | print text => exact h.congr fun _ _ => rfl
    | install text => exact hother rfl trivial
    | autoUpdateComplete path => exact hother rfl trivial
    | copyLogs access => exact hother rfl trivial
    | finishRecovery intent access mounted unlinks => exact hother rfl trivial
    | eraseOther volume result => exact hother rfl trivial
    | sureCacheMount mounts format =>
      cases hkeeps
      exact h

/-- Over any run of the device `last_log.1` to `last_log.9` are the last logs that
the latest nine recovery runs began with, newest first, and `last_log.10` is the
newest of all older ones; only a format of the cache cuts them to 512 KiB. A run that
cannot mount the cache rotates nothing and is not counted. -/
theorem last_logs_archive (config : LogConfig) {start : LogState}
    (hstart : ∀ i ≤ 10, contents start.cache (lastLog i) = none) {events : List DeviceEvent}
    (hevents : ∀ event ∈ events, event.Keeps) :
    let run := runDevice config (start, []) events
    (∀ i < 9, contents run.1.cache (lastLog (i + 1)) = run.2[i]?.join) ∧
      contents run.1.cache (lastLog 10) = (run.2.drop 9).findSome? id := by
  intro run
  have hfirst : Archived (start, []) := by
    refine ⟨fun i hi => ?_, hstart 10 le_rfl⟩
    cases i with
    | zero => rfl
    | succ i => exact hstart (i + 1) (by omega)
  have hrun : Archived run :=
    List.foldlRecOn events _ hfirst fun run h event hevent => h.apply (hevents event hevent)
  exact ⟨fun i hi => hrun.latest (i + 1) (by omega), hrun.oldest⟩

/-- Three runs on a device on which everything opens, the first two with a log. -/
def sampleRuns : List DeviceEvent :=
  [.start ⟨true, true, none, .opened, []⟩, .recovery (.print ['a']),
    .recovery (.copyLogs openAccess), .handleAftermath fun _ => true,
    .start ⟨true, true, none, .opened, []⟩, .recovery (.print ['b']),
    .recovery (.copyLogs openAccess), .start ⟨true, true, none, .opened, []⟩]

theorem sampleRuns_keep : ∀ event ∈ sampleRuns, event.Keeps := by
  intro event hevent
  simp only [sampleRuns, List.mem_cons, List.not_mem_nil, or_false] at hevent
  rcases hevent with rfl | rfl | rfl | rfl | rfl | rfl | rfl | rfl
  all_goals trivial

theorem last_logs_archive_sample :
    contents (runDevice sampleConfig (sampleStart, []) sampleRuns).1.cache (lastLog 2) =
      some ['a'] :=
  have hstart : ∀ i ≤ 10, contents sampleStart.cache (lastLog i) = none := fun _ _ => rfl
  ((last_logs_archive sampleConfig hstart sampleRuns_keep).1 1 (by decide)).trans
    (by decide +kernel)

end Archive

section Locale

variable {config : LogConfig} {state : LogState} {locale : List Char}

/-- A locale that `load_locale_from_cache` reads as it is. -/
structure PlainLocale (locale : List Char) : Prop where
  /-- It has characters. -/
  nonempty : locale ≠ []
  /-- They fit into the buffer with their end. -/
  fits : locale.length ≤ 79
  /-- None of them is taken for a blank or an end. -/
  graph : ∀ c ∈ locale, isSpace c = false ∧ c ≠ '\x00'

/-- A text without a newline that fits is read by one call. -/
theorem head_fgetsBuffers {size : ℕ} {text buf : List Char} (hnonempty : buf ++ text ≠ [])
    (hfits : buf.length + text.length + 1 ≤ size) (htext : '\n' ∉ text) :
    (fgetsBuffers size text buf).head? = some (buf ++ text) := by
  induction text generalizing buf with
  | nil =>
    rw [List.append_nil] at hnonempty
    rw [fgetsBuffers, if_neg hnonempty, List.append_nil, List.head?_cons]
  | cons c text ih =>
    rw [List.mem_cons, not_or] at htext
    rw [List.length_cons] at hfits
    rw [fgetsBuffers]
    split
    · next h =>
      have hlast : text = [] := by
        rcases h with hnewline | hfull
        · exact absurd hnewline.symm htext.1
        · exact List.length_eq_zero_iff.mp (by omega)
      rw [hlast, List.head?_cons]
    · rw [ih (by simp) (by rw [List.length_append, List.length_singleton]; omega) htext.2,
        List.append_assoc, List.singleton_append]

/-- What was saved is loaded. -/
theorem loadLocale_saved (hplain : PlainLocale locale)
    (hfile : contents state.cache "last_locale" = some locale) (buffer : List Char) :
    (loadLocale config state .opened buffer).locale = some locale := by
  obtain ⟨file, hlookup, rfl⟩ := Option.map_eq_some_iff.mp hfile
  have hnewline : '\n' ∉ file.data := by
    intro hmem
    exact absurd (hplain.graph _ hmem).1 (by decide)
  have hfits : ([] : List Char).length + file.data.length + 1 ≤ 80 := by
    have := hplain.fits
    rw [List.length_nil]
    omega
  have hhead : (fgetsBuffers 80 file.data []).head? = some file.data :=
    head_fgetsBuffers hplain.nonempty hfits hnewline
  have hstring : cString file.data = file.data := by
    refine List.takeWhile_eq_self_iff.mpr fun c hc => decide_eq_true (hplain.graph c hc).2
  have hspace : (file.data.filter fun c => !isSpace c) = file.data := by
    refine List.filter_eq_self.mpr fun c hc => ?_
    rw [(hplain.graph c hc).1]
    rfl
  unfold loadLocale
  rw [hlookup]
  dsimp only
  rw [hhead, Option.getD_some, hstring, hspace]

/-- The locale is saved, and no other one is in use. -/
structure SavedLocale (locale : List Char) (state : LogState) : Prop where
  /-- The file of the cache holds it. -/
  file : contents state.cache "last_locale" = some locale
  /-- The process uses it, or none. -/
  used : state.locale = none ∨ state.locale = some locale

theorem SavedLocale.changes {next : LogState} (h : SavedLocale locale state)
    (hchanges : LogChanges config state next) : SavedLocale locale next := by
  obtain ⟨hsame, hfile⟩ := hchanges.locale
  refine ⟨?_, hsame ▸ h.used⟩
  rcases hfile with hfile | ⟨hsome, hfile⟩
  · exact hfile.trans h.file
  · rcases h.used with hnone | hused
    · rw [hnone] at hsome
      cases hsome
    · exact hfile.trans hused

theorem SavedLocale.congr {next : LogState} (h : SavedLocale locale state)
    (hfile : contents next.cache "last_locale" = contents state.cache "last_locale")
    (hlocale : next.locale = state.locale) : SavedLocale locale next :=
  ⟨hfile.trans h.file, hlocale ▸ h.used⟩

/-- A run without a locale of its own loads the saved one. -/
theorem SavedLocale.start (h : SavedLocale locale state) (hplain : PlainLocale locale)
    {how : Start} (hnone : how.locale = none) :
    SavedLocale locale (startRecovery config state how) ∧
      (how.opening = .opened → (startRecovery config state how).locale = some locale) := by
  obtain ⟨begun, hunset, hcache, heq⟩ : ∃ begun : LogState, begun.locale = none ∧
      begun.cache = (if how.mounted then rotateLastLogs 10 state.cache else state.cache) ∧
      startRecovery config state how = loadLocale config begun how.opening how.buffer := by
    unfold startRecovery
    rw [hnone]
    exact ⟨_, rfl, rfl, rfl⟩
  have hfile : contents begun.cache "last_locale" = some locale := by
    rw [hcache]
    split
    · rw [contents, rotateLastLogs, lookup_rotate_other (by decide)]
      exact h.file
    · exact h.file
  have hloaded : how.opening = .opened →
      (startRecovery config state how).locale = some locale := by
    intro hopen
    rw [heq, hopen]
    exact loadLocale_saved hplain hfile _
  refine ⟨⟨?_, ?_⟩, hloaded⟩
  · rw [heq, loadLocale_cache]
    exact hfile
  · cases hopening : how.opening with
    | opened => exact .inr (hloaded hopening)
    | unmounted =>
      rw [heq, hopening]
      exact .inl hunset
    | refused =>
      rw [heq, hopening]
      exact .inl hunset

theorem SavedLocale.eraseCache (h : SavedLocale locale state) (hplain : PlainLocale locale)
    {erasure : CacheErasure} (hkeeps : (DeviceEvent.recovery (.eraseCache erasure)).Keeps) :
    SavedLocale locale (RecoveryLogs.eraseCache config state erasure).2 := by
  obtain ⟨restored, hchanges, hlocale, hkept⟩ := @eraseCache_kept config _ erasure hkeeps
  have hrestored : SavedLocale locale restored := by
    refine ⟨?_, hlocale ▸ h.used⟩
    have hfits := hplain.fits
    rw [hkept "last_locale" (by decide), h.file, Option.map_some, List.take_of_length_le]
    exact hfits.trans (by decide)
  exact hrestored.changes hchanges

/-- A run that is given no locale. -/
def DeviceEvent.GivesNoLocale : DeviceEvent → Prop
  | .start how => how.locale = none
  | _ => True

theorem SavedLocale.apply (h : SavedLocale locale state) (hplain : PlainLocale locale)
    {event : DeviceEvent} (hkeeps : event.Keeps) (hnone : event.GivesNoLocale) :
    SavedLocale locale (event.apply config state) := by
  cases event with
  | start how => exact (h.start hplain hnone).1
  | handleAftermath deletes =>
    exact h.congr (contents_handleAftermath deletes (by decide)) rfl
  | bootCommand deletes created arg =>
    exact h.congr (contents_bootCommand (by decide) (by decide)) rfl
  | recovery event =>
    have hother (hformats : event.formats = false) (hplain : event.Plain) :
        SavedLocale locale (event.apply config state) :=
      h.changes (changes_apply config state hformats hplain)
    cases event with
    | eraseCache erasure => exact h.eraseCache hplain hkeeps
    | print text => exact h.congr rfl rfl
    | install text => exact hother rfl trivial
    | autoUpdateComplete path => exact hother rfl trivial
    | copyLogs access => exact hother rfl trivial
    | finishRecovery intent access mounted unlinks => exact hother rfl trivial
    | eraseOther volume result => exact hother rfl trivial
    | sureCacheMount mounts format =>
      cases hkeeps
      exact h

/-- `finish_recovery` saves the locale in use, also if it crashes later on. -/
theorem savedLocale_finishRecovery (hlocale : state.locale = some locale) {access : Access}
    (hopen : access.opening "last_locale" = .opened) (intent : Option (List Char))
    (mounted unlinks : Bool) :
    SavedLocale locale
      (settled (finishRecovery config state intent access mounted unlinks)) := by
  have hsame : (writeIntent config state intent access).locale = some locale :=
    (changes_writeIntent config state intent access).locale.1.trans hlocale
  have hsave : ∃ next, saveLocale config (writeIntent config state intent access) access =
      .ok next ∧ SavedLocale locale next := by
    unfold saveLocale
    rw [hsame]
    dsimp only
    rw [if_pos hopen]
    exact ⟨_, rfl, contents_putFile config.created_empty, .inr hsame⟩
  obtain ⟨next, hnext, hsaved⟩ := hsave
  rw [finishRecovery, hnext]
  exact hsaved.changes (changes_finishLogs config next access mounted unlinks)

/-- Once `finish_recovery` has saved a locale without blanks of at most 79
characters, every later run that is given none uses it, as long as the runs in
between are given none either and every format of the cache is followed by its kept
files; the logs, the clean-ups and the reboot commands do not matter. -/
theorem locale_kept (config : LogConfig) {start : LogState} {locale : List Char}
    (hplain : PlainLocale locale) (hlocale : start.locale = some locale) {access : Access}
    (hopen : access.opening "last_locale" = .opened) (intent : Option (List Char))
    (mounted unlinks : Bool) {events : List DeviceEvent}
    (hevents : ∀ event ∈ events, event.Keeps ∧ event.GivesNoLocale) {how : Start}
    (hnone : how.locale = none) (hloads : how.opening = .opened) :
    let saved := settled (finishRecovery config start intent access mounted unlinks)
    (startRecovery config (events.foldl (DeviceEvent.apply config) saved) how).locale =
      some locale := by
  intro saved
  have hsaved : SavedLocale locale saved :=
    savedLocale_finishRecovery hlocale hopen intent mounted unlinks
  have hkept : SavedLocale locale (events.foldl (DeviceEvent.apply config) saved) :=
    List.foldlRecOn events _ hsaved fun _ h event hevent =>
      h.apply hplain (hevents event hevent).1 (hevents event hevent).2
  exact (hkept.start hplain hnone).2 hloads

theorem locale_kept_sample :
    (startRecovery sampleConfig
      ((DeviceEvent.recovery (.eraseCache
          ⟨.opened, fun _ => (0, ∅), fun _ => .opened, openAccess⟩) :: sampleRuns).foldl
        (DeviceEvent.apply sampleConfig)
        (settled (finishRecovery sampleConfig { sampleStart with locale := some ['e', 'n'] } none
          openAccess true true))) ⟨true, true, none, .opened, []⟩).locale = some ['e', 'n'] := by
  have hgraph : ∀ c ∈ ['e', 'n'], isSpace c = false ∧ c ≠ '\x00' := by
    intro c hc
    simp only [List.mem_cons, List.not_mem_nil, or_false] at hc
    rcases hc with rfl | rfl
    · exact ⟨rfl, by decide⟩
    · exact ⟨rfl, by decide⟩
  have hplain : PlainLocale ['e', 'n'] := ⟨by decide, by decide, hgraph⟩
  refine locale_kept sampleConfig hplain rfl rfl
    none true true (fun event hevent => ?_) rfl rfl
  rcases List.mem_cons.mp hevent with rfl | hevent
  · exact ⟨⟨rfl, fun _ => rfl, fun _ name hname => absurd hname (AList.notMem_empty name)⟩, trivial⟩
  · refine ⟨sampleRuns_keep event hevent, ?_⟩
    simp only [sampleRuns, List.mem_cons, List.not_mem_nil, or_false] at hevent
    rcases hevent with rfl | rfl | rfl | rfl | rfl | rfl | rfl | rfl
    all_goals first | exact True.intro | exact rfl

end Locale

end RobotOta.RecoveryLogs
