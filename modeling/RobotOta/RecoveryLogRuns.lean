import RobotOta.RecoveryLogFiles

/-!
# Every piece of the log is copied once

`tmplog_offset` divides the temporary log into what is in `LOG_FILE` and what is
still to be appended. Copies, final steps and formats of the cache may follow
each other in any order: behind what the last format left of it, `LOG_FILE` has
each piece of the temporary log once, in order. A format that fails and leaves the
log where it is has the pieces in it copied again.
-/

namespace RobotOta.RecoveryLogs

open CommandLine RecoveryRequests RotatingSlots

/-- What one process of the recovery program does to the log files: text is
printed, a package installed, an automatic update completed, or one of the
functions is called. -/
inductive RecoveryEvent where
  | print (text : List Char)
  | install (text : List Char)
  | autoUpdateComplete (path : List Char)
  | copyLogs (access : Access)
  | finishRecovery (intent : Option (List Char)) (access : Access) (mounted unlinks : Bool)
  | eraseCache (erasure : CacheErasure)
  | eraseOther (volume : String) (result : Int)
  | sureCacheMount (mounts : Bool) (format : Directory → Int × Directory)

/-- The state behind an event. -/
def RecoveryEvent.apply (config : LogConfig) (state : LogState) : RecoveryEvent → LogState
  | .print text => { state with temporaryLog := state.temporaryLog ++ text }
  | .install text => { state with temporaryInstall := some text }
  | .autoUpdateComplete path => { state with autoUpdate := some path }
  | .copyLogs access => RecoveryLogs.copyLogs config state access
  | .finishRecovery intent access mounted unlinks =>
    settled (RecoveryLogs.finishRecovery config state intent access mounted unlinks)
  | .eraseCache erasure => (RecoveryLogs.eraseCache config state erasure).2
  | .eraseOther volume result => (RecoveryLogs.eraseOther config state volume result).2
  | .sureCacheMount mounts format => RecoveryLogs.sureCacheMount config state mounts format

/-- The state behind the events of a process. -/
def runRecovery (config : LogConfig) (state : LogState) (events : List RecoveryEvent) : LogState :=
  events.foldl (RecoveryEvent.apply config) state

/-- The events that format the cache. -/
def RecoveryEvent.formats : RecoveryEvent → Bool
  | .eraseCache _ => true
  | .sureCacheMount mounts _ => !mounts
  | _ => false

/-- Printed text has no null characters. -/
def RecoveryEvent.Plain : RecoveryEvent → Prop
  | .print text => '\x00' ∉ text
  | _ => True

/-- No log survives a format. -/
def RecoveryEvent.TakesLog : RecoveryEvent → Prop
  | .eraseCache erasure => ∀ dir, "log" ∉ (erasure.format dir).2
  | .sureCacheMount _ format => ∀ dir, "log" ∉ (format dir).2
  | _ => True

/-- The text that the log file begins with behind an event: a format leaves its own. -/
def RecoveryEvent.base (state : LogState) (base : List Char) : RecoveryEvent → List Char
  | .eraseCache erasure => (contents (erasure.format state.cache).2 "log").getD []
  | .sureCacheMount mounts format =>
    if mounts then base else (contents (format state.cache).2 "log").getD []
  | _ => base

/-- The text that the log file begins with behind a run. -/
def logBase (config : LogConfig) : LogState → (base : List Char) → List RecoveryEvent → List Char
  | _, base, [] => base
  | state, base, event :: events =>
    logBase config (event.apply config state) (event.base state base) events

/-- An event that does not format the cache is made of changes. -/
theorem changes_apply (config : LogConfig) (state : LogState) {event : RecoveryEvent}
    (hformats : event.formats = false) (hplain : event.Plain) :
    LogChanges config state (event.apply config state) := by
  cases event with
  | print text => exact .single (.said state hplain)
  | install text => exact .single (.installed state text)
  | autoUpdateComplete path => exact .single (.flagged state (some path))
  | copyLogs access => exact changes_copyLogs config state access
  | finishRecovery intent access mounted unlinks =>
    exact changes_finishRecovery config state intent access mounted unlinks
  | eraseCache erasure => cases hformats
  | eraseOther volume result => exact changes_say config state _
  | sureCacheMount mounts format =>
    cases mounts with
    | false => cases hformats
    | true => exact .refl

/-- A format of the cache: messages, the files that are left and those kept in
memory, and copies from the beginning of the temporary log. -/
theorem eraseCache_stages (config : LogConfig) (state : LogState) (erasure : CacheErasure) :
    ∃ said restored, LogChanges config state said ∧ said.cache = state.cache ∧
      Restored (loadLogFiles config state erasure.opendir).1
        { said with cache := (erasure.format state.cache).2 } restored ∧
      restored = restoreLogFiles config erasure.restores
        { said with cache := (erasure.format state.cache).2 }
        (loadLogFiles config state erasure.opendir).1 ∧
      (eraseCache config state erasure).2 =
        copyLogs config { restored with tmplogOffset := 0 } erasure.access := by
  have hload : LogChanges config state (loadLogFiles config state erasure.opendir).2 ∧
      (loadLogFiles config state erasure.opendir).2.cache = state.cache := by
    cases erasure.opendir with
    | opened => exact ⟨.refl, rfl⟩
    | missing => exact ⟨.refl, rfl⟩
    | failed error => exact ⟨changes_say config state _, rfl⟩
  have hcache : ((loadLogFiles config state erasure.opendir).2.say config
      "Formatting /cache...\n").cache = state.cache := hload.2
  refine ⟨_, _, hload.1.trans (changes_say config _ "Formatting /cache...\n"), hcache,
    restored_restoreLogFiles config _ _, rfl, ?_⟩
  rw [← hcache]
  rfl

/-- The log file is an older text and what was copied of the temporary log. -/
structure Copied (base : List Char) (state : LogState) : Prop where
  plain : '\x00' ∉ state.temporaryLog
  offset_le : state.tmplogOffset ≤ state.temporaryLog.length
  log_eq : (contents state.cache "log").getD [] =
    base ++ state.temporaryLog.take state.tmplogOffset

section Copied

variable {base : List Char} {state next : LogState}

/-- Other files and variables do not matter. -/
theorem Copied.congr (h : Copied base state) (hlog : next.temporaryLog = state.temporaryLog)
    (hoffset : next.tmplogOffset = state.tmplogOffset)
    (hcontents : contents next.cache "log" = contents state.cache "log") : Copied base next where
  plain := hlog ▸ h.plain
  offset_le := by
    rw [hoffset, hlog]
    exact h.offset_le
  log_eq := by rw [hcontents, h.log_eq, hoffset, hlog]

variable {config : LogConfig}

/-- The rest of the temporary log is appended to the log file. -/
theorem Copied.append_log (h : Copied base state) :
    Copied base (copyLogFile config state (some state.temporaryLog) "log" true .opened) := by
  have hoffset : max state.tmplogOffset state.temporaryLog.length = state.temporaryLog.length :=
    max_eq_right h.offset_le
  refine ⟨h.plain, hoffset.le, ?_⟩
  have hrest : '\x00' ∉ state.temporaryLog.drop state.tmplogOffset :=
    fun hmem => h.plain (List.mem_of_mem_drop hmem)
  have hcontents : contents (putFile config.created state.cache "log"
      (· ++ copyText (state.temporaryLog.drop state.tmplogOffset))) "log" =
        some ((contents state.cache "log").getD [] ++
          state.temporaryLog.drop state.tmplogOffset) := by
    rw [contents_putFile config.created_empty, copyText_eq hrest]
  have htake : state.temporaryLog.take (max state.tmplogOffset state.temporaryLog.length) =
      state.temporaryLog.take state.tmplogOffset ++ state.temporaryLog.drop state.tmplogOffset := by
    rw [hoffset, List.take_length, List.take_append_drop]
  refine Eq.trans ?_ (congrArg (base ++ ·) htake.symm)
  rw [← List.append_assoc, ← h.log_eq]
  exact congrArg (Option.getD · []) hcontents

/-- No change loses or repeats a piece of the temporary log. -/
theorem Copied.change (h : Copied base state) (hchange : LogChange config state next) :
    Copied base next := by
  cases hchange with
  | @said text htext =>
    refine ⟨?_, ?_, ?_⟩
    · rw [List.mem_append, not_or]
      exact ⟨h.plain, htext⟩
    · rw [List.length_append]
      exact Nat.le_add_right_of_le h.offset_le
    · rw [h.log_eq, List.take_append_of_le_length h.offset_le]
  | @wrote name hname text =>
    have hne : "log" ≠ name := by
      rintro rfl
      exact absurd hname (by decide)
    exact h.congr rfl rfl (contents_putFile_ne hne)
  | savedLocale _ =>
    exact h.congr rfl rfl (contents_putFile_ne (by decide))
  | appended => exact h.append_log
  | protectedLogs => exact h.congr rfl rfl contents_protectLogs
  | removedCommand => exact h.congr rfl rfl (contents_erase.trans (if_neg (by decide)))
  | installed text => exact h.congr rfl rfl rfl
  | flagged path => exact h.congr rfl rfl rfl

theorem Copied.changes (h : Copied base state) (hchanges : LogChanges config state next) :
    Copied base next := by
  induction hchanges with
  | refl => exact h
  | tail _ hchange ih => exact ih.change hchange

/-- After a format the log file begins with what was left of it. -/
theorem Copied.eraseCache (h : Copied base state) (erasure : CacheErasure) :
    Copied ((contents (erasure.format state.cache).2 "log").getD [])
      (RecoveryLogs.eraseCache config state erasure).2 := by
  obtain ⟨said, restored, hsaid, -, hrestored, -, heq⟩ := eraseCache_stages config state erasure
  have hsaid := h.changes hsaid
  have hsaved : ∀ entry ∈ (loadLogFiles config state erasure.opendir).1, entry.1 ≠ "log" := by
    intro entry hentry hlog
    cases hopendir : erasure.opendir with
    | opened =>
      rw [hopendir] at hentry
      have hlast := startsWith_of_saved hentry
      rw [hlog] at hlast
      exact absurd hlast (by decide)
    | missing => simp [hopendir, loadLogFiles] at hentry
    | failed error => simp [hopendir, loadLogFiles] at hentry
  have hleft : contents restored.cache "log" =
      contents (erasure.format state.cache).2 "log" := hrestored.contents_eq "log" hsaved
  obtain ⟨text, htext, hlog⟩ := hrestored.said
  have hreset : Copied ((contents (erasure.format state.cache).2 "log").getD [])
      { restored with tmplogOffset := 0 } := by
    refine ⟨?_, Nat.zero_le _, ?_⟩
    · rw [hlog, List.mem_append, not_or]
      exact ⟨hsaid.plain, htext⟩
    · rw [hleft, List.take_zero, List.append_nil]
  rw [heq]
  exact hreset.changes (changes_copyLogs config _ erasure.access)

/-- One event, with the text it leaves in front. -/
theorem Copied.apply (h : Copied base state) {event : RecoveryEvent} (hplain : event.Plain) :
    Copied (event.base state base) (event.apply config state) := by
  have hother (hformats : event.formats = false) : Copied base (event.apply config state) :=
    h.changes (changes_apply config state hformats hplain)
  cases event with
  | eraseCache erasure => exact h.eraseCache erasure
  | sureCacheMount mounts format =>
    cases mounts with
    | true => exact h
    | false =>
      have hsaid := h.changes (changes_say config state "mount cache fail,so formate...\n")
      refine ⟨hsaid.plain, Nat.zero_le _, ?_⟩
      exact (List.append_nil _).symm
  | print text => exact hother rfl
  | install text => exact hother rfl
  | autoUpdateComplete path => exact hother rfl
  | copyLogs access => exact hother rfl
  | finishRecovery intent access mounted unlinks => exact hother rfl
  | eraseOther volume result => exact hother rfl

/-- A whole run of a process. -/
theorem Copied.run (h : Copied base state) {events : List RecoveryEvent}
    (hplain : ∀ event ∈ events, event.Plain) :
    Copied (logBase config state base events) (runRecovery config state events) := by
  induction events generalizing base state with
  | nil => exact h
  | cons event events ih =>
    exact ih (h.apply (hplain event List.mem_cons_self))
      fun other hother => hplain other (List.mem_cons_of_mem _ hother)

/-- Where formats take the log away, the text in front is that of the beginning or
none. -/
theorem base_eq {event : RecoveryEvent} (htakes : event.TakesLog) :
    event.base state base = if event.formats then [] else base := by
  have hnone : ∀ dir : Directory, "log" ∉ dir → (contents dir "log").getD [] = [] := by
    intro dir hlog
    rw [contents, AList.lookup_eq_none.mpr hlog]
    rfl
  cases event with
  | eraseCache erasure => exact hnone _ (htakes _)
  | sureCacheMount mounts format =>
    cases mounts with
    | true => rfl
    | false => exact hnone _ (htakes _)
  | print text => rfl
  | install text => rfl
  | autoUpdateComplete path => rfl
  | copyLogs access => rfl
  | finishRecovery intent access mounted unlinks => rfl
  | eraseOther volume result => rfl

theorem logBase_eq {events : List RecoveryEvent} (htakes : ∀ event ∈ events, event.TakesLog) :
    logBase config state base events = if events.any RecoveryEvent.formats then [] else base := by
  induction events generalizing base state with
  | nil => rfl
  | cons event events ih =>
    rw [logBase, ih fun other hother => htakes other (List.mem_cons_of_mem _ hother),
      base_eq (htakes event List.mem_cons_self), List.any_cons]
    cases event.formats with
    | false => rfl
    | true => rw [if_pos rfl, ite_self, Bool.true_or, if_pos rfl]

/-- A copy to one file is no copy to another. -/
theorem contents_copyLogFile {source : Option (List Char)} {destination name : String}
    {opening : Opening} (hname : name ≠ destination) (append : Bool) :
    contents (copyLogFile config state source destination append opening).cache name =
      contents state.cache name := by
  unfold copyLogFile
  split
  · cases source with
    | none => exact contents_putFile_ne hname
    | some text =>
      cases append with
      | false => exact contents_putFile_ne hname
      | true => exact contents_putFile_ne hname
  · cases opening with
    | unmounted => rfl
    | refused => rfl
    | opened => rfl

/-- `copy_logs` brings the log file up to date and makes the last log anew. -/
theorem Copied.contents_copyLogs (h : Copied base state) {access : Access}
    (hlog : access.opening "log" = .opened) :
    contents (copyLogs config state access).cache "log" = some (base ++ state.temporaryLog) ∧
      (access.opening "last_log" = .opened →
        contents (copyLogs config state access).cache "last_log" = some state.temporaryLog) := by
  obtain ⟨logged, copied, installed, hlogged, hcopied, hinstalled, heq⟩ :=
    copyLogs_stages config state access
  rw [hlog] at hlogged
  have hsame : ∀ name, contents (copyLogs config state access).cache name =
      contents installed.cache name := by
    intro name
    rw [heq]
    split
    · exact contents_protectLogs
    · rfl
  have hinstall : ∀ name, name ≠ "last_install" →
      contents installed.cache name = contents copied.cache name :=
    fun name hname => hinstalled ▸ contents_copyLogFile hname false
  have htext : logged.temporaryLog = state.temporaryLog := hlogged ▸ rfl
  constructor
  · rw [hsame, hinstall _ (by decide), hcopied, contents_copyLogFile (by decide)]
    have happended : Copied base logged := hlogged ▸ h.append_log
    have hoffset : logged.tmplogOffset = state.temporaryLog.length := by
      rw [hlogged]
      exact max_eq_right h.offset_le
    have hthere : contents logged.cache "log" = some ((contents logged.cache "log").getD []) := by
      rw [hlogged]
      unfold copyLogFile
      rw [if_pos rfl]
      dsimp only
      rw [if_pos rfl, contents_putFile config.created_empty]
      rfl
    rw [hthere, happended.log_eq, htext, hoffset, List.take_length]
  · intro hlast
    rw [hsame, hinstall _ (by decide), hcopied, hlast, htext]
    refine (contents_putFile config.created_empty).trans ?_
    rw [copyText_eq h.plain]

end Copied

/-- Along every run of a process the log file has what it had at the beginning, or
what the last format of the cache left of it, and behind it each copied piece of
the temporary log once; formats that take the log away leave nothing of it. Where
the files open, `copy_logs` completes it, and the last log becomes the temporary log
as a whole. -/
theorem log_copied_once (config : LogConfig) {start : LogState}
    (hoffset : start.tmplogOffset = 0) (hplain : '\x00' ∉ start.temporaryLog)
    {events : List RecoveryEvent} (hevents : ∀ event ∈ events, event.Plain) :
    let state := runRecovery config start events
    let base := logBase config start ((contents start.cache "log").getD []) events
    (contents state.cache "log").getD [] =
        base ++ state.temporaryLog.take state.tmplogOffset ∧
      ((∀ event ∈ events, event.TakesLog) →
        base = if events.any RecoveryEvent.formats then []
          else (contents start.cache "log").getD []) ∧
      ∀ access : Access, access.opening "log" = .opened →
        contents (copyLogs config state access).cache "log" =
            some (base ++ state.temporaryLog) ∧
          (access.opening "last_log" = .opened →
            contents (copyLogs config state access).cache "last_log" =
              some state.temporaryLog) := by
  intro state base
  have hstart : Copied ((contents start.cache "log").getD []) start := by
    refine ⟨hplain, by omega, ?_⟩
    rw [hoffset, List.take_zero, List.append_nil]
  have hrun : Copied base state := hstart.run hevents
  exact ⟨hrun.log_eq, logBase_eq, fun access hlog => hrun.contents_copyLogs hlog⟩

/-- A setup in which every message leaves one character. -/
def sampleConfig : LogConfig where
  said _ := ['E']
  created := ⟨[], 0o600, (0, 0)⟩
  said_plain _ := by decide
  created_empty := rfl

/-- A device on which every path opens. -/
def openAccess : Access := ⟨fun _ => .opened, true⟩

/-- An empty cache behind a fresh start. -/
def sampleStart : LogState := ⟨[], none, 0, none, none, ∅⟩

/-- Text before and behind a copy, then a format and the final step. -/
def sampleEvents (format : Directory → Int × Directory) : List RecoveryEvent :=
  [.print ['a', 'b'], .copyLogs openAccess, .print ['c'],
    .eraseCache ⟨.opened, format, fun _ => .opened, openAccess⟩,
    .finishRecovery none openAccess true true]

/-- A format that takes the log away has it copied anew; one that fails and leaves it
has its text copied twice. -/
theorem log_copied_once_sample :
    contents (copyLogs sampleConfig (runRecovery sampleConfig sampleStart
        (sampleEvents fun _ => (0, ∅))) openAccess).cache "log" = some ['a', 'b', 'c', 'E'] ∧
      contents (copyLogs sampleConfig (runRecovery sampleConfig sampleStart
        (sampleEvents fun dir => (-1, dir))) openAccess).cache "log" =
          some ['a', 'b', 'a', 'b', 'c', 'E'] := by
  have hevents : ∀ format, ∀ event ∈ sampleEvents format, event.Plain := by
    intro format event hevent
    simp only [sampleEvents, List.mem_cons, List.not_mem_nil, or_false] at hevent
    rcases hevent with rfl | rfl | rfl | rfl | rfl
    · exact (by decide : '\x00' ∉ ['a', 'b'])
    · trivial
    · exact (by decide : '\x00' ∉ ['c'])
    · trivial
    · trivial
  have hplain : '\x00' ∉ sampleStart.temporaryLog := by decide
  constructor
  · have h := log_copied_once sampleConfig rfl hplain (hevents fun _ => (0, ∅))
    exact (h.2.2 openAccess rfl).1
  · have h := log_copied_once sampleConfig rfl hplain (hevents fun dir => (-1, dir))
    exact (h.2.2 openAccess rfl).1

end RobotOta.RecoveryLogs
