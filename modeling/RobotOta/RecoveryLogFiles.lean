import Mathlib.Logic.Relation
import RobotOta.RecoveryLogs

/-!
# What the log functions can do

The contents of the files, and the single changes that the log functions are
made of. What holds along every change holds along every function.
-/

namespace RobotOta.RecoveryLogs

open CommandLine RecoveryRequests RotatingSlots

/-- The contents of a file, if it is there. -/
def contents (dir : Directory) (name : String) : Option (List Char) :=
  (dir.lookup name).map File.data

/-- What a call leaves, also where it crashes. -/
def settled : Except LogState LogState → LogState
  | .ok state => state
  | .error state => state

section Text

/-- Pieces of a text without a null character are its pieces as C strings. -/
theorem flatMap_fgetsBuffers {size : ℕ} {text buf : List Char} (htext : '\x00' ∉ text)
    (hbuf : '\x00' ∉ buf) : (fgetsBuffers size text buf).flatMap cString = buf ++ text := by
  have hplain : ∀ {buf : List Char}, '\x00' ∉ buf → cString buf = buf := by
    intro buf hbuf
    refine List.takeWhile_eq_self_iff.mpr fun c hc => decide_eq_true ?_
    rintro rfl
    exact hbuf hc
  induction text generalizing buf with
  | nil =>
    rw [fgetsBuffers]
    split
    · next h => rw [h]; rfl
    · rw [List.flatMap_singleton, hplain hbuf, List.append_nil]
  | cons c text ih =>
    rw [List.mem_cons, not_or] at htext
    have hgrown : '\x00' ∉ buf ++ [c] := by simpa using ⟨hbuf, htext.1⟩
    rw [fgetsBuffers]
    split
    · rw [List.flatMap_cons, hplain hgrown, ih htext.2 List.not_mem_nil, List.nil_append,
        List.append_assoc, List.singleton_append]
    · rw [ih htext.2 hgrown, List.append_assoc, List.singleton_append]

/-- The copy loop copies text as it is. -/
theorem copyText_eq {text : List Char} (h : '\x00' ∉ text) : copyText text = text :=
  flatMap_fgetsBuffers h List.not_mem_nil

end Text

section Contents

variable {created : File} {dir : Directory} {name other : String}
  {change : List Char → List Char}

theorem contents_insert (file : File) :
    contents (dir.insert name file) other =
      if other = name then some file.data else contents dir other := by
  rw [contents]
  split
  · next h => rw [h, AList.lookup_insert, Option.map_some]
  · next h => rw [AList.lookup_insert_ne h, contents]

theorem contents_erase :
    contents (dir.erase name) other = if other = name then none else contents dir other := by
  rw [contents]
  split
  · next h => rw [h, AList.lookup_erase, Option.map_none]
  · next h => rw [AList.lookup_erase_ne h, contents]

theorem contents_putFile_ne (h : other ≠ name) :
    contents (putFile created dir name change) other = contents dir other :=
  (contents_insert _).trans (if_neg h)

theorem contents_putFile (hcreated : created.data = []) :
    contents (putFile created dir name change) name =
      some (change ((contents dir name).getD [])) := by
  rw [putFile, contents_insert, if_pos rfl, contents]
  cases dir.lookup name with
  | none => rw [Option.getD_none, hcreated]; rfl
  | some file => rfl

theorem contents_changeFile {change : File → File} (h : ∀ file, (change file).data = file.data) :
    contents (changeFile dir name change) other = contents dir other := by
  rw [changeFile]
  cases hfile : dir.lookup name with
  | none => rfl
  | some file =>
    rw [contents_insert, h]
    split
    · next heq => rw [heq, contents, hfile, Option.map_some]
    · rfl

/-- Modes and owners are no contents. -/
theorem contents_protectLogs : contents (protectLogs dir) name = contents dir name := by
  simp only [protectLogs, contents_changeFile, implies_true]

end Contents

/-- The files that are written anew. -/
def newFiles : List String := ["intent", "last_log", "last_install", "last_flag"]

/-- The single changes: text in the temporary log, a file written anew, the locale
saved, the rest of the temporary log appended to the log file, modes and owners,
the command removed, the temporary installation file, the flag of an update. -/
inductive LogChange (config : LogConfig) : LogState → LogState → Prop
  | said (state : LogState) {text : List Char} (h : '\x00' ∉ text) :
    LogChange config state { state with temporaryLog := state.temporaryLog ++ text }
  | wrote (state : LogState) {name : String} (h : name ∈ newFiles) (text : List Char) :
    LogChange config state
      { state with cache := putFile config.created state.cache name fun _ => text }
  | savedLocale (state : LogState) {locale : List Char} (h : state.locale = some locale) :
    LogChange config state
      { state with cache := putFile config.created state.cache "last_locale" fun _ => locale }
  | appended (state : LogState) :
    LogChange config state
      (copyLogFile config state (some state.temporaryLog) "log" true .opened)
  | protectedLogs (state : LogState) :
    LogChange config state { state with cache := protectLogs state.cache }
  | removedCommand (state : LogState) :
    LogChange config state { state with cache := state.cache.erase "command" }
  | installed (state : LogState) (text : List Char) :
    LogChange config state { state with temporaryInstall := some text }
  | flagged (state : LogState) (path : Option (List Char)) :
    LogChange config state { state with autoUpdate := path }

/-- Any number of changes. -/
abbrev LogChanges (config : LogConfig) : LogState → LogState → Prop :=
  Relation.ReflTransGen (LogChange config)

section Changes

variable (config : LogConfig) (state : LogState)

theorem changes_say (message : String) : LogChanges config state (state.say config message) :=
  .single (.said state (config.said_plain message))

/-- A failed `fopen_path` adds text to the temporary log and does nothing else. -/
theorem changes_fopenPath (path : String) (opening : Opening) :
    LogChanges config state (state.fopenPath config path opening) := by
  cases opening with
  | unmounted => exact changes_say config state _
  | refused => exact .refl
  | opened => exact .refl

theorem changes_complain (path : String) (opening : Opening) :
    LogChanges config state (state.complain config path opening) :=
  (changes_fopenPath config state path opening).trans (changes_say config _ _)

/-- A copy to a new file. -/
theorem changes_copyLogFile {destination : String} (h : destination ∈ newFiles)
    (source : Option (List Char)) (opening : Opening) :
    LogChanges config state (copyLogFile config state source destination false opening) := by
  unfold copyLogFile
  split
  · cases source with
    | none => exact .single (.wrote state h _)
    | some text => exact .single (.wrote state h _)
  · exact changes_complain config state _ _

/-- The copy that appends to the log file. -/
theorem changes_copyLog (opening : Opening) :
    LogChanges config state
      (copyLogFile config state (some state.temporaryLog) "log" true opening) := by
  by_cases h : opening = .opened
  · rw [h]
    exact .single (.appended state)
  · unfold copyLogFile
    rw [if_neg h]
    exact changes_complain config state _ _

/-- The three copies of `copy_logs`, and what follows them. -/
theorem copyLogs_stages (access : Access) : ∃ logged copied installed,
    logged = copyLogFile config state (some state.temporaryLog) "log" true
      (access.opening "log") ∧
    copied = copyLogFile config logged (some logged.temporaryLog) "last_log" false
      (access.opening "last_log") ∧
    installed = copyLogFile config copied copied.temporaryInstall "last_install" false
      (access.opening "last_install") ∧
    copyLogs config state access =
      if access.mounted then { installed with cache := protectLogs installed.cache }
      else installed :=
  ⟨_, _, _, rfl, rfl, rfl, rfl⟩

theorem changes_copyLogs (access : Access) :
    LogChanges config state (copyLogs config state access) := by
  obtain ⟨logged, copied, installed, hlogged, hcopied, hinstalled, heq⟩ :=
    copyLogs_stages config state access
  have hlog : LogChanges config state logged := hlogged ▸ changes_copyLog config state _
  have hlast : LogChanges config logged copied :=
    hcopied ▸ changes_copyLogFile config logged (by decide) _ _
  have hinstall : LogChanges config copied installed :=
    hinstalled ▸ changes_copyLogFile config copied (by decide) _ _
  have hcopies := (hlog.trans hlast).trans hinstall
  rw [heq]
  split
  · exact hcopies.tail (.protectedLogs installed)
  · exact hcopies

theorem changes_writeIntent (intent : Option (List Char)) (access : Access) :
    LogChanges config state (writeIntent config state intent access) := by
  unfold writeIntent
  cases intent with
  | none => exact .refl
  | some intent =>
    dsimp only
    split
    · exact .single (.wrote state (by decide) _)
    · exact changes_complain config state _ _

theorem changes_saveLocale (access : Access) :
    LogChanges config state (settled (saveLocale config state access)) := by
  unfold saveLocale
  cases hlocale : state.locale with
  | none => exact .refl
  | some locale =>
    dsimp only
    split
    · exact (changes_say config state _).tail (.savedLocale _ hlocale)
    · exact (changes_say config state _).trans (changes_fopenPath config _ _ _)

theorem changes_writeFlag (access : Access) :
    LogChanges config state (settled (writeFlag config state access)) := by
  unfold writeFlag
  cases state.autoUpdate with
  | none => exact .refl
  | some updatePath =>
    dsimp only
    split
    · exact (Relation.ReflTransGen.single (.wrote state (by decide) _)).tail (.flagged _ none)
    · exact changes_complain config state _ _

theorem changes_finishLogs (access : Access) (mounted unlinks : Bool) :
    LogChanges config state (settled (finishLogs config state access mounted unlinks)) := by
  have hflag := (changes_copyLogs config state access).trans (changes_writeFlag config _ access)
  unfold finishLogs
  cases hwrite : writeFlag config (copyLogs config state access) access with
  | error crashed =>
    rw [hwrite] at hflag
    exact hflag
  | ok next =>
    rw [hwrite] at hflag
    dsimp only
    split
    · split
      · exact hflag.tail (.removedCommand _)
      · split
        · exact hflag.trans (changes_say config _ _)
        · exact hflag
    · exact hflag.trans (changes_say config _ _)

/-- `finish_recovery` is made of these changes, also where it crashes. -/
theorem changes_finishRecovery (intent : Option (List Char)) (access : Access)
    (mounted unlinks : Bool) :
    LogChanges config state
      (settled (finishRecovery config state intent access mounted unlinks)) := by
  have hsave := (changes_writeIntent config state intent access).trans
    (changes_saveLocale config _ access)
  unfold finishRecovery
  cases hlocale : saveLocale config (writeIntent config state intent access) access with
  | error crashed =>
    rw [hlocale] at hsave
    exact hsave
  | ok next =>
    rw [hlocale] at hsave
    exact hsave.trans (changes_finishLogs config next access mounted unlinks)

end Changes

/-- The names of the kept files. -/
theorem startsWith_of_saved {dir : Directory} {entry : String × File}
    (h : entry ∈ savedLogFiles dir) : startsWith entry.1 "last" = true := by
  rw [savedLogFiles, List.mem_reverse, List.mem_map] at h
  obtain ⟨saved, hsaved, rfl⟩ := h
  exact (List.mem_filter.mp hsaved).2

section Restore

variable (config : LogConfig) {opening : String → Opening}

/-- The messages of a restoration, and the files that it does not write. -/
structure Restored (saved : List (String × File)) (state next : LogState) : Prop where
  said : ∃ text, '\x00' ∉ text ∧ next.temporaryLog = state.temporaryLog ++ text
  locale_eq : next.locale = state.locale
  contents_eq : ∀ name, (∀ entry ∈ saved, entry.1 ≠ name) →
    contents next.cache name = contents state.cache name

theorem restored_restoreLogFile (state : LogState) (entry : String × File)
    (opening : Opening) : Restored [entry] state (restoreLogFile config state entry opening) := by
  unfold restoreLogFile
  split
  · refine ⟨⟨[], List.not_mem_nil, (List.append_nil _).symm⟩, rfl, fun name hname => ?_⟩
    exact (contents_insert _).trans (if_neg fun h => hname entry (List.mem_singleton_self _) h.symm)
  · cases opening with
    | unmounted => exact ⟨⟨_, config.said_plain _, rfl⟩, rfl, fun _ _ => rfl⟩
    | refused => exact ⟨⟨[], List.not_mem_nil, (List.append_nil _).symm⟩, rfl, fun _ _ => rfl⟩
    | opened => exact ⟨⟨[], List.not_mem_nil, (List.append_nil _).symm⟩, rfl, fun _ _ => rfl⟩

theorem restored_restoreLogFiles (state : LogState) (saved : List (String × File)) :
    Restored saved state (restoreLogFiles config opening state saved) := by
  induction saved generalizing state with
  | nil => exact ⟨⟨[], List.not_mem_nil, (List.append_nil _).symm⟩, rfl, fun _ _ => rfl⟩
  | cons entry saved ih =>
    have hfirst := restored_restoreLogFile config state entry (opening entry.1)
    have hrest := ih (restoreLogFile config state entry (opening entry.1))
    obtain ⟨text, htext, hlog⟩ := hfirst.said
    obtain ⟨text', htext', hlog'⟩ := hrest.said
    refine ⟨⟨text ++ text', ?_, ?_⟩, hrest.locale_eq.trans hfirst.locale_eq, fun name hname => ?_⟩
    · rw [List.mem_append, not_or]
      exact ⟨htext, htext'⟩
    · rw [← List.append_assoc, ← hlog]
      exact hlog'
    · refine (hrest.contents_eq name fun other hother => ?_).trans
        (hfirst.contents_eq name fun other hother => ?_)
      · exact hname other (List.mem_cons_of_mem _ hother)
      · rw [List.mem_singleton.mp hother]
        exact hname entry List.mem_cons_self

/-- Where every path opens, the kept files are there again. -/
theorem contents_restoreLogFiles (hopening : ∀ name, opening name = .opened) (state : LogState)
    {saved : List (String × File)} (hnodup : (saved.map Prod.fst).Nodup) {entry : String × File}
    (hentry : entry ∈ saved) :
    contents (restoreLogFiles config opening state saved).cache entry.1 = some entry.2.data := by
  induction saved generalizing state with
  | nil => cases hentry
  | cons first saved ih =>
    rw [List.map_cons, List.nodup_cons] at hnodup
    rcases List.mem_cons.mp hentry with rfl | hentry
    · have hrest := @restored_restoreLogFiles config opening
        (restoreLogFile config state entry (opening entry.1)) saved
      refine (hrest.contents_eq entry.1 fun other hother heq => ?_).trans ?_
      · exact hnodup.1 (heq ▸ List.mem_map_of_mem hother)
      · unfold restoreLogFile
        rw [if_pos (hopening entry.1)]
        exact (contents_insert _).trans (if_pos rfl)
    · exact ih _ hnodup.2 hentry

/-- A restoration keeps the first 512 KiB of each file of the last run. -/
theorem contents_saved {dir : Directory} {state : LogState} {name : String}
    (hopening : ∀ name, opening name = .opened) (hname : startsWith name "last" = true)
    (hleft : name ∈ state.cache → name ∈ dir) :
    contents (restoreLogFiles config opening state (savedLogFiles dir)).cache name =
      (contents dir name).map (List.take (2 ^ 19)) := by
  have hnodup : ((savedLogFiles dir).map Prod.fst).Nodup := by
    have hkeys : (savedLogFiles dir).map Prod.fst =
        ((dir.entries.filter fun entry => startsWith entry.1 "last").map Sigma.fst).reverse := by
      rw [savedLogFiles, List.map_reverse, List.map_map]
      rfl
    rw [hkeys, List.nodup_reverse]
    exact dir.keys_nodup.sublist (List.filter_sublist.map Sigma.fst)
  cases hfile : dir.lookup name with
  | none =>
    have hmissing : name ∉ dir := AList.lookup_eq_none.mp hfile
    have hrestored := @restored_restoreLogFiles config opening state (savedLogFiles dir)
    rw [hrestored.contents_eq name, contents, contents, hfile,
      AList.lookup_eq_none.mpr fun h => hmissing (hleft h)]
    · rfl
    · rintro entry hentry rfl
      rw [savedLogFiles, List.mem_reverse, List.mem_map] at hentry
      obtain ⟨saved, hsaved, rfl⟩ := hentry
      exact hmissing (AList.mem_keys.mpr (List.mem_map_of_mem (List.mem_filter.mp hsaved).1))
  | some file =>
    have hentry : (name, { file with data := file.data.take (2 ^ 19) }) ∈ savedLogFiles dir := by
      rw [savedLogFiles, List.mem_reverse, List.mem_map]
      refine ⟨⟨name, file⟩, List.mem_filter.mpr ⟨?_, hname⟩, rfl⟩
      exact AList.mem_lookup_iff.mp hfile
    rw [contents_restoreLogFiles config hopening state hnodup hentry, contents, hfile]
    rfl

end Restore

end RobotOta.RecoveryLogs
