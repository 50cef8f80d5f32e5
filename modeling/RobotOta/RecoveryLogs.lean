import RobotOta.CommandLine
import RobotOta.RecoveryRequests
import RobotOta.RotatingSlots
import RobotOta.ScanHex

/-!
# The log files of the recovery program

`copy_log_file`, `rotate_last_logs`, `copy_logs`, `finish_recovery`,
`erase_volume`, `load_locale_from_cache` and `SureCacheMount` over the files of
`/cache/recovery`, with what `RecoverySystem` does to them from the main system.
How a mount, an `fopen` or a format ends is given with every call.
-/

namespace RobotOta.RecoveryLogs

open CommandLine RecoveryRequests RotatingSlots ScanHex

/-- A file with its contents, mode and owner. -/
structure File where
  /-- The contents. -/
  data : List Char
  /-- The permissions. -/
  mode : ℕ
  /-- The user and the group. -/
  owner : ℕ × ℕ
  deriving DecidableEq

/-- The files of `CACHE_LOG_DIR` under their names. -/
abbrev Directory := AList fun _ : String => File

/-- How `fopen_path` ends: the path cannot be mounted, `fopen` fails, or the
file is open. -/
inductive Opening where
  | unmounted
  | refused
  | opened
  deriving DecidableEq

/-- How a call gets at the cache: every `fopen_path`, and whether the cache is
mounted behind the copies. -/
structure Access where
  /-- How `fopen_path` ends for a file of the cache. -/
  opening : String → Opening
  /-- The cache is mounted behind the copies. -/
  mounted : Bool

/-- What the files do not say: the text that a message leaves in the temporary
log, none of it where the output goes to the serial console, and the file that
`fopen` creates. -/
structure LogConfig where
  /-- What a message leaves in the temporary log. -/
  said : String → List Char
  /-- The file that `fopen` creates. -/
  created : File
  /-- A message is a string. -/
  said_plain : ∀ message, '\x00' ∉ said message
  /-- Such a file is empty. -/
  created_empty : created.data = []

/-- The temporary files, the globals of `recovery.cpp` for the logs, and the
cache. `autoUpdate` is `updatepath` where `bAutoUpdateComplete` is set. -/
structure LogState where
  /-- The contents of the temporary log. -/
  temporaryLog : List Char
  /-- The contents of the temporary install file, if it is there. -/
  temporaryInstall : Option (List Char)
  /-- `tmplog_offset`: how much of the log has been copied. -/
  tmplogOffset : ℕ
  /-- `locale`. -/
  locale : Option (List Char)
  /-- `updatepath`, where `bAutoUpdateComplete` is set. -/
  autoUpdate : Option (List Char)
  /-- The recovery directory of the cache. -/
  cache : Directory

/-- `CACHE_LOG_DIR` in front of a name. -/
def cachePath (name : String) : String := "/cache/recovery/" ++ name

/-- `LAST_LOG_FILE`, or with its number behind. -/
def lastLog : ℕ → String
  | 0 => "last_log"
  | i + 1 => "last_log." ++ toString (i + 1)

/-- What `fputs` writes of a buffer. -/
def cString (buf : List Char) : List Char := buf.takeWhile (· ≠ '\x00')

/-- The loop of `fgets` and `fputs` over a buffer of 4096 bytes. -/
def copyText (text : List Char) : List Char := (fgetsBuffers 4096 text []).flatMap cString

section Config

variable (config : LogConfig)

/-- A message. -/
def LogState.say (state : LogState) (message : String) : LogState :=
  { state with temporaryLog := state.temporaryLog ++ config.said message }

/-- The message of `fopen_path` where the path cannot be mounted. -/
def LogState.fopenPath (state : LogState) (path : String) : Opening → LogState
  | .unmounted => state.say config ("Can't mount " ++ path ++ "\n")
  | .refused => state
  | .opened => state

/-- The messages of a failed `fopen_path` and of its caller. -/
def LogState.complain (state : LogState) (path : String) (opening : Opening) : LogState :=
  (state.fopenPath config path opening).say config ("Can't open " ++ path ++ "\n")

/-- Change the contents of a file, which is created if it is missing. -/
def putFile (created : File) (dir : Directory) (name : String)
    (change : List Char → List Char) : Directory :=
  let file := (dir.lookup name).getD created
  dir.insert name { file with data := change file.data }

/-- `copy_log_file`, with the contents of the source if that opens. -/
def copyLogFile (state : LogState) (source : Option (List Char)) (destination : String)
    (append : Bool) (opening : Opening) : LogState :=
  if opening = .opened then
    match source with
    | none =>
      { state with
        cache := putFile config.created state.cache destination fun old =>
          if append then old else [] }
    | some text =>
      if append then
        { state with
          cache := putFile config.created state.cache destination
            (· ++ copyText (text.drop state.tmplogOffset))
          tmplogOffset := max state.tmplogOffset text.length }
      else
        { state with
          cache := putFile config.created state.cache destination fun _ => copyText text }
  else state.complain config (cachePath destination) opening

/-- `chmod` and `chown`; a missing file is left alone. -/
def changeFile (dir : Directory) (name : String) (change : File → File) : Directory :=
  match dir.lookup name with
  | none => dir
  | some file => dir.insert name (change file)

/-- The modes and the owner that `copy_logs` gives. -/
def protectLogs (dir : Directory) : Directory :=
  let dir := changeFile dir "log" fun file => { file with mode := 0o600 }
  let dir := changeFile dir "log" fun file => { file with owner := (1000, 1000) }
  let dir := changeFile dir "last_log" fun file => { file with mode := 0o640 }
  changeFile dir "last_install" fun file => { file with mode := 0o644 }

/-- `copy_logs`. -/
def copyLogs (state : LogState) (access : Access) : LogState :=
  let state := copyLogFile config state (some state.temporaryLog) "log" true
    (access.opening "log")
  let state := copyLogFile config state (some state.temporaryLog) "last_log" false
    (access.opening "last_log")
  let state := copyLogFile config state state.temporaryInstall "last_install" false
    (access.opening "last_install")
  if access.mounted then { state with cache := protectLogs state.cache } else state

/-- `rotate_last_logs`. -/
def rotateLastLogs (max : ℕ) (dir : Directory) : Directory := rotate lastLog max dir

/-- The array that `finish_recovery` writes to `FLAG_FILE` as a whole. -/
def flagText (updatePath : List Char) : List Char :=
  let text := "success$path=".toList ++ updatePath
  text ++ List.replicate (160 - text.length) '\x00'

/-- The intent, if there is one. -/
def writeIntent (state : LogState) (intent : Option (List Char)) (access : Access) : LogState :=
  match intent with
  | none => state
  | some intent =>
    if access.opening "intent" = .opened then
      { state with cache := putFile config.created state.cache "intent" fun _ => intent }
    else state.complain config (cachePath "intent") (access.opening "intent")

/-- The locale, if there is one. A file that does not open is written through a
null pointer, and the state is what the crash leaves. -/
def saveLocale (state : LogState) (access : Access) : Except LogState LogState :=
  match state.locale with
  | none => .ok state
  | some locale =>
    let state := state.say config ("Saving locale \"" ++ String.ofList locale ++ "\"\n")
    if access.opening "last_locale" = .opened then
      .ok { state with
        cache := putFile config.created state.cache "last_locale" fun _ => locale }
    else .error (state.fopenPath config (cachePath "last_locale") (access.opening "last_locale"))

/-- The flag of an automatic update; here too a file that does not open is written. -/
def writeFlag (state : LogState) (access : Access) : Except LogState LogState :=
  match state.autoUpdate with
  | none => .ok state
  | some updatePath =>
    if access.opening "last_flag" = .opened then
      .ok { state with
        cache := putFile config.created state.cache "last_flag" fun _ => flagText updatePath
        autoUpdate := none }
    else .error (state.complain config (cachePath "last_flag") (access.opening "last_flag"))

/-- `finish_recovery` behind the locale: `mounted` and `unlinks` are how
`ensure_path_mounted` and `unlink` end for `COMMAND_FILE`. -/
def finishLogs (state : LogState) (access : Access) (mounted unlinks : Bool) :
    Except LogState LogState :=
  match writeFlag config (copyLogs config state access) access with
  | .error crashed => .error crashed
  | .ok state =>
    if mounted then
      if unlinks then .ok { state with cache := state.cache.erase "command" }
      else if "command" ∈ state.cache then
        .ok (state.say config ("Can't unlink " ++ cachePath "command" ++ "\n"))
      else .ok state
    else .ok (state.say config ("Can't unlink " ++ cachePath "command" ++ "\n"))

/-- `finish_recovery` as far as it is about `/cache/recovery`. -/
def finishRecovery (state : LogState) (intent : Option (List Char)) (access : Access)
    (mounted unlinks : Bool) : Except LogState LogState :=
  match saveLocale config (writeIntent config state intent access) access with
  | .error crashed => .error crashed
  | .ok state => finishLogs config state access mounted unlinks

/-- How `opendir` ends for `CACHE_LOG_DIR`; a failure comes with its message. -/
inductive Opendir where
  | opened
  | missing
  | failed (error : String)

/-- The files that `erase_volume` keeps in memory, the last one read first. -/
def savedLogFiles (dir : Directory) : List (String × File) :=
  ((dir.entries.filter fun entry => startsWith entry.1 "last").map fun entry =>
    (entry.1, { entry.2 with data := entry.2.data.take (2 ^ 19) })).reverse

/-- Write one of the kept files. -/
def restoreLogFile (state : LogState) (entry : String × File) (opening : Opening) : LogState :=
  if opening = .opened then { state with cache := state.cache.insert entry.1 entry.2 }
  else state.fopenPath config (cachePath entry.1) opening

/-- Write the kept files one by one. -/
def restoreLogFiles (opening : String → Opening) (state : LogState)
    (saved : List (String × File)) : LogState :=
  saved.foldl (fun state entry => restoreLogFile config state entry (opening entry.1)) state

/-- What a format returns and leaves of the cache, and how the calls around it end. -/
structure CacheErasure where
  /-- How `opendir` ends. -/
  opendir : Opendir
  /-- What the format returns, and leaves of the cache. -/
  format : Directory → Int × Directory
  /-- How `fopen_path` ends for a file that is restored. -/
  restores : String → Opening
  /-- How the calls behind the format end. -/
  access : Access

/-- The files that are kept, and the message of a failed `opendir`. -/
def loadLogFiles (state : LogState) : Opendir → List (String × File) × LogState
  | .opened => (savedLogFiles state.cache, state)
  | .missing => ([], state)
  | .failed error => ([], state.say config ("opendir failed: " ++ error ++ "\n"))

/-- `erase_volume` of the cache. -/
def eraseCache (state : LogState) (erasure : CacheErasure) : Int × LogState :=
  let (saved, state) := loadLogFiles config state erasure.opendir
  let state := state.say config "Formatting /cache...\n"
  let (result, left) := erasure.format state.cache
  let state := restoreLogFiles config erasure.restores { state with cache := left } saved
  (result, copyLogs config { state with tmplogOffset := 0 } erasure.access)

/-- `erase_volume` of another volume, which returns what the format does. -/
def eraseOther (state : LogState) (volume : String) (result : Int) : Int × LogState :=
  (result, state.say config ("Formatting " ++ volume ++ "...\n"))

/-- `SureCacheMount`, which formats a cache that cannot be mounted. -/
def sureCacheMount (state : LogState) (mounts : Bool) (format : Directory → Int × Directory) :
    LogState :=
  if mounts then state
  else
    { state.say config "mount cache fail,so formate...\n" with
      tmplogOffset := 0
      cache := (format state.cache).2 }

/-- `load_locale_from_cache`, with the bytes its buffer starts with. -/
def loadLocale (state : LogState) (opening : Opening) (buffer : List Char) : LogState :=
  match opening, state.cache.lookup "last_locale" with
  | .opened, some file =>
    let buffer := ((fgetsBuffers 80 file.data []).head?).getD (buffer.take 80)
    { state with locale := some ((cString buffer).filter fun c => !isSpace c) }
  | _, _ => state.fopenPath config (cachePath "last_locale") opening

/-- How a process of the recovery program begins: after a reboot or not, with or
without the cache, with the locale of its arguments. -/
structure Start where
  /-- The device was restarted, so the temporary files are gone. -/
  rebooted : Bool
  /-- The cache can be mounted. -/
  mounted : Bool
  /-- The locale among the arguments. -/
  locale : Option (List Char)
  /-- How `fopen_path` ends for `last_locale`. -/
  opening : Opening
  /-- What the buffer for the locale holds at first. -/
  buffer : List Char

/-- `main` up to the locale. -/
def startRecovery (state : LogState) (start : Start) : LogState :=
  let state :=
    { state with
      temporaryLog := if start.rebooted then [] else state.temporaryLog
      temporaryInstall := if start.rebooted then none else state.temporaryInstall
      tmplogOffset := 0
      locale := start.locale
      autoUpdate := none
      cache := if start.mounted then rotateLastLogs 10 state.cache else state.cache }
  match start.locale with
  | some _ => state
  | none => loadLocale config state start.opening start.buffer

end Config

/-- `File.delete`. -/
def deleteFile (deletes : String → Bool) (dir : Directory) (name : String) : Directory :=
  if deletes name then dir.erase name else dir

/-- `RecoverySystem.handleAftermath`, with the files whose deletion succeeds. -/
def handleAftermath (deletes : String → Bool) (dir : Directory) : Directory :=
  dir.keys.foldl (fun dir name =>
    if startsWith name "last_" then dir else deleteFile deletes dir name) dir

/-- `RecoverySystem.bootCommand`. -/
def bootCommand (deletes : String → Bool) (created : File) (dir : Directory) (arg : List Char) :
    Directory :=
  putFile created (deleteFile deletes (deleteFile deletes dir "command") "log") "command"
    fun _ => arg ++ ['\n']

end RobotOta.RecoveryLogs
