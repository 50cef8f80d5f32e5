import RobotOta.RkImageInstall

/-!
# The main program of recovery

`recovery.cpp` from the arguments to the reboot: `get_args`, the choice of what
to install, the SD card tool, the menu, and `finish_recovery`. The scan of the
argument list by `getopt_long` is a parameter, and so are the codes of headers
outside the repository.
-/

namespace RobotOta.RecoveryMain

open CanFrameCodec RequestProgram BoardUpgrade RecoveryRequests RkImageInstall

/-- The `INSTALL_` codes. -/
structure InstallCodes where
  /-- `INSTALL_SUCCESS`. -/
  success : Int
  /-- `INSTALL_ERROR`. -/
  error : Int
  /-- `INSTALL_CORRUPT`. -/
  corrupt : Int
  /-- `INSTALL_NONE`. -/
  none : Int

/-- `OPTIONS`, with what is not among them. -/
inductive LongOption where
  | factoryMode
  | sendIntent
  | updatePackage
  | updateRkimage
  | updateRc
  | updateRp
  | updateRf
  | updateRb
  | wipeData
  | wipeCache
  | showText
  | wipeAll
  | justExit
  | locale
  | stages
  | invalid

/-- The codes of the install library. -/
instance : Inhabited InstallCodes where
  default := ⟨0, 1, 2, 3⟩

/-- What a build of recovery takes from elsewhere. -/
structure RecoveryConfig where
  /-- The message types of the boards. -/
  codes : MessageCodes
  /-- The numbers of the modules. -/
  ids : ModuleIds
  /-- The codes of `install.h`. -/
  install : InstallCodes
  /-- The size of the `recovery` field of the bootloader message. -/
  recoverySize : ℕ
  /-- `RK_UPDATE_SCRIPT`. -/
  scriptName : String
  /-- The options `getopt_long` finds, with `optarg`. -/
  getoptLong : List String → List (LongOption × String)

/-- The options that are spelled out in one argument. -/
def spelledOptions (arguments : List String) : List (LongOption × String) :=
  arguments.map fun argument =>
    let name := (argument.toList.splitOn '=').headD []
    let optarg := String.ofList (argument.toList.drop (name.length + 1))
    if name = "--update_package".toList then (.updatePackage, optarg)
    else if name = "--update_rkimage".toList then (.updateRkimage, optarg)
    else if name = "--update_rc".toList then (.updateRc, optarg)
    else if name = "--update_rp".toList then (.updateRp, optarg)
    else if name = "--update_rf".toList then (.updateRf, optarg)
    else if name = "--update_rb".toList then (.updateRb, optarg)
    else if name = "--wipe_data".toList then (.wipeData, "")
    else if name = "--wipe_cache".toList then (.wipeCache, "")
    else (.invalid, "")

/-- A build to try things with. -/
instance : Inhabited RecoveryConfig where
  default := ⟨default, default, default, 768, "update-script", spelledOptions⟩

/-- `MAX_ARGS`. -/
def maxArgs : ℕ := 100

/-- The arguments in a boot message, if it starts with the program name. -/
def bootArguments (recovery : String) : List String :=
  match ((recovery.toList.splitOn '\n').filter (· ≠ [])).map String.ofList with
  | "recovery" :: arguments => arguments.take (maxArgs - 1)
  | _ => []

/-- The first token of a line of the command file. -/
def firstToken (buf : String) : Option String :=
  ((buf.toList.splitOnP fun c => c = '\r' ∨ c = '\n').find? (· ≠ [])).map String.ofList

/-- The arguments in the command file. -/
def fileArguments (buffers : List String) : List String :=
  (buffers.filterMap firstToken).take (maxArgs - 1)

/-- The arguments `get_args` ends with: those of the command line, else of the
boot message, else of the command file. -/
def chosenArguments (argv : List String) (recovery : String)
    (commandFile : Option (List String)) : List String :=
  if argv ≠ [] then argv
  else if bootArguments recovery ≠ [] then bootArguments recovery
  else fileArguments (commandFile.getD [])

/-- The text `get_args` writes: the program name and one argument a line. -/
def argumentText (arguments : List String) : String :=
  arguments.foldl (fun text arg => text ++ arg ++ "\n") "recovery\n"

/-- The message `get_args` writes over the one it read. -/
def argumentMessage (recoverySize : ℕ) (boot : BootloaderMessage) (arguments : List String) :
    BootloaderMessage :=
  { boot with
    command := "boot-recovery"
    recovery := strlcpy recoverySize (argumentText arguments) }

/-- The command file, opened only if nothing came before it. -/
def commandFileOf (argv : List String) (recovery : String) :
    RecoveryM (Option (List String)) :=
  if argv = [] ∧ bootArguments recovery = [] then readCommandFile else pure none

/-- `get_args`. -/
def getArgs (recoverySize : ℕ) (argv : List String) : RecoveryM (List String) := do
  let boot : BootloaderMessage ← ask RecoveryRequest.getBootloaderMessage
  let commandFile ← commandFileOf argv boot.recovery
  let arguments := chosenArguments argv boot.recovery commandFile
  let _ ← setBootloaderMessage (argumentMessage recoverySize boot arguments)
  pure arguments

/-- What `main` keeps of its arguments. -/
structure Options where
  /-- `send_intent`. -/
  sendIntent : Option String
  /-- `update_package`. -/
  updatePackage : Option String
  /-- `update_rkimage`. -/
  updateRkimage : Option String
  /-- `update_rc`. -/
  updateRc : Option String
  /-- `update_rp`. -/
  updateRp : Option String
  /-- `update_rf`. -/
  updateRf : Option String
  /-- `update_rb`. -/
  updateRb : Option String
  /-- `factory_mode`. -/
  factoryMode : Option String
  /-- `wipe_data`. -/
  wipeData : Bool
  /-- `wipe_cache`. -/
  wipeCache : Bool
  /-- `wipe_all`. -/
  wipeAll : Bool
  /-- `just_exit`. -/
  justExit : Bool

/-- Before the first argument. -/
def Options.initial : Options :=
  ⟨none, none, none, none, none, none, none, none, false, false, false, false⟩

/-- The switch of `main` over one option. -/
def applyOption (options : Options) : LongOption × String → Options
  | (.factoryMode, optarg) => { options with factoryMode := some optarg }
  | (.sendIntent, optarg) => { options with sendIntent := some optarg }
  | (.updatePackage, optarg) => { options with updatePackage := some optarg }
  | (.updateRkimage, optarg) => { options with updateRkimage := some optarg }
  | (.updateRc, optarg) => { options with updateRc := some optarg }
  | (.updateRp, optarg) => { options with updateRp := some optarg }
  | (.updateRf, optarg) => { options with updateRf := some optarg }
  | (.updateRb, optarg) => { options with updateRb := some optarg }
  | (.wipeData, _) => { options with wipeData := true, wipeCache := true }
  | (.wipeCache, _) => { options with wipeCache := true }
  | (.wipeAll, _) => { options with wipeAll := true, wipeData := true, wipeCache := true }
  | (.justExit, _) => { options with justExit := true }
  | (.showText, _) => options
  | (.locale, _) => options
  | (.stages, _) => options
  | (.invalid, _) => options

/-- The options of an argument list. -/
def parseOptions (config : RecoveryConfig) (arguments : List String) : Options :=
  (config.getoptLong arguments).foldl applyOption Options.initial

/-- `COMMAND_FILE`. -/
def commandFilePath : String := "/cache/recovery/command"

/-- `finish_recovery`, with `bNeedClearMisc`, and `updatepath` if
`bAutoUpdateComplete`. -/
def finishRecovery (needClearMisc : Bool) (updatePath : Option String)
    (sendIntent : Option String) : RecoveryM Unit := do
  match sendIntent with
  | some intent => ask (RecoveryRequest.writeFile "/cache/recovery/intent" intent)
  | none => pure ()
  ask RecoveryRequest.copyLogs
  if needClearMisc then
    let _ ← setBootloaderMessage BootloaderMessage.zero
    pure ()
  else pure ()
  match updatePath with
  | some path =>
    copyPath .strflag ("success$path=" ++ path)
    ask (RecoveryRequest.writeFile "/cache/recovery/last_flag" ("success$path=" ++ path))
  | none => pure ()
  let mounted ← ensureMounted commandFilePath
  if mounted ≠ 0 then pure ()
  else
    let _ ← ask (RecoveryRequest.unlink commandFilePath)
    pure ()

section Menu

variable (config : RecoveryConfig) (externalRoot : String)

/-- The message of `set_sdcard_update_img_bootloader_message(NULL)`. -/
def bareMessage : BootloaderMessage :=
  { BootloaderMessage.zero with command := "boot-recovery", recovery := "recovery\n" }

/-- What follows an update from a directory or from adb: the menu is left after
a success without visible text. -/
def afterUpdate (status : Int) : RecoveryM Bool := do
  if 0 ≤ status ∧ status = config.install.success then
    let visible : Bool ← ask RecoveryRequest.isTextVisible
    pure !visible
  else pure false

/-- `update_directory` from the menu. -/
def applyDirectory (path : String) : RecoveryM Bool := do
  let (status, wipeCache) : Int × Int ← ask (RecoveryRequest.updateDirectory path)
  if status = config.install.success ∧ wipeCache ≠ 0 then
    let _ ← ask (RecoveryRequest.eraseVolume "/cache")
    afterUpdate config status
  else afterUpdate config status

/-- `wipe_data`, unless it is called off. -/
def wipeData (calledOff : Bool) : RecoveryM Unit := do
  if calledOff then pure ()
  else
    let _ ← ask RecoveryRequest.deviceWipeData
    let _ ← ask (RecoveryRequest.eraseVolume "/data")
    let _ ← ask (RecoveryRequest.eraseVolume "/cache")
    pure ()

/-- One item of the menu, and whether `prompt_and_wait` returns behind it. -/
def menuAction : MenuItem → RecoveryM Bool
  | .reboot => pure true
  | .wipeData confirmed => do
    let confirm : Bool ← ask RecoveryRequest.isTextVisible
    wipeData (confirm && !confirmed)
    let visible : Bool ← ask RecoveryRequest.isTextVisible
    pure !visible
  | .wipeCache => do
    let _ ← ask (RecoveryRequest.eraseVolume "/cache")
    let visible : Bool ← ask RecoveryRequest.isTextVisible
    pure !visible
  | .applyExt => applyDirectory config externalRoot
  | .recoverSystem => do
    let _ ← ask RecoveryRequest.recoverBackup
    pure false
  | .applyIntRkimg => do
    copyPath .menuPath (externalRoot ++ "/update.img")
    let _ ← setBootloaderMessage bareMessage
    let _ ← installRkimage config.recoverySize config.scriptName (externalRoot ++ "/update.img")
    let visible : Bool ← ask RecoveryRequest.isTextVisible
    pure !visible
  | .applyCache => applyDirectory config "/cache"
  | .applyAdbSideload => do
    let (status, _) : Int × Int ← ask RecoveryRequest.applyFromAdb
    if 0 ≤ status ∧ status ≠ config.install.success then
      ask RecoveryRequest.copyLogs
      pure false
    else afterUpdate config status
  | .other => pure false

/-- The rounds of `prompt_and_wait`; behind the last choice the user reboots. -/
def menuRounds (needClearMisc : Bool) : (choices : List MenuItem) → RecoveryM Unit
  | [] => finishRecovery needClearMisc none none
  | choice :: choices => do
    finishRecovery needClearMisc none none
    let leave ← menuAction config externalRoot choice
    if leave then pure () else menuRounds needClearMisc choices

/-- `prompt_and_wait`. The status it is given only picks a background. -/
def promptAndWait (needClearMisc : Bool) : RecoveryM Unit := do
  let choices : List MenuItem ← ask RecoveryRequest.menuChoices
  menuRounds config externalRoot needClearMisc choices

end Menu

/-- Call `install_rkimage` with the image of the arguments. -/
def installFromArguments (config : RecoveryConfig) (path : String) : RecoveryM (Int × Bool) := do
  ask (RecoveryRequest.installBegins path)
  installRkimage config.recoverySize config.scriptName path

/-- A step that is left out, with the result of success, unless it is called for. -/
def zeroUnless (called : Bool) (step : RecoveryM Int) : RecoveryM Int :=
  if called then step else pure 0

section SdTool

variable (config : RecoveryConfig) (internalRoot externalRoot : String)

/-- A value of `SdBootConfigs`, with its default. -/
def sdBootValue (key default : String) : RecoveryM String := do
  let value : Option String ← ask (RecoveryRequest.sdBootConfig key)
  pure (value.getD default)

/-- The demo files of `sdtool_main`. -/
def copyDemo : RecoveryM Unit := do
  let demo ← sdBootValue "demo_copy" "0"
  if demo = "1" then
    let mounted ← ensureMounted internalRoot
    if mounted ≠ 0 then pure () else ask RecoveryRequest.copyDemoFiles
  else pure ()

/-- The test of the board, unless it is switched off. -/
def pcbaPasses : RecoveryM Bool := do
  let pcba ← sdBootValue "pcba_test" "1"
  if pcba = "1" then ask RecoveryRequest.pcbaTest else pure true

/-- Format what belongs to the user; the status is an error if `/data` stays. -/
def formatUserData : RecoveryM Int := do
  let _ ← ask (RecoveryRequest.eraseVolume internalRoot)
  let cloned : Int ← ask RecoveryRequest.cloneDataIfExist
  let erased ← zeroUnless (cloned ≠ 0) (ask (RecoveryRequest.eraseVolume "/data"))
  pure (if erased ≠ 0 then config.install.error else config.install.success)

/-- The image and the demo files of `sdtool_main`. -/
def sdtoolImage (status : Int) : RecoveryM (Int × Bool) := do
  let fwUpdate ← sdBootValue "fw_update" "0"
  if fwUpdate = "1" then
    copyPath .updateImagePath (externalRoot ++ "/sdupdate.img")
    let (status, updateLoader) ← installFromArguments config (externalRoot ++ "/sdupdate.img")
    if status ≠ config.install.success then pure (status, updateLoader)
    else
      copyDemo internalRoot
      pure (status, updateLoader)
  else
    copyDemo internalRoot
    pure (status, false)

/-- `sdtool_main` up to `finish`: the status and `bIfUpdateLoader`. -/
def sdtoolUpdate : RecoveryM (Int × Bool) := do
  let _ ← ensureMounted internalRoot
  copyPath .configPath (externalRoot ++ "/sd_boot_config.config")
  let pass ← pcbaPasses
  if !pass then pure (config.install.error, false)
  else
    let status ← formatUserData config internalRoot
    sdtoolImage config internalRoot externalRoot status

/-- `sdtool_main` from `finish` on. -/
def sdtoolFinish (factoryMode : Option String) (status : Int) (updateLoader : Bool) :
    RecoveryM Unit := do
  if status ≠ config.install.success then
    promptAndWait config externalRoot false
    finishRecovery false none none
  else
    let keep := factoryMode = some "small" ∨ updateLoader = true
    finishRecovery (!keep) none none
  ask (RecoveryRequest.androidReboot "")

end SdTool

/-- `USB_ROOT` and the last component of the path. -/
def usbFile (path : String) : String :=
  "/mnt/usb_storage/" ++ String.ofList ((path.toList.splitOn '/').getLastD [])

/-- The path of a package or image as `main` rewrites it. -/
def packagePath (path : String) : RecoveryM String := do
  let path := if startsWith path "CACHE:" then "/cache/" ++ String.ofList (path.toList.drop 6)
    else path
  if startsWith path "/mnt/usb_storage" then
    copyPath .searchFile (usbFile path)
    ask (RecoveryRequest.mountUsbDevice (usbFile path))
    pure (usbFile path)
  else pure path

/-- The rewritten path of an option, if it was given, with its copy in `updatepath`. -/
def optionPath : Option String → RecoveryM (Option String)
  | some path => do
    let path ← packagePath path
    copyPath .updatepath path
    pure (some path)
  | none => pure none

/-- The robot modules of the options, in the order of `main`. -/
def robotModules (ids : ModuleIds) (options : Options) : List (Byte × String) :=
  let single (module : Byte) (file : Option String) := file.toList.map fun file => (module, file)
  single ids.rcUpgradeId options.updateRc ++ single ids.rpUpgradeId options.updateRp ++
    single ids.rfUpgradeId options.updateRf ++ single ids.rbLArmUpgradeId options.updateRb ++
    single ids.rbRArmUpgradeId options.updateRb ++ single ids.rbBodyUpgradeId options.updateRb

/-- How a run of `main` ended: the last value of `status`, and the ghost of
`robotSubSysUpdate` (its return value and the results of the `upgrade` calls),
if it was called. -/
structure MainEnd where
  /-- The last value of `status`. -/
  status : Int
  /-- What `robotSubSysUpdate` returned, with the results of its upgrades. -/
  robot : Option (Int × List Int)

section Main

variable (config : RecoveryConfig) (internalRoot externalRoot : String)

/-- The robot part of `main`; what `robotSubSysUpdate` returns is dropped. -/
def robotUpdate (options : Options) : RecoveryM (Option (Int × List Int)) := do
  let modules := robotModules config.ids options
  if modules ≠ [] then
    let result ← liftUpdate (robotSubSysUpdate config.codes config.ids modules)
    pure (some result)
  else pure none

/-- The wipe branch of `main`. -/
def wipeUpdate (options : Options) : RecoveryM Int := do
  let wiped : Int ← ask RecoveryRequest.deviceWipeData
  let cloned : Int ← ask RecoveryRequest.cloneDataIfExist
  let data ← zeroUnless (cloned ≠ 0) (ask (RecoveryRequest.eraseVolume "/data"))
  let cache ← zeroUnless options.wipeCache (ask (RecoveryRequest.eraseVolume "/cache"))
  let resized ← zeroUnless options.wipeAll (ask (RecoveryRequest.checkAndResizefs "/system"))
  let internal ← zeroUnless options.wipeAll (ask (RecoveryRequest.eraseVolume internalRoot))
  if wiped ≠ 0 ∨ data ≠ 0 ∨ cache ≠ 0 ∨ resized ≠ 0 ∨ internal ≠ 0 then pure config.install.error
  else pure config.install.success

/-- The system part of `main`: the status and `bAutoUpdateComplete`. -/
def systemUpdate (options : Options) (justExit : Bool)
    (updatePackage updateRkimage autoPath : Option String) : RecoveryM (Int × Bool) := do
  match updatePackage, updateRkimage, autoPath with
  | some path, _, _ =>
    let (status, wipeCache) : Int × Int ← ask (RecoveryRequest.installPackage path)
    if status = config.install.success then
      if wipeCache ≠ 0 then
        let _ ← ask (RecoveryRequest.eraseVolume "/cache")
        pure (status, true)
      else pure (status, true)
    else pure (status, false)
  | none, some path, _ =>
    let (status, _) ← installFromArguments config path
    pure (status, status = config.install.success)
  | none, none, some path =>
    let (status, _) ← installFromArguments config path
    if status = config.install.success ∧ options.wipeCache = true then
      let _ ← ask (RecoveryRequest.eraseVolume "/cache")
      pure (status, false)
    else pure (status, false)
  | none, none, none =>
    if options.wipeData then
      let status ← wipeUpdate config internalRoot options
      pure (status, false)
    else if options.wipeCache then
      let erased : Int ← ask (RecoveryRequest.eraseVolume "/cache")
      pure (if erased ≠ 0 then config.install.error else config.install.success, false)
    else pure (if justExit then config.install.success else config.install.none, false)

/-- `AUTO_FACTORY_UPDATE_TAG`. -/
def autoFactoryUpdateTag : String := "/FirmwareUpdate/auto_sd_update.tag"
/-- `AUTO_FACTORY_UPDATE_PACKAGE`. -/
def autoFactoryUpdatePackage : String := "/FirmwareUpdate/update.img"

/-- `get_auto_sdcard_update_path`. -/
def autoSdcardUpdatePath : RecoveryM (Option String) := do
  let mounted ← ensureMounted externalRoot
  if mounted ≠ 0 then pure none
  else
    copyPath .target (externalRoot ++ autoFactoryUpdateTag)
    let tagged : Bool ← ask (RecoveryRequest.fileExists (externalRoot ++ autoFactoryUpdateTag))
    if tagged then
      copyPath .autoPath (externalRoot ++ autoFactoryUpdatePackage)
      pure (some (externalRoot ++ autoFactoryUpdatePackage))
    else pure none

/-- The paths `main` has when it fills its array of modules. -/
structure MainPaths where
  /-- `auto_sdcard_update_path`. -/
  auto : Option String
  /-- `update_package`. -/
  updatePackage : Option String
  /-- `update_rkimage`. -/
  updateRkimage : Option String

/-- `main` from `get_auto_sdcard_update_path` to its array of modules. -/
def mainPaths (options : Options) : RecoveryM MainPaths := do
  let auto ← autoSdcardUpdatePath externalRoot
  let updatePackage ← optionPath options.updatePackage
  let updateRkimage ← optionPath options.updateRkimage
  pure ⟨auto, updatePackage, updateRkimage⟩

/-- What the arguments led to: the ghosts, the status, and `updatepath` if
`bAutoUpdateComplete`. -/
structure ArgumentsEnd where
  /-- The status that the arguments led to. -/
  status : Int
  /-- What `robotSubSysUpdate` returned, with the results of its upgrades. -/
  robot : Option (Int × List Int)
  /-- `updatepath`, if `bAutoUpdateComplete` is set. -/
  updatePath : Option String

/-- What `main` starts with when neither a card nor the factory mode takes over:
from `get_args` to the array of modules, with `update_rkimage`. -/
def mainModules (argv : List String) : RecoveryM (Option String × List (Byte × String)) := do
  let arguments ← getArgs config.recoverySize argv
  let options := parseOptions config arguments
  let paths ← mainPaths externalRoot options
  pure (paths.updateRkimage, robotModules config.ids options)

/-- `main` from its paths to the end of the installation branches. -/
def mainUpdate (options : Options) : RecoveryM ArgumentsEnd := do
  let paths ← mainPaths externalRoot options
  let robot ← robotUpdate config options
  let justExit := options.justExit || robot.isSome
  let (status, complete) ← systemUpdate config internalRoot options justExit
    paths.updatePackage paths.updateRkimage paths.auto
  pure ⟨status, robot,
    if complete then some ((paths.updateRkimage <|> paths.updatePackage).getD "") else none⟩

/-- `main` behind the installation branches. `bNeedClearMisc` is true from the
start, and nothing on this path makes it false. -/
def mainFinish (options : Options) (result : ArgumentsEnd) : RecoveryM Unit := do
  if result.status = config.install.error ∨ result.status = config.install.corrupt then
    ask RecoveryRequest.copyLogs
  else pure ()
  if result.status ≠ config.install.success then promptAndWait config externalRoot true
  else pure ()
  finishRecovery true result.updatePath options.sendIntent
  ask (RecoveryRequest.androidReboot "")

/-- `main` with the options it found: the SD card tool, or the update. -/
def mainOptions (options : Options) : RecoveryM MainEnd := do
  let sdboot : Int ← ask RecoveryRequest.checkSdboot
  if sdboot = 0 ∨ options.factoryMode ≠ none then
    let (status, updateLoader) ← sdtoolUpdate config internalRoot externalRoot
    ask (RecoveryRequest.argumentsDone status)
    sdtoolFinish config externalRoot options.factoryMode status updateLoader
    pure ⟨status, none⟩
  else
    let result ← mainUpdate config internalRoot externalRoot options
    ask (RecoveryRequest.argumentsDone result.status)
    mainFinish config externalRoot options result
    pure ⟨result.status, result.robot⟩

end Main

/-- `main`. A copy of recovery that only serves adb has no end of its own. -/
def recoveryMain (config : RecoveryConfig) (argv : List String) : RecoveryM (Option MainEnd) := do
  if argv = ["--adbd"] then
    ask RecoveryRequest.adbMain
    pure none
  else
    let internalRoot : String ← ask (RecoveryRequest.propertyGet "InternalSD_ROOT")
    let externalRoot : String ← ask (RecoveryRequest.propertyGet "ExternalSD_ROOT")
    let arguments ← getArgs config.recoverySize argv
    let result ← mainOptions config internalRoot externalRoot (parseOptions config arguments)
    pure (some result)

end RobotOta.RecoveryMain
