import RobotOta.BoardUpgrade

/-!
# What the recovery program asks the device for

Requests of `recovery.cpp` and `rkimage.cpp`: the bootloader message, files,
partitions, the menu, and everything `robotUpdate.cpp` asks for. Progress bars,
logs and locales are left out, and so is what only prints. Paths are copied into
blocks of a fixed size with no look at their length; a copy that is too long is a
request of its own, so that every world says what may follow it.
-/

namespace RobotOta.RecoveryRequests

open CanFrameCodec RequestProgram BoardUpgrade

/-- `struct bootloader_message`. -/
structure BootloaderMessage where
  /-- What the bootloader is to do. -/
  command : String
  /-- What the bootloader has done. -/
  status : String
  /-- The arguments of recovery, one in a line. -/
  recovery : String
  /-- The stage of an installation that restarts. -/
  stage : String
  deriving DecidableEq

/-- The zeroed structure. -/
def BootloaderMessage.zero : BootloaderMessage := ⟨"", "", "", ""⟩

/-- `RKIMAGE_ITEM`. -/
structure RkItem where
  /-- The name in the header. -/
  name : String
  /-- Where the item begins in the package. -/
  offset : ℕ
  /-- The number of its bytes. -/
  size : ℕ

/-- The core actions of the menu; `REBOOT` ends it. -/
inductive MenuItem where
  | reboot
  /-- With the answer of the confirmation menu, if it is shown. -/
  | wipeData (confirmed : Bool)
  | wipeCache
  | applyExt
  | recoverSystem
  | applyIntRkimg
  | applyCache
  | applyAdbSideload
  /-- Whatever the menu does not act on. -/
  | other

/-- The blocks that paths are copied into. -/
inductive PathBlock where
  /-- `updatepath`. -/
  | updatepath
  /-- `strflag` of `finish_recovery`. -/
  | strflag
  /-- `target` of `get_auto_sdcard_update_path`. -/
  | target
  /-- `*path` of `get_auto_sdcard_update_path`. -/
  | autoPath
  /-- `updateImagePath` of `sdtool_main`. -/
  | updateImagePath
  /-- `configPath` of `parseSDBootConfig`. -/
  | configPath
  /-- `searchFile` of `findPackageAndMountUsbDevice`. -/
  | searchFile
  /-- `path` of `prompt_and_wait`. -/
  | menuPath
  /-- `g_package_target`. -/
  | gPackageTarget
  /-- `cmd` of `install_rkimage`. -/
  | cmd
  deriving DecidableEq

/-- Their sizes. -/
def PathBlock.size : PathBlock → ℕ
  | .updatepath => 128
  | .strflag => 160
  | .target => 100
  | .autoPath => 100
  | .updateImagePath => 100
  | .configPath => 64
  | .searchFile => 128
  | .menuPath => 50
  | .gPackageTarget => 128
  | .cmd => 100

/-- The text and the character behind it fit. -/
def PathBlock.Holds (block : PathBlock) (text : String) : Prop := text.toList.length < block.size

instance (block : PathBlock) (text : String) : Decidable (block.Holds text) :=
  inferInstanceAs (Decidable (_ < _))

/-- The requests. The last three ask for nothing: they mark a copy behind the end
of a block, the call of `install_rkimage` with the arguments' image, and the point
where `main` or `sdtool_main` is done with the arguments. -/
inductive RecoveryRequest where
  | update (r : UpdateRequest)
  | getBootloaderMessage
  | setBootloaderMessage (boot : BootloaderMessage)
  /-- The buffers `fgets` fills from `COMMAND_FILE`, if it opens. -/
  | readCommandFile
  | propertyGet (key : String)
  | checkSdboot
  | fileExists (path : String)
  /-- Mount the USB device that has this file. -/
  | mountUsbDevice (searchFile : String)
  /-- `install_package`: its result and `wipe_cache`. -/
  | installPackage (path : String)
  | eraseVolume (volume : String)
  | deviceWipeData
  | cloneDataIfExist
  | checkAndResizefs (path : String)
  | copyLogs
  | writeFile (path content : String)
  | unlink (path : String)
  | androidReboot (mode : String)
  /-- What the user picks in the menu until recovery leaves it. -/
  | menuChoices
  | isTextVisible
  | updateDirectory (path : String)
  | applyFromAdb
  | recoverBackup
  /-- A value of `sd_boot_config.config`, if it has one. -/
  | sdBootConfig (key : String)
  | pcbaTest
  | copyDemoFiles
  | adbMain
  /-- `CheckImageFile`: the items of the header, if the file is valid. -/
  | checkImageFile (path : String)
  | openSource (path : String)
  | openPartitionPath (dest : String)
  | readSource (path : String) (offset count : ℕ)
  | readPartition (dest : String) (position count : ℕ)
  | writePartition (dest : String) (position : ℕ) (data : List Byte)
  | updateScript (path : String) (item : RkItem)
  | writeLoader
  | overruns (block : PathBlock)
  | installBegins (path : String)
  | argumentsDone (status : Int)

/-- The types of the answers. -/
def RecoveryAnswer : RecoveryRequest → Type
  | .update r => UpdateAnswer r
  | .getBootloaderMessage => BootloaderMessage
  | .setBootloaderMessage _ => Int
  | .readCommandFile => Option (List String)
  | .propertyGet _ => String
  | .checkSdboot => Int
  | .fileExists _ => Bool
  | .mountUsbDevice _ => Unit
  | .installPackage _ => Int × Int
  | .eraseVolume _ => Int
  | .deviceWipeData => Int
  | .cloneDataIfExist => Int
  | .checkAndResizefs _ => Int
  | .copyLogs => Unit
  | .writeFile .. => Unit
  | .unlink _ => Int
  | .androidReboot _ => Unit
  | .menuChoices => List MenuItem
  | .isTextVisible => Bool
  | .updateDirectory _ => Int × Int
  | .applyFromAdb => Int × Int
  | .recoverBackup => Int
  | .sdBootConfig _ => Option String
  | .pcbaTest => Bool
  | .copyDemoFiles => Unit
  | .adbMain => Unit
  | .checkImageFile _ => Option (List RkItem)
  | .openSource _ => Int
  | .openPartitionPath _ => Int
  | .readSource .. => Option (List Byte)
  | .readPartition .. => Option (List Byte)
  | .writePartition .. => Bool
  | .updateScript .. => Int
  | .writeLoader => Int
  | .overruns _ => Unit
  | .installBegins _ => Unit
  | .argumentsDone _ => Unit

/-- A program over these requests. -/
abbrev RecoveryM := Program RecoveryRequest RecoveryAnswer

/-- A program of `robotUpdate.cpp`, run from recovery. -/
def liftUpdate {α : Type} : UpdateM α → RecoveryM α
  | .pure value => .pure value
  | .request r next => .request (.update r) fun answer => liftUpdate (next answer)

/-- A device on which everything works: the only message is empty, the image has
one byte of boot, system and recovery each, and no file can be loaded for a board. -/
def calmReply : (r : RecoveryRequest) → RecoveryAnswer r
  | .update r => perfectReply r
  | .getBootloaderMessage => BootloaderMessage.zero
  | .setBootloaderMessage _ => (0 : Int)
  | .readCommandFile => none
  | .propertyGet _ => "/mnt/external_sd"
  | .checkSdboot => (-1 : Int)
  | .fileExists _ => false
  | .mountUsbDevice _ => ()
  | .installPackage _ => ((0 : Int), (0 : Int))
  | .eraseVolume _ => (0 : Int)
  | .deviceWipeData => (0 : Int)
  | .cloneDataIfExist => (0 : Int)
  | .checkAndResizefs _ => (0 : Int)
  | .copyLogs => ()
  | .writeFile .. => ()
  | .unlink _ => (0 : Int)
  | .androidReboot _ => ()
  | .menuChoices => []
  | .isTextVisible => true
  | .updateDirectory _ => ((0 : Int), (0 : Int))
  | .applyFromAdb => ((0 : Int), (0 : Int))
  | .recoverBackup => (0 : Int)
  | .sdBootConfig _ => none
  | .pcbaTest => true
  | .copyDemoFiles => ()
  | .adbMain => ()
  | .checkImageFile _ => some [⟨"boot", 0, 1⟩, ⟨"system", 1, 1⟩, ⟨"recovery", 2, 1⟩]
  | .openSource _ => (3 : Int)
  | .openPartitionPath _ => (4 : Int)
  | .readSource _ _ count => some (List.replicate count 0)
  | .readPartition _ _ count => some (List.replicate count 0)
  | .writePartition .. => true
  | .updateScript .. => (0 : Int)
  | .writeLoader => (0 : Int)
  | .overruns _ => ()
  | .installBegins _ => ()
  | .argumentsDone _ => ()

/-- `ensure_path_mounted`. -/
abbrev ensureMounted (path : String) : RecoveryM Int :=
  ask (RecoveryRequest.update (.ensurePathMounted path))

/-- `set_bootloader_message`. -/
abbrev setBootloaderMessage (boot : BootloaderMessage) : RecoveryM Int :=
  ask (RecoveryRequest.setBootloaderMessage boot)

/-- Read `COMMAND_FILE`. -/
abbrev readCommandFile : RecoveryM (Option (List String)) := ask RecoveryRequest.readCommandFile

/-- `strcpy`, `strcat` or `sprintf` of a text into a block. -/
def copyPath (block : PathBlock) (text : String) : RecoveryM Unit :=
  if block.Holds text then pure () else ask (RecoveryRequest.overruns block)

section CopyPath

variable {World : Type} {act : Effect RecoveryRequest RecoveryAnswer World} {w w' : World}
  {block : PathBlock} {text : String}

theorem copyPath_of_holds (h : block.Holds text) : copyPath block text = pure () := if_pos h

theorem copyPath_of_not_holds (h : ¬block.Holds text) :
    copyPath block text = ask (RecoveryRequest.overruns block) := if_neg h

/-- A copy that fits does nothing to the world. -/
theorem exec_copyPath : Exec act w (copyPath block text) () w' ↔
    if block.Holds text then w' = w else act (.overruns block) w () w' := by
  by_cases hfits : block.Holds text
  · rw [copyPath_of_holds hfits, if_pos hfits, exec_pure, eq_self_iff_true, true_and]
  · rw [copyPath_of_not_holds hfits, if_neg hfits]
    exact exec_ask

/-- A copy keeps what the overrun keeps. -/
theorem keeps_copyPath {Inv : World → Prop}
    (h : ∀ w w', Inv w → act (.overruns block) w () w' → Inv w') :
    Keeps act Inv (copyPath block text) := by
  by_cases hfits : block.Holds text
  · rw [copyPath_of_holds hfits]
    exact keeps_pure ()
  · rw [copyPath_of_not_holds hfits]
    exact keeps_ask fun w _ w' hw hact => h w w' hw hact

end CopyPath

/-- Whether a C string begins with another. -/
def startsWith (text front : String) : Bool := front.toList.isPrefixOf text.toList

end RobotOta.RecoveryRequests
