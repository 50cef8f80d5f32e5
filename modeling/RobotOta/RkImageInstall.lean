import RobotOta.RecoveryRequests

/-!
# Installing a system image

`install_rkimage` and what it calls in `rkimage.cpp`, built without
`USE_BOARD_ID`. The check of the image file, the update script, the loader
writer and the file system resize are requests; the loops that copy and compare
partitions are here. They ask for whole blocks, at places that are natural
numbers; for items that end below 2 GiB they come to the byte loops with their
`int`s. What `g_package_target` holds is passed as the path of the package.
-/

namespace RobotOta.RkImageInstall

open CanFrameCodec RequestProgram BoardUpgrade RecoveryRequests

/-- `FindItem`. -/
def findItem (hdr : List RkItem) (name : String) : Option RkItem :=
  hdr.find? fun item => item.name = name

/-- `src_step` and `dest_step` of `write_image`. -/
def writeStep : ℕ := 16 * 1024

/-- The distance of the four copies of the parameter block. -/
def parameterStep : ℕ := 512 * 1024

/-- Write one block to so many of the places of the parameter block. -/
def writeParameter (dest : String) (data : List Byte) : (places : List ℕ) → RecoveryM Bool
  | [] => pure true
  | place :: places => do
    let ok : Bool ← ask (RecoveryRequest.writePartition dest (parameterStep * place) data)
    if ok then writeParameter dest data places else pure false

/-- The copy loop of `write_image`; every round takes at least one byte, so the
size of the source bounds the number of rounds. -/
def writeLoop (package dest : String) (isParameter : Bool) :
    (rounds srcRemain destRemain offset position : ℕ) → (bWrited : Bool) → RecoveryM Int
  | 0, _, _, _, _, _ => pure 0
  | rounds + 1, srcRemain, destRemain, offset, position, bWrited => do
    if 0 < srcRemain ∧ 0 < destRemain then
      let readCount := if srcRemain > writeStep then writeStep else srcRemain
      match ← ask (RecoveryRequest.readSource package offset readCount) with
      | none => pure (if bWrited then -1 else -2)
      | some data =>
        let dataBuf := data ++ List.replicate (writeStep - data.length) 0
        let srcRemain := srcRemain - readCount
        let writeCount := if srcRemain = 0 then destRemain else writeStep
        let ok : Bool ← if isParameter then writeParameter dest dataBuf [0, 1, 2, 3]
          else ask (RecoveryRequest.writePartition dest position dataBuf)
        if ok then
          writeLoop package dest isParameter rounds srcRemain (destRemain - writeCount)
            (offset + readCount) (position + writeStep) true
        else pure (-1)
    else pure 0

/-- `write_image`, to the start of a partition. -/
def writeImage (package : String) (hdr : List RkItem) (src dest : String) : RecoveryM Int := do
  match findItem hdr src with
  | none => pure (-4)
  | some pItem =>
    let fdSrc : Int ← ask (RecoveryRequest.openSource package)
    if fdSrc = 0 then pure (-5)
    else
      let isParameter := dest = "/parameter"
      let destRemain := if isParameter then writeStep else pItem.size
      let fdDest : Int ← ask (RecoveryRequest.openPartitionPath dest)
      if fdDest < 0 then pure (-6)
      else
        writeLoop package dest isParameter pItem.size pItem.size destRemain pItem.offset 0 false

/-- `COMPARE_BUFFER_SIZE`. -/
def compareStep : ℕ := 1024 * 1024

/-- The loop of `image_compare`. What is left of the target is not counted
down, so only the source ends the loop. -/
def compareLoop (package dest : String) :
    (rounds srcRemain destRemain offset position : ℕ) → RecoveryM Int
  | 0, _, _, _, _ => pure 0
  | rounds + 1, srcRemain, destRemain, offset, position => do
    if 0 < srcRemain ∧ 0 < destRemain then
      let readCount := if srcRemain > compareStep then compareStep else srcRemain
      match ← ask (RecoveryRequest.readSource package offset readCount) with
      | none => pure (-2)
      | some srcBuf =>
        match ← ask (RecoveryRequest.readPartition dest position compareStep) with
        | none => pure (-2)
        | some destBuf =>
          if srcBuf.take readCount ≠ destBuf.take readCount then pure (-1)
          else
            compareLoop package dest rounds (srcRemain - readCount) destRemain
              (offset + readCount) (position + compareStep)
    else pure 0

/-- `image_compare`, from the start of a partition. -/
def imageCompare (package : String) (hdr : List RkItem) (src dest : String) :
    RecoveryM Int := do
  match findItem hdr src with
  | none => pure (-4)
  | some pItem =>
    let fdSrc : Int ← ask (RecoveryRequest.openSource package)
    if fdSrc = 0 then pure (-5)
    else
      let destRemain := if dest = "/parameter" then writeStep else pItem.size
      let fdDest : Int ← ask (RecoveryRequest.openPartitionPath dest)
      if fdDest < 0 then pure (-6)
      else compareLoop package dest pItem.size pItem.size destRemain pItem.offset 0

/-- `find_update_img`: the items of the header, if it returns zero. -/
def findUpdateImg (path : String) : RecoveryM (Option (List RkItem)) := do
  let mounted ← ensureMounted path
  if mounted ≠ 0 then pure none else ask (RecoveryRequest.checkImageFile path)

section Install

variable (package : String) (hdr : List RkItem)

/-- The boot step of `install_rkimage`; an image without this item is fine. -/
def updateBoot : RecoveryM Int := do
  let result ← writeImage package hdr "boot" "/boot"
  if result = -4 then pure 0
  else if result = 0 then imageCompare package hdr "boot" "/boot"
  else pure result

/-- The system step, with the resize of its file system. -/
def updateSystem : RecoveryM Int := do
  let result ← writeImage package hdr "system" "/system"
  if result = -4 then pure 0
  else if result = 0 then
    let result ← imageCompare package hdr "system" "/system"
    if result ≠ 0 then pure result else ask (RecoveryRequest.checkAndResizefs "/system")
  else pure result

/-- Write and check an item the image must have. -/
def updateItem (src dest : String) : RecoveryM Int := do
  let result ← writeImage package hdr src dest
  if result ≠ 0 then pure result else imageCompare package hdr src dest

/-- The backup step, if the image has a backup. -/
def updateBackup : RecoveryM Int :=
  if findItem hdr "backup" ≠ none then updateItem package hdr "backup" "/backup" else pure 0

/-- The recovery step. -/
def updateRecovery : RecoveryM Int := updateItem package hdr "recovery" "/recovery"

/-- The steps of `install_rkimage` that write images: zero, or the result that
leads to `update_error`. -/
def updateImages : RecoveryM Int := do
  let result ← updateBoot package hdr
  if result ≠ 0 then pure result
  else
    let result ← updateSystem package hdr
    if result ≠ 0 then pure result
    else
      let result ← updateBackup package hdr
      if result ≠ 0 then pure result else updateRecovery package hdr

/-- The name of the script item comes from a header outside the repository. -/
def runUpdateScript (scriptName : String) : RecoveryM Unit := do
  match findItem hdr scriptName with
  | none => pure ()
  | some pItem =>
    let _ ← ask (RecoveryRequest.updateScript package pItem)
    pure ()

/-- The message that hands over to the loader. -/
def loaderMessage : BootloaderMessage :=
  { BootloaderMessage.zero with command := "bootloader", recovery := "update-bootloader" }

/-- The last steps of `install_rkimage`: its result and `bIfUpdateLoader`. -/
def updateLoader : RecoveryM (Int × Bool) := do
  let result ← setBootloaderMessage loaderMessage
  if result ≠ 0 then pure (-1, false)
  else
    let result : Int ← ask RecoveryRequest.writeLoader
    if result ≠ 0 then pure (-1, false) else pure (0, true)

/-- `install_rkimage` behind the parameter check. -/
def installImages (scriptName : String) : RecoveryM (Int × Bool) := do
  let result ← updateImages package hdr
  if result ≠ 0 then pure (-1, false)
  else
    runUpdateScript package hdr scriptName
    updateLoader

/-- `strlcpy` into a field of this size. -/
def strlcpy (size : ℕ) (text : String) : String := String.ofList (text.toList.take (size - 1))

/-- What `cmd` is made to hold. -/
def rkimageCommand : String := "recovery\n--update_rkimage=" ++ package

/-- The message that starts the installation again after a parameter update. -/
def rkimageMessage (recoverySize : ℕ) : BootloaderMessage :=
  { BootloaderMessage.zero with
    command := "boot-recovery"
    recovery := strlcpy recoverySize (rkimageCommand package) }

/-- A new parameter block is written, checked, and followed by a reboot. -/
def updateParameter (recoverySize : ℕ) : RecoveryM (Int × Bool) := do
  let result ← updateItem package hdr "parameter" "/parameter"
  if result ≠ 0 then pure (-1, false)
  else
    copyPath .cmd (rkimageCommand package)
    let _ ← setBootloaderMessage (rkimageMessage package recoverySize)
    ask (RecoveryRequest.androidReboot "recovery")
    pure (0, false)

end Install

/-- `install_rkimage`: its result and whether it set `bIfUpdateLoader`. -/
def installRkimage (recoverySize : ℕ) (scriptName updateFile : String) :
    RecoveryM (Int × Bool) := do
  match ← findUpdateImg updateFile with
  | none => pure (1, false)
  | some hdr =>
    copyPath .gPackageTarget updateFile
    if startsWith updateFile "/mnt/external_sd" then
      let differs ← imageCompare updateFile hdr "parameter" "/parameter"
      if differs ≠ 0 then updateParameter updateFile hdr recoverySize
      else installImages updateFile hdr scriptName
    else installImages updateFile hdr scriptName

end RobotOta.RkImageInstall
