import RobotOta.RecoveryMain

/-!
# Interrupted installations

Runs of recovery that may lose power between any two requests. From the first
block `write_image` writes until the installation hands over to the loader, the
bootloader message starts recovery again with the arguments it had, or, behind
a parameter update, with the image it was installing. Nothing is known of a run
from the point on where a path is copied behind the end of its block.
-/

namespace RobotOta.InstallRestart

open CanFrameCodec RequestProgram BoardUpgrade RecoveryRequests RkImageInstall RecoveryMain

/-- The device as far as a restart depends on it, with ghosts of the run. -/
structure DeviceWorld where
  /-- The bootloader message. -/
  misc : BootloaderMessage
  /-- The buffers `fgets` fills from `COMMAND_FILE`, if it is there. -/
  commandFile : Option (List String)
  /-- `write_image` wrote to a partition. -/
  written : Bool
  /-- The loader was given its message. -/
  handedOver : Bool
  /-- Something was written after that. -/
  lateWrite : Bool
  /-- The images whose installation the arguments began. -/
  installing : List String
  /-- Recovery is done with its arguments. -/
  ended : Bool
  /-- A path was copied behind the end of its block. -/
  overrun : Bool

/-- The device when recovery starts. -/
def DeviceWorld.start (misc : BootloaderMessage) (commandFile : Option (List String)) :
    DeviceWorld :=
  ⟨misc, commandFile, false, false, false, [], false, false⟩

/-- A write to a partition, which may have failed half way. -/
def DeviceWorld.write (w : DeviceWorld) : DeviceWorld :=
  { w with written := true, lateWrite := w.lateWrite || w.handedOver }

/-- What a request does to the device. The message is stored and returned
atomically; the update script may write partitions, but not the message; the
package browser may set the message for a package. Behind the end of a block
everything may be overwritten. -/
def deviceEffect : Effect RecoveryRequest RecoveryAnswer DeviceWorld
  | .getBootloaderMessage, w, boot, w' => boot = w.misc ∧ w' = w
  | .setBootloaderMessage boot, w, _, w' =>
    w' = { w with misc := boot, handedOver := w.handedOver || boot = loaderMessage }
  | .readCommandFile, w, file, w' => file = w.commandFile ∧ w' = w
  | .writePartition .., w, _, w' => w' = w.write
  | .updateScript .., w, _, w' => w' = w ∨ w' = w.write
  | .updateDirectory _, w, _, w' => w' = w ∨ w' = { w with misc := bareMessage }
  | .overruns _, _, _, w' => w'.overrun = true
  | .installBegins path, w, _, w' => w' = { w with installing := w.installing ++ [path] }
  | .argumentsDone _, w, _, w' => w' = { w with ended := true }
  | _, w, _, w' => w' = w

/-- The message starts recovery with these arguments, or with an image whose
installation they began. -/
def HoldsInstall (recoverySize : ℕ) (arguments : List String) (w : DeviceWorld) : Prop :=
  w.misc.command = "boot-recovery" ∧
    (w.misc.recovery = strlcpy recoverySize (argumentText arguments) ∨
      ∃ path ∈ w.installing,
        w.misc.recovery = strlcpy recoverySize ("recovery\n--update_rkimage=" ++ path))

/-- Before the loader is given its message, with these images under way. -/
structure Prepared (recoverySize : ℕ) (arguments paths : List String) (w : DeviceWorld) :
    Prop where
  /-- The message starts the installation again. -/
  holds : HoldsInstall recoverySize arguments w
  /-- The images were begun. -/
  began : paths ⊆ w.installing
  /-- The loader has no message yet. -/
  not_handedOver : w.handedOver = false
  /-- So nothing was written after it. -/
  not_lateWrite : w.lateWrite = false

/-- Prepared, unless an overrun was met. -/
def Armed (recoverySize : ℕ) (arguments paths : List String) (w : DeviceWorld) : Prop :=
  w.overrun = true ∨ Prepared recoverySize arguments paths w

/-- Nothing is asked for: an overrun was met, or recovery is done with its arguments. -/
def Released (w : DeviceWorld) : Prop := w.overrun = true ∨ w.ended = true

/-- While recovery works on its arguments. -/
def Guarded (recoverySize : ℕ) (arguments : List String) (w : DeviceWorld) : Prop :=
  Released w ∨
    (w.handedOver = false → HoldsInstall recoverySize arguments w) ∧ w.lateWrite = false

/-- Requests that leave the message alone. -/
def LeavesMessage : RecoveryRequest → Prop
  | .setBootloaderMessage _ => False
  | .updateDirectory _ => False
  | .overruns _ => False
  | _ => True

/-- Requests that leave the message and the partitions alone. -/
def LeavesDevice : RecoveryRequest → Prop
  | .setBootloaderMessage _ => False
  | .updateDirectory _ => False
  | .overruns _ => False
  | .writePartition .. => False
  | .updateScript .. => False
  | _ => True

section Keeps

variable {recoverySize : ℕ} {arguments paths : List String}

/-- More images under way leave the message good. -/
theorem HoldsInstall.of_subset {w w' : DeviceWorld} (h : HoldsInstall recoverySize arguments w)
    (hmisc : w'.misc = w.misc) (hinstalling : w.installing ⊆ w'.installing) :
    HoldsInstall recoverySize arguments w' := by
  unfold HoldsInstall at h ⊢
  rw [hmisc]
  refine ⟨h.1, h.2.imp_right ?_⟩
  rintro ⟨path, hpath, hrecovery⟩
  exact ⟨path, hinstalling hpath, hrecovery⟩

/-- What requests other than a new message do to the device. -/
theorem deviceEffect_leavesMessage {r : RecoveryRequest} {w w' : DeviceWorld}
    {answer : RecoveryAnswer r} (hr : LeavesMessage r) (h : deviceEffect r w answer w') :
    w'.misc = w.misc ∧ w.installing ⊆ w'.installing ∧ w'.handedOver = w.handedOver ∧
      (w'.lateWrite = w.lateWrite ∨ w'.lateWrite = (w.lateWrite || w.handedOver)) := by
  cases r with
  | setBootloaderMessage boot => exact absurd hr id
  | updateDirectory => exact absurd hr id
  | overruns => exact absurd hr id
  | getBootloaderMessage =>
    obtain ⟨-, rfl⟩ := h
    exact ⟨rfl, List.Subset.refl _, rfl, Or.inl rfl⟩
  | readCommandFile =>
    obtain ⟨-, rfl⟩ := h
    exact ⟨rfl, List.Subset.refl _, rfl, Or.inl rfl⟩
  | writePartition =>
    obtain rfl := h
    exact ⟨rfl, List.Subset.refl _, rfl, Or.inr rfl⟩
  | updateScript =>
    rcases h with rfl | rfl
    · exact ⟨rfl, List.Subset.refl _, rfl, Or.inl rfl⟩
    · exact ⟨rfl, List.Subset.refl _, rfl, Or.inr rfl⟩
  | installBegins path =>
    obtain rfl := h
    exact ⟨rfl, List.subset_append_left _ _, rfl, Or.inl rfl⟩
  | argumentsDone =>
    obtain rfl := h
    exact ⟨rfl, List.Subset.refl _, rfl, Or.inl rfl⟩
  | _ =>
    obtain rfl := h
    exact ⟨rfl, List.Subset.refl _, rfl, Or.inl rfl⟩

/-- An armed device is guarded. -/
theorem Armed.guarded {w : DeviceWorld} (h : Armed recoverySize arguments paths w) :
    Guarded recoverySize arguments w := by
  rcases h with hover | h
  · exact Or.inl (Or.inl hover)
  · exact Or.inr ⟨fun _ => h.holds, h.not_lateWrite⟩

/-- Nothing takes back an overrun, and without one nothing takes back that
recovery is done with its arguments. -/
theorem deviceEffect_flags {r : RecoveryRequest} {w w' : DeviceWorld} {answer : RecoveryAnswer r}
    (h : deviceEffect r w answer w') :
    w'.overrun = true ∨ w'.overrun = w.overrun ∧ (w.ended = true → w'.ended = true) := by
  cases r with
  | overruns => exact Or.inl h
  | getBootloaderMessage => exact Or.inr (h.2 ▸ ⟨rfl, id⟩)
  | readCommandFile => exact Or.inr (h.2 ▸ ⟨rfl, id⟩)
  | updateScript =>
    rcases h with rfl | rfl
    · exact Or.inr ⟨rfl, id⟩
    · exact Or.inr ⟨rfl, id⟩
  | updateDirectory =>
    rcases h with rfl | rfl
    · exact Or.inr ⟨rfl, id⟩
    · exact Or.inr ⟨rfl, id⟩
  | argumentsDone =>
    obtain rfl := h
    exact Or.inr ⟨rfl, fun _ => rfl⟩
  | _ =>
    obtain rfl := h
    exact Or.inr ⟨rfl, id⟩

theorem deviceEffect_overrun {r : RecoveryRequest} {w w' : DeviceWorld}
    {answer : RecoveryAnswer r} (h : deviceEffect r w answer w') (hover : w.overrun = true) :
    w'.overrun = true := by
  rcases deviceEffect_flags h with hover' | ⟨hsame, -⟩
  · exact hover'
  · exact hsame.trans hover

theorem deviceEffect_released {r : RecoveryRequest} {w w' : DeviceWorld}
    {answer : RecoveryAnswer r} (h : deviceEffect r w answer w') (hw : Released w) :
    Released w' := by
  rcases deviceEffect_flags h with hover | ⟨hsame, hended⟩
  · exact Or.inl hover
  · exact hw.imp hsame.trans hended

/-- Such a request keeps the device armed. -/
theorem armed_ask {r : RecoveryRequest} (hr : LeavesMessage r) :
    Keeps deviceEffect (Armed recoverySize arguments paths) (ask r) := by
  refine keeps_ask ?_
  intro w answer w' hw hact
  rcases hw with hover | hw
  · exact Or.inl (deviceEffect_overrun hact hover)
  obtain ⟨hmisc, hinstalling, hhanded, hlate⟩ := deviceEffect_leavesMessage hr hact
  refine Or.inr ⟨hw.holds.of_subset hmisc hinstalling, List.Subset.trans hw.began hinstalling,
    hhanded.trans hw.not_handedOver, ?_⟩
  rcases hlate with hlate | hlate
  · exact hlate.trans hw.not_lateWrite
  · rw [hlate, hw.not_lateWrite, hw.not_handedOver]
    rfl

/-- So does a copy into a block. -/
theorem armed_copyPath (block : PathBlock) (text : String) :
    Keeps deviceEffect (Armed recoverySize arguments paths) (copyPath block text) :=
  keeps_copyPath fun _ _ _ hover => Or.inl hover

/-- A request that leaves the partitions alone too keeps the device guarded. -/
theorem guarded_ask {r : RecoveryRequest} (hr : LeavesDevice r) :
    Keeps deviceEffect (Guarded recoverySize arguments) (ask r) := by
  refine keeps_ask ?_
  intro w answer w' hw hact
  rcases hw with hreleased | ⟨hholds, hlate⟩
  · exact Or.inl (deviceEffect_released hact hreleased)
  · have hmessage : LeavesMessage r := by
      cases r <;> first | exact hr | trivial
    obtain ⟨hmisc, hinstalling, hhanded, -⟩ := deviceEffect_leavesMessage hmessage hact
    refine Or.inr ⟨fun hnot => (hholds (hhanded.symm.trans hnot)).of_subset hmisc hinstalling, ?_⟩
    rw [← hlate]
    cases r with
    | setBootloaderMessage => exact absurd hr id
    | updateDirectory => exact absurd hr id
    | overruns => exact absurd hr id
    | writePartition => exact absurd hr id
    | updateScript => exact absurd hr id
    | getBootloaderMessage => exact hact.2 ▸ rfl
    | readCommandFile => exact hact.2 ▸ rfl
    | _ =>
      obtain rfl := hact
      rfl

end Keeps

section Install

variable {recoverySize : ℕ} {arguments paths : List String} {package dest : String}
  {hdr : List RkItem}

/-- Returning keeps the device armed. -/
theorem armed_pure {α : Type} (value : α) :
    Keeps deviceEffect (Armed recoverySize arguments paths) (pure value : RecoveryM α) :=
  keeps_pure value

/-- Writing the parameter block keeps the device armed. -/
theorem armed_writeParameter (data : List Byte) (places : List ℕ) :
    Keeps deviceEffect (Armed recoverySize arguments paths)
      (writeParameter dest data places) := by
  induction places with
  | nil => exact armed_pure _
  | cons place places ih =>
    refine keeps_bind (armed_ask trivial) ?_
    intro ok
    exact keeps_ite ih (armed_pure _)

/-- The copy loop keeps the device armed. -/
theorem armed_writeLoop (isParameter : Bool) (rounds srcRemain destRemain offset position : ℕ)
    (bWrited : Bool) :
    Keeps deviceEffect (Armed recoverySize arguments paths)
      (writeLoop package dest isParameter rounds srcRemain destRemain offset position
        bWrited) := by
  induction rounds generalizing srcRemain destRemain offset position bWrited with
  | zero => exact armed_pure _
  | succ rounds ih =>
    refine keeps_ite (keeps_bind (armed_ask trivial) ?_) (armed_pure _)
    intro data
    cases data with
    | none => exact armed_pure _
    | some data =>
      refine keeps_ite (keeps_bind (armed_writeParameter _ _) ?_)
        (keeps_bind (armed_ask trivial) ?_)
      · exact fun ok => keeps_ite (ih _ _ _ _ _) (armed_pure _)
      · exact fun ok => keeps_ite (ih _ _ _ _ _) (armed_pure _)

/-- `write_image` keeps the device armed. -/
theorem armed_writeImage (src : String) :
    Keeps deviceEffect (Armed recoverySize arguments paths)
      (writeImage package hdr src dest) := by
  unfold writeImage
  cases findItem hdr src with
  | none => exact armed_pure _
  | some pItem =>
    refine keeps_bind (armed_ask trivial) fun fdSrc => ?_
    refine keeps_ite (armed_pure _) ?_
    refine keeps_bind (armed_ask trivial) fun fdDest => ?_
    exact keeps_ite (armed_pure _) (armed_writeLoop _ _ _ _ _ _ _)

/-- The comparing loop keeps the device armed. -/
theorem armed_compareLoop (rounds srcRemain destRemain offset position : ℕ) :
    Keeps deviceEffect (Armed recoverySize arguments paths)
      (compareLoop package dest rounds srcRemain destRemain offset position) := by
  induction rounds generalizing srcRemain destRemain offset position with
  | zero => exact armed_pure _
  | succ rounds ih =>
    refine keeps_ite (keeps_bind (armed_ask trivial) ?_) (armed_pure _)
    intro srcBuf
    cases srcBuf with
    | none => exact armed_pure _
    | some srcBuf =>
      refine keeps_bind (armed_ask trivial) ?_
      intro destBuf
      cases destBuf with
      | none => exact armed_pure _
      | some destBuf => exact keeps_ite (armed_pure _) (ih _ _ _ _)

/-- `image_compare` keeps the device armed. -/
theorem armed_imageCompare (src : String) :
    Keeps deviceEffect (Armed recoverySize arguments paths)
      (imageCompare package hdr src dest) := by
  unfold imageCompare
  cases findItem hdr src with
  | none => exact armed_pure _
  | some pItem =>
    refine keeps_bind (armed_ask trivial) fun fdSrc => ?_
    refine keeps_ite (armed_pure _) ?_
    refine keeps_bind (armed_ask trivial) fun fdDest => ?_
    exact keeps_ite (armed_pure _) (armed_compareLoop _ _ _ _ _)

/-- Writing and checking an item keeps the device armed. -/
theorem armed_updateItem (src : String) :
    Keeps deviceEffect (Armed recoverySize arguments paths)
      (updateItem package hdr src dest) := by
  refine keeps_bind (armed_writeImage _) fun result => ?_
  exact keeps_ite (armed_pure _) (armed_imageCompare _)

/-- The steps that write images keep the device armed. -/
theorem armed_updateImages :
    Keeps deviceEffect (Armed recoverySize arguments paths) (updateImages package hdr) := by
  have hboot : Keeps deviceEffect (Armed recoverySize arguments paths)
      (updateBoot package hdr) := by
    refine keeps_bind (armed_writeImage _) fun result => ?_
    exact keeps_ite (armed_pure _) (keeps_ite (armed_imageCompare _) (armed_pure _))
  have hsystem : Keeps deviceEffect (Armed recoverySize arguments paths)
      (updateSystem package hdr) := by
    refine keeps_bind (armed_writeImage _) fun result => ?_
    refine keeps_ite (armed_pure _) (keeps_ite ?_ (armed_pure _))
    refine keeps_bind (armed_imageCompare _) fun result => ?_
    exact keeps_ite (armed_pure _) (armed_ask trivial)
  have hbackup : Keeps deviceEffect (Armed recoverySize arguments paths)
      (updateBackup package hdr) :=
    keeps_ite (armed_updateItem _) (armed_pure _)
  refine keeps_bind hboot fun result => keeps_ite (armed_pure _) ?_
  refine keeps_bind hsystem fun result => keeps_ite (armed_pure _) ?_
  refine keeps_bind hbackup fun result => keeps_ite (armed_pure _) ?_
  exact armed_updateItem _

/-- The update script keeps the device armed. -/
theorem armed_runUpdateScript (scriptName : String) :
    Keeps deviceEffect (Armed recoverySize arguments paths)
      (runUpdateScript package hdr scriptName) := by
  unfold runUpdateScript
  cases findItem hdr scriptName with
  | none => exact armed_pure _
  | some pItem => exact keeps_bind (armed_ask trivial) fun _ => armed_pure _

/-- Handing over to the loader leaves the device guarded. -/
theorem guarded_updateLoader :
    Leads deviceEffect (Armed recoverySize arguments paths) (Guarded recoverySize arguments)
      updateLoader := by
  refine Leads.bind_keeps (leads_ask (fun w hw => hw.guarded) ?_) ?_
  · intro w answer w' hw hact
    rcases hw with hover | hw
    · exact Or.inl (Or.inl (deviceEffect_overrun hact hover))
    obtain rfl := hact
    refine Or.inr ⟨?_, hw.not_lateWrite⟩
    intro hnot
    simp at hnot
  · intro result
    refine keeps_ite (keeps_pure _) (keeps_bind (guarded_ask trivial) fun result => ?_)
    exact keeps_ite (keeps_pure _) (keeps_pure _)

/-- The installation behind the parameter check leaves the device guarded. -/
theorem guarded_installImages (scriptName : String) :
    Leads deviceEffect (Armed recoverySize arguments paths) (Guarded recoverySize arguments)
      (installImages package hdr scriptName) := by
  refine armed_updateImages.leads_bind (fun w hw => hw.guarded) fun result => ?_
  refine leads_ite ((armed_pure _).leads fun w hw => hw.guarded) ?_
  refine (armed_runUpdateScript _).leads_bind (fun w hw => hw.guarded) fun _ => ?_
  exact guarded_updateLoader

/-- A parameter update stores a message that begins the same image again. -/
theorem armed_updateParameter (hpackage : package ∈ paths) :
    Keeps deviceEffect (Armed recoverySize arguments paths)
      (updateParameter package hdr recoverySize) := by
  refine keeps_bind (armed_updateItem _) fun result => keeps_ite (armed_pure _) ?_
  refine keeps_bind (armed_copyPath _ _) fun _ => ?_
  refine keeps_bind (keeps_ask ?_) fun _ => keeps_bind (armed_ask trivial) fun _ => armed_pure _
  intro w answer w' hw hact
  rcases hw with hover | hw
  · exact Or.inl (deviceEffect_overrun hact hover)
  obtain rfl := hact
  refine Or.inr ⟨⟨rfl, Or.inr ⟨package, hw.began hpackage, rfl⟩⟩, hw.began, ?_, hw.not_lateWrite⟩
  have hdiffers : rkimageMessage package recoverySize ≠ loaderMessage := by
    intro h
    exact absurd (congrArg BootloaderMessage.command h) (by simp [rkimageMessage, loaderMessage])
  simp [hw.not_handedOver, hdiffers]

/-- `install_rkimage` of an image that was begun leaves the device guarded. -/
theorem guarded_installRkimage (scriptName : String) (hpackage : package ∈ paths) :
    Leads deviceEffect (Armed recoverySize arguments paths) (Guarded recoverySize arguments)
      (installRkimage recoverySize scriptName package) := by
  have hfind : Keeps deviceEffect (Armed recoverySize arguments paths)
      (findUpdateImg package) :=
    keeps_bind (armed_ask trivial) fun mounted => keeps_ite (armed_pure _) (armed_ask trivial)
  refine hfind.leads_bind (fun w hw => hw.guarded) fun hdr => ?_
  cases hdr with
  | none => exact (armed_pure _).leads fun w hw => hw.guarded
  | some hdr =>
    refine (armed_copyPath _ _).leads_bind (fun w hw => hw.guarded) fun _ => ?_
    refine leads_ite ?_ (guarded_installImages _)
    refine (armed_imageCompare _).leads_bind (fun w hw => hw.guarded) fun differs => ?_
    refine leads_ite ?_ (guarded_installImages _)
    exact (armed_updateParameter hpackage).leads fun w hw => hw.guarded

end Install

section Main

variable {recoverySize : ℕ} {arguments paths : List String} {config : RecoveryConfig}
  {internalRoot externalRoot : String}

/-- `robotUpdate.cpp` leaves the message alone. -/
theorem armed_liftUpdate {α : Type} (p : UpdateM α) :
    Keeps deviceEffect (Armed recoverySize arguments paths) (liftUpdate p) := by
  induction p with
  | pure value => exact armed_pure _
  | request r next ih =>
    have hask : Keeps deviceEffect (Armed recoverySize arguments paths)
        (ask (RecoveryRequest.update r)) := armed_ask trivial
    exact keeps_bind hask ih

/-- The image of the arguments is under way from the call on. -/
theorem guarded_installFromArguments (path : String) :
    Leads deviceEffect (Armed config.recoverySize arguments [])
      (Guarded config.recoverySize arguments) (installFromArguments config path) := by
  have hbegin : Keeps deviceEffect (Armed config.recoverySize arguments [])
      (ask (RecoveryRequest.installBegins path)) := armed_ask trivial
  refine Leads.bind (hbegin.leads fun w hw => hw.guarded) ?_
    (fun _ => guarded_installRkimage _ (List.mem_singleton_self path))
  intro w answer w' hw hrun
  rcases hbegin w w' hw hrun.reaches with hover | hkept
  · exact Or.inl hover
  refine Or.inr ⟨hkept.holds, ?_, hkept.not_handedOver, hkept.not_lateWrite⟩
  obtain rfl := exec_ask.mp hrun
  simp

/-- Behind the arguments nothing is asked for any more. -/
theorem guarded_argumentsDone {α : Type} (status : Int) (rest : RecoveryM α) :
    Keeps deviceEffect (Guarded recoverySize arguments)
      (ask (RecoveryRequest.argumentsDone status) >>= fun _ => rest) := by
  have hreleased : Leads deviceEffect Released (Guarded recoverySize arguments) rest :=
    (keeps_of_forall (fun r w answer w' hw hact => deviceEffect_released hact hw) rest).leads
      fun w hw => Or.inl hw
  refine Leads.bind (guarded_ask trivial) ?_ fun _ => hreleased
  intro w answer w' hw hrun
  obtain rfl := exec_ask.mp hrun
  exact Or.inr rfl

/-- The demo files leave the device guarded. -/
theorem guarded_copyDemo :
    Keeps deviceEffect (Guarded recoverySize arguments) (copyDemo internalRoot) := by
  refine keeps_bind (keeps_bind (guarded_ask trivial) fun _ => keeps_pure _) fun demo => ?_
  refine keeps_ite (keeps_bind (guarded_ask trivial) fun mounted => ?_) (keeps_pure _)
  exact keeps_ite (keeps_pure _) (guarded_ask trivial)

/-- A device stays armed over a step that is called for only sometimes. -/
theorem armed_zeroUnless (called : Bool) {step : RecoveryM Int}
    (h : Keeps deviceEffect (Armed recoverySize arguments paths) step) :
    Keeps deviceEffect (Armed recoverySize arguments paths) (zeroUnless called step) :=
  keeps_ite h (armed_pure 0)

/-- The SD card tool leaves the device guarded. -/
theorem guarded_sdtoolUpdate :
    Leads deviceEffect (Armed config.recoverySize arguments [])
      (Guarded config.recoverySize arguments)
      (sdtoolUpdate config internalRoot externalRoot) := by
  have hguarded : ∀ w, Armed config.recoverySize arguments [] w →
      Guarded config.recoverySize arguments w := fun w hw => hw.guarded
  have hvalue : ∀ key default, Keeps deviceEffect (Armed config.recoverySize arguments [])
      (sdBootValue key default) := fun key default =>
    keeps_bind (armed_ask trivial) fun _ => armed_pure _
  have hpcba : Keeps deviceEffect (Armed config.recoverySize arguments []) pcbaPasses :=
    keeps_bind (hvalue _ _) fun _ => keeps_ite (armed_ask trivial) (armed_pure _)
  have hformat : Keeps deviceEffect (Armed config.recoverySize arguments [])
      (formatUserData config internalRoot) := by
    refine keeps_bind (armed_ask trivial) fun _ => keeps_bind (armed_ask trivial) fun cloned => ?_
    exact keeps_bind (armed_zeroUnless _ (armed_ask trivial)) fun _ => armed_pure _
  have hcopy : ∀ result : Int × Bool, Keeps deviceEffect (Guarded config.recoverySize arguments)
      (copyDemo internalRoot >>= fun _ => (pure result : RecoveryM (Int × Bool))) :=
    fun result => keeps_bind guarded_copyDemo fun _ => keeps_pure _
  refine Keeps.leads_bind (armed_ask trivial) hguarded fun mounted => ?_
  refine (armed_copyPath _ _).leads_bind hguarded fun _ => ?_
  refine hpcba.leads_bind hguarded fun pass => leads_ite ((armed_pure _).leads hguarded) ?_
  refine hformat.leads_bind hguarded fun status => ?_
  refine (hvalue _ _).leads_bind hguarded fun fwUpdate => leads_ite ?_ ?_
  · refine (armed_copyPath _ _).leads_bind hguarded fun _ => ?_
    refine (guarded_installFromArguments _).bind_keeps fun result => ?_
    exact keeps_ite (keeps_pure _) (hcopy _)
  · exact fun w w' hw => hcopy _ w w' hw.guarded

/-- The rewritten path of an option leaves the device armed. -/
theorem armed_optionPath (path : Option String) :
    Keeps deviceEffect (Armed recoverySize arguments paths) (optionPath path) := by
  cases path with
  | none => exact armed_pure _
  | some path =>
    have hcopy : ∀ path, Keeps deviceEffect (Armed recoverySize arguments paths)
        (copyPath .updatepath path >>= fun _ => (pure (some path) : RecoveryM (Option String))) :=
      fun path => keeps_bind (armed_copyPath _ _) fun _ => armed_pure _
    refine keeps_bind (keeps_ite ?_ (armed_pure _)) hcopy
    refine keeps_bind (armed_copyPath _ _) fun _ => ?_
    exact keeps_bind (armed_ask trivial) fun _ => armed_pure _

/-- So do all paths of `main`. -/
theorem armed_mainPaths (options : Options) :
    Keeps deviceEffect (Armed recoverySize arguments paths) (mainPaths externalRoot options) := by
  have hauto : Keeps deviceEffect (Armed recoverySize arguments paths)
      (autoSdcardUpdatePath externalRoot) := by
    refine keeps_bind (armed_ask trivial) fun mounted => keeps_ite (armed_pure _) ?_
    refine keeps_bind (armed_copyPath _ _) fun _ => ?_
    refine keeps_bind (armed_ask trivial) fun tagged => keeps_ite ?_ (armed_pure _)
    exact keeps_bind (armed_copyPath _ _) fun _ => armed_pure _
  refine keeps_bind hauto fun auto => ?_
  refine keeps_bind (armed_optionPath _) fun updatePackage => ?_
  exact keeps_bind (armed_optionPath _) fun updateRkimage => armed_pure _

/-- The wipe branch leaves the device armed. -/
theorem armed_wipeUpdate (options : Options) :
    Keeps deviceEffect (Armed recoverySize arguments paths)
      (wipeUpdate config internalRoot options) := by
  refine keeps_bind (armed_ask trivial) fun wiped => keeps_bind (armed_ask trivial) fun cloned => ?_
  refine keeps_bind (armed_zeroUnless _ (armed_ask trivial)) fun data => ?_
  refine keeps_bind (armed_zeroUnless _ (armed_ask trivial)) fun cache => ?_
  refine keeps_bind (armed_zeroUnless _ (armed_ask trivial)) fun resized => ?_
  refine keeps_bind (armed_zeroUnless _ (armed_ask trivial)) fun internal => ?_
  exact keeps_ite (armed_pure _) (armed_pure _)

/-- The system part of `main` leaves the device guarded. -/
theorem guarded_systemUpdate (options : Options) (justExit : Bool)
    (updatePackage updateRkimage autoPath : Option String) :
    Leads deviceEffect (Armed config.recoverySize arguments [])
      (Guarded config.recoverySize arguments)
      (systemUpdate config internalRoot options justExit updatePackage updateRkimage
        autoPath) := by
  have hguarded : ∀ w, Armed config.recoverySize arguments [] w →
      Guarded config.recoverySize arguments w := fun w hw => hw.guarded
  cases updatePackage with
  | some path =>
    refine Keeps.leads ?_ hguarded
    refine keeps_bind (armed_ask trivial) fun result => keeps_ite (keeps_ite ?_ ?_) (armed_pure _)
    · exact keeps_bind (armed_ask trivial) fun _ => armed_pure _
    · exact armed_pure _
  | none =>
    cases updateRkimage with
    | some path => exact (guarded_installFromArguments path).bind_keeps fun _ => keeps_pure _
    | none =>
      cases autoPath with
      | some path =>
        refine (guarded_installFromArguments path).bind_keeps fun result => ?_
        refine keeps_ite (keeps_bind (guarded_ask trivial) fun _ => keeps_pure _) (keeps_pure _)
      | none =>
        refine Keeps.leads (keeps_ite ?_ (keeps_ite ?_ (armed_pure _))) hguarded
        · exact keeps_bind (armed_wipeUpdate options) fun _ => armed_pure _
        · exact keeps_bind (armed_ask trivial) fun _ => armed_pure _

/-- `main` with its options leaves the device guarded. -/
theorem guarded_mainOptions (options : Options) :
    Leads deviceEffect (Armed config.recoverySize arguments [])
      (Guarded config.recoverySize arguments)
      (mainOptions config internalRoot externalRoot options) := by
  have hguarded : ∀ w, Armed config.recoverySize arguments [] w →
      Guarded config.recoverySize arguments w := fun w hw => hw.guarded
  refine Keeps.leads_bind (armed_ask trivial) hguarded fun sdboot => leads_ite ?_ ?_
  · refine guarded_sdtoolUpdate.bind_keeps fun result => ?_
    exact guarded_argumentsDone _ _
  · refine Leads.bind_keeps ?_ fun result => guarded_argumentsDone _ _
    refine (armed_mainPaths _).leads_bind hguarded fun paths => ?_
    refine Keeps.leads_bind (keeps_ite ?_ (armed_pure _)) hguarded fun robot => ?_
    · exact keeps_bind (armed_liftUpdate _) fun _ => armed_pure _
    · exact (guarded_systemUpdate _ _ _ _ _).bind_keeps fun _ => keeps_pure _

/-- `get_args` does not write to partitions. -/
theorem untouched_getArgs (argv : List String) :
    Keeps deviceEffect (fun w => w.written = false) (getArgs recoverySize argv) := by
  refine keeps_bind (keeps_ask ?_) fun boot => ?_
  · rintro w answer w' hw ⟨-, rfl⟩
    exact hw
  refine keeps_bind (keeps_ite (keeps_ask ?_) (keeps_pure _)) fun commandFile => ?_
  · rintro w answer w' hw ⟨-, rfl⟩
    exact hw
  refine keeps_bind (keeps_ask ?_) fun _ => keeps_pure _
  rintro w answer w' hw rfl
  exact hw

/-- `get_args` ends with the arguments it chose, and has written them into the message. -/
theorem exec_getArgs {argv : List String} {misc : BootloaderMessage}
    {commandFile : Option (List String)} {chosen : List String} {w : DeviceWorld}
    (h : Exec deviceEffect (DeviceWorld.start misc commandFile) (getArgs recoverySize argv)
      chosen w) :
    chosen = chosenArguments argv misc.recovery commandFile ∧
      w = { DeviceWorld.start (argumentMessage recoverySize misc chosen) commandFile with
        handedOver := decide (argumentMessage recoverySize misc chosen = loaderMessage) } := by
  obtain ⟨boot, w₁, hget, h⟩ := exec_bind.mp h
  obtain ⟨hboot, rfl⟩ := exec_ask.mp hget
  obtain rfl : misc = boot := hboot.symm
  obtain ⟨file, w₂, hfile, h⟩ := exec_bind.mp h
  have hread : w₂ = DeviceWorld.start misc commandFile ∧
      chosenArguments argv misc.recovery file =
        chosenArguments argv misc.recovery commandFile := by
    unfold commandFileOf at hfile
    by_cases hnone : argv = [] ∧ bootArguments misc.recovery = []
    · rw [if_pos hnone] at hfile
      obtain ⟨rfl, rfl⟩ := exec_ask.mp hfile
      exact ⟨rfl, rfl⟩
    · rw [if_neg hnone] at hfile
      obtain ⟨rfl, rfl⟩ := exec_pure.mp hfile
      refine ⟨rfl, ?_⟩
      -- The command file is not consulted where it is not opened.
      unfold chosenArguments
      split_ifs with hargv hboot
      · rfl
      · rfl
      · exact absurd ⟨not_not.mp hargv, not_not.mp hboot⟩ hnone
  obtain ⟨rfl, hchosen⟩ := hread
  obtain ⟨_, w₃, hset, hpure⟩ := exec_bind.mp h
  obtain ⟨rfl, rfl⟩ := exec_pure.mp hpure
  refine ⟨hchosen, (exec_ask.mp hset).trans ?_⟩
  rw [DeviceWorld.start, DeviceWorld.start, Bool.false_or]

/-- `get_args` comes to its end. -/
theorem getArgs_runs (recoverySize : ℕ) (argv : List String) (misc : BootloaderMessage)
    (commandFile : Option (List String)) :
    ∃ chosen w, Exec deviceEffect (DeviceWorld.start misc commandFile) (getArgs recoverySize argv)
      chosen w := by
  obtain ⟨file, hfile⟩ : ∃ file, Exec deviceEffect (DeviceWorld.start misc commandFile)
      (commandFileOf argv misc.recovery) file (DeviceWorld.start misc commandFile) := by
    unfold commandFileOf
    split_ifs
    · exact ⟨commandFile, exec_ask.mpr ⟨rfl, rfl⟩⟩
    · exact ⟨none, exec_pure.mpr ⟨rfl, rfl⟩⟩
  have hset : Exec deviceEffect (DeviceWorld.start misc commandFile) (setBootloaderMessage
      (argumentMessage recoverySize misc (chosenArguments argv misc.recovery file))) (0 : Int) _ :=
    exec_ask.mpr rfl
  exact ⟨_, _, exec_bind.mpr ⟨misc, _, exec_ask.mpr ⟨rfl, rfl⟩, exec_bind.mpr ⟨file, _, hfile,
    exec_bind.mpr ⟨(0 : Int), _, hset, exec_pure.mpr ⟨rfl, rfl⟩⟩⟩⟩⟩

/-- So the device is armed with them. -/
theorem armed_getArgs {argv : List String} {misc : BootloaderMessage}
    {commandFile : Option (List String)} {chosen : List String} {w : DeviceWorld}
    (h : Exec deviceEffect (DeviceWorld.start misc commandFile) (getArgs recoverySize argv)
      chosen w) :
    chosen = chosenArguments argv misc.recovery commandFile ∧
      Armed recoverySize chosen [] w := by
  obtain ⟨hchosen, rfl⟩ := exec_getArgs h
  refine ⟨hchosen, Or.inr ⟨⟨rfl, Or.inl rfl⟩, List.nil_subset _, ?_, rfl⟩⟩
  rw [decide_eq_false_iff_not]
  intro hmessage
  exact absurd (congrArg BootloaderMessage.command hmessage)
    (by simp [argumentMessage, loaderMessage])

end Main

/-- A device on which everything works. -/
def calmDevice : (r : RecoveryRequest) → DeviceWorld → RecoveryAnswer r × DeviceWorld
  | .getBootloaderMessage, w => (w.misc, w)
  | .setBootloaderMessage boot, w =>
    ((0 : Int), { w with misc := boot, handedOver := w.handedOver || boot = loaderMessage })
  | .readCommandFile, w => (w.commandFile, w)
  | .writePartition .., w => (true, w.write)
  | .installBegins path, w => ((), { w with installing := w.installing ++ [path] })
  | .argumentsDone _, w => ((), { w with ended := true })
  | .overruns _, w => ((), { w with overrun := true })
  | r, w => (calmReply r, w)

/-- It does what requests do. -/
theorem calmDevice_allowed (r : RecoveryRequest) (w : DeviceWorld) :
    deviceEffect r w (calmDevice r w).1 (calmDevice r w).2 := by
  cases r with
  | getBootloaderMessage => exact ⟨rfl, rfl⟩
  | readCommandFile => exact ⟨rfl, rfl⟩
  | updateScript => exact Or.inl rfl
  | updateDirectory => exact Or.inl rfl
  | _ => rfl

/-- The device behind so many requests of an installation that works. -/
def calmInstall (requests : ℕ) : DeviceWorld :=
  (recoveryMain default ["--update_rkimage=/mnt/sdcard/update.img"]).worldAfter calmDevice
    requests (DeviceWorld.start BootloaderMessage.zero none)

end RobotOta.InstallRestart
