import RobotOta.BlockDevice
import RobotOta.RkImageInstall

/-!
# What an installed image leaves on the partitions

The requests of `install_rkimage` act on partitions byte by byte, and each of them
may fail. The loader is given its message only when every image of the package
stands on its partition.
-/

namespace RobotOta.InstalledImage

open BlockDevice CanFrameCodec RequestProgram BoardUpgrade RecoveryRequests RkImageInstall

/-- The partitions, with ghosts of the run. -/
structure PartitionWorld where
  /-- The bytes of every partition. -/
  partition : String → ℕ → Byte
  /-- The loader was given its message. -/
  handedOver : Bool
  /-- The items of the image that was checked last. -/
  checked : Option (List RkItem)
  /-- What the system partition held when its file system was resized last. -/
  resized : Option (ℕ → Byte)

/-- At most one partition differs. -/
structure ChangesOnly (dest : String) (w w' : PartitionWorld) : Prop where
  partition_eq : ∀ other ≠ dest, w'.partition other = w.partition other
  handedOver_eq : w'.handedOver = w.handedOver
  checked_eq : w'.checked = w.checked
  resized_eq : w'.resized = w.resized

variable (package : ℕ → Option Byte)
  (script : (String → ℕ → Byte) → (String → ℕ → Byte) → Prop)

/-- What a request does. A read of the package or of a partition gets all bytes or
fails; a write that fails may have stored anything under its block; the resize
changes the system partition, the script does what it does, and the loader goes
to `/misc`. A copy behind the end of its block is the last thing that is known of
a run. -/
def partitionEffect : Effect RecoveryRequest RecoveryAnswer PartitionWorld
  | .readSource _ offset count, w, data, w' =>
    w' = w ∧ ∀ bytes, data = some bytes →
      bytes = readAt package offset count ∧ bytes.length = count
  | .readPartition dest position count, w, data, w' =>
    w' = w ∧ ∀ bytes, data = some bytes →
      bytes = firstCells (fun i => w.partition dest (position + i)) count
  | .writePartition dest position data, w, ok, w' =>
    ChangesOnly dest w w' ∧
      (∀ place, place < position ∨ position + data.length ≤ place →
        w'.partition dest place = w.partition dest place) ∧
      (ok = true → w'.partition dest = store (w.partition dest) position data)
  | .checkAndResizefs dest, w, _, w' =>
    ∃ after, ChangesOnly dest w after ∧
      w' = { after with resized := some (w.partition dest) }
  | .updateScript .., w, _, w' =>
    ∃ partition, script w.partition partition ∧ w' = { w with partition := partition }
  | .setBootloaderMessage boot, w, _, w' =>
    w' = { w with handedOver := w.handedOver || boot = loaderMessage }
  | .writeLoader, w, _, w' => ChangesOnly "/misc" w w'
  | .checkImageFile _, w, hdr, w' => w' = { w with checked := hdr }
  | .overruns _, _, _, _ => False
  | _, w, _, w' => w' = w

/-- A partition holds the bytes of an item, if those are in the range of `int`. -/
def HoldsItem (item : RkItem) (content : ℕ → Byte) : Prop :=
  item.size < 2 ^ 31 → item.offset < 2 ^ 31 →
    ∀ i < item.size, package (item.offset + i) = some (content i)

/-- The images that `install_rkimage` writes beside the system, and their partitions. -/
def imageParts : List (String × String) :=
  [("boot", "/boot"), ("backup", "/backup"), ("recovery", "/recovery")]

/-- The items of the package are on their partitions; the system was there when
its file system was resized. -/
structure Installed (hdr : List RkItem) (w : PartitionWorld) : Prop where
  /-- The image has a recovery. -/
  recovery : findItem hdr "recovery" ≠ none
  /-- The partitions hold its items. -/
  parts : ∀ part ∈ imageParts, ∀ item, findItem hdr part.1 = some item →
    HoldsItem package item (w.partition part.2)
  /-- The system was resized when it held the item. -/
  system : ∀ item, findItem hdr "system" = some item →
    ∃ content, w.resized = some content ∧ HoldsItem package item content

variable {package script} {path dest : String} {hdr : List RkItem} {w w' : PartitionWorld}

/-- A run that ends with zero has passed every test for zero. -/
theorem exec_zero {ret : Int} {rest : RecoveryM Int}
    (h : Exec (partitionEffect package script) w (if ret ≠ 0 then pure ret else rest) 0 w') :
    ret = 0 ∧ Exec (partitionEffect package script) w rest 0 w' := by
  by_cases hret : ret = 0
  · rw [if_neg (not_not.mpr hret)] at h
    exact ⟨hret, h⟩
  · rw [if_pos hret] at h
    exact absurd (exec_pure.mp h).1.symm hret

/-- A copy that fits changes nothing, and nothing comes behind another. -/
theorem world_of_copyPath {block : PathBlock} {text : String}
    (h : Exec (partitionEffect package script) w (copyPath block text) () w') : w' = w := by
  rw [exec_copyPath] at h
  split_ifs at h
  · exact h
  · exact h.elim

/-- A comparison changes nothing. -/
theorem keeps_compareLoop (Inv : PartitionWorld → Prop)
    (rounds srcRemain destRemain offset position : ℕ) :
    Keeps (partitionEffect package script) Inv
      (compareLoop path dest rounds srcRemain destRemain offset position) := by
  induction rounds generalizing srcRemain destRemain offset position with
  | zero => exact keeps_pure _
  | succ rounds ih =>
    refine keeps_ite (keeps_bind (keeps_ask ?_) ?_) (keeps_pure _)
    · rintro w data w' hw ⟨rfl, -⟩
      exact hw
    intro srcBuf
    cases srcBuf with
    | none => exact keeps_pure _
    | some srcBuf =>
      refine keeps_bind (keeps_ask ?_) ?_
      · rintro w data w' hw ⟨rfl, -⟩
        exact hw
      intro destBuf
      cases destBuf with
      | none => exact keeps_pure _
      | some destBuf => exact keeps_ite (keeps_pure _) (ih _ _ _ _)

/-- A comparison that returns zero has found the bytes of the package. -/
theorem exec_compareLoop {rounds srcRemain destRemain offset position : ℕ}
    (hrounds : srcRemain ≤ rounds) (hdest : 0 < destRemain)
    (h : Exec (partitionEffect package script) w
      (compareLoop path dest rounds srcRemain destRemain offset position) 0 w') :
    w' = w ∧ ∀ i < srcRemain,
      package (offset + i) = some (w.partition dest (position + i)) := by
  induction rounds generalizing srcRemain destRemain offset position w with
  | zero =>
    rw [compareLoop] at h
    exact ⟨(exec_pure.mp h).2, fun i hi => absurd hi (by omega)⟩
  | succ rounds ih =>
    rw [compareLoop] at h
    by_cases hpos : 0 < srcRemain
    · rw [if_pos ⟨hpos, hdest⟩] at h
      obtain ⟨srcBuf, w₁, hsrc, hbehind⟩ := exec_bind.mp h
      obtain ⟨rfl, hpackage⟩ := exec_ask.mp hsrc
      clear h hsrc
      generalize hcount : (if srcRemain > compareStep then compareStep else srcRemain) = count
        at hpackage hbehind
      have hstep : compareStep = 1024 * 1024 := rfl
      have hle : count ≤ srcRemain ∧ count ≤ compareStep ∧ 0 < count ∧
          (count = srcRemain ∨ count = compareStep) := by
        split_ifs at hcount <;> omega
      cases srcBuf with
      | none => exact absurd (exec_pure.mp hbehind).1 (by decide)
      | some srcBuf =>
        obtain ⟨hbytes, hlength⟩ := hpackage srcBuf rfl
        obtain ⟨destBuf, w₂, hread, hlast⟩ := exec_bind.mp hbehind
        obtain ⟨rfl, hpartition⟩ := exec_ask.mp hread
        clear hbehind hread
        cases destBuf with
        | none => exact absurd (exec_pure.mp hlast).1 (by decide)
        | some destBuf =>
          have hcells := hpartition destBuf rfl
          dsimp only at hlast
          by_cases hdiffers : srcBuf.take count ≠ destBuf.take count
          · rw [if_pos hdiffers] at hlast
            exact absurd (exec_pure.mp hlast).1 (by decide)
          rw [if_neg hdiffers] at hlast
          obtain ⟨hsame, hrest⟩ := ih (by omega) hdest hlast
          have hequal : ∀ i < count,
              package (offset + i) = some (w₂.partition dest (position + i)) := by
            intro i hi
            have hsrc : srcBuf[i]? = package (offset + i) := by
              rw [hbytes, getElem?_readAt]
              rw [← hbytes]
              omega
            have hdest : destBuf[i]? = some (w₂.partition dest (position + i)) := by
              rw [hcells, getElem?_firstCells (by omega)]
            have htake := congrArg (·[i]?) (not_not.mp hdiffers)
            rw [List.getElem?_take_of_lt hi, List.getElem?_take_of_lt hi, hsrc, hdest] at htake
            exact htake
          refine ⟨hsame, fun i hi => ?_⟩
          by_cases hi' : i < count
          · exact hequal i hi'
          · have hbehind := hrest (i - count) (by omega)
            have hfull : count = compareStep := by omega
            have hplace : offset + count + (i - count) = offset + i ∧
                position + compareStep + (i - count) = position + i := by omega
            rwa [hplace.1, hplace.2] at hbehind
    · rw [if_neg (by omega)] at h
      exact ⟨(exec_pure.mp h).2, fun i hi => absurd hi (by omega)⟩

/-- `image_compare` changes nothing. -/
theorem keeps_imageCompare {Inv : PartitionWorld → Prop} (src : String) :
    Keeps (partitionEffect package script) Inv (imageCompare path hdr src dest) := by
  have hquiet : ∀ (r : RecoveryRequest),
      (∀ w answer w', partitionEffect package script r w answer w' → w' = w) →
      Keeps (partitionEffect package script) Inv (ask r) := by
    intro r hr
    refine keeps_ask fun w answer w' hw hact => ?_
    rw [hr w answer w' hact]
    exact hw
  unfold imageCompare
  cases findItem hdr src with
  | none => exact keeps_pure _
  | some pItem =>
    refine keeps_bind (hquiet _ fun _ _ _ h => h) fun fdSrc => keeps_ite (keeps_pure _) ?_
    refine keeps_bind (hquiet _ fun _ _ _ h => h) fun fdDest => keeps_ite (keeps_pure _) ?_
    exact keeps_compareLoop Inv _ _ _ _ _

/-- `image_compare` returns zero only where the partition holds the item. -/
theorem exec_imageCompare {src : String} (hparameter : dest ≠ "/parameter")
    (h : Exec (partitionEffect package script) w (imageCompare path hdr src dest) 0 w') :
    w' = w ∧ ∃ item, findItem hdr src = some item ∧ HoldsItem package item (w.partition dest) := by
  unfold imageCompare at h
  cases hitem : findItem hdr src with
  | none =>
    rw [hitem] at h
    exact absurd (exec_pure.mp h).1 (by decide)
  | some item =>
    rw [hitem] at h
    obtain ⟨fdSrc, w₁, hopen, hopened⟩ := exec_bind.mp h
    obtain rfl := exec_ask.mp hopen
    by_cases hsrc : fdSrc = 0
    · rw [if_pos hsrc] at hopened
      exact absurd (exec_pure.mp hopened).1 (by decide)
    rw [if_neg hsrc] at hopened
    obtain ⟨fdDest, w₂, hopen', hloop⟩ := exec_bind.mp hopened
    obtain rfl := exec_ask.mp hopen'
    by_cases hdest : fdDest < 0
    · rw [if_pos hdest] at hloop
      exact absurd (exec_pure.mp hloop).1 (by decide)
    rw [if_neg hdest, if_neg hparameter] at hloop
    by_cases hsize : item.size = 0
    · rw [hsize] at hloop
      refine ⟨?_, item, rfl, fun _ _ i hi => absurd hi (by omega)⟩
      exact (exec_pure.mp hloop).2
    · obtain ⟨hsame, hequal⟩ := exec_compareLoop le_rfl (by omega) hloop
      refine ⟨hsame, item, rfl, fun _ _ i hi => ?_⟩
      rw [hequal i hi, Nat.zero_add]

theorem ChangesOnly.refl (dest : String) (w : PartitionWorld) : ChangesOnly dest w w :=
  ⟨fun _ _ => rfl, rfl, rfl, rfl⟩

theorem ChangesOnly.trans {w₁ w₂ w₃ : PartitionWorld} (h : ChangesOnly dest w₁ w₂)
    (h' : ChangesOnly dest w₂ w₃) : ChangesOnly dest w₁ w₃ where
  partition_eq other hother := (h'.partition_eq other hother).trans (h.partition_eq other hother)
  handedOver_eq := h'.handedOver_eq.trans h.handedOver_eq
  checked_eq := h'.checked_eq.trans h.checked_eq
  resized_eq := h'.resized_eq.trans h.resized_eq

section Write

variable {Inv : PartitionWorld → Prop} (hInv : ∀ w w', Inv w → ChangesOnly dest w w' → Inv w')

include hInv

/-- Writes to a partition keep what does not depend on it. -/
theorem keeps_writeParameter (data : List Byte) (places : List ℕ) :
    Keeps (partitionEffect package script) Inv (writeParameter dest data places) := by
  induction places with
  | nil => exact keeps_pure _
  | cons place places ih =>
    refine keeps_bind (keeps_ask ?_) fun ok => keeps_ite ih (keeps_pure _)
    rintro w ok w' hw ⟨hchange, -⟩
    exact hInv w w' hw hchange

theorem keeps_writeLoop (isParameter : Bool)
    (rounds srcRemain destRemain offset position : ℕ) (bWrited : Bool) :
    Keeps (partitionEffect package script) Inv
      (writeLoop path dest isParameter rounds srcRemain destRemain offset position bWrited) := by
  induction rounds generalizing srcRemain destRemain offset position bWrited with
  | zero => exact keeps_pure _
  | succ rounds ih =>
    refine keeps_ite (keeps_bind (keeps_ask ?_) ?_) (keeps_pure _)
    · rintro w data w' hw ⟨rfl, -⟩
      exact hw
    intro data
    cases data with
    | none => exact keeps_pure _
    | some data =>
      refine keeps_ite (keeps_bind (keeps_writeParameter hInv _ _) ?_)
        (keeps_bind (keeps_ask ?_) ?_)
      · exact fun ok => keeps_ite (ih _ _ _ _ _) (keeps_pure _)
      · rintro w ok w' hw ⟨hchange, -⟩
        exact hInv w w' hw hchange
      · exact fun ok => keeps_ite (ih _ _ _ _ _) (keeps_pure _)

theorem keeps_writeImage (src : String) :
    Keeps (partitionEffect package script) Inv (writeImage path hdr src dest) := by
  unfold writeImage
  cases findItem hdr src with
  | none => exact keeps_pure _
  | some pItem =>
    refine keeps_bind (keeps_ask ?_) fun fdSrc => keeps_ite (keeps_pure _) ?_
    · rintro w fdSrc w' hw rfl
      exact hw
    refine keeps_bind (keeps_ask ?_) fun fdDest => keeps_ite (keeps_pure _) ?_
    · rintro w fdDest w' hw rfl
      exact hw
    exact keeps_writeLoop hInv _ _ _ _ _ _ _

theorem keeps_updateItem (src : String) :
    Keeps (partitionEffect package script) Inv (updateItem path hdr src dest) :=
  keeps_bind (keeps_writeImage hInv src) fun _ =>
    keeps_ite (keeps_pure _) (keeps_imageCompare src)

end Write

/-- `write_image` changes its partition only. -/
theorem changesOnly_writeImage {src : String} {result : Int}
    (h : Exec (partitionEffect package script) w (writeImage path hdr src dest) result w') :
    ChangesOnly dest w w' :=
  keeps_writeImage (fun _ _ hw hchange => hw.trans hchange) src w w'
    (ChangesOnly.refl dest w) h.reaches

/-- An item that is written and compared is on its partition. -/
theorem exec_updateItem {src : String} (hparameter : dest ≠ "/parameter")
    (h : Exec (partitionEffect package script) w (updateItem path hdr src dest) 0 w') :
    ChangesOnly dest w w' ∧
      ∃ item, findItem hdr src = some item ∧ HoldsItem package item (w'.partition dest) := by
  obtain ⟨result, w₁, hwrite, hrest⟩ := exec_bind.mp h
  obtain ⟨-, hcompare⟩ := exec_zero hrest
  obtain ⟨rfl, hholds⟩ := exec_imageCompare hparameter hcompare
  exact ⟨changesOnly_writeImage hwrite, hholds⟩

/-- The results of the copy loop. -/
theorem exec_writeLoop {isParameter bWrited : Bool}
    {rounds srcRemain destRemain offset position : ℕ} {result : Int}
    (h : Exec (partitionEffect package script) w
      (writeLoop path dest isParameter rounds srcRemain destRemain offset position bWrited)
      result w') : -2 ≤ result := by
  induction rounds generalizing srcRemain destRemain offset position bWrited w with
  | zero =>
    rw [writeLoop] at h
    rw [(exec_pure.mp h).1]
    decide
  | succ rounds ih =>
    rw [writeLoop] at h
    by_cases hmore : 0 < srcRemain ∧ 0 < destRemain
    · rw [if_pos hmore] at h
      obtain ⟨data, w₁, -, hrest⟩ := exec_bind.mp h
      clear h
      cases data with
      | none =>
        rw [(exec_pure.mp hrest).1]
        split <;> decide
      | some data =>
        have hnext : ∀ {ok : Bool} {w₂ : PartitionWorld} {srcRemain destRemain offset position : ℕ},
            Exec (partitionEffect package script) w₂
              (if ok then writeLoop path dest isParameter rounds srcRemain destRemain offset
                position true else pure (-1)) result w' → -2 ≤ result := by
          intro ok w₂ srcRemain destRemain offset position hnext
          cases ok with
          | false =>
            rw [(exec_pure.mp hnext).1]
            decide
          | true => exact ih hnext
        cases isParameter with
        | true =>
          obtain ⟨ok, w₂, -, hok⟩ := exec_bind.mp hrest
          exact hnext hok
        | false =>
          obtain ⟨ok, w₂, -, hok⟩ := exec_bind.mp hrest
          exact hnext hok
    · rw [if_neg hmore] at h
      rw [(exec_pure.mp h).1]
      decide

/-- Only an item that is missing lets `write_image` return -4. -/
theorem exec_writeImage_missing {src : String}
    (h : Exec (partitionEffect package script) w (writeImage path hdr src dest) (-4) w') :
    findItem hdr src = none := by
  unfold writeImage at h
  cases hitem : findItem hdr src with
  | none => rfl
  | some item =>
    rw [hitem] at h
    obtain ⟨fdSrc, w₁, -, hopened⟩ := exec_bind.mp h
    by_cases hsrc : fdSrc = 0
    · rw [if_pos hsrc] at hopened
      exact absurd (exec_pure.mp hopened).1 (by decide)
    rw [if_neg hsrc] at hopened
    obtain ⟨fdDest, w₂, -, hloop⟩ := exec_bind.mp hopened
    by_cases hdest : fdDest < 0
    · rw [if_pos hdest] at hloop
      exact absurd (exec_pure.mp hloop).1 (by decide)
    rw [if_neg hdest] at hloop
    exact absurd (exec_writeLoop hloop) (by decide)

/-- The boot image is on its partition, if there is one. -/
theorem exec_updateBoot
    (h : Exec (partitionEffect package script) w (updateBoot path hdr) 0 w') :
    ChangesOnly "/boot" w w' ∧
      ∀ item, findItem hdr "boot" = some item → HoldsItem package item (w'.partition "/boot") := by
  obtain ⟨result, w₁, hwrite, hrest⟩ := exec_bind.mp h
  have hchange := changesOnly_writeImage hwrite
  by_cases hmissing : result = -4
  · rw [if_pos hmissing] at hrest
    rw [hmissing] at hwrite
    obtain rfl := (exec_pure.mp hrest).2
    rw [exec_writeImage_missing hwrite]
    exact ⟨hchange, fun item hitem => by cases hitem⟩
  rw [if_neg hmissing] at hrest
  by_cases hzero : result = 0
  · rw [if_pos hzero] at hrest
    obtain ⟨rfl, item, hitem, hholds⟩ := exec_imageCompare (by decide) hrest
    refine ⟨hchange, fun other hother => ?_⟩
    rw [hitem] at hother
    cases hother
    exact hholds
  · rw [if_neg hzero] at hrest
    exact absurd (exec_pure.mp hrest).1.symm hzero

/-- The system image was on its partition when that was resized. -/
theorem exec_updateSystem
    (h : Exec (partitionEffect package script) w (updateSystem path hdr) 0 w') :
    (∀ other ≠ "/system", w'.partition other = w.partition other) ∧
      w'.handedOver = w.handedOver ∧ w'.checked = w.checked ∧
      ∀ item, findItem hdr "system" = some item →
        ∃ content, w'.resized = some content ∧ HoldsItem package item content := by
  obtain ⟨result, w₁, hwrite, hrest⟩ := exec_bind.mp h
  have hchange := changesOnly_writeImage hwrite
  by_cases hmissing : result = -4
  · rw [if_pos hmissing] at hrest
    rw [hmissing] at hwrite
    obtain rfl := (exec_pure.mp hrest).2
    rw [exec_writeImage_missing hwrite]
    exact ⟨hchange.partition_eq, hchange.handedOver_eq, hchange.checked_eq,
      fun item hitem => by cases hitem⟩
  rw [if_neg hmissing] at hrest
  by_cases hzero : result = 0
  · rw [if_pos hzero] at hrest
    obtain ⟨differs, w₂, hcompare, hresize⟩ := exec_bind.mp hrest
    obtain ⟨rfl, hresized⟩ := exec_zero hresize
    obtain ⟨rfl, item, hitem, hholds⟩ := exec_imageCompare (by decide) hcompare
    obtain ⟨after, hafter, rfl⟩ := exec_ask.mp hresized
    have hboth := hchange.trans hafter
    refine ⟨hboth.partition_eq, hboth.handedOver_eq, hboth.checked_eq, fun other hother => ?_⟩
    rw [hitem] at hother
    cases hother
    exact ⟨_, rfl, hholds⟩
  · rw [if_neg hzero] at hrest
    exact absurd (exec_pure.mp hrest).1.symm hzero

/-- The backup image is on its partition, if there is one. -/
theorem exec_updateBackup
    (h : Exec (partitionEffect package script) w (updateBackup path hdr) 0 w') :
    ChangesOnly "/backup" w w' ∧
      ∀ item, findItem hdr "backup" = some item →
        HoldsItem package item (w'.partition "/backup") := by
  rw [updateBackup] at h
  by_cases hfound : findItem hdr "backup" ≠ none
  · rw [if_pos hfound] at h
    obtain ⟨hchange, item, hitem, hholds⟩ := exec_updateItem (by decide) h
    refine ⟨hchange, fun other hother => ?_⟩
    rw [hitem] at hother
    cases hother
    exact hholds
  · rw [if_neg hfound] at h
    obtain rfl := (exec_pure.mp h).2
    rw [not_not.mp hfound]
    exact ⟨ChangesOnly.refl _ _, fun item hitem => by cases hitem⟩

/-- When all images have been written and compared they are on their partitions:
no later step touches the partition of an earlier one. -/
theorem exec_updateImages
    (h : Exec (partitionEffect package script) w (updateImages path hdr) 0 w') :
    Installed package hdr w' := by
  obtain ⟨boot, w₁, hboot, h₁⟩ := exec_bind.mp h
  obtain ⟨rfl, h₁⟩ := exec_zero h₁
  obtain ⟨system, w₂, hsystem, h₂⟩ := exec_bind.mp h₁
  obtain ⟨rfl, h₂⟩ := exec_zero h₂
  obtain ⟨backup, w₃, hbackup, h₃⟩ := exec_bind.mp h₂
  obtain ⟨rfl, hrecovery⟩ := exec_zero h₃
  obtain ⟨-, hbootHolds⟩ := exec_updateBoot hboot
  obtain ⟨hsystemFrame, -, -, hsystemHolds⟩ := exec_updateSystem hsystem
  obtain ⟨hbackupChange, hbackupHolds⟩ := exec_updateBackup hbackup
  obtain ⟨hrecoveryChange, item, hitem, hrecoveryHolds⟩ := exec_updateItem (by decide) hrecovery
  have hbootEq : w'.partition "/boot" = w₁.partition "/boot" :=
    ((hrecoveryChange.partition_eq _ (by decide)).trans
      (hbackupChange.partition_eq _ (by decide))).trans (hsystemFrame _ (by decide))
  have hbackupEq : w'.partition "/backup" = w₃.partition "/backup" :=
    hrecoveryChange.partition_eq _ (by decide)
  refine ⟨by rw [hitem]; exact Option.some_ne_none item, ?_, ?_⟩
  · intro part hpart
    simp only [imageParts, List.mem_cons, List.not_mem_nil, or_false] at hpart
    rcases hpart with rfl | rfl | rfl
    · rw [hbootEq]
      exact hbootHolds
    · rw [hbackupEq]
      exact hbackupHolds
    · intro other hother
      rw [hitem] at hother
      cases hother
      exact hrecoveryHolds
  · rw [hrecoveryChange.resized_eq, hbackupChange.resized_eq]
    exact hsystemHolds

/-- Before the loader is given its message. -/
def Fresh (hdr : List RkItem) (w : PartitionWorld) : Prop :=
  w.handedOver = false ∧ w.checked = some hdr

theorem Fresh.changesOnly (h : Fresh hdr w) (hchange : ChangesOnly dest w w') : Fresh hdr w' :=
  ⟨hchange.handedOver_eq.trans h.1, hchange.checked_eq.trans h.2⟩

/-- Writing and comparing images does not hand anything over. -/
theorem keeps_updateImages :
    Keeps (partitionEffect package script) (Fresh hdr) (updateImages path hdr) := by
  have hfresh : ∀ {dest : String} (w w' : PartitionWorld), Fresh hdr w → ChangesOnly dest w w' →
      Fresh hdr w' := fun _ _ hw hchange => hw.changesOnly hchange
  have hboot : Keeps (partitionEffect package script) (Fresh hdr) (updateBoot path hdr) := by
    refine keeps_bind (keeps_writeImage hfresh _) fun result => ?_
    exact keeps_ite (keeps_pure _) (keeps_ite (keeps_imageCompare _) (keeps_pure _))
  have hsystem : Keeps (partitionEffect package script) (Fresh hdr) (updateSystem path hdr) := by
    refine keeps_bind (keeps_writeImage hfresh _) fun result => ?_
    refine keeps_ite (keeps_pure _) (keeps_ite ?_ (keeps_pure _))
    refine keeps_bind (keeps_imageCompare _) fun result => keeps_ite (keeps_pure _) (keeps_ask ?_)
    rintro w answer w' hw ⟨after, hafter, rfl⟩
    exact ⟨hafter.handedOver_eq.trans hw.1, hafter.checked_eq.trans hw.2⟩
  have hbackup : Keeps (partitionEffect package script) (Fresh hdr) (updateBackup path hdr) :=
    keeps_ite (keeps_updateItem hfresh _) (keeps_pure _)
  refine keeps_bind hboot fun result => keeps_ite (keeps_pure _) ?_
  refine keeps_bind hsystem fun result => keeps_ite (keeps_pure _) ?_
  refine keeps_bind hbackup fun result => keeps_ite (keeps_pure _) ?_
  exact keeps_updateItem hfresh _

/-- What must hold once the loader has its message. -/
def HandedOverSafely (package : ℕ → Option Byte) (w : PartitionWorld) : Prop :=
  w.handedOver = true → ∃ hdr, w.checked = some hdr ∧ Installed package hdr w

theorem Fresh.safe (h : Fresh hdr w) : HandedOverSafely package w := by
  intro hover
  rw [h.1] at hover
  cases hover

/-- All images of the checked package are on their partitions. -/
def Verified (package : ℕ → Option Byte) (hdr : List RkItem) (w : PartitionWorld) : Prop :=
  w.checked = some hdr ∧ Installed package hdr w

theorem Verified.safe (h : Verified package hdr w) : HandedOverSafely package w :=
  fun _ => ⟨hdr, h⟩

/-- Partitions beside those of the images do not matter. -/
theorem Verified.congr (h : Verified package hdr w) (hchecked : w'.checked = w.checked)
    (hresized : w'.resized = w.resized)
    (hparts : ∀ part ∈ imageParts, w'.partition part.2 = w.partition part.2) :
    Verified package hdr w' := by
  refine ⟨hchecked.trans h.1, h.2.recovery, fun part hpart => ?_, hresized ▸ h.2.system⟩
  rw [hparts part hpart]
  exact h.2.parts part hpart

/-- The update script leaves the partitions of the images alone. -/
def ScriptSpares (script : (String → ℕ → Byte) → (String → ℕ → Byte) → Prop) : Prop :=
  ∀ before after, script before after →
    ∀ part ∈ imageParts, after part.2 = before part.2

theorem keeps_runUpdateScript (hscript : ScriptSpares script) (scriptName : String) :
    Keeps (partitionEffect package script) (Verified package hdr)
      (runUpdateScript path hdr scriptName) := by
  unfold runUpdateScript
  cases findItem hdr scriptName with
  | none => exact keeps_pure _
  | some item =>
    refine keeps_bind (keeps_ask ?_) fun _ => keeps_pure _
    rintro w answer w' hw ⟨partition, hrun, rfl⟩
    exact hw.congr rfl rfl (hscript _ _ hrun)

/-- The last steps write the message and the loader, and no image. -/
theorem keeps_updateLoader :
    Keeps (partitionEffect package script) (Verified package hdr) updateLoader := by
  refine keeps_bind (keeps_ask ?_) fun result => keeps_ite (keeps_pure _) ?_
  · rintro w answer w' hw rfl
    exact hw.congr rfl rfl fun _ _ => rfl
  refine keeps_bind (keeps_ask ?_) fun result => keeps_ite (keeps_pure _) (keeps_pure _)
  intro w answer w' hw hchange
  refine hw.congr hchange.checked_eq hchange.resized_eq fun part hpart =>
    hchange.partition_eq _ ?_
  have hnames : ∀ part ∈ imageParts, part.2 ≠ "/misc" := by decide
  exact hnames part hpart

/-- Wherever the installation stands, the loader has its message only with all
images on their partitions. -/
theorem safe_installImages (hscript : ScriptSpares script) {scriptName : String}
    (hw : Fresh hdr w)
    (h : Reaches (partitionEffect package script) w (installImages path hdr scriptName) w') :
    HandedOverSafely package w' := by
  rcases reaches_bind h with hin | ⟨result, w₁, hrun, hin⟩
  · exact (keeps_updateImages w w' hw hin).safe
  · have hw₁ := keeps_updateImages w w₁ hw hrun.reaches
    by_cases hresult : result = 0
    · rw [if_neg (not_not.mpr hresult)] at hin
      rw [hresult] at hrun
      have hverified : Verified package hdr w₁ := ⟨hw₁.2, exec_updateImages hrun⟩
      exact ((keeps_bind (keeps_runUpdateScript hscript scriptName) fun _ => keeps_updateLoader)
        w₁ w' hverified hin).safe
    · rw [if_pos hresult] at hin
      exact (keeps_pure _ w₁ w' hw₁ hin).safe

/-- A new parameter block hands nothing over. -/
theorem keeps_updateParameter (recoverySize : ℕ) :
    Keeps (partitionEffect package script) (Fresh hdr)
      (updateParameter path hdr recoverySize) := by
  have hmessage : rkimageMessage path recoverySize ≠ loaderMessage := by
    intro heq
    exact absurd (congrArg BootloaderMessage.command heq)
      (by decide : "boot-recovery" ≠ "bootloader")
  refine keeps_bind (keeps_updateItem (fun _ _ hw hchange => hw.changesOnly hchange) _)
    fun result => keeps_ite (keeps_pure _) ?_
  refine keeps_bind (keeps_copyPath fun _ _ _ h => h.elim) fun _ => ?_
  refine keeps_bind (keeps_ask ?_) fun _ => keeps_bind (keeps_ask ?_) fun _ => keeps_pure _
  · rintro w answer w' hw rfl
    refine ⟨?_, hw.2⟩
    rw [hw.1, decide_eq_false hmessage]
    rfl
  · rintro w answer w' hw rfl
    exact hw

/-- A run of the last steps that reports the loader has given it its message. -/
theorem exec_updateLoader {result : Int}
    (h : Exec (partitionEffect package script) w updateLoader (result, true) w') :
    w'.handedOver = true := by
  obtain ⟨stored, w₁, hstore, hrest⟩ := exec_bind.mp h
  have hover : w₁.handedOver = true := by
    rw [exec_ask.mp hstore]
    simp
  obtain ⟨-, hloader⟩ := exec_passed (by simp) hrest
  obtain ⟨written, w₂, hwrite, hlast⟩ := exec_bind.mp hloader
  obtain ⟨-, hend⟩ := exec_passed (by simp) hlast
  rw [(exec_pure.mp hend).2]
  exact (exec_ask.mp hwrite).handedOver_eq.trans hover

theorem exec_installImages {scriptName : String} {result : Int}
    (h : Exec (partitionEffect package script) w (installImages path hdr scriptName)
      (result, true) w') : w'.handedOver = true := by
  obtain ⟨images, w₁, -, hrest⟩ := exec_bind.mp h
  obtain ⟨-, hscript⟩ := exec_passed (by simp) hrest
  obtain ⟨_, w₂, -, hloader⟩ := exec_bind.mp hscript
  exact exec_updateLoader hloader

/-- The check of the image file hands nothing over, and its items are kept. -/
theorem keeps_findUpdateImg :
    Keeps (partitionEffect package script) (fun w => w.handedOver = false)
      (findUpdateImg path) := by
  refine keeps_bind (keeps_ask ?_) fun mounted => keeps_ite (keeps_pure _) (keeps_ask ?_)
  · rintro w answer w' hw rfl
    exact hw
  · rintro w answer w' hw rfl
    exact hw

theorem exec_findUpdateImg (hw : w.handedOver = false)
    (h : Exec (partitionEffect package script) w (findUpdateImg path) (some hdr) w') :
    Fresh hdr w' := by
  obtain ⟨mounted, w₁, hmount, hrest⟩ := exec_bind.mp h
  obtain rfl := exec_ask.mp hmount
  obtain ⟨-, hcheck⟩ := exec_passed (Option.some_ne_none hdr) hrest
  rw [exec_ask.mp hcheck]
  exact ⟨hw, rfl⟩

section Sample

/-- The bytes of the package count up from one. -/
def samplePackage (place : ℕ) : Option Byte := some (BitVec.ofNat 8 (place + 1))

/-- Partitions of zeros. -/
def sampleWorld : PartitionWorld := ⟨fun _ _ => 0, false, none, none⟩

/-- The header has a recovery image of two bytes. -/
def sampleHeader : List RkItem := [⟨"recovery", 5, 2⟩]

/-- A script that does nothing. -/
def noScript (before after : String → ℕ → Byte) : Prop := after = before

/-- The block that `write_image` writes of it. -/
def sampleBlock : List Byte := [6, 7] ++ List.replicate (writeStep - [6, 7].length) 0

/-- The recovery partition behind that. -/
def sampleRecovery : ℕ → Byte := store (fun _ => 0) 0 sampleBlock

/-- The world when the image has been checked. -/
def checkedSample : PartitionWorld := { sampleWorld with checked := some sampleHeader }

/-- The world when the image has been written. -/
def writtenSample : PartitionWorld :=
  { checkedSample with partition := Function.update (fun _ _ => 0) "/recovery" sampleRecovery }

theorem sampleWrite : ChangesOnly "/recovery" checkedSample writtenSample where
  partition_eq other hother := by
    rw [writtenSample]
    dsimp only
    rw [Function.update_of_ne hother]
    rfl
  handedOver_eq := rfl
  checked_eq := rfl
  resized_eq := rfl

theorem sampleRecovery_take : (firstCells sampleRecovery compareStep).take 2 = [6, 7] := by
  have hpair : (List.range compareStep).take 2 = [0, 1] := by
    rw [List.take_range]
    rfl
  rw [firstCells, ← List.map_take, hpair]
  rfl

/-- The recovery image of the sample is written and compared. -/
theorem exec_sampleRecovery :
    Exec (partitionEffect samplePackage noScript) checkedSample
      (updateRecovery "/sdcard/update.img" sampleHeader) 0 writtenSample := by
  have hsource : ∀ w, Exec (partitionEffect samplePackage noScript) w
      (ask (RecoveryRequest.readSource "/sdcard/update.img" 5 2)) (some [6, 7]) w := by
    refine fun w => exec_ask.mpr ⟨rfl, ?_⟩
    rintro bytes ⟨⟩
    exact ⟨rfl, rfl⟩
  have hrecovery : writtenSample.partition "/recovery" = sampleRecovery := by
    rw [writtenSample]
    dsimp only
    rw [Function.update_self]
  have hstored : partitionEffect samplePackage noScript
      (.writePartition "/recovery" 0 sampleBlock) checkedSample true writtenSample := by
    refine ⟨sampleWrite, fun place hplace => ?_, fun _ => hrecovery⟩
    rw [hrecovery]
    exact store_outside hplace
  have hwrite : Exec (partitionEffect samplePackage noScript) checkedSample
      (writeLoop "/sdcard/update.img" "/recovery" false 2 2 2 5 0 false) 0 writtenSample := by
    refine exec_bind.mpr ⟨some [6, 7], _, hsource _,
      exec_bind.mpr ⟨true, writtenSample, exec_ask.mpr hstored, ?_⟩⟩
    exact exec_pure.mpr ⟨rfl, rfl⟩
  have hcompare : Exec (partitionEffect samplePackage noScript) writtenSample
      (compareLoop "/sdcard/update.img" "/recovery" 2 2 2 5 0) 0 writtenSample := by
    refine exec_bind.mpr ⟨some [6, 7], _, hsource _,
      exec_bind.mpr ⟨some (firstCells sampleRecovery compareStep), writtenSample, ?_, ?_⟩⟩
    · refine exec_ask.mpr ⟨rfl, ?_⟩
      intro bytes hbytes
      rw [← Option.some.inj hbytes, hrecovery]
      exact congrArg (firstCells · compareStep) (funext fun i => by rw [Nat.zero_add])
    · dsimp only
      rw [if_neg]
      · exact exec_pure.mpr ⟨rfl, rfl⟩
      · refine not_not.mpr ?_
        exact Eq.trans rfl sampleRecovery_take.symm
  refine exec_bind.mpr ⟨0, writtenSample, ?_, ?_⟩
  · exact exec_bind.mpr ⟨(3 : Int), _, exec_ask.mpr rfl,
      exec_bind.mpr ⟨(4 : Int), _, exec_ask.mpr rfl, hwrite⟩⟩
  · exact exec_bind.mpr ⟨(3 : Int), _, exec_ask.mpr rfl,
      exec_bind.mpr ⟨(4 : Int), _, exec_ask.mpr rfl, hcompare⟩⟩

/-- The sample behind its installation. -/
def sampleEnd : PartitionWorld := { writtenSample with handedOver := true }

/-- The installation of the sample comes to its end. -/
theorem exec_sampleInstall : Exec (partitionEffect samplePackage noScript) sampleWorld
    (installRkimage 1024 "update-script" "/sdcard/update.img") (0, true) sampleEnd := by
  have hfind : Exec (partitionEffect samplePackage noScript) sampleWorld
      (findUpdateImg "/sdcard/update.img") (some sampleHeader) checkedSample :=
    exec_bind.mpr ⟨(0 : Int), sampleWorld, exec_ask.mpr rfl, exec_ask.mpr rfl⟩
  have hmissing : ∀ src dest, findItem sampleHeader src = none → ∀ w,
      Exec (partitionEffect samplePackage noScript) w
        (writeImage "/sdcard/update.img" sampleHeader src dest) (-4) w := by
    intro src dest hsrc w
    unfold writeImage
    rw [hsrc]
    exact exec_pure.mpr ⟨rfl, rfl⟩
  have hcopy : Exec (partitionEffect samplePackage noScript) checkedSample
      (copyPath .gPackageTarget "/sdcard/update.img") () checkedSample :=
    exec_pure.mpr ⟨rfl, rfl⟩
  refine exec_bind.mpr ⟨_, _, hfind, exec_bind.mpr ⟨(), _, hcopy, ?_⟩⟩
  refine exec_bind.mpr ⟨0, writtenSample, ?_, ?_⟩
  · refine exec_bind.mpr ⟨0, _, exec_bind.mpr ⟨-4, _, hmissing _ _ rfl _,
      exec_pure.mpr ⟨rfl, rfl⟩⟩, ?_⟩
    refine exec_bind.mpr ⟨0, _, exec_bind.mpr ⟨-4, _, hmissing _ _ rfl _,
      exec_pure.mpr ⟨rfl, rfl⟩⟩, ?_⟩
    exact exec_bind.mpr ⟨0, _, exec_pure.mpr ⟨rfl, rfl⟩, exec_sampleRecovery⟩
  · refine exec_bind.mpr ⟨(), _, exec_pure.mpr ⟨rfl, rfl⟩, ?_⟩
    refine exec_bind.mpr ⟨(0 : Int), sampleEnd, exec_ask.mpr rfl, ?_⟩
    exact exec_bind.mpr ⟨(0 : Int), sampleEnd, exec_ask.mpr (ChangesOnly.refl _ _),
      exec_pure.mpr ⟨rfl, rfl⟩⟩

end Sample

end RobotOta.InstalledImage
