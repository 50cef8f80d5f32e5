import RobotOta.UpdateCommand
import RobotOta.SeparatedText

/-!
# Selecting the packages and naming their options

`getUpdateFiles` keeps the files whose lower-cased names contain a tag, and
`installPackages` writes one option for each, by the first tag that it finds. Both
look for the two letters anywhere in the name. The option that is found need not be
that of the board, and two files may get the same one.
-/

namespace RobotOta.PackageSelection

open UpdateCommand SeparatedText

/-- A file that was unpacked. -/
structure UnpackedFile extends PackageFile where
  /-- `isFile`; a directory is passed over. -/
  isFile : Bool

section Selecting

variable (toLowerCase : String → String)

/-- `getUpdateFiles`. -/
def getUpdateFiles (files : List UnpackedFile) : List PackageFile :=
  (files.filter fun file =>
    let lowname := toLowerCase file.name
    file.isFile ∧ (contains lowname "rm" ∨ contains lowname "rc" ∨ contains lowname "rp" ∨
      contains lowname "rf" ∨ contains lowname "rb")).map UnpackedFile.toPackageFile

/-- The lines of `arg` in front of the one with the locale. -/
def optionLines (arg : String) : List (List Char) := (arg.toList.splitOn '\n').dropLast

/-- The option of a line. -/
def optionName (line : List Char) : List Char := line.takeWhile fun c => c ≠ '='

/-- The lines are those of the selected files, one each, no option is written twice, and
none with the tag of a board is an image of the main board. -/
structure NoneLost (selected : List PackageFile) (lines : List (List Char)) : Prop where
  /-- Every file has its line, in order. -/
  corresponds : List.Forall₂ (fun file line => ∃ tag : Tag,
    line = ("--" ++ tag.option ++ "=" ++ file.canonicalPath).toList) selected lines
  /-- No option comes twice. -/
  distinct : (lines.map optionName).Nodup
  /-- No file of a board goes to the system image. -/
  routed : ∀ pair ∈ selected.zip lines, optionName pair.2 = "--update_rkimage".toList →
    ∀ tag : Tag, tag ≠ .rm → ¬HasTag toLowerCase tag pair.1

/-- The paths of the files are in one line, their first tags are different, and none has
the tag of a board behind that of the main board. -/
structure Separable (selected : List PackageFile) : Prop where
  /-- A path does not end a line. -/
  oneLine : ∀ file ∈ selected, '\n' ∉ file.canonicalPath.toList
  /-- Tags are different. -/
  distinct : selected.Pairwise fun file other =>
    fileTag toLowerCase file ≠ fileTag toLowerCase other
  /-- A system image is tagged as nothing else. -/
  oneTarget : ∀ file ∈ selected, HasTag toLowerCase .rm file →
    ∀ tag : Tag, tag ≠ .rm → ¬HasTag toLowerCase tag file

end Selecting

variable {toLowerCase : String → String} {selected : List PackageFile} {file : PackageFile}

/-- Each selected file has a tag. -/
theorem hasTag_of_selected {files : List UnpackedFile}
    (h : file ∈ getUpdateFiles toLowerCase files) : ∃ tag, HasTag toLowerCase tag file := by
  obtain ⟨unpacked, hmem, rfl⟩ := List.mem_map.mp h
  obtain ⟨-, htag⟩ := of_decide_eq_true (List.mem_filter.mp hmem).2
  rcases htag with hrm | hrc | hrp | hrf | hrb
  · exact ⟨.rm, hrm⟩
  · exact ⟨.rc, hrc⟩
  · exact ⟨.rp, hrp⟩
  · exact ⟨.rf, hrf⟩
  · exact ⟨.rb, hrb⟩

/-- The first tag is that of the main board where the name has it at all. -/
theorem fileTag_eq_rm_iff (h : ∃ tag, HasTag toLowerCase tag file) :
    fileTag toLowerCase file = .rm ↔ HasTag toLowerCase .rm file := by
  unfold fileTag tags
  rw [List.find?_cons]
  by_cases hrm : HasTag toLowerCase .rm file
  · simp [hrm]
  · rw [decide_eq_false hrm]
    refine iff_of_false (fun hfirst => ?_) hrm
    obtain ⟨tag, htag⟩ := h
    cases hfind : [Tag.rc, .rp, .rf, .rb].find? fun tag => HasTag toLowerCase tag file with
    | none =>
      have hmem : tag ∈ [Tag.rc, .rp, .rf, .rb] := by
        cases tag with
        | rm => exact absurd htag hrm
        | rc | rp | rf | rb => decide
      exact absurd htag (by simpa using List.find?_eq_none.mp hfind tag hmem)
    | some found =>
      have hmem := List.mem_of_find?_eq_some hfind
      rw [hfind] at hfirst
      change found = .rm at hfirst
      rw [hfirst] at hmem
      exact absurd hmem (by decide)

/-- The line of the locale is in one piece. -/
theorem splitOn_locale (locale : LocaleName) :
    ("--locale=" ++ locale.text).toList.splitOn '\n' = [("--locale=" ++ locale.text).toList] := by
  apply List.splitOn_eq_singleton
  simp [locale.oneLine.2]

/-- Where the paths have no line break, the lines are those of the files. -/
theorem optionLines_eq (h : ∀ file ∈ selected, ∃ tag, HasTag toLowerCase tag file)
    (hline : ∀ file ∈ selected, '\n' ∉ file.canonicalPath.toList) (locale : LocaleName) :
    optionLines (installPackages toLowerCase selected locale) =
      selected.map fun file => (lineText toLowerCase file).toList := by
  have hplain : ∀ line ∈ selected.map fun file => (lineText toLowerCase file).toList,
      '\n' ∉ line := by
    intro line hmem
    obtain ⟨file, hfile, rfl⟩ := List.mem_map.mp hmem
    simp [lineText, hline file hfile, (option_plain (fileTag toLowerCase file)).2.2]
  rw [optionLines, installPackages_toList h, splitOn_ended hplain, splitOn_locale,
    List.dropLast_concat]

/-- The option of the line of a file. -/
theorem optionName_lineText (file : PackageFile) :
    optionName (lineText toLowerCase file).toList =
      "--".toList ++ (fileTag toLowerCase file).option.toList := by
  have htext : (lineText toLowerCase file).toList =
      ("--".toList ++ (fileTag toLowerCase file).option.toList) ++
        '=' :: file.canonicalPath.toList := by
    simp [lineText]
  have hplain : ∀ c ∈ "--".toList ++ (fileTag toLowerCase file).option.toList,
      decide (c ≠ '=') = true := by
    intro c hc
    rw [decide_eq_true_iff]
    rintro rfl
    rcases List.mem_append.mp hc with hdash | hoption
    · exact absurd hdash (by decide)
    · exact (option_plain (fileTag toLowerCase file)).1 hoption
  rw [optionName, htext, List.takeWhile_append_of_pos hplain, List.takeWhile_cons_of_neg (by simp),
    List.append_nil]

/-- The options of two tags are different. -/
theorem option_injective : Function.Injective Tag.option := by
  intro tag other h
  cases tag <;> cases other <;> first | rfl | exact absurd h (by decide)

/-- A line that stands for a file has no break, and so has the path in it. -/
theorem oneLine_of_corresponds {arg : String}
    (h : List.Forall₂ (fun file line => ∃ tag : Tag,
      line = ("--" ++ tag.option ++ "=" ++ file.canonicalPath).toList) selected
        (optionLines arg)) :
    ∀ file ∈ selected, '\n' ∉ file.canonicalPath.toList := by
  have hlines : ∀ line ∈ optionLines arg, '\n' ∉ line :=
    fun line hmem => (mem_splitOn (List.dropLast_subset _ hmem)).1
  generalize optionLines arg = lines at h hlines
  induction h with
  | nil => exact fun file hmem => absurd hmem List.not_mem_nil
  | cons hfirst _ ih =>
    intro file hmem
    rcases List.mem_cons.mp hmem with rfl | hrest
    · obtain ⟨tag, rfl⟩ := hfirst
      intro hbreak
      refine hlines _ List.mem_cons_self ?_
      rw [String.toList_append]
      exact List.mem_append_right _ hbreak
    · exact ih (fun line hline => hlines line (List.mem_cons_of_mem _ hline)) file hrest

/-- No option stands in two of the lines if and only if the first tags are different. -/
theorem distinct_iff (selected : List PackageFile) :
    ((selected.map fun file => (lineText toLowerCase file).toList).map optionName).Nodup ↔
      selected.Pairwise fun file other =>
        fileTag toLowerCase file ≠ fileTag toLowerCase other := by
  rw [List.map_map, List.Nodup, List.pairwise_map]
  refine ⟨fun h => h.imp fun {file other} hne htag => hne ?_,
    fun h => h.imp fun {file other} hne hname => hne ?_⟩
  · rw [Function.comp_apply, Function.comp_apply, optionName_lineText, optionName_lineText, htag]
  · rw [Function.comp_apply, Function.comp_apply, optionName_lineText,
      optionName_lineText] at hname
    exact option_injective (String.toList_inj.mp (List.append_cancel_left hname))

/-- A line is an image of the main board if and only if the name has its tag. -/
theorem optionName_eq_iff (h : ∃ tag, HasTag toLowerCase tag file) :
    optionName (lineText toLowerCase file).toList = "--update_rkimage".toList ↔
      HasTag toLowerCase .rm file := by
  have hname : "--update_rkimage".toList = "--".toList ++ Tag.rm.option.toList := by decide
  rw [optionName_lineText, hname, ← fileTag_eq_rm_iff h]
  constructor
  · intro heq
    exact option_injective (String.toList_inj.mp (List.append_cancel_left heq))
  · intro htag
    rw [htag]

/-- For files that have tags, nothing is lost if and only if they are separable. -/
theorem noneLost_of_tagged (h : ∀ file ∈ selected, ∃ tag, HasTag toLowerCase tag file)
    (locale : LocaleName) :
    NoneLost toLowerCase selected (optionLines (installPackages toLowerCase selected locale)) ↔
      Separable toLowerCase selected := by
  constructor
  · rintro ⟨hcorresponds, hdistinct, hrouted⟩
    have hline := oneLine_of_corresponds hcorresponds
    rw [optionLines_eq h hline] at hdistinct hrouted
    refine ⟨hline, (distinct_iff selected).mp hdistinct, fun file hfile hrm => ?_⟩
    refine hrouted (file, (lineText toLowerCase file).toList) ?_
      ((optionName_eq_iff (h file hfile)).mpr hrm)
    rw [← List.map_prod_left_eq_zip]
    exact List.mem_map_of_mem hfile
  · rintro ⟨hline, hdistinct, hrouted⟩
    rw [optionLines_eq h hline]
    refine ⟨?_, (distinct_iff selected).mpr hdistinct, fun pair hpair hname => ?_⟩
    · rw [List.forall₂_map_right_iff, List.forall₂_same]
      exact fun file _ => ⟨fileTag toLowerCase file, rfl⟩
    · rw [← List.map_prod_left_eq_zip] at hpair
      obtain ⟨file, hfile, rfl⟩ := List.mem_map.mp hpair
      exact hrouted file hfile ((optionName_eq_iff (h file hfile)).mp hname)

/-- After `getUpdateFiles`, no selected package is dropped or misrouted if and only if
the selected files are separable. -/
theorem noneLost_iff (toLowerCase : String → String) (files : List UnpackedFile)
    (locale : LocaleName) :
    NoneLost toLowerCase (getUpdateFiles toLowerCase files)
        (optionLines (installPackages toLowerCase (getUpdateFiles toLowerCase files) locale)) ↔
      Separable toLowerCase (getUpdateFiles toLowerCase files) :=
  noneLost_of_tagged (fun _ hfile => hasTag_of_selected hfile) locale

/-- The firmware of a board whose name has the tag of the main board in a word. -/
def firmwareRc : UnpackedFile := ⟨⟨"firmware_rc.hex", "/ota/firmware_rc.hex"⟩, true⟩

/-- It is written as an image of the main board. -/
theorem not_noneLost_firmware :
    ¬NoneLost id (getUpdateFiles id [firmwareRc])
      (optionLines (installPackages id (getUpdateFiles id [firmwareRc])
        ⟨"en_US", by decide, by decide⟩)) := by
  intro hnone
  have hseparable := (noneLost_of_tagged (fun _ hfile => hasTag_of_selected hfile) _).mp hnone
  have hselected : firmwareRc.toPackageFile ∈ getUpdateFiles id [firmwareRc] :=
    List.mem_map_of_mem (List.mem_filter.mpr ⟨List.mem_cons_self, by decide⟩)
  exact hseparable.oneTarget _ hselected (by decide) .rc (by decide) (by decide)

end RobotOta.PackageSelection
