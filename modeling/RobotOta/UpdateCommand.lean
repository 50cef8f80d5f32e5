import RobotOta.CommandLine
import RobotOta.RecoveryMain
import Mathlib.Data.List.Infix
import Mathlib.Data.List.Perm.Subperm

/-!
# The update command on its way to recovery

`installPackages` of `RecoverySystem.java` writes one option a line;
`get_args` and `main` of `recovery.cpp` read them back. Texts are in the
characters of the command file. The two sides share nothing but the names of
the options, so the way back is followed through every layer.
-/

namespace RobotOta.UpdateCommand

open BoardUpgrade RequestProgram RecoveryRequests RecoveryMain CommandLine

/-- A package file: its name, and its canonical path. -/
structure PackageFile where
  /-- `getName`. -/
  name : String
  /-- `getCanonicalPath`. -/
  canonicalPath : String

/-- `String.contains`. -/
def contains (text part : String) : Prop := part.toList <:+: text.toList

instance (text part : String) : Decidable (contains text part) :=
  inferInstanceAs (Decidable (_ <:+: _))

/-- `MAX_ARG_LENGTH`. -/
def maxArgLength : ℕ := 4096

/-- `Locale.getDefault().toString()`: short, and in one line. -/
structure LocaleName where
  /-- The name. -/
  text : String
  /-- It does not end a line. -/
  oneLine : '\r' ∉ text.toList ∧ '\n' ∉ text.toList
  /-- Its argument fits into a line of the command file. -/
  short : ("--locale=" ++ text).toList.length + 2 ≤ maxArgLength

section Writer

variable (toLowerCase : String → String)

/-- What `installPackages` adds to `arg` for one file. -/
def packageLine (file : PackageFile) : String :=
  let filename := file.canonicalPath
  let lowname := toLowerCase file.name
  if contains lowname "rm" then "--update_rkimage=" ++ filename ++ "\n"
  else if contains lowname "rc" then "--update_rc=" ++ filename ++ "\n"
  else if contains lowname "rp" then "--update_rp=" ++ filename ++ "\n"
  else if contains lowname "rf" then "--update_rf=" ++ filename ++ "\n"
  else if contains lowname "rb" then "--update_rb=" ++ filename ++ "\n"
  else ""

/-- `arg` of `installPackages`. -/
def installPackages (packageFiles : List PackageFile) (locale : LocaleName) : String :=
  packageFiles.foldl (fun arg file => arg ++ packageLine toLowerCase file) "" ++
    ("--locale=" ++ locale.text)

end Writer

/-- What `bootCommand` leaves in `COMMAND_FILE`. -/
def bootCommand (arg : String) : String := arg ++ "\n"

/-- `OPTIONS`. -/
def options : List OptionEntry :=
  [⟨"factory_mode", .requiredArgument, 'f'.toNat⟩,
    ⟨"send_intent", .requiredArgument, 's'.toNat⟩,
    ⟨"update_package", .requiredArgument, 'u'.toNat⟩,
    ⟨"update_rkimage", .requiredArgument, 'r'.toNat⟩,
    ⟨"update_rc", .requiredArgument, 'r'.toNat + 'c'.toNat⟩,
    ⟨"update_rp", .requiredArgument, 'r'.toNat + 'p'.toNat⟩,
    ⟨"update_rf", .requiredArgument, 'r'.toNat + '-'.toNat + 'f'.toNat⟩,
    ⟨"update_rb", .requiredArgument, 'r'.toNat + 'b'.toNat⟩,
    ⟨"wipe_data", .noArgument, 'w'.toNat⟩,
    ⟨"wipe_cache", .noArgument, 'c'.toNat⟩,
    ⟨"show_text", .noArgument, 't'.toNat⟩,
    ⟨"wipe_all", .noArgument, 'w'.toNat + 'a'.toNat⟩,
    ⟨"just_exit", .noArgument, 'x'.toNat⟩,
    ⟨"locale", .requiredArgument, 'l'.toNat⟩,
    ⟨"stages", .requiredArgument, 'g'.toNat⟩]

/-- The case of the switch in `main`. `previous_runs`, which the case of `'p'`
sets, is read nowhere. -/
def switchCase (arg : ℕ) : LongOption :=
  if arg = 'p'.toNat then .invalid
  else if arg = 's'.toNat then .sendIntent
  else if arg = 'u'.toNat then .updatePackage
  else if arg = 'r'.toNat then .updateRkimage
  else if arg = 'r'.toNat + 'c'.toNat then .updateRc
  else if arg = 'r'.toNat + 'p'.toNat then .updateRp
  else if arg = 'r'.toNat + '-'.toNat + 'f'.toNat then .updateRf
  else if arg = 'r'.toNat + 'b'.toNat then .updateRb
  else if arg = 'w'.toNat then .wipeData
  else if arg = 'c'.toNat then .wipeCache
  else if arg = 'f'.toNat then .factoryMode
  else if arg = 't'.toNat then .showText
  else if arg = 'w'.toNat + 'a'.toNat then .wipeAll
  else if arg = 'x'.toNat then .justExit
  else if arg = 'l'.toNat then .locale
  else if arg = 'g'.toNat then .stages
  else .invalid

/-- What the loop of `main` over `getopt_long` sees. -/
def scannedOptions (arguments : List String) : List (LongOption × String) :=
  (scanOptions options arguments).map fun found => (switchCase found.1, found.2)

/-- A build in which `getopt_long` behaves as documented. -/
def withOptions (config : RecoveryConfig) : RecoveryConfig :=
  { config with getoptLong := scannedOptions }

/-- A device with an empty bootloader message and this command file; what else
it answers is left open. Its state tells whether a path was copied behind the end
of its block. -/
def commandFileDevice (text : String) : Effect RecoveryRequest RecoveryAnswer Bool
  | .getBootloaderMessage, overrun, boot, overrun' =>
    boot = BootloaderMessage.zero ∧ overrun' = overrun
  | .readCommandFile, overrun, buffers, overrun' =>
    buffers = some ((fgetsBuffers maxArgLength text.toList []).map String.ofList) ∧
      overrun' = overrun
  | .overruns _, _, _, overrun' => overrun' = true
  | _, overrun, _, overrun' => overrun' = overrun

/-- The tags of `installPackages`. -/
inductive Tag where
  | rm
  | rc
  | rp
  | rf
  | rb
  deriving DecidableEq

/-- The tag as it stands in a name. -/
def Tag.text : Tag → String
  | .rm => "rm"
  | .rc => "rc"
  | .rp => "rp"
  | .rf => "rf"
  | .rb => "rb"

section Purpose

variable (toLowerCase : String → String)

/-- The lower-cased name contains the tag. -/
def HasTag (tag : Tag) (file : PackageFile) : Prop := contains (toLowerCase file.name) tag.text

instance (tag : Tag) (file : PackageFile) : Decidable (HasTag toLowerCase tag file) :=
  inferInstanceAs (Decidable (contains _ _))

/-- Package files that can be told apart and written in one line each. -/
structure Installable (files : List PackageFile) : Prop where
  /-- A file is tagged for one target. -/
  one_tag : ∀ file ∈ files, ∃ tag, HasTag toLowerCase tag file ∧
    ∀ other, HasTag toLowerCase other file → other = tag
  /-- No two files have a tag in common. -/
  distinct : files.Pairwise fun file other =>
    ∀ tag, HasTag toLowerCase tag file → ¬ HasTag toLowerCase tag other
  /-- Paths start at the root. -/
  absolute : ∀ file ∈ files, startsWith file.canonicalPath "/" = true
  /-- They do not lie on the USB storage. -/
  not_usb : ∀ file ∈ files, startsWith file.canonicalPath "/mnt/usb_storage" = false
  /-- They do not end a line. -/
  one_line : ∀ file ∈ files,
    '\r' ∉ file.canonicalPath.toList ∧ '\n' ∉ file.canonicalPath.toList
  /-- 4094 characters and the newline. -/
  fits : ∀ file ∈ files, (packageLine toLowerCase file).toList.length ≤ 4095

/-- The path of the file with this tag. -/
def pathOf (files : List PackageFile) (tag : Tag) : Option String :=
  (files.find? fun file => HasTag toLowerCase tag file).map PackageFile.canonicalPath

/-- The boards in the order of the upgrade, with the tag of their firmware. -/
def boards (ids : ModuleIds) : List (CanFrameCodec.Byte × Tag) :=
  [(ids.rcUpgradeId, .rc), (ids.rpUpgradeId, .rp), (ids.rfUpgradeId, .rf),
    (ids.rbLArmUpgradeId, .rb), (ids.rbRArmUpgradeId, .rb), (ids.rbBodyUpgradeId, .rb)]

/-- The modules to upgrade with these files. -/
def modulesFor (ids : ModuleIds) (files : List PackageFile) : List (CanFrameCodec.Byte × String) :=
  (boards ids).filterMap fun board => (pathOf toLowerCase files board.2).map fun path =>
    (board.1, path)

/-- The tags in the order of the tests. -/
def tags : List Tag := [.rm, .rc, .rp, .rf, .rb]

/-- The tag of a name that contains one. -/
def fileTag (file : PackageFile) : Tag :=
  (tags.find? fun tag => HasTag toLowerCase tag file).getD .rm

end Purpose

/-- The option of a tag. -/
def Tag.option : Tag → String
  | .rm => "update_rkimage"
  | .rc => "update_rc"
  | .rp => "update_rp"
  | .rf => "update_rf"
  | .rb => "update_rb"

/-- The code of that option. -/
def Tag.code : Tag → ℕ
  | .rm => 'r'.toNat
  | .rc => 'r'.toNat + 'c'.toNat
  | .rp => 'r'.toNat + 'p'.toNat
  | .rf => 'r'.toNat + '-'.toNat + 'f'.toNat
  | .rb => 'r'.toNat + 'b'.toNat

/-- What `main` keeps of that option. -/
def Tag.kept : Tag → Options → Option String
  | .rm, kept => kept.updateRkimage
  | .rc, kept => kept.updateRc
  | .rp, kept => kept.updateRp
  | .rf, kept => kept.updateRf
  | .rb, kept => kept.updateRb

section Lines

variable {toLowerCase : String → String} {files : List PackageFile} {file : PackageFile}

/-- The line of a file, without its newline. -/
def lineText (toLowerCase : String → String) (file : PackageFile) : String :=
  "--" ++ (fileTag toLowerCase file).option ++ "=" ++ file.canonicalPath

/-- The lines of the command file. -/
def commandLines (toLowerCase : String → String) (files : List PackageFile)
    (locale : LocaleName) : List String :=
  files.map (lineText toLowerCase) ++ ["--locale=" ++ locale.text]

/-- Every tag is tested. -/
theorem mem_tags (tag : Tag) : tag ∈ tags := by
  cases tag <;> decide

/-- A name with one tag has it. -/
theorem Installable.hasTag_iff (h : Installable toLowerCase files) (hfile : file ∈ files)
    (tag : Tag) : HasTag toLowerCase tag file ↔ fileTag toLowerCase file = tag := by
  obtain ⟨own, hown, hunique⟩ := h.one_tag file hfile
  have htag : fileTag toLowerCase file = own := by
    unfold fileTag
    cases hfind : tags.find? fun tag => decide (HasTag toLowerCase tag file) with
    | none =>
      have hnone := List.find?_eq_none.mp hfind own (mem_tags own)
      exact absurd hown (by simpa using hnone)
    | some found => exact hunique found (by simpa using List.find?_some hfind)
  rw [htag]
  constructor
  · exact fun htag => (hunique tag htag).symm
  · rintro rfl
    exact hown

/-- The tests of `installPackages` come to the first tag of the name. -/
theorem packageLine_eq (h : ∃ tag, HasTag toLowerCase tag file) :
    packageLine toLowerCase file = lineText toLowerCase file ++ "\n" := by
  unfold packageLine lineText fileTag tags
  simp only [List.find?_cons, List.find?_nil, HasTag, Tag.text]
  by_cases hrm : contains (toLowerCase file.name) "rm"
  · simp [hrm, Tag.option, String.append_assoc]
  by_cases hrc : contains (toLowerCase file.name) "rc"
  · simp [hrm, hrc, Tag.option, String.append_assoc]
  by_cases hrp : contains (toLowerCase file.name) "rp"
  · simp [hrm, hrc, hrp, Tag.option, String.append_assoc]
  by_cases hrf : contains (toLowerCase file.name) "rf"
  · simp [hrm, hrc, hrp, hrf, Tag.option, String.append_assoc]
  by_cases hrb : contains (toLowerCase file.name) "rb"
  · simp [hrm, hrc, hrp, hrf, hrb, Tag.option, String.append_assoc]
  · obtain ⟨tag, htag⟩ := h
    cases tag with
    | rm => exact absurd htag hrm
    | rc => exact absurd htag hrc
    | rp => exact absurd htag hrp
    | rf => exact absurd htag hrf
    | rb => exact absurd htag hrb

/-- A name with one tag has one. -/
theorem Installable.packageLine_eq (h : Installable toLowerCase files) (hfile : file ∈ files) :
    packageLine toLowerCase file = lineText toLowerCase file ++ "\n" := by
  obtain ⟨tag, htag, -⟩ := h.one_tag file hfile
  exact UpdateCommand.packageLine_eq ⟨tag, htag⟩

/-- The names of the options have neither `=` nor line breaks. -/
theorem option_plain (tag : Tag) :
    '=' ∉ tag.option.toList ∧ '\r' ∉ tag.option.toList ∧ '\n' ∉ tag.option.toList := by
  cases tag <;> decide

/-- A line is in one piece and fits the buffer. -/
theorem Installable.lineText_fits (h : Installable toLowerCase files) (hfile : file ∈ files) :
    '\r' ∉ (lineText toLowerCase file).toList ∧ '\n' ∉ (lineText toLowerCase file).toList ∧
      (lineText toLowerCase file).toList.length + 2 ≤ maxArgLength := by
  obtain ⟨hreturn, hnewline⟩ := h.one_line file hfile
  obtain ⟨-, hreturn', hnewline'⟩ := option_plain (fileTag toLowerCase file)
  refine ⟨?_, ?_, ?_⟩
  · simp [lineText, hreturn, hreturn']
  · simp [lineText, hnewline, hnewline']
  · have hfits := h.fits file hfile
    rw [h.packageLine_eq hfile, String.toList_append, List.length_append] at hfits
    have hone : ("\n" : String).toList.length = 1 := by decide
    unfold maxArgLength
    omega

/-- So are all lines of the command file. -/
theorem Installable.commandLines_fit (h : Installable toLowerCase files) (locale : LocaleName) :
    ∀ line ∈ commandLines toLowerCase files locale, line ≠ "" ∧ '\r' ∉ line.toList ∧
      '\n' ∉ line.toList ∧ line.toList.length + 2 ≤ maxArgLength := by
  intro line hline
  rcases List.mem_append.mp hline with hline | hline
  · obtain ⟨file, hfile, rfl⟩ := List.mem_map.mp hline
    refine ⟨?_, h.lineText_fits hfile⟩
    simp [lineText]
  · obtain rfl := List.mem_singleton.mp hline
    obtain ⟨hreturn, hnewline⟩ := locale.oneLine
    refine ⟨?_, ?_, ?_, locale.short⟩
    · simp
    · simp [hreturn]
    · simp [hnewline]

/-- `arg` is made of the lines of the files and that of the locale. -/
theorem installPackages_toList (h : ∀ file ∈ files, ∃ tag, HasTag toLowerCase tag file)
    (locale : LocaleName) :
    (installPackages toLowerCase files locale).toList =
      ((files.map fun file => (lineText toLowerCase file).toList).flatMap fun line =>
        line ++ ['\n']) ++ ("--locale=" ++ locale.text).toList := by
  have hfold : ∀ (own : List PackageFile) (arg : String), (∀ file ∈ own, file ∈ files) →
      (own.foldl (fun arg file => arg ++ packageLine toLowerCase file) arg).toList =
        arg.toList ++ (own.map fun file => (lineText toLowerCase file).toList).flatMap
          fun line => line ++ ['\n'] := by
    intro own
    induction own with
    | nil => simp
    | cons file own ih =>
      intro arg hown
      rw [List.foldl_cons, ih _ fun other hother => hown other (List.mem_cons_of_mem _ hother),
        packageLine_eq (h file (hown file List.mem_cons_self))]
      simp
  rw [installPackages, String.toList_append, hfold files "" fun _ hfile => hfile]
  rfl

/-- The text of `installPackages` is made of these lines. -/
theorem Installable.bootCommand_toList (h : Installable toLowerCase files) (locale : LocaleName) :
    (bootCommand (installPackages toLowerCase files locale)).toList =
      ((commandLines toLowerCase files locale).map String.toList).flatMap (· ++ ['\n']) := by
  have htags : ∀ file ∈ files, ∃ tag, HasTag toLowerCase tag file := by
    intro file hfile
    obtain ⟨tag, htag, -⟩ := h.one_tag file hfile
    exact ⟨tag, htag⟩
  rw [bootCommand, String.toList_append, installPackages_toList htags]
  simp [commandLines, Function.comp_def]

/-- The first token of a line is the line. -/
theorem firstToken_line {line : String} (hne : line ≠ "") (hreturn : '\r' ∉ line.toList)
    (hnewline : '\n' ∉ line.toList) :
    firstToken (String.ofList (line.toList ++ ['\n'])) = some line := by
  have hplain : ∀ c ∈ line.toList, decide (c = '\r' ∨ c = '\n') = false := by
    intro c hc
    rw [decide_eq_false_iff_not]
    rintro (rfl | rfl)
    · exact hreturn hc
    · exact hnewline hc
  have hlist : line.toList ≠ [] := fun hnil => hne (String.toList_eq_nil_iff.mp hnil)
  rw [firstToken, String.toList_ofList,
    List.splitOnP_append_cons_of_forall_mem hplain '\n' (by decide),
    List.find?_cons_of_pos (by simpa using hlist), Option.map_some, String.ofList_toList]

/-- There are no more files than tags. -/
theorem Installable.length_le (h : Installable toLowerCase files) : files.length ≤ 5 := by
  have hnodup : (files.map (fileTag toLowerCase)).Nodup := by
    rw [List.Nodup, List.pairwise_map]
    refine h.distinct.imp_of_mem ?_
    intro file other hfile hother hdistinct htag
    exact hdistinct _ ((h.hasTag_iff hfile _).mpr rfl) ((h.hasTag_iff hother _).mpr htag.symm)
  have hsub := (List.subperm_of_subset hnodup fun tag _ => mem_tags tag).length_le
  rw [List.length_map] at hsub
  exact hsub

/-- `get_args` reads the lines as they were written. -/
theorem Installable.fileArguments_eq (h : Installable toLowerCase files) (locale : LocaleName) :
    fileArguments ((fgetsBuffers maxArgLength
      (bootCommand (installPackages toLowerCase files locale)).toList []).map String.ofList) =
      commandLines toLowerCase files locale := by
  have hfit := h.commandLines_fit locale
  rw [h.bootCommand_toList, fgetsBuffers_lines]
  · have htokens : ∀ lines : List String, (∀ line ∈ lines, line ≠ "" ∧ '\r' ∉ line.toList ∧
          '\n' ∉ line.toList ∧ line.toList.length + 2 ≤ maxArgLength) →
        (((lines.map String.toList).map (· ++ ['\n'])).map String.ofList).filterMap firstToken =
          lines := by
      intro lines
      induction lines with
      | nil => intro _; rfl
      | cons line lines ih =>
        intro hlines
        obtain ⟨hne, hreturn, hnewline, -⟩ := hlines line List.mem_cons_self
        rw [List.map_cons, List.map_cons, List.map_cons,
          List.filterMap_cons_some (firstToken_line hne hreturn hnewline),
          ih fun other hother => hlines other (List.mem_cons_of_mem _ hother)]
    rw [fileArguments, htokens _ hfit]
    refine List.take_of_length_le ?_
    have hlen := h.length_le
    rw [commandLines, List.length_append, List.length_map, List.length_singleton]
    unfold maxArgs
    omega
  · intro line hline
    obtain ⟨text, htext, rfl⟩ := List.mem_map.mp hline
    exact (hfit text htext).2.2

/-- `get_args` ends with the lines of the command file, and does so in some run. -/
theorem Installable.getArgs_iff (h : Installable toLowerCase files) (locale : LocaleName)
    {recoverySize : ℕ} {arguments : List String} {overrun overrun' : Bool} :
    Exec (commandFileDevice (bootCommand (installPackages toLowerCase files locale))) overrun
        (getArgs recoverySize []) arguments overrun' ↔
      arguments = commandLines toLowerCase files locale ∧ overrun' = overrun := by
  constructor
  · intro hrun
    obtain ⟨boot, overrun₁, hboot, hbehind⟩ := exec_bind.mp hrun
    obtain ⟨rfl, rfl⟩ := exec_ask.mp hboot
    obtain ⟨commandFile, overrun₂, hread, hrest⟩ := exec_bind.mp hbehind
    obtain ⟨rfl, rfl⟩ := exec_ask.mp hread
    obtain ⟨_, overrun₃, hset, hend⟩ := exec_bind.mp hrest
    have hsame : overrun₃ = overrun₂ := exec_ask.mp hset
    obtain ⟨rfl, rfl⟩ := exec_pure.mp hend
    exact ⟨h.fileArguments_eq locale, hsame⟩
  · rintro ⟨rfl, rfl⟩
    refine exec_bind.mpr ⟨BootloaderMessage.zero, _, exec_ask.mpr ⟨rfl, rfl⟩, ?_⟩
    refine exec_bind.mpr ⟨some ((fgetsBuffers maxArgLength (bootCommand
      (installPackages toLowerCase files locale)).toList []).map String.ofList), _,
      exec_ask.mpr ⟨rfl, rfl⟩, ?_⟩
    refine exec_bind.mpr ⟨(0 : Int), _, exec_ask.mpr rfl, exec_pure.mpr ⟨?_, rfl⟩⟩
    exact (h.fileArguments_eq locale).symm

/-- Every option of a tag is found under its full name. -/
theorem findOption_tag (tag : Tag) :
    findOption options tag.option.toList = some ⟨tag.option, .requiredArgument, tag.code⟩ := by
  cases tag <;> rfl

/-- `getopt_long` finds the options of the lines. -/
theorem scanOptions_commandLines (files : List PackageFile) (locale : LocaleName) :
    scanOptions options (commandLines toLowerCase files locale) =
      files.map (fun file => ((fileTag toLowerCase file).code, file.canonicalPath)) ++
        [('l'.toNat, locale.text)] := by
  induction files with
  | nil =>
    have hlocale : findOption options ("locale" : String).toList =
        some ⟨"locale", .requiredArgument, 'l'.toNat⟩ := rfl
    exact scanOptions_spelled hlocale (by decide) locale.text []
  | cons file files ih =>
    rw [List.map_cons, List.cons_append, ← ih]
    exact scanOptions_spelled (findOption_tag _) (option_plain _).1 _ _

/-- Each code goes to its own variable. -/
theorem kept_applyOption (tag other : Tag) (kept : Options) (path : String) :
    tag.kept (applyOption kept (switchCase other.code, path)) =
      if tag = other then some path else tag.kept kept := by
  cases tag <;> cases other <;> rfl

/-- Fewer files can be told apart as well. -/
theorem Installable.of_cons (h : Installable toLowerCase (file :: files)) :
    Installable toLowerCase files where
  one_tag := fun other hother => h.one_tag other (List.mem_cons_of_mem _ hother)
  distinct := (List.pairwise_cons.mp h.distinct).2
  absolute := fun other hother => h.absolute other (List.mem_cons_of_mem _ hother)
  not_usb := fun other hother => h.not_usb other (List.mem_cons_of_mem _ hother)
  one_line := fun other hother => h.one_line other (List.mem_cons_of_mem _ hother)
  fits := fun other hother => h.fits other (List.mem_cons_of_mem _ hother)

/-- Behind the switch, the variable of a tag has the path of its file. -/
theorem Installable.kept_foldl (h : Installable toLowerCase files) (tag : Tag) (kept : Options) :
    tag.kept ((files.map fun file =>
        (switchCase (fileTag toLowerCase file).code, file.canonicalPath)).foldl applyOption kept) =
      (pathOf toLowerCase files tag <|> tag.kept kept) := by
  induction files generalizing kept with
  | nil => rfl
  | cons file files ih =>
    have htag := h.hasTag_iff List.mem_cons_self tag
    rw [List.map_cons, List.foldl_cons, ih h.of_cons, kept_applyOption]
    by_cases hown : fileTag toLowerCase file = tag
    · have hothers : pathOf toLowerCase files tag = none := by
        rw [pathOf, Option.map_eq_none_iff, List.find?_eq_none]
        intro other hother
        simpa using (List.pairwise_cons.mp h.distinct).1 other hother tag (htag.mpr hown)
      have hfirst : pathOf toLowerCase (file :: files) tag = some file.canonicalPath := by
        rw [pathOf, List.find?_cons_of_pos (by simpa using htag.mpr hown), Option.map_some]
      rw [hothers, hfirst, if_pos hown.symm]
      rfl
    · have hfirst : pathOf toLowerCase (file :: files) tag = pathOf toLowerCase files tag := by
        rw [pathOf, List.find?_cons_of_neg (by simpa using fun hhas => hown (htag.mp hhas)), pathOf]
      rw [hfirst, if_neg fun heq => hown heq.symm]

/-- What `main` finds in the lines. -/
theorem getoptLong_commandLines (files : List PackageFile) (locale : LocaleName)
    (config : RecoveryConfig) :
    (withOptions config).getoptLong (commandLines toLowerCase files locale) =
      (files.map fun file =>
        (switchCase (fileTag toLowerCase file).code, file.canonicalPath)) ++
        [(.locale, locale.text)] := by
  simp only [withOptions, scannedOptions, scanOptions_commandLines, List.map_append,
    List.map_map]
  rfl

/-- `main` keeps the path of each tag. -/
theorem Installable.kept_parseOptions (h : Installable toLowerCase files) (locale : LocaleName)
    (config : RecoveryConfig) (tag : Tag) :
    tag.kept (parseOptions (withOptions config) (commandLines toLowerCase files locale)) =
      pathOf toLowerCase files tag := by
  have hinitial : tag.kept Options.initial = none := by
    cases tag <;> rfl
  rw [parseOptions, getoptLong_commandLines, List.foldl_append, List.foldl_cons, List.foldl_nil,
    applyOption, h.kept_foldl, hinitial]
  cases pathOf toLowerCase files tag <;> rfl

/-- No line is the option of an update package. -/
theorem updatePackage_parseOptions (toLowerCase : String → String) (files : List PackageFile)
    (locale : LocaleName) (config : RecoveryConfig) :
    (parseOptions (withOptions config) (commandLines toLowerCase files locale)).updatePackage =
      none := by
  have hkept : ∀ (tag : Tag) (path : String) (kept : Options),
      (applyOption kept (switchCase tag.code, path)).updatePackage = kept.updatePackage := by
    intro tag path kept
    cases tag <;> rfl
  have hfold : ∀ (own : List PackageFile) (kept : Options),
      ((own.map fun file => (switchCase (fileTag toLowerCase file).code,
        file.canonicalPath)).foldl applyOption kept).updatePackage = kept.updatePackage := by
    intro own
    induction own with
    | nil => exact fun _ => rfl
    | cons file own ih =>
      intro kept
      rw [List.map_cons, List.foldl_cons, ih, hkept]
  rw [parseOptions, getoptLong_commandLines, List.foldl_append, List.foldl_cons, List.foldl_nil,
    applyOption, hfold]
  rfl

/-- The path that a tag stands for is one of the files'. -/
theorem exists_of_pathOf {tag : Tag} {path : String}
    (h : pathOf toLowerCase files tag = some path) : ∃ file ∈ files, file.canonicalPath = path := by
  obtain ⟨file, hfind, hpath⟩ := Option.map_eq_some_iff.mp h
  exact ⟨file, List.mem_of_find?_eq_some hfind, hpath⟩

/-- `main` leaves such a path as it is. -/
theorem Installable.packagePath_eq (h : Installable toLowerCase files) (hfile : file ∈ files) :
    packagePath file.canonicalPath = pure file.canonicalPath := by
  have hcache : startsWith file.canonicalPath "CACHE:" = false := by
    have habsolute := h.absolute file hfile
    unfold startsWith at habsolute ⊢
    cases hpath : file.canonicalPath.toList with
    | nil => rfl
    | cons first path =>
      rw [hpath] at habsolute
      obtain rfl : '/' = first := by simpa using habsolute
      rfl
  simp only [packagePath, hcache, h.not_usb file hfile, Bool.false_eq_true, if_false]

/-- One board takes at most one place in the list of modules. -/
theorem filterMap_board (module : CanFrameCodec.Byte) (tag : Tag)
    (others : List (CanFrameCodec.Byte × Tag)) :
    ((module, tag) :: others).filterMap (fun board =>
        (pathOf toLowerCase files board.2).map fun path => (board.1, path)) =
      ((pathOf toLowerCase files tag).toList.map fun path => (module, path)) ++
        others.filterMap fun board =>
          (pathOf toLowerCase files board.2).map fun path => (board.1, path) := by
  rw [List.filterMap_cons]
  cases pathOf toLowerCase files tag <;> rfl

end Lines

/-- On its way from Android to recovery the update command leads to the array of
modules and the image that the package files stand for, and no block is overrun. -/
def CommandSurvives (config : RecoveryConfig) (externalRoot : String)
    (toLowerCase : String → String) (files : List PackageFile) (locale : LocaleName) : Prop :=
  ∀ found overrun,
    Exec (commandFileDevice (bootCommand (installPackages toLowerCase files locale))) false
      (mainModules (withOptions config) externalRoot []) found overrun →
    overrun = false ∧
      found = (pathOf toLowerCase files .rm, modulesFor toLowerCase config.ids files)

/-- The path of the system image fits `updatepath`, and that of the tag on the SD
card fits its block. -/
def PathsFit (externalRoot : String) (image : Option String) : Prop :=
  PathBlock.target.Holds (externalRoot ++ autoFactoryUpdateTag) ∧
    ∀ path, image = some path → PathBlock.updatepath.Holds path

section Survives

variable {toLowerCase : String → String} {files : List PackageFile} {text externalRoot : String}
  {kept : Options} {overrun overrun' : Bool}

/-- Copies that fit leave the state alone. -/
theorem copyPath_eq {block : PathBlock} {path : String} (hfits : block.Holds path)
    (h : Exec (commandFileDevice text) overrun (copyPath block path) () overrun') :
    overrun' = overrun := by
  rw [exec_copyPath, if_pos hfits] at h
  exact h

/-- The path of an update on the SD card is shorter than that of its tag. -/
theorem autoPath_holds (h : PathBlock.target.Holds (externalRoot ++ autoFactoryUpdateTag)) :
    PathBlock.autoPath.Holds (externalRoot ++ autoFactoryUpdatePackage) := by
  unfold PathBlock.Holds at h ⊢
  rw [String.toList_append, List.length_append] at h ⊢
  have htag : autoFactoryUpdateTag.toList.length = 34 := rfl
  have hpackage : autoFactoryUpdatePackage.toList.length = 26 := rfl
  have hsize : PathBlock.target.size = PathBlock.autoPath.size := rfl
  omega

/-- On a card with a short root nothing is overrun. -/
theorem autoSdcardUpdatePath_eq {auto : Option String}
    (hfits : PathBlock.target.Holds (externalRoot ++ autoFactoryUpdateTag))
    (h : Exec (commandFileDevice text) overrun (autoSdcardUpdatePath externalRoot) auto overrun') :
    overrun' = overrun := by
  obtain ⟨mounted, overrun₁, hmount, hbehind⟩ := exec_bind.mp h
  have hsame : overrun₁ = overrun := exec_ask.mp hmount
  split_ifs at hbehind
  · exact (exec_pure.mp hbehind).2.trans hsame
  obtain ⟨_, overrun₂, hcopy, hlook⟩ := exec_bind.mp hbehind
  obtain ⟨tagged, overrun₃, hexists, hrest⟩ := exec_bind.mp hlook
  have hbefore : overrun₃ = overrun :=
    (exec_ask.mp hexists : overrun₃ = overrun₂).trans ((copyPath_eq hfits hcopy).trans hsame)
  split_ifs at hrest
  · obtain ⟨_, overrun₄, hcopied, hend⟩ := exec_bind.mp hrest
    exact (exec_pure.mp hend).2.trans ((copyPath_eq (autoPath_holds hfits) hcopied).trans hbefore)
  · exact (exec_pure.mp hrest).2.trans hbefore

/-- A run in which the card is mounted and has no tag. -/
theorem exec_autoSdcardUpdatePath : Exec (commandFileDevice text) overrun
    (autoSdcardUpdatePath externalRoot) none
    (if PathBlock.target.Holds (externalRoot ++ autoFactoryUpdateTag) then overrun else true) := by
  refine exec_bind.mpr ⟨(0 : Int), _, exec_ask.mpr rfl, ?_⟩
  rw [if_neg (not_not.mpr rfl)]
  refine exec_bind.mpr ⟨(), _, ?_, exec_bind.mpr ⟨false, _, exec_ask.mpr rfl,
    exec_pure.mpr ⟨rfl, rfl⟩⟩⟩
  rw [exec_copyPath]
  split_ifs
  · rfl
  · rfl

/-- The path of a package that is left as it is. -/
theorem exec_optionPath {path : String} (hpath : packagePath path = pure path)
    {found : Option String} :
    Exec (commandFileDevice text) overrun (optionPath (some path)) found overrun' ↔
      found = some path ∧
        overrun' = if PathBlock.updatepath.Holds path then overrun else true := by
  rw [optionPath, hpath]
  constructor
  · intro h
    obtain ⟨copied, overrun₁, hcopied, hrest⟩ := exec_bind.mp h
    obtain ⟨rfl, rfl⟩ := exec_pure.mp hcopied
    obtain ⟨_, overrun₂, hcopy, hend⟩ := exec_bind.mp hrest
    obtain ⟨rfl, rfl⟩ := exec_pure.mp hend
    rw [exec_copyPath] at hcopy
    refine ⟨rfl, ?_⟩
    split_ifs at hcopy ⊢ with hfits
    · exact hcopy
    · exact hcopy
  · rintro ⟨rfl, rfl⟩
    refine exec_bind.mpr ⟨path, _, exec_pure.mpr ⟨rfl, rfl⟩,
      exec_bind.mpr ⟨(), _, ?_, exec_pure.mpr ⟨rfl, rfl⟩⟩⟩
    rw [exec_copyPath]
    split_ifs
    · rfl
    · rfl

/-- A flag that is down exactly under a condition. -/
theorem exists_flag (down : Prop) : ∃ flag : Bool, flag = false ↔ down := by
  by_cases h : down
  · exact ⟨false, by simp [h]⟩
  · exact ⟨true, by simp [h]⟩

/-- The array of modules stands for the package files. -/
theorem Installable.robotModules_eq (h : Installable toLowerCase files) (locale : LocaleName)
    (config : RecoveryConfig) :
    robotModules config.ids
        (parseOptions (withOptions config) (commandLines toLowerCase files locale)) =
      modulesFor toLowerCase config.ids files := by
  have hkept := h.kept_parseOptions locale config
  generalize parseOptions (withOptions config) (commandLines toLowerCase files locale) = kept
    at hkept
  have hrc : kept.updateRc = _ := hkept .rc
  have hrp : kept.updateRp = _ := hkept .rp
  have hrf : kept.updateRf = _ := hkept .rf
  have hrb : kept.updateRb = _ := hkept .rb
  rw [robotModules, modulesFor, boards, hrc, hrp, hrf, hrb]
  simp only [filterMap_board, List.filterMap_nil, List.append_assoc, List.append_nil]

/-- The copy of the image's path, if there is an image. -/
theorem Installable.exec_imagePath (h : Installable toLowerCase files) {found : Option String} :
    Exec (commandFileDevice text) overrun (optionPath (pathOf toLowerCase files .rm)) found
        overrun' ↔
      found = pathOf toLowerCase files .rm ∧
        (overrun' = false ↔ overrun = false ∧
          ∀ path, pathOf toLowerCase files .rm = some path → PathBlock.updatepath.Holds path) := by
  cases hpath : pathOf toLowerCase files .rm with
  | none =>
    have hsame : (overrun' = false ↔ overrun = false) ↔ overrun' = overrun := by
      cases overrun <;> cases overrun' <;> decide
    simp only [optionPath, exec_pure, reduceCtorEq, false_imp_iff, implies_true, and_true, hsame]
  | some path =>
    obtain ⟨file, hfile, rfl⟩ := exists_of_pathOf hpath
    rw [exec_optionPath (h.packagePath_eq hfile)]
    refine and_congr_right fun _ => ?_
    by_cases hfits : PathBlock.updatepath.Holds file.canonicalPath
    · have hsame : (overrun' = false ↔ overrun = false) ↔ overrun' = overrun := by
        cases overrun <;> cases overrun' <;> decide
      rw [if_pos hfits, ← hsame]
      simp [hfits]
    · rw [if_neg hfits]
      simp [hfits]

/-- A run of the way to the modules: what it finds, and whether it overruns a block. -/
theorem Installable.exec_mainModules (h : Installable toLowerCase files) (locale : LocaleName)
    (config : RecoveryConfig) {found : Option String × List (CanFrameCodec.Byte × String)} :
    Exec (commandFileDevice (bootCommand (installPackages toLowerCase files locale))) overrun
        (mainModules (withOptions config) externalRoot []) found overrun' ↔
      found = (pathOf toLowerCase files .rm, modulesFor toLowerCase config.ids files) ∧
        ∃ auto overrun₁,
          Exec (commandFileDevice (bootCommand (installPackages toLowerCase files locale))) overrun
            (autoSdcardUpdatePath externalRoot) auto overrun₁ ∧
          (overrun' = false ↔ overrun₁ = false ∧
            ∀ path, pathOf toLowerCase files .rm = some path →
              PathBlock.updatepath.Holds path) := by
  have hpackage := updatePackage_parseOptions toLowerCase files locale config
  have himage : (parseOptions (withOptions config)
      (commandLines toLowerCase files locale)).updateRkimage = pathOf toLowerCase files .rm :=
    h.kept_parseOptions locale config .rm
  constructor
  · intro hrun
    obtain ⟨arguments, overrun₁, hargs, hpaths⟩ := exec_bind.mp hrun
    obtain ⟨rfl, rfl⟩ := (h.getArgs_iff locale).mp hargs
    obtain ⟨paths, overrun₂, hpaths, hend⟩ := exec_bind.mp hpaths
    obtain ⟨rfl, rfl⟩ := exec_pure.mp hend
    obtain ⟨auto, overrun₃, hauto, hoptions⟩ := exec_bind.mp hpaths
    obtain ⟨updatePackage, overrun₄, hupdate, hbehind⟩ := exec_bind.mp hoptions
    rw [hpackage] at hupdate
    obtain ⟨rfl, rfl⟩ := exec_pure.mp hupdate
    obtain ⟨image, overrun₅, hcopy, hrest⟩ := exec_bind.mp hbehind
    obtain ⟨rfl, rfl⟩ := exec_pure.mp hrest
    rw [himage] at hcopy
    obtain ⟨rfl, hoverrun⟩ := h.exec_imagePath.mp hcopy
    exact ⟨Prod.ext rfl (h.robotModules_eq locale config), auto, _, hauto, hoverrun⟩
  · rintro ⟨rfl, auto, overrun₁, hauto, hoverrun⟩
    refine exec_bind.mpr ⟨_, overrun, (h.getArgs_iff locale).mpr ⟨rfl, rfl⟩, ?_⟩
    refine exec_bind.mpr ⟨⟨auto, none, pathOf toLowerCase files .rm⟩, overrun', ?_,
      exec_pure.mpr ⟨Prod.ext rfl (h.robotModules_eq locale config).symm, rfl⟩⟩
    refine exec_bind.mpr ⟨auto, overrun₁, hauto, exec_bind.mpr ⟨none, overrun₁, ?_, ?_⟩⟩
    · rw [hpackage]
      exact exec_pure.mpr ⟨rfl, rfl⟩
    · refine exec_bind.mpr ⟨_, overrun', ?_, exec_pure.mpr ⟨rfl, rfl⟩⟩
      rw [himage]
      exact h.exec_imagePath.mpr ⟨rfl, hoverrun⟩

/-- A run on a mounted card without a tag meets every copy. -/
theorem Installable.pathsFit (h : Installable toLowerCase files) {locale : LocaleName}
    {config : RecoveryConfig}
    (hsurvives : CommandSurvives config externalRoot toLowerCase files locale) :
    PathsFit externalRoot (pathOf toLowerCase files .rm) := by
  obtain ⟨overrun, hoverrun⟩ := exists_flag
    ((if PathBlock.target.Holds (externalRoot ++ autoFactoryUpdateTag) then false else true) =
      false ∧ ∀ path, pathOf toLowerCase files .rm = some path → PathBlock.updatepath.Holds path)
  have hrun := (h.exec_mainModules locale config).mpr
    ⟨rfl, none, _, exec_autoSdcardUpdatePath, hoverrun⟩
  obtain ⟨hroot, himage⟩ := hoverrun.mp (hsurvives _ overrun hrun).1
  refine ⟨?_, himage⟩
  by_contra hlong
  rw [if_neg hlong] at hroot
  cases hroot

end Survives

/-- The command survives if and only if the image's path and that of the tag fit
the blocks they are copied into. -/
theorem command_survives_iff (config : RecoveryConfig) (externalRoot : String)
    (toLowerCase : String → String) (files : List PackageFile) (locale : LocaleName)
    (h : Installable toLowerCase files) :
    CommandSurvives config externalRoot toLowerCase files locale ↔
      PathsFit externalRoot (pathOf toLowerCase files .rm) := by
  constructor
  · exact h.pathsFit
  · rintro ⟨hroot, himage⟩ found overrun hrun
    obtain ⟨hfound, auto, overrun₁, hauto, hoverrun⟩ := (h.exec_mainModules locale config).mp hrun
    exact ⟨hoverrun.mpr ⟨autoSdcardUpdatePath_eq hroot hauto, himage⟩, hfound⟩

/-- A locale with a country. -/
def germanLocale : LocaleName := ⟨"de_DE", by decide, by decide⟩

/-- An image of the system and firmware for the arms and the body. -/
def twoPackages : List PackageFile :=
  [⟨"RB.hex", "/mnt/internal_sd/RB.hex"⟩, ⟨"rm.img", "/cache/rm.img"⟩]

/-- `toLowerCase` on names in ASCII. -/
def asciiLowerCase (name : String) : String := String.ofList (name.toList.map Char.toLower)

/-- The two can be told apart. -/
theorem installable_twoPackages : Installable asciiLowerCase twoPackages where
  one_tag := by
    intro file hfile
    rcases List.mem_pair.mp hfile with rfl | rfl
    · refine ⟨.rb, by decide, ?_⟩
      intro other
      cases other <;> decide
    · refine ⟨.rm, by decide, ?_⟩
      intro other
      cases other <;> decide
  distinct := by
    refine List.pairwise_pair.mpr ?_
    intro tag
    cases tag <;> decide
  absolute := by decide
  not_usb := by decide
  one_line := by decide
  fits := by decide

/-- The firmware goes to both arms and the body, and the image is installed. -/
theorem command_survives_iff_twoPackages :
    CommandSurvives default "/mnt/external_sd" asciiLowerCase twoPackages germanLocale ∧
      pathOf asciiLowerCase twoPackages .rm = some "/cache/rm.img" ∧
      modulesFor asciiLowerCase default twoPackages =
        [(12, "/mnt/internal_sd/RB.hex"), (13, "/mnt/internal_sd/RB.hex"),
          (14, "/mnt/internal_sd/RB.hex")] := by
  have himage : pathOf asciiLowerCase twoPackages .rm = some "/cache/rm.img" := by decide
  refine ⟨(command_survives_iff _ _ _ _ _ installable_twoPackages).mpr ⟨by decide, ?_⟩, himage,
    by decide⟩
  rw [himage]
  rintro path ⟨⟩
  decide

/-- An image whose path has 128 characters. -/
def longPackage : List PackageFile :=
  [⟨"rm.img", "/cache/" ++ String.ofList (List.replicate 121 'a')⟩]

/-- Its path can be written in one line. -/
theorem installable_longPackage : Installable asciiLowerCase longPackage where
  one_tag := by
    intro file hfile
    obtain rfl := List.mem_singleton.mp hfile
    refine ⟨.rm, by decide, ?_⟩
    intro other
    cases other <;> decide
  distinct := List.pairwise_singleton _ _
  absolute := by decide +kernel
  not_usb := by decide +kernel
  one_line := by decide +kernel
  fits := by decide +kernel

/-- It is copied behind the end of `updatepath`. -/
theorem installable_not_survives : Installable asciiLowerCase longPackage ∧
    ¬CommandSurvives default "/mnt/external_sd" asciiLowerCase longPackage germanLocale := by
  refine ⟨installable_longPackage, fun hsurvives => ?_⟩
  obtain ⟨-, himage⟩ := installable_longPackage.pathsFit hsurvives
  have hlong := himage _ (rfl : pathOf asciiLowerCase longPackage .rm = some _)
  revert hlong
  decide +kernel

end RobotOta.UpdateCommand
