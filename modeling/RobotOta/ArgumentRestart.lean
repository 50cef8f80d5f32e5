import RobotOta.InstallRestart
import RobotOta.UpdateCommand
import RobotOta.SeparatedText
import Mathlib.Data.List.Flatten

/-!
# The arguments behind a restart

`get_args` takes the arguments from the command file and writes them into the
bootloader message, one a line behind `recovery`, where the next start finds them.
The field has a fixed size; what does not fit is cut off without a word, and the next
start takes what is left for the arguments.
-/

namespace RobotOta.ArgumentRestart

open RequestProgram RecoveryRequests RkImageInstall RecoveryMain InstallRestart UpdateCommand
  SeparatedText

/-- The restart right after `get_args` has written the message: it ends with the same
arguments again. -/
def RestartsSame (recoverySize : ℕ) (misc : BootloaderMessage)
    (commandFile : Option (List String)) : Prop :=
  ∀ arguments w again w',
    Exec deviceEffect (DeviceWorld.start misc commandFile) (getArgs recoverySize []) arguments w →
    Exec deviceEffect (DeviceWorld.start w.misc w.commandFile) (getArgs recoverySize []) again w' →
      again = arguments

/-- The program name with the newline behind it. -/
def programLine : List Char := "recovery\n".toList

/-- The lines of the arguments. -/
def argumentLines (arguments : List String) : List Char :=
  (arguments.map String.toList).flatMap fun line => line ++ ['\n']

variable {arguments : List String} {recoverySize : ℕ}

/-- The text is made of these lines. -/
theorem argumentText_toList (arguments : List String) :
    (argumentText arguments).toList = programLine ++ argumentLines arguments := by
  have hfold : ∀ (own : List String) (text : String),
      (own.foldl (fun text arg => text ++ arg ++ "\n") text).toList =
        text.toList ++ argumentLines own := by
    intro own
    induction own with
    | nil => exact fun text => (List.append_nil _).symm
    | cons arg own ih =>
      intro text
      have hlines : argumentLines (arg :: own) =
          arg.toList ++ (("\n" : String).toList ++ argumentLines own) := by
        rw [argumentLines, List.map_cons, List.flatMap_cons, List.append_assoc]
        rfl
      rw [List.foldl_cons, ih, String.toList_append, String.toList_append, List.append_assoc,
        List.append_assoc, hlines]
  exact hfold arguments "recovery\n"

/-- The arguments of a message are the tokens behind the program name. -/
theorem bootArguments_ofList (lines : List Char) :
    bootArguments (String.ofList (programLine ++ lines)) =
      ((tokens '\n' lines).map String.ofList).take (maxArgs - 1) := by
  have hname : ∀ part ∈ [("recovery" : String).toList], part ≠ [] ∧ '\n' ∉ part := by decide
  have htokens : tokens '\n' (programLine ++ lines) =
      ("recovery" : String).toList :: tokens '\n' lines := tokens_ended hname lines
  have hparts : ((String.ofList (programLine ++ lines)).toList.splitOn '\n').filter (· ≠ []) =
      ("recovery" : String).toList :: tokens '\n' lines := by
    rw [String.toList_ofList]
    exact htokens
  rw [bootArguments, hparts, List.map_cons, String.ofList_toList]
  rfl

/-- What the field keeps of the text. -/
theorem strlcpy_argumentText (hsize : 10 ≤ recoverySize) (arguments : List String) :
    strlcpy recoverySize (argumentText arguments) =
      String.ofList (programLine ++ (argumentLines arguments).take (recoverySize - 10)) := by
  have hlength : programLine.length = 9 := by decide
  rw [strlcpy, argumentText_toList, List.take_append, hlength,
    List.take_of_length_le (by omega)]
  congr 3

/-- A field that is too short for an argument holds none. -/
theorem bootArguments_short (hsize : recoverySize ≤ 10) (arguments : List String) :
    bootArguments (strlcpy recoverySize (argumentText arguments)) = [] := by
  have hlength : programLine.length = 9 := by decide
  have htake : (programLine ++ argumentLines arguments).take (recoverySize - 1) =
      programLine.take (recoverySize - 1) := List.take_append_of_le_length (by omega)
  rw [strlcpy, argumentText_toList, htake]
  have hall : ∀ count < 10, bootArguments (String.ofList (programLine.take count)) = [] := by
    decide
  exact hall _ (by omega)

/-- Arguments as `get_args` finds them: not empty, each in one line. -/
def OneLineEach (arguments : List String) : Prop :=
  ∀ arg ∈ arguments, arg ≠ "" ∧ '\n' ∉ arg.toList

theorem OneLineEach.parts (hline : OneLineEach arguments) :
    ∀ part ∈ arguments.map String.toList, part ≠ [] ∧ '\n' ∉ part := by
  intro part hpart
  obtain ⟨arg, harg, rfl⟩ := List.mem_map.mp hpart
  exact ⟨fun hnil => (hline arg harg).1 (String.toList_eq_nil_iff.mp hnil), (hline arg harg).2⟩

/-- Arguments that a field holds but for the last newline are found again. -/
theorem bootArguments_whole (hline : OneLineEach arguments)
    (hcount : arguments.length ≤ maxArgs - 1) (hsize : 10 ≤ recoverySize)
    (hfits : 9 + (argumentLines arguments).length ≤ recoverySize) :
    bootArguments (strlcpy recoverySize (argumentText arguments)) = arguments := by
  have hback : tokens '\n' ((argumentLines arguments).take (recoverySize - 10)) =
      arguments.map String.toList := tokens_take hline.parts (by
    change (argumentLines arguments).length ≤ _
    omega)
  have hsame : String.ofList ∘ String.toList = id := funext fun arg => String.ofList_toList
  rw [strlcpy_argumentText hsize, bootArguments_ofList, hback, List.map_map, hsame, List.map_id,
    List.take_of_length_le hcount]

/-- As long as one character of them fits, some argument is found. -/
theorem bootArguments_ne_nil (hline : OneLineEach arguments) (hsome : arguments ≠ [])
    (hsize : 10 < recoverySize) :
    bootArguments (strlcpy recoverySize (argumentText arguments)) ≠ [] := by
  rw [strlcpy_argumentText (by omega), bootArguments_ofList]
  intro hnil
  obtain ⟨count, hcount⟩ : ∃ count, recoverySize - 10 = count + 1 :=
    ⟨recoverySize - 11, by omega⟩
  cases arguments with
  | nil => exact hsome rfl
  | cons arg rest =>
    obtain ⟨hne, hfree⟩ := hline arg List.mem_cons_self
    cases hchars : arg.toList with
    | nil => exact hne (String.toList_eq_nil_iff.mp hchars)
    | cons c chars =>
      have hlines : argumentLines (arg :: rest) =
          c :: (chars ++ ['\n'] ++ argumentLines rest) := by
        rw [argumentLines, List.map_cons, List.flatMap_cons, hchars]
        rfl
      have hc : c ≠ '\n' := fun hc => hfree (by rw [hchars, hc]; exact List.mem_cons_self)
      rw [hcount, hlines, List.take_succ_cons] at hnil
      have htokens : tokens '\n'
          (c :: (chars ++ ['\n'] ++ argumentLines rest).take count) = [] := by
        rcases List.take_eq_nil_iff.mp hnil with hzero | hmap
        · exact absurd hzero (by decide)
        · exact List.map_eq_nil_iff.mp hmap
      have hflatten := flatten_tokens '\n' (c :: (chars ++ ['\n'] ++ argumentLines rest).take count)
      rw [htokens, List.filter_cons_of_pos (by simpa using hc)] at hflatten
      cases hflatten

/-- Where more is cut off than the last newline, other arguments are found. -/
theorem bootArguments_cut (hline : OneLineEach arguments) (hsome : arguments ≠ [])
    (hsize : 10 < recoverySize) (hcut : recoverySize < 9 + (argumentLines arguments).length) :
    bootArguments (strlcpy recoverySize (argumentText arguments)) ≠ arguments := by
  rw [strlcpy_argumentText (by omega), bootArguments_ofList]
  intro hsame
  have hcount : recoverySize - 10 + 1 < (argumentLines arguments).length := by omega
  have hshort : (tokens '\n' ((argumentLines arguments).take (recoverySize - 10))).flatten.length <
      (arguments.map String.toList).flatten.length :=
    length_tokens_take_lt hline.parts (fun hnil => hsome (List.map_eq_nil_iff.mp hnil)) hcount
  have hchars := congrArg (List.map String.toList) hsame
  have hback : String.toList ∘ String.ofList = id := funext fun chars => String.toList_ofList
  rw [List.map_take, List.map_map, hback, List.map_id] at hchars
  rw [← hchars] at hshort
  exact absurd (List.take_sublist _ _).flatten.length_le (Nat.not_le_of_lt hshort)

/-- The arguments of a command file are not empty, each is in one line, and there are no
more than `get_args` has room for. -/
theorem oneLineEach_fileArguments (buffers : List String) :
    OneLineEach (fileArguments buffers) ∧ (fileArguments buffers).length ≤ maxArgs - 1 := by
  refine ⟨fun arg harg => ?_, List.length_take_le _ _⟩
  obtain ⟨buf, -, htoken⟩ := List.mem_filterMap.mp (List.mem_of_mem_take harg)
  rw [firstToken] at htoken
  obtain ⟨token, hfind, rfl⟩ := Option.map_eq_some_iff.mp htoken
  have hsome : token ≠ [] := by simpa using List.find?_some hfind
  have hplain := (mem_splitOnP (List.mem_of_find?_eq_some hfind)).1
  refine ⟨fun hempty => hsome ?_, fun hbreak => ?_⟩
  · rw [← String.toList_ofList (l := token), hempty]
    rfl
  · rw [String.toList_ofList] at hbreak
    exact absurd (hplain _ hbreak) (by decide)

/-- What a restart finds in the message and the command file. -/
theorem restartsSame_iff_chosen (recoverySize : ℕ) (misc : BootloaderMessage)
    (commandFile : Option (List String)) :
    RestartsSame recoverySize misc commandFile ↔
      chosenArguments [] (strlcpy recoverySize
          (argumentText (chosenArguments [] misc.recovery commandFile))) commandFile =
        chosenArguments [] misc.recovery commandFile := by
  constructor
  · intro hsame
    obtain ⟨arguments, w, hfirst⟩ := getArgs_runs recoverySize [] misc commandFile
    obtain ⟨again, w', hsecond⟩ := getArgs_runs recoverySize [] w.misc w.commandFile
    have heq := hsame arguments w again w' hfirst hsecond
    obtain ⟨rfl, rfl⟩ := exec_getArgs hfirst
    exact (exec_getArgs hsecond).1.symm.trans heq
  · intro hsame arguments w again w' hfirst hsecond
    obtain ⟨rfl, rfl⟩ := exec_getArgs hfirst
    exact (exec_getArgs hsecond).1.trans hsame

theorem length_argumentLines (arguments : List String) :
    (argumentLines arguments).length = (arguments.map fun arg => arg.length + 1).sum := by
  rw [argumentLines, List.length_flatMap, List.map_map]
  simp only [Function.comp_def, List.length_append, List.length_singleton, String.length_toList]

section Restart

variable {misc : BootloaderMessage} {commandFile : Option (List String)}

/-- Without arguments in the message they come from the command file. -/
theorem chosenArguments_file {recovery : String} (h : bootArguments recovery = []) :
    chosenArguments [] recovery commandFile = fileArguments (commandFile.getD []) := by
  rw [chosenArguments, if_neg (not_not.mpr rfl), if_neg (not_not.mpr h)]

theorem chosenArguments_boot {recovery : String} (h : bootArguments recovery ≠ []) :
    chosenArguments [] recovery commandFile = bootArguments recovery := by
  rw [chosenArguments, if_neg (not_not.mpr rfl), if_pos h]

/-- A message that holds no argument leaves them to the command file. -/
theorem restartsSame_short (h : bootArguments misc.recovery = []) (hsize : recoverySize ≤ 10) :
    RestartsSame recoverySize misc commandFile := by
  rw [restartsSame_iff_chosen, chosenArguments_file h]
  exact chosenArguments_file (bootArguments_short hsize _)

/-- A message that holds all of them gives them back. -/
theorem restartsSame_whole (h : bootArguments misc.recovery = []) (hsize : 10 ≤ recoverySize)
    (hfits : 9 + (argumentLines (fileArguments (commandFile.getD []))).length ≤ recoverySize) :
    RestartsSame recoverySize misc commandFile := by
  obtain ⟨hline, hcount⟩ := oneLineEach_fileArguments (commandFile.getD [])
  have hwhole := bootArguments_whole hline hcount hsize hfits
  rw [restartsSame_iff_chosen, chosenArguments_file h]
  by_cases hnone : fileArguments (commandFile.getD []) = []
  · exact chosenArguments_file (hwhole.trans hnone)
  · rw [chosenArguments_boot (hwhole.symm ▸ hnone), hwhole]

/-- A message that holds less gives other arguments. -/
theorem not_restartsSame_cut (h : bootArguments misc.recovery = [])
    (hsome : fileArguments (commandFile.getD []) ≠ []) (hsize : 10 < recoverySize)
    (hcut : recoverySize < 9 + (argumentLines (fileArguments (commandFile.getD []))).length) :
    ¬RestartsSame recoverySize misc commandFile := by
  obtain ⟨hline, -⟩ := oneLineEach_fileArguments (commandFile.getD [])
  rw [restartsSame_iff_chosen, chosenArguments_file h,
    chosenArguments_boot (bootArguments_ne_nil hline hsome hsize)]
  exact bootArguments_cut hline hsome hsize hcut

/-- A restart right after `get_args` has written the message finds the arguments of the
command file again if and only if the message holds their text but for its last newline,
or there are none, or the message has no room for a single character of them: then they
come from the command file once more. -/
theorem restartsSame_iff (h : bootArguments misc.recovery = []) (recoverySize : ℕ)
    (commandFile : Option (List String)) :
    RestartsSame recoverySize misc commandFile ↔
      fileArguments (commandFile.getD []) = [] ∨ recoverySize ≤ 10 ∨
        9 + ((fileArguments (commandFile.getD [])).map fun arg => arg.length + 1).sum ≤
          recoverySize := by
  rw [← length_argumentLines]
  by_cases hshort : recoverySize ≤ 10
  · exact iff_of_true (restartsSame_short h hshort) (Or.inr (Or.inl hshort))
  by_cases hfits : 9 + (argumentLines (fileArguments (commandFile.getD []))).length ≤ recoverySize
  · exact iff_of_true (restartsSame_whole h (by omega) hfits) (Or.inr (Or.inr hfits))
  by_cases hnone : fileArguments (commandFile.getD []) = []
  · rw [hnone, argumentLines, List.map_nil, List.flatMap_nil, List.length_nil] at hfits
    omega
  · refine iff_of_false (not_restartsSame_cut h hnone (by omega) (by omega)) ?_
    rintro (hempty | hsmall | hroom)
    · exact hnone hempty
    · exact hshort hsmall
    · exact hfits hroom

/-- A command file with three arguments and a blank line. -/
def threeArguments : List String :=
  ["--update_package=/cache/update.zip\n", "\r\n", "--wipe_data\r\n", "--locale=en\n"]

/-- They come back from a message of the usual size, and not from one of 64 bytes. -/
theorem restartsSame_iff_threeArguments :
    RestartsSame 768 BootloaderMessage.zero (some threeArguments) ∧
      ¬RestartsSame 64 BootloaderMessage.zero (some threeArguments) := by
  constructor
  · exact (restartsSame_iff (by decide) 768 (some threeArguments)).mpr (by decide)
  · exact fun hsame =>
      absurd ((restartsSame_iff (by decide) 64 (some threeArguments)).mp hsame) (by decide)

/-- One line of the command file that the message does not hold. -/
theorem not_restartsSame_line {line : String} (h : bootArguments misc.recovery = [])
    (hne : line ≠ "") (hreturn : '\r' ∉ line.toList) (hnewline : '\n' ∉ line.toList)
    (hsize : 10 < recoverySize) (hcut : recoverySize < 10 + line.toList.length) :
    ¬RestartsSame recoverySize misc (some [String.ofList (line.toList ++ ['\n'])]) := by
  have hfile : fileArguments [String.ofList (line.toList ++ ['\n'])] = [line] := by
    rw [fileArguments, List.filterMap_cons_some (firstToken_line hne hreturn hnewline)]
    rfl
  refine not_restartsSame_cut h ?_ hsize ?_
  · rw [Option.getD_some, hfile]
    exact List.cons_ne_nil _ _
  · rw [Option.getD_some, hfile, length_argumentLines, List.map_singleton, List.sum_singleton,
      ← String.length_toList]
    omega

/-- An option with a path of 800 characters. -/
def longArgument : String :=
  String.ofList (("--update_rkimage=/" : String).toList ++ List.replicate 799 'a')

/-- In a message of 768 bytes it is cut off. -/
theorem not_restartsSame_longArgument :
    ¬RestartsSame 768 BootloaderMessage.zero
      (some [String.ofList (longArgument.toList ++ ['\n'])]) := by
  have hoption : ("--update_rkimage=/" : String).toList.length = 18 := by decide
  have htext : longArgument.toList =
      ("--update_rkimage=/" : String).toList ++ List.replicate 799 'a' := String.toList_ofList
  have hfree : ∀ c, c ∉ ("--update_rkimage=/" : String).toList → c ≠ 'a' →
      c ∉ longArgument.toList := by
    intro c hfront hpath hc
    rw [htext] at hc
    rcases List.mem_append.mp hc with hmem | hmem
    · exact hfront hmem
    · exact hpath (List.eq_of_mem_replicate hmem)
  have hlength : longArgument.toList.length = 817 := by
    rw [htext, List.length_append, List.length_replicate, hoption]
  have hne : longArgument ≠ "" := by
    intro hempty
    rw [hempty] at hlength
    cases hlength
  refine not_restartsSame_line (by decide) hne (hfree _ (by decide) (by decide))
    (hfree _ (by decide) (by decide)) (by decide) ?_
  rw [hlength]
  decide

end Restart

end RobotOta.ArgumentRestart
