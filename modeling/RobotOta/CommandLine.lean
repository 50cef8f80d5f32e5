import Mathlib.Data.List.Basic

/-!
# Lines of a file and long options

`fgets` and `getopt_long` as their documentation describes them: buffers that
end behind a newline or when they are full, and arguments matched by their full
name or by an abbreviation that fits one option only.
-/

namespace RobotOta.CommandLine

/-- The buffers that calls of `fgets` fill from the text, when the first of them
already holds something. -/
def fgetsBuffers (size : ℕ) : (text buf : List Char) → List (List Char)
  | [], buf => if buf = [] then [] else [buf]
  | c :: text, buf =>
    if c = '\n' ∨ buf.length + 2 = size then (buf ++ [c]) :: fgetsBuffers size text []
    else fgetsBuffers size text (buf ++ [c])

/-- A line that fits is read by one call. -/
theorem fgetsBuffers_line {size : ℕ} {line : List Char} (text buf : List Char)
    (hline : '\n' ∉ line) (hfits : buf.length + line.length + 2 ≤ size) :
    fgetsBuffers size (line ++ '\n' :: text) buf =
      (buf ++ (line ++ ['\n'])) :: fgetsBuffers size text [] := by
  induction line generalizing buf with
  | nil => rw [List.nil_append, fgetsBuffers, if_pos (Or.inl rfl), List.nil_append]
  | cons c line ih =>
    rw [List.mem_cons, not_or] at hline
    rw [List.length_cons] at hfits
    have hmore : ¬ (c = '\n' ∨ buf.length + 2 = size) := by
      rintro (hnewline | hfull)
      · exact hline.1 hnewline.symm
      · omega
    rw [List.cons_append, fgetsBuffers, if_neg hmore, ih (buf ++ [c]) hline.2 ?_]
    · simp
    · rw [List.length_append, List.length_singleton]
      omega

/-- Lines that fit are read one by one. -/
theorem fgetsBuffers_lines {size : ℕ} {lines : List (List Char)}
    (hlines : ∀ line ∈ lines, '\n' ∉ line ∧ line.length + 2 ≤ size) :
    fgetsBuffers size (lines.flatMap (· ++ ['\n'])) [] = lines.map (· ++ ['\n']) := by
  induction lines with
  | nil => rfl
  | cons line lines ih =>
    obtain ⟨hline, hfits⟩ := hlines line List.mem_cons_self
    rw [List.flatMap_cons, List.append_assoc, List.singleton_append,
      fgetsBuffers_line _ [] hline (by simpa using hfits),
      ih fun other hother => hlines other (List.mem_cons_of_mem _ hother)]
    rfl

/-- Whether an option takes an argument. -/
inductive HasArg where
  | noArgument
  | requiredArgument
  deriving DecidableEq

/-- `struct option` without a flag. -/
structure OptionEntry where
  /-- The name behind the two hyphens. -/
  name : String
  /-- Whether it takes an argument. -/
  hasArg : HasArg
  /-- What `getopt_long` returns for it. -/
  val : ℕ

/-- The option of this name, or the only one it abbreviates; entries that do the
same count as one. -/
def findOption (table : List OptionEntry) (name : List Char) : Option OptionEntry :=
  (table.find? fun entry => entry.name.toList = name) <|>
    match table.filter fun entry => name.isPrefixOf entry.name.toList with
    | [] => none
    | entry :: others =>
      if ∀ other ∈ others, other.hasArg = entry.hasArg ∧ other.val = entry.val then some entry
      else none

/-- What is returned for an argument that is not understood. -/
def badOption : ℕ × String := ('?'.toNat, "")

/-- The codes that calls of `getopt_long` return for these arguments, with
`optarg`. There are no short options, and what is no option is skipped. -/
def scanOptions (table : List OptionEntry) : (arguments : List String) → List (ℕ × String)
  | [] => []
  | argument :: arguments =>
    match argument.toList with
    | ['-', '-'] => []
    | '-' :: '-' :: spelled =>
      match findOption table (spelled.takeWhile (· ≠ '=')), spelled.dropWhile (· ≠ '=') with
      | none, _ => badOption :: scanOptions table arguments
      | some ⟨_, .noArgument, val⟩, [] => (val, "") :: scanOptions table arguments
      | some ⟨_, .noArgument, _⟩, _ :: _ => badOption :: scanOptions table arguments
      | some ⟨_, .requiredArgument, val⟩, _ :: value =>
        (val, String.ofList value) :: scanOptions table arguments
      | some ⟨_, .requiredArgument, val⟩, [] =>
        match arguments with
        | [] => [badOption]
        | value :: arguments => (val, value) :: scanOptions table arguments
    | '-' :: letters =>
      List.replicate letters.length badOption ++ scanOptions table arguments
    | _ => scanOptions table arguments

/-- An option that is written out with its argument. -/
theorem scanOptions_spelled {table : List OptionEntry} {name fullName : String} {val : ℕ}
    (hfind : findOption table name.toList = some ⟨fullName, .requiredArgument, val⟩)
    (hname : '=' ∉ name.toList) (value : String) (arguments : List String) :
    scanOptions table (("--" ++ name ++ "=" ++ value) :: arguments) =
      (val, value) :: scanOptions table arguments := by
  have htext : ("--" ++ name ++ "=" ++ value).toList =
      '-' :: '-' :: (name.toList ++ '=' :: value.toList) := by
    simp
  have hne : ∀ c ∈ name.toList, decide (c ≠ '=') = true := by
    intro c hc
    rw [decide_eq_true_eq]
    rintro rfl
    exact hname hc
  have htake : (name.toList ++ '=' :: value.toList).takeWhile (· ≠ '=') = name.toList := by
    rw [List.takeWhile_append_of_pos hne, List.takeWhile_cons_of_neg (by simp), List.append_nil]
  have hdrop : (name.toList ++ '=' :: value.toList).dropWhile (· ≠ '=') =
      '=' :: value.toList := by
    rw [List.dropWhile_append_of_pos hne, List.dropWhile_cons_of_neg (by simp)]
  rw [scanOptions, htext]
  split
  · rename_i heq
    simp at heq
  · rename_i spelled _ heq
    obtain rfl : spelled = name.toList ++ '=' :: value.toList := by simpa using heq.symm
    simp only [htake, hdrop, hfind, String.ofList_toList]
  · rename_i letters _ hnot heq
    exact absurd heq (by simpa using fun h => hnot _ (by rw [← h]))
  · rename_i hnot heq
    exact absurd rfl (hnot _)

end RobotOta.CommandLine
