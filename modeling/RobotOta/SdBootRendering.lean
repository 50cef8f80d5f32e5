import RobotOta.SdBootConfig

/-!
# Writing and reading a configuration

A configuration file as one would write it: comments, blank lines and settings,
each line with an end of either kind and the last one with or without it. Read
back, every setting has the value of the first line written for it, or its
default if there is none.
-/

namespace RobotOta.SdBootConfig

open CheckedMemory

/-- A line one would write. -/
inductive ConfigLine where
  | comment (text : List Char)
  | blank
  | setting (id : ConfigId) (blanks : ℕ) (value : List Char)

/-- The text of the line. -/
def ConfigLine.text : ConfigLine → List Char
  | .comment text => '#' :: text
  | .blank => []
  | .setting id blanks value => id.name ++ '=' :: (List.replicate blanks ' ' ++ value)

/-- The ends of lines. -/
inductive LineEnd where
  | newline
  | carriageReturnNewline

/-- The characters of a line end. -/
def LineEnd.text : LineEnd → List Char
  | .newline => ['\n']
  | .carriageReturnNewline => ['\r', '\n']

/-- The file with these lines; the last one has no end. -/
def rendered (lines : List (ConfigLine × LineEnd)) (last : ConfigLine) : List Char :=
  (lines.flatMap fun line => line.1.text ++ line.2.text) ++ last.text

/-- Characters that stand in one line of a string. -/
def Clean (text : List Char) : Prop := '\n' ∉ text ∧ '\r' ∉ text ∧ '\x00' ∉ text

instance (text : List Char) : Decidable (Clean text) := inferInstanceAs (Decidable (_ ∧ _))

/-- A line that says what it seems to say: a value does not begin with a blank and
mentions no name of a setting. -/
def ConfigLine.WellFormed : ConfigLine → Prop
  | .comment text => Clean text
  | .blank => True
  | .setting _ _ value =>
    Clean value ∧ value.head? ≠ some ' ' ∧ ∀ id : ConfigId, ¬ id.name <:+: value

/-- The value the line is written for. -/
def ConfigLine.valueOf (id : ConfigId) : ConfigLine → Option (List Char)
  | .setting id' _ value => if id' = id then some value else none
  | _ => none

section Search

variable {α : Type*} {needle front behind : List α} {a : α}

/-- What is found in a text with a separator it does not have is found on one side. -/
theorem infix_of_infix_separated (hne : needle ≠ []) (ha : a ∉ needle)
    (h : needle <:+: front ++ a :: behind) : needle <:+: front ∨ needle <:+: behind := by
  rcases List.infix_append_iff.mp h with hfront | hbehind | ⟨first, rest, rfl, hfirst, hrest⟩
  · exact Or.inl hfront
  · rcases List.infix_cons_iff.mp hbehind with hprefix | hbehind
    · rcases List.prefix_cons_iff.mp hprefix with hnil | ⟨rest, rfl, -⟩
      · exact absurd hnil hne
      · exact absurd List.mem_cons_self ha
    · exact Or.inr hbehind
  · rcases List.prefix_cons_iff.mp hrest with rfl | ⟨rest, rfl, -⟩
    · rw [List.append_nil]
      exact Or.inl hfirst.isInfix
    · exact absurd (List.mem_append_right _ List.mem_cons_self) ha

/-- Separators in front do not matter. -/
theorem infix_of_infix_replicate (hne : needle ≠ []) (ha : a ∉ needle) {count : ℕ}
    (h : needle <:+: List.replicate count a ++ behind) : needle <:+: behind := by
  induction count with
  | zero => exact h
  | succ count ih =>
    rw [List.replicate_succ, List.cons_append] at h
    have hcons : needle <:+: [] ++ a :: (List.replicate count a ++ behind) := h
    rcases infix_of_infix_separated hne ha hcons with hnil | hrest
    · exact absurd (List.infix_nil.mp hnil) hne
    · exact ih hrest

end Search

section Rendering

variable {id : ConfigId} {line last : ConfigLine} {lines : List (ConfigLine × LineEnd)}

/-- A name is a word that no other name is part of. -/
theorem name_infix_iff (id id' : ConfigId) : id.name <:+: id'.name ↔ id' = id := by
  cases id <;> cases id' <;> decide +kernel

theorem name_clean (id : ConfigId) : Clean id.name ∧ '=' ∉ id.name ∧ ' ' ∉ id.name ∧
    id.name ≠ [] ∧ id.name.head? ≠ some '#' := by
  cases id <;> decide +kernel

/-- A setting has its value for its own name and none for the others. -/
theorem lineValue_setting {id' : ConfigId} {blanks : ℕ} {value : List Char}
    (h : (ConfigLine.setting id' blanks value).WellFormed) :
    lineValue id.name (ConfigLine.setting id' blanks value).text =
      if id' = id then some value else none := by
  obtain ⟨-, hvalue, hmentions⟩ := h
  obtain ⟨-, hequals, hblank, hne, -⟩ := name_clean id
  have hkey : id.name <:+: (ConfigLine.setting id' blanks value).text ↔ id' = id := by
    constructor
    · intro hin
      rcases infix_of_infix_separated hne hequals hin with hname | hbehind
      · exact (name_infix_iff id id').mp hname
      · exact absurd (infix_of_infix_replicate hne hblank hbehind) (hmentions id)
    · rintro rfl
      exact List.infix_append_left
  have hcomment : (ConfigLine.setting id' blanks value).text.head? ≠ some '#' := by
    obtain ⟨-, -, -, hname, hhead⟩ := name_clean id'
    rwa [ConfigLine.text, List.head?_append_of_ne_nil _ hname]
  have hdrop : (ConfigLine.setting id' blanks value).text.dropWhile (· ≠ '=') =
      '=' :: (List.replicate blanks ' ' ++ value) := by
    have hname : ∀ c ∈ id'.name, decide (c ≠ '=') = true := fun c hc =>
      decide_eq_true fun heq => (name_clean id').2.1 (heq ▸ hc)
    rw [ConfigLine.text, List.dropWhile_append_of_pos hname, List.dropWhile_cons_of_neg (by simp)]
  have hskip : (List.replicate blanks ' ' ++ value).dropWhile (· = ' ') = value := by
    have hblanks : ∀ c ∈ List.replicate blanks ' ', decide (c = ' ') = true := fun c hc =>
      decide_eq_true (List.eq_of_mem_replicate hc)
    rw [List.dropWhile_append_of_pos hblanks]
    cases value with
    | nil => rfl
    | cons c value =>
      refine List.dropWhile_cons_of_neg ?_
      simpa using hvalue
  rw [lineValue]
  by_cases hid : id' = id
  · rw [if_neg (not_or.mpr ⟨hcomment, not_not.mpr (hkey.mpr hid)⟩), hdrop, if_pos hid]
    exact congrArg some hskip
  · rw [if_pos (Or.inr fun hin => hid (hkey.mp hin)), if_neg hid]

theorem ConfigLine.WellFormed.clean (h : line.WellFormed) : Clean line.text := by
  cases line with
  | comment text =>
    obtain ⟨hnewline, hreturn, hend⟩ := h
    refine ⟨?_, ?_, ?_⟩
    all_goals
      rw [ConfigLine.text, List.mem_cons, not_or]
      exact ⟨by decide, by assumption⟩
  | blank => exact ⟨List.not_mem_nil, List.not_mem_nil, List.not_mem_nil⟩
  | setting id blanks value =>
    obtain ⟨⟨hnewline, hreturn, hend⟩, -, -⟩ := h
    obtain ⟨⟨hnewline', hreturn', hend'⟩, -⟩ := name_clean id
    refine ⟨?_, ?_, ?_⟩
    all_goals
      rw [ConfigLine.text, List.mem_append, List.mem_cons, List.mem_append, List.mem_replicate]
      rintro (hin | heq | ⟨-, heq⟩ | hin)
      · contradiction
      · exact absurd heq (by decide)
      · exact absurd heq (by decide)
      · contradiction

/-- What a well-formed line says. -/
theorem lineValue_text (h : line.WellFormed) :
    lineValue id.name (line.text.takeWhile (· ≠ '\x00')) = line.valueOf id := by
  have hstring : line.text.takeWhile (· ≠ '\x00') = line.text :=
    List.takeWhile_eq_self_iff.mpr fun c hc => decide_eq_true fun heq => h.clean.2.2 (heq ▸ hc)
  rw [hstring]
  cases line with
  | comment text => exact if_pos (Or.inl rfl)
  | blank =>
    have hnone : ¬ id.name <:+: [] := fun hin => (name_clean id).2.2.2.1 (List.infix_nil.mp hin)
    exact if_pos (Or.inr hnone)
  | setting id' blanks value => exact lineValue_setting h

/-- A clean text goes into the line whole. -/
theorem linesFrom_text {text : List Char} (hclean : Clean text) (rest current : List Char) :
    linesFrom (text ++ rest) current = linesFrom rest (current ++ text) := by
  induction text generalizing current with
  | nil => rw [List.nil_append, List.append_nil]
  | cons c text ih =>
    obtain ⟨hnewline, hreturn, hend⟩ := hclean
    rw [List.mem_cons, not_or] at hnewline hreturn hend
    have hmore := ih ⟨hnewline.2, hreturn.2, hend.2⟩ (current ++ [c])
    rw [List.append_assoc, List.singleton_append] at hmore
    rw [List.cons_append, linesFrom.eq_def]
    dsimp only
    rw [if_neg (Ne.symm hnewline.1), if_neg (Ne.symm hreturn.1), hmore]

/-- An end of either kind ends the line. -/
theorem linesFrom_end (lineEnd : LineEnd) (rest current : List Char) :
    linesFrom (lineEnd.text ++ rest) current = current :: linesFrom rest [] := by
  cases lineEnd with
  | newline =>
    rw [LineEnd.text, List.singleton_append, linesFrom.eq_def]
    exact if_pos rfl
  | carriageReturnNewline =>
    rw [LineEnd.text, List.cons_append, List.singleton_append, linesFrom.eq_def]
    dsimp only
    rw [if_neg (by decide), if_pos rfl]
    exact if_pos rfl

/-- The lines of a file are those written. -/
theorem linesFrom_rendered (hlines : ∀ line ∈ lines, line.1.WellFormed) (hlast : last.WellFormed) :
    linesFrom (rendered lines last) [] =
      lines.map (fun line => line.1.text) ++ (if last.text = [] then [] else [last.text]) := by
  unfold rendered
  induction lines with
  | nil =>
    have htext := linesFrom_text hlast.clean [] []
    rw [List.append_nil, List.nil_append] at htext
    rw [List.flatMap_nil, List.nil_append, htext, List.map_nil, List.nil_append, linesFrom]
  | cons line lines ih =>
    have hrest := ih fun other hother => hlines other (List.mem_cons_of_mem _ hother)
    rw [List.flatMap_cons, List.append_assoc, List.append_assoc,
      linesFrom_text (hlines line List.mem_cons_self).clean, linesFrom_end, List.nil_append, hrest,
      List.map_cons, List.cons_append]

/-- The value the lines are written for. -/
def writtenValue (lines : List (ConfigLine × LineEnd)) (last : ConfigLine) (id : ConfigId) :
    Option (List Char) :=
  (lines.findSome? fun line => line.1.valueOf id).or (last.valueOf id)

/-- Each setting is read as it was written. -/
theorem fileValue_rendered (hlines : ∀ line ∈ lines, line.1.WellFormed) (hlast : last.WellFormed)
    (id : ConfigId) : fileValue id.name (rendered lines last) = writtenValue lines last id := by
  have hbefore : (lines.map fun line => line.1.text).findSome?
      (fun text => lineValue id.name (text.takeWhile (· ≠ '\x00'))) =
      lines.findSome? fun line => line.1.valueOf id := by
    clear hlast
    induction lines with
    | nil => rfl
    | cons line lines ih =>
      rw [List.map_cons, List.findSome?_cons, List.findSome?_cons,
        lineValue_text (hlines line List.mem_cons_self),
        ih fun other hother => hlines other (List.mem_cons_of_mem _ hother)]
  have hend : (if last.text = [] then [] else [last.text] : List (List Char)).findSome?
      (fun text => lineValue id.name (text.takeWhile (· ≠ '\x00'))) = last.valueOf id := by
    rw [← lineValue_text hlast]
    split_ifs with hempty
    · rw [hempty]
      exact (if_pos (Or.inr fun hin => (name_clean id).2.2.2.1 (List.infix_nil.mp hin))).symm
    · rw [List.findSome?_singleton]
  rw [fileValue, linesFrom_rendered hlines hlast, List.findSome?_append, hbefore, hend,
    writtenValue]

/-- A comment, a blank line, and settings with blanks and without a value. -/
def sampleLines : List (ConfigLine × LineEnd) :=
  [(.comment " fw_update=0".toList, .newline), (.blank, .carriageReturnNewline),
    (.setting .fwUpdate 2 ['1'], .carriageReturnNewline), (.setting .demoCopy 0 [], .newline),
    (.setting .fwUpdate 0 ['0'], .newline)]

end Rendering

end RobotOta.SdBootConfig
