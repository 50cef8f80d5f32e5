import RobotOta.CheckedMemory
import Mathlib.Data.List.Infix
import Mathlib.Data.List.TakeWhile

/-!
# The configuration of the SD card tool

`mygetline`, `readConfig` and `parseSDBootConfig`, with every access to the
memory they use: the line buffer that grows by 128 bytes, the block of a value,
and `gVolume_label`. Behind them stands what the reader is for: the lines of the
file, and the value of the first line that has the key. A value is the string that
the code keeps, so it has no line end, and ends in front of the first NUL.
-/

namespace RobotOta.SdBootConfig

open CheckedMemory ByteBuffer

/-- The regions the reader writes. -/
inductive Region where
  | line
  | keyValue
  | volumeLabel
  deriving DecidableEq

/-- A program that may leave a region. -/
abbrev Checked := Except (Overrun Region)

/-- `ConfigId`. -/
inductive ConfigId where
  | pcbaTest
  | fwUpdate
  | displayLcd
  | displayLed
  | demoCopy
  | volumeLabel
  deriving DecidableEq

/-- The names in `SdBootConfigs`. -/
def ConfigId.name : ConfigId → List Char
  | .pcbaTest => "pcba_test".toList
  | .fwUpdate => "fw_update".toList
  | .displayLcd => "display_lcd".toList
  | .displayLed => "display_led".toList
  | .demoCopy => "demo_copy".toList
  | .volumeLabel => "volume_label".toList

/-- The values in `SdBootConfigs`. -/
def ConfigId.default : ConfigId → List Char
  | .pcbaTest => ['1']
  | .fwUpdate => ['0']
  | .displayLcd => ['1']
  | .displayLed => ['1']
  | .demoCopy => ['0']
  | .volumeLabel => "rockchip".toList

/-- `SdBootConfigs` and `gVolume_label`. -/
structure Configs where
  /-- The value of a setting. -/
  value : ConfigId → List Char
  /-- The cells of `gVolume_label`. -/
  gVolumeLabel : List Char

/-- The size of `gVolume_label`. -/
def volumeLabelSize : ℕ := 128

/-- As the program starts. -/
def Configs.initial : Configs := ⟨ConfigId.default, List.replicate volumeLabelSize '\x00'⟩

/-- The string at the start of a region. -/
def loadString (region : Region) (cells : List Char) : Checked (List Char) :=
  if '\x00' ∈ cells then .ok (cells.takeWhile (· ≠ '\x00')) else .error ⟨region, cells.length⟩

section Reader

variable (garbage : ℕ → Char)

/-- Memory from `malloc` or behind the old end of a `realloc`, with whatever is in it. -/
def fresh (size : ℕ) : List Char := (List.range size).map garbage

/-- The end of `mygetline`: the line is terminated, and without a character there is none. -/
def endOfFile (cells : List Char) (count : ℕ) : Checked (Option ℕ × List Char × List Char) := do
  let cells ← store .line cells count ['\x00']
  pure (if count = 0 then none else some count, cells, [])

/-- A line that ends with a newline. -/
def endOfLine (text cells : List Char) (count : ℕ) :
    Checked (Option ℕ × List Char × List Char) := do
  let cells ← store .line cells count ['\x00']
  pure (some count, cells, text)

/-- The loop of `mygetline` over the rest of the stream: the count or -1, the
buffer, and what is left of the stream. -/
def mygetlineLoop : (text cells : List Char) → (count : ℕ) →
    Checked (Option ℕ × List Char × List Char)
  | [], cells, count => endOfFile cells count
  | c :: text, cells, count =>
    if c = '\n' then endOfLine text cells count
    else if c = '\r' then
      match text with
      -- Nothing is read over the carriage return, and the next read fails, too.
      | [] => endOfFile cells count
      | c :: text =>
        if c = '\n' then endOfLine text cells count else mygetlineLoop text cells count
    else do
      let cells := if cells.length - 1 ≤ count then cells ++ fresh garbage 128 else cells
      let cells ← store .line cells count [c]
      mygetlineLoop text cells (count + 1)

/-- `mygetline`; a buffer of no size is allocated first. -/
def mygetline (text cells : List Char) : Checked (Option ℕ × List Char × List Char) :=
  mygetlineLoop garbage text (if cells = [] then List.replicate 128 '\x00' else cells) 0

/-- The body of the loop of `readConfig`: the value, if this line has the key. -/
def readLine (keyName pstr : List Char) : Checked (Option (List Char)) :=
  if pstr.head? = some '#' ∨ pstr = [] then pure none
  else if keyName <:+: pstr then
    match pstr.dropWhile (· ≠ '=') with
    | [] => pure none
    | equals :: behind => do
      let keyValue := fresh garbage ((equals :: behind).length + 1)
      let keyValue ← store .keyValue keyValue 0 (behind.dropWhile (· = ' ') ++ ['\x00'])
      let value ← loadString .keyValue keyValue
      pure (some value)
  else pure none

/-- The loop of `readConfig`, in so many rounds. -/
def readConfigLoop (keyName : List Char) : (rounds : ℕ) → (text cells : List Char) →
    Checked (Option (List Char))
  | 0, _, _ => pure none
  | rounds + 1, text, cells => do
    let (read, cells, text) ← mygetline garbage text cells
    match read with
    | none => pure none
    | some _ =>
      let pstr ← loadString .line cells
      match ← readLine garbage keyName pstr with
      | some keyValue => pure (some keyValue)
      | none => readConfigLoop keyName rounds text cells

/-- `readConfig`. A file has no more lines than characters. -/
def readConfig (file keyName : List Char) : Checked (Option (List Char)) :=
  readConfigLoop garbage keyName (file.length + 1) file []

/-- One of the settings of `parseSDBootConfig`. -/
def readSetting (file : List Char) (configs : Configs) (id : ConfigId) : Checked Configs := do
  match ← readConfig garbage file id.name with
  | some pValue => pure { configs with value := Function.update configs.value id pValue }
  | none => pure configs

/-- `parseSDBootConfig`, if the file opens. -/
def parseSDBootConfig (file : Option (List Char)) (configs : Configs) : Checked Configs :=
  match file with
  | none => pure configs
  | some file => do
    let configs ← readSetting garbage file configs .pcbaTest
    let configs ← readSetting garbage file configs .fwUpdate
    let configs ← readSetting garbage file configs .displayLed
    let configs ← readSetting garbage file configs .displayLcd
    let configs ← readSetting garbage file configs .demoCopy
    match ← readConfig garbage file ConfigId.volumeLabel.name with
    | none => pure configs
    | some pValue =>
      let label ← store .volumeLabel configs.gVolumeLabel 0 (pValue ++ ['\x00'])
      pure ⟨Function.update configs.value .volumeLabel pValue, label⟩

end Reader

/-- The lines of a text behind what has come of the first one. A carriage return
takes the next character with it, unless both are the end of a line. -/
def linesFrom : (text current : List Char) → List (List Char)
  | [], current => if current = [] then [] else [current]
  | c :: text, current =>
    if c = '\n' then current :: linesFrom text []
    else if c = '\r' then
      match text with
      | [] => if current = [] then [] else [current]
      | c :: text => if c = '\n' then current :: linesFrom text [] else linesFrom text current
    else linesFrom text (current ++ [c])

/-- The value a line has for a key: what stands behind the first equals sign and
the blanks that follow it, if the key stands anywhere in a line that is no comment. -/
def lineValue (keyName line : List Char) : Option (List Char) :=
  if line.head? = some '#' ∨ ¬ keyName <:+: line then none
  else
    match line.dropWhile (· ≠ '=') with
    | [] => none
    | _ :: behind => some (behind.dropWhile (· = ' '))

/-- The value a file has for a key: that of the first line that has one. -/
def fileValue (keyName file : List Char) : Option (List Char) :=
  (linesFrom file []).findSome? fun line => lineValue keyName (line.takeWhile (· ≠ '\x00'))

section Lines

variable {garbage : ℕ → Char} {text current room : List Char}

/-- A block stored where the room begins. -/
theorem store_room {region : Region} {block : List Char} (h : block.length ≤ room.length) :
    store region (current ++ room) current.length block =
      .ok (current ++ block ++ room.drop block.length) := by
  rw [store_eq (by rw [List.length_append]; omega), memcpy, List.take_left, ← List.drop_drop,
    List.drop_left]

/-- How a call of `mygetline` ends when these are the lines it has before it. -/
def GetsLine (lines : List (List Char))
    (result : Checked (Option ℕ × List Char × List Char)) : Prop :=
  match lines with
  | [] => ∃ cells, result = .ok (none, cells, [])
  | line :: more => ∃ tail text, result = .ok (some line.length, line ++ '\x00' :: tail, text) ∧
      128 ≤ (line ++ '\x00' :: tail).length ∧ linesFrom text [] = more

theorem endOfFile_getsLine (hroom : room ≠ []) (hsize : 128 ≤ (current ++ room).length) :
    GetsLine (if current = [] then [] else [current])
      (endOfFile (current ++ room) current.length) := by
  have hstore : store Region.line (current ++ room) current.length ['\x00'] =
      .ok (current ++ ['\x00'] ++ room.drop 1) :=
    store_room (List.length_pos_of_ne_nil hroom)
  rw [endOfFile, bind_of_ok hstore]
  cases current with
  | nil => exact ⟨_, rfl⟩
  | cons c current =>
    refine ⟨room.drop 1, [], ?_, ?_, rfl⟩
    · rw [List.append_assoc]
      rfl
    · have hlength := List.length_pos_of_ne_nil hroom
      simp only [List.length_append, List.length_cons, List.length_drop] at hsize ⊢
      omega

theorem endOfLine_getsLine (hroom : room ≠ []) (hsize : 128 ≤ (current ++ room).length) :
    GetsLine (current :: linesFrom text []) (endOfLine text (current ++ room) current.length) := by
  have hstore : store Region.line (current ++ room) current.length ['\x00'] =
      .ok (current ++ ['\x00'] ++ room.drop 1) :=
    store_room (List.length_pos_of_ne_nil hroom)
  rw [endOfLine, bind_of_ok hstore]
  refine ⟨room.drop 1, text, ?_, ?_, rfl⟩
  · rw [List.append_assoc]
    rfl
  · have hlength := List.length_pos_of_ne_nil hroom
    simp only [List.length_append, List.length_cons, List.length_drop] at hsize ⊢
    omega

/-- A character goes into the buffer, which grows when its last cell is reached. -/
theorem store_grown (garbage : ℕ → Char) (c : Char) (hroom : room ≠ [])
    (hsize : 128 ≤ (current ++ room).length) :
    ∃ more : List Char, more ≠ [] ∧ 128 ≤ (current ++ [c] ++ more).length ∧
      store Region.line (if (current ++ room).length - 1 ≤ current.length
        then current ++ room ++ fresh garbage 128 else current ++ room) current.length [c] =
        .ok (current ++ [c] ++ more) := by
  have hpos := List.length_pos_of_ne_nil hroom
  rw [List.length_append] at hsize
  by_cases hlast : (current ++ room).length - 1 ≤ current.length
  · rw [if_pos hlast, List.append_assoc]
    have hgrown : (room ++ fresh garbage 128).length = room.length + 128 := by
      rw [List.length_append, fresh, List.length_map, List.length_range]
    refine ⟨(room ++ fresh garbage 128).drop 1, ?_, ?_, store_room ?_⟩
    · refine List.ne_nil_of_length_pos ?_
      rw [List.length_drop, hgrown]
      omega
    · rw [List.length_append, List.length_append, List.length_drop, hgrown, List.length_singleton]
      omega
    · rw [hgrown, List.length_singleton]
      omega
  · rw [if_neg hlast]
    rw [List.length_append] at hlast
    refine ⟨room.drop 1, ?_, ?_, store_room hpos⟩
    · refine List.ne_nil_of_length_pos ?_
      rw [List.length_drop]
      omega
    · rw [List.length_append, List.length_append, List.length_drop, List.length_singleton]
      omega

/-- The loop never leaves the buffer, and it reads the next line. -/
theorem mygetlineLoop_getsLine (hroom : room ≠ []) (hsize : 128 ≤ (current ++ room).length) :
    GetsLine (linesFrom text current)
      (mygetlineLoop garbage text (current ++ room) current.length) := by
  induction hlength : text.length using Nat.strong_induction_on generalizing text current room with
  | _ n ih =>
    subst hlength
    cases text with
    | nil => exact endOfFile_getsLine hroom hsize
    | cons c text =>
      rw [linesFrom.eq_def, mygetlineLoop.eq_def]
      dsimp only
      by_cases hnewline : c = '\n'
      · rw [if_pos hnewline, if_pos hnewline]
        exact endOfLine_getsLine hroom hsize
      rw [if_neg hnewline, if_neg hnewline]
      by_cases hreturn : c = '\r'
      · rw [if_pos hreturn, if_pos hreturn]
        cases text with
        | nil => exact endOfFile_getsLine hroom hsize
        | cons d text =>
          dsimp only
          by_cases hend : d = '\n'
          · rw [if_pos hend, if_pos hend]
            exact endOfLine_getsLine hroom hsize
          · rw [if_neg hend, if_neg hend]
            exact ih text.length (by simp only [List.length_cons]; omega) hroom hsize rfl
      · rw [if_neg hreturn, if_neg hreturn]
        obtain ⟨more, hmore, hlong, hstore⟩ := store_grown garbage c hroom hsize
        have hcount : (current ++ [c]).length = current.length + 1 := by
          rw [List.length_append, List.length_singleton]
        rw [bind_of_ok hstore, ← hcount]
        exact ih text.length (Nat.lt_succ_self _) hmore hlong rfl

/-- A call of `mygetline` on a buffer that a call has left, or on none. -/
theorem mygetline_getsLine {cells : List Char} (hcells : cells = [] ∨ 128 ≤ cells.length) :
    GetsLine (linesFrom text []) (mygetline garbage text cells) := by
  rw [mygetline]
  rcases hcells with rfl | hsize
  · exact mygetlineLoop_getsLine (List.cons_ne_nil _ _) le_rfl
  · have hne : cells ≠ [] := List.ne_nil_of_length_pos (by omega)
    rw [if_neg hne]
    exact mygetlineLoop_getsLine hne hsize

/-- The string of a terminated line. -/
theorem loadString_terminated (region : Region) (line tail : List Char) :
    loadString region (line ++ '\x00' :: tail) = .ok (line.takeWhile (· ≠ '\x00')) := by
  rw [loadString, if_pos (List.mem_append_right _ List.mem_cons_self)]
  congr 1
  induction line with
  | nil => rfl
  | cons c line ih =>
    rw [List.cons_append, List.takeWhile_cons, List.takeWhile_cons, ih]

/-- A string has no terminator. -/
theorem takeWhile_string (line : List Char) : '\x00' ∉ line.takeWhile (· ≠ '\x00') := by
  intro hmem
  have hne := List.all_eq_true.mp (List.all_takeWhile (p := (· ≠ '\x00')) (l := line)) _ hmem
  simp at hne

/-- The value of a line fits into its block. -/
theorem readLine_eq {keyName pstr : List Char} (hstring : '\x00' ∉ pstr) :
    readLine garbage keyName pstr = .ok (lineValue keyName pstr) := by
  unfold readLine lineValue
  by_cases hcomment : pstr.head? = some '#'
  · rw [if_pos (Or.inl hcomment), if_pos (Or.inl hcomment)]
    rfl
  by_cases hempty : pstr = []
  · subst hempty
    rw [if_pos (Or.inr rfl)]
    split_ifs <;> rfl
  rw [if_neg (not_or.mpr ⟨hcomment, hempty⟩)]
  by_cases hkey : keyName <:+: pstr
  swap
  · rw [if_neg hkey, if_pos (Or.inr hkey)]
    rfl
  rw [if_pos hkey, if_neg (not_or.mpr ⟨hcomment, not_not.mpr hkey⟩)]
  cases hbehind : pstr.dropWhile (· ≠ '=') with
  | nil => rfl
  | cons equals behind =>
    have hsub : (equals :: behind) <:+ pstr := hbehind ▸ List.dropWhile_suffix _
    have hvalue : '\x00' ∉ behind.dropWhile (· = ' ') := fun hmem =>
      hstring (hsub.subset (List.mem_cons_of_mem _ ((List.dropWhile_suffix _).subset hmem)))
    have hfits : (behind.dropWhile (· = ' ') ++ ['\x00']).length ≤
        (fresh garbage ((equals :: behind).length + 1)).length := by
      have hle := (List.dropWhile_suffix (l := behind) (p := (· = ' '))).length_le
      rw [fresh, List.length_map, List.length_range, List.length_append]
      simp only [List.length_cons, List.length_nil]
      omega
    dsimp only
    have hstore := @store_room [] _ .keyValue _ hfits
    rw [List.nil_append, List.nil_append, List.length_nil, List.append_assoc] at hstore
    rw [bind_of_ok hstore]
    have hload := loadString_terminated .keyValue (behind.dropWhile (· = ' '))
      ((fresh garbage ((equals :: behind).length + 1)).drop
        (behind.dropWhile (· = ' ') ++ ['\x00']).length)
    have hwhole : (behind.dropWhile (· = ' ')).takeWhile (· ≠ '\x00') =
        behind.dropWhile (· = ' ') :=
      List.takeWhile_eq_self_iff.mpr fun c hc => decide_eq_true fun heq => hvalue (heq ▸ hc)
    rw [List.singleton_append, bind_of_ok hload, hwhole]
    rfl

/-- There are no more lines than characters. -/
theorem length_linesFrom (text current : List Char) :
    (linesFrom text current).length ≤ text.length + min 1 current.length := by
  induction hlength : text.length using Nat.strong_induction_on generalizing text current with
  | _ n ih =>
    subst hlength
    have hlast : (if current = [] then [] else [current] : List (List Char)).length ≤
        min 1 current.length := by
      split_ifs with hcurrent
      · exact Nat.zero_le _
      · exact le_min le_rfl (List.length_pos_of_ne_nil hcurrent)
    cases text with
    | nil =>
      rw [linesFrom, List.length_nil, Nat.zero_add]
      exact hlast
    | cons c text =>
      have hrest : (linesFrom text []).length ≤ text.length :=
        ih text.length (Nat.lt_succ_self _) text [] rfl
      rw [linesFrom.eq_def, List.length_cons]
      dsimp only
      by_cases hnewline : c = '\n'
      · rw [if_pos hnewline, List.length_cons]
        omega
      rw [if_neg hnewline]
      by_cases hreturn : c = '\r'
      · rw [if_pos hreturn]
        cases text with
        | nil => exact hlast.trans (Nat.le_add_left _ _)
        | cons d text =>
          dsimp only
          by_cases hend : d = '\n'
          · rw [if_pos hend]
            have hbehind := ih text.length (by simp only [List.length_cons]; omega) text [] rfl
            simp only [List.length_cons, List.length_nil] at hbehind ⊢
            omega
          · rw [if_neg hend]
            have hmore := ih text.length (by simp only [List.length_cons]; omega) text current rfl
            rw [List.length_cons]
            omega
      · rw [if_neg hreturn]
        have hmore := ih text.length (Nat.lt_succ_self _) text (current ++ [c]) rfl
        rw [List.length_append, List.length_singleton] at hmore
        omega

/-- Rounds that suffice for the lines left read the value of the first one that has the key. -/
theorem readConfigLoop_eq {keyName : List Char} {rounds : ℕ} {cells : List Char}
    (hrounds : (linesFrom text []).length < rounds) (hcells : cells = [] ∨ 128 ≤ cells.length) :
    readConfigLoop garbage keyName rounds text cells = .ok ((linesFrom text []).findSome?
      fun line => lineValue keyName (line.takeWhile (· ≠ '\x00'))) := by
  induction rounds generalizing text cells with
  | zero => exact absurd hrounds (Nat.not_lt_zero _)
  | succ rounds ih =>
    have hline := @mygetline_getsLine garbage text cells hcells
    rw [readConfigLoop]
    cases hlines : linesFrom text [] with
    | nil =>
      rw [hlines] at hline
      obtain ⟨rest, hget⟩ := hline
      rw [bind_of_ok hget]
      rfl
    | cons line more =>
      rw [hlines] at hline hrounds
      obtain ⟨tail, behind, hget, hsize, rfl⟩ := hline
      rw [bind_of_ok hget]
      dsimp only
      rw [bind_of_ok (loadString_terminated .line line tail),
        bind_of_ok (readLine_eq (takeWhile_string line)), List.findSome?_cons]
      cases lineValue keyName (line.takeWhile (· ≠ '\x00')) with
      | some value => rfl
      | none =>
        rw [List.length_cons] at hrounds
        exact ih (by omega) (Or.inr hsize)

/-- `readConfig` finds the value of the first line that has the key. -/
theorem readConfig_eq (garbage : ℕ → Char) (file keyName : List Char) :
    readConfig garbage file keyName = .ok (fileValue keyName file) := by
  have hlines := length_linesFrom file []
  rw [List.length_nil, Nat.min_zero, Nat.add_zero] at hlines
  exact readConfigLoop_eq (Nat.lt_succ_of_le hlines) (Or.inl rfl)

end Lines

section Parse

variable {garbage : ℕ → Char} {file : List Char} {configs : Configs}

/-- The configuration with the value the file has for one key, if it has one. -/
def Configs.withValue (configs : Configs) (file : List Char) (id : ConfigId) : Configs :=
  { configs with
    value := Function.update configs.value id
      ((fileValue id.name file).getD (configs.value id)) }

theorem readSetting_eq (id : ConfigId) :
    readSetting garbage file configs id = .ok (configs.withValue file id) := by
  rw [readSetting, bind_of_ok (readConfig_eq garbage file id.name), Configs.withValue]
  cases fileValue id.name file with
  | none => rw [Option.getD_none, Function.update_eq_self]; rfl
  | some value => rfl

/-- All settings but the label of the volume. -/
def Configs.withValues (configs : Configs) (file : List Char) : Configs :=
  ((((configs.withValue file .pcbaTest).withValue file .fwUpdate).withValue file
    .displayLed).withValue file .displayLcd).withValue file .demoCopy

/-- The label is the only value that is copied into a block of fixed size. -/
theorem parseSDBootConfig_eq :
    parseSDBootConfig garbage (some file) configs =
      match fileValue ConfigId.volumeLabel.name file with
      | none => .ok (configs.withValues file)
      | some pValue =>
        store Region.volumeLabel configs.gVolumeLabel 0 (pValue ++ ['\x00']) >>= fun label =>
          .ok ⟨Function.update (configs.withValues file).value .volumeLabel pValue, label⟩ := by
  rw [parseSDBootConfig]
  simp only [bind_of_ok (readSetting_eq _)]
  rw [bind_of_ok (readConfig_eq garbage file ConfigId.volumeLabel.name)]
  cases fileValue ConfigId.volumeLabel.name file with
  | none => rfl
  | some pValue => rfl

/-- A value is a string. -/
theorem fileValue_string {keyName value : List Char} (h : fileValue keyName file = some value) :
    '\x00' ∉ value := by
  obtain ⟨line, -, hline⟩ := List.exists_of_findSome?_eq_some h
  unfold lineValue at hline
  split_ifs at hline
  cases hbehind : (line.takeWhile (· ≠ '\x00')).dropWhile (· ≠ '=') with
  | nil =>
    rw [hbehind] at hline
    cases hline
  | cons equals behind =>
    rw [hbehind] at hline
    obtain rfl := Option.some.inj hline
    have hsub : (equals :: behind) <:+ line.takeWhile (· ≠ '\x00') :=
      hbehind ▸ List.dropWhile_suffix _
    exact fun hmem => takeWhile_string line
      (hsub.subset (List.mem_cons_of_mem _ ((List.dropWhile_suffix _).subset hmem)))

theorem withValues_value (id : ConfigId) : (Configs.initial.withValues file).value id =
    if id = .volumeLabel then id.default else (fileValue id.name file).getD id.default := by
  cases id <;> rfl

/-- With a label that fits, the parser comes to its end with these values. -/
theorem parseSDBootConfig_fits
    (hlabel : ∀ label, fileValue ConfigId.volumeLabel.name file = some label → label.length < 128) :
    ∃ configs, parseSDBootConfig garbage (some file) Configs.initial = .ok configs ∧
      (∀ id, configs.value id = (fileValue id.name file).getD id.default) ∧
      loadString .volumeLabel configs.gVolumeLabel =
        .ok ((fileValue ConfigId.volumeLabel.name file).getD []) := by
  rw [parseSDBootConfig_eq]
  cases hvalue : fileValue ConfigId.volumeLabel.name file with
  | none =>
    refine ⟨_, rfl, fun id => ?_, rfl⟩
    rw [withValues_value]
    split_ifs with hid
    · rw [hid, hvalue]
      rfl
    · rfl
  | some label =>
    have hsize : (Configs.initial.gVolumeLabel).length = 128 := List.length_replicate
    have hstore := @store_room [] _ .volumeLabel (label ++ ['\x00'])
      (by rw [hsize, List.length_append]; exact hlabel label hvalue)
    rw [List.nil_append, List.nil_append, List.length_nil, List.append_assoc] at hstore
    dsimp only
    rw [bind_of_ok hstore]
    refine ⟨_, rfl, fun id => ?_, ?_⟩
    · dsimp only
      by_cases hid : id = .volumeLabel
      · rw [hid, Function.update_self, hvalue, Option.getD_some]
      · rw [Function.update_of_ne hid, withValues_value, if_neg hid]
    · have hwhole : label.takeWhile (· ≠ '\x00') = label :=
        List.takeWhile_eq_self_iff.mpr fun c hc =>
          decide_eq_true fun heq => fileValue_string hvalue (heq ▸ hc)
      rw [List.singleton_append]
      exact (loadString_terminated .volumeLabel label _).trans (by rw [hwhole, Option.getD_some])

/-- A label that does not fit leaves its block. -/
theorem parseSDBootConfig_overruns {label : List Char}
    (hvalue : fileValue ConfigId.volumeLabel.name file = some label) (hlong : 128 ≤ label.length) :
    Faults (parseSDBootConfig garbage (some file) Configs.initial) := by
  have hsize : (Configs.initial.gVolumeLabel).length = 128 := List.length_replicate
  rw [parseSDBootConfig_eq, hvalue]
  refine faults_bind (faults_store (by simp) ?_)
  rw [hsize, List.length_append, List.length_singleton]
  omega

end Parse

end RobotOta.SdBootConfig
