import RobotOta.FileTree

/-!
# Unpacking an archive

`unzipFile` over a tree of files. It makes the folder, and for each entry joins
the name to the folder with a separator, makes the directories in front of the
file and copies the content into it. Every entry is written as a file; a call
that throws ends the run and leaves what was written.
-/

namespace RobotOta.UnzipFile

open FileTree

/-- A file name of the device. -/
abbrev Name := List Char

/-- What a file holds. -/
abbrev Content := List (BitVec 8)

/-- The files of the device. -/
abbrev Files := DirTree Name Content

/-- An entry of the archive. -/
structure ZipEntry where
  /-- `getName`. -/
  name : List Char
  /-- The bytes it holds. -/
  content : Content

/-- `isDirectory` of an entry, by its name. `unzipFile` does not ask for it. -/
def ZipEntry.isDirectory (entry : ZipEntry) : Bool := entry.name.getLast? = some '/'

/-- `File.separator`. -/
def separator : Char := '/'

/-- A piece of a path between two separators. -/
def component (piece : Name) : Component Name :=
  if piece = ['.'] then .here else if piece = ['.', '.'] then .up else .down piece

/-- `new File(text)`: empty pieces are dropped. A path without a separator in
front starts at the root as well, the working directory of an application. -/
def file (text : List Char) : List (Component Name) :=
  (((text.splitOn separator).filter (· ≠ [])).map component).reverse

/-- Where an entry is unpacked to: its name behind the folder's path. -/
def dstPath (folderPath : List Char) (entry : ZipEntry) : List (Component Name) :=
  file (folderPath ++ separator :: entry.name)

/-- What can fail while one entry is unpacked. -/
structure EntryFaults where
  /-- `getInputStream` throws. -/
  unreadable : Bool
  /-- `mkdirs` cannot make the directory at a location. -/
  mkdirFails : List Name → Bool
  /-- `createNewFile` throws. -/
  createFails : Bool
  /-- `FileOutputStream` throws. -/
  openFails : Bool
  /-- The copy loop or a `close` behind it throws after so many bytes. -/
  copyEnds : Option ℕ

/-- What can fail during a run. -/
structure UnzipFaults where
  /-- The folder of the archive cannot be made at a location. -/
  mkdirFails : List Name → Bool
  /-- `new ZipFile` throws. -/
  zipFails : Bool
  /-- By the place of the entry in the archive. -/
  entry : ℕ → EntryFaults

/-- The run of `unzipFile` so far. -/
structure UnzipState where
  /-- The files and directories. -/
  tree : Files
  /-- The locations that `createNewFile` and `FileOutputStream` created or opened. -/
  touched : List (List Name)
  /-- The list of files that is returned. -/
  files : List (List (Component Name))

/-- The calls behind one that may have thrown. -/
def unlessThrown (call : Bool × UnzipState) (rest : UnzipState → Bool × UnzipState) :
    Bool × UnzipState :=
  if call.1 then rest call.2 else call

section Calls

variable {call : Bool × UnzipState} {rest : UnzipState → Bool × UnzipState}

theorem unlessThrown_returned (h : call.1 = true) : unlessThrown call rest = rest call.2 :=
  if_pos h

theorem unlessThrown_threw (h : ¬call.1 = true) : unlessThrown call rest = call :=
  if_neg h

end Calls

/-- One directory of `mkdirs`. -/
def mkdir (fails : List Name → Bool) (path : List (Component Name)) (tree : Files) : Files :=
  match tree.locate path with
  | none => tree
  | some loc => if fails loc then tree else tree.makeDirectory loc

/-- `mkdirs`: what is missing in front of a directory is made first, along the
path as it is written. Its result is ignored by `unzipFile`. -/
def mkdirs (fails : List Name → Bool) : List (Component Name) → Files → Files
  | [], tree => tree
  | component :: path, tree =>
    if tree.exists (component :: path) then tree
    else mkdir fails (component :: path) (mkdirs fails path tree)

/-- The file at a location, with this content. -/
def putFile (loc : List Name) (content : Content) (state : UnzipState) : UnzipState :=
  { state with tree := state.tree.putFile content loc, touched := loc :: state.touched }

/-- `createNewFile`; `false` where it throws. -/
def createNewFile (fails : Bool) (dstFile : List (Component Name)) (state : UnzipState) :
    Bool × UnzipState :=
  match state.tree.locate dstFile with
  | none => (false, state)
  | some loc =>
    if (state.tree.node loc).isSome then (true, state)
    else if fails then (false, state)
    else (true, putFile loc [] state)

/-- Where `dstFile` does not exist it is created, with the directories it is in. -/
def createDstFile (faults : EntryFaults) (dstFile : List (Component Name)) (state : UnzipState) :
    Bool × UnzipState :=
  if state.tree.exists dstFile then (true, state)
  else
    let fileParentDir := dstFile.tail
    let tree :=
      if state.tree.exists fileParentDir then state.tree
      else mkdirs faults.mkdirFails fileParentDir state.tree
    createNewFile faults.createFails dstFile { state with tree := tree }

/-- The copy loop with the calls of `close`. -/
def copyContent (faults : EntryFaults) (content : Content) (loc : List Name)
    (state : UnzipState) : Bool × UnzipState :=
  match faults.copyEnds with
  | some count => (false, putFile loc (content.take count) state)
  | none => (true, putFile loc content state)

/-- From `new FileOutputStream`, which empties the file, to the end of a round. -/
def writeDstFile (faults : EntryFaults) (content : Content) (dstFile : List (Component Name))
    (state : UnzipState) : Bool × UnzipState :=
  match state.tree.locate dstFile with
  | none => (false, state)
  | some loc =>
    if state.tree.node loc = some .directory ∨ faults.openFails then (false, state)
    else
      unlessThrown (copyContent faults content loc (putFile loc [] state)) fun state =>
        (true, { state with files := state.files ++ [dstFile] })

/-- A round of `unzipFile`; `false` where it throws. -/
def unzipEntry (folderPath : List Char) (faults : EntryFaults) (entry : ZipEntry)
    (state : UnzipState) : Bool × UnzipState :=
  if faults.unreadable then (false, state)
  else
    let dstFile := dstPath folderPath entry
    unlessThrown (createDstFile faults dstFile state) (writeDstFile faults entry.content dstFile)

/-- The rounds of `unzipFile`. -/
def unzipEntries (folderPath : List Char) :
    (ℕ → EntryFaults) → List ZipEntry → UnzipState → Bool × UnzipState
  | _, [], state => (true, state)
  | faults, entry :: entries, state =>
    unlessThrown (unzipEntry folderPath (faults 0) entry state)
      (unzipEntries folderPath (fun i => faults (i + 1)) entries)

/-- `unzipFile`; `false` where it throws. -/
def unzipFile (folderPath : List Char) (entries : List ZipEntry) (faults : UnzipFaults)
    (tree : Files) : Bool × UnzipState :=
  let desDir := file folderPath
  let made := if tree.exists desDir then tree else mkdirs faults.mkdirFails desDir tree
  if faults.zipFails then (false, ⟨made, [], []⟩)
  else unzipEntries folderPath faults.entry entries ⟨made, [], []⟩

/-- There is a file at the end of the path, and directories in front of it. -/
structure Written (tree : Files) (dstFile : List (Component Name)) : Prop where
  walks : tree.Walks dstFile
  isFile : ∃ content, tree.node (normal dstFile) = some (.file content)

/-- A written file stays. -/
theorem Written.grows {tree grown : Files} {dstFile : List (Component Name)}
    (hwritten : Written tree dstFile) (h : Grows tree grown) : Written grown dstFile where
  walks := hwritten.walks.grows h
  isFile := by
    obtain ⟨content, hfile⟩ := hwritten.isFile
    exact h.file hfile

/-- Between the two states no file but `dstFile` was created or written. -/
structure WritesOnly (dstFile : List (Component Name)) (state after : UnzipState) : Prop where
  grows : Grows state.tree after.tree
  kept : ∀ loc ∈ state.touched, loc ∈ after.touched
  touched : ∀ loc ∈ after.touched, loc ∈ state.touched ∨
    loc = normal dstFile ∧ Written after.tree dstFile
  /-- The record of the touched files misses no change of a file. -/
  untouched : ∀ {loc : List Name} {content : Content}, loc ∉ after.touched →
    (after.tree.node loc = some (.file content) ↔ state.tree.node loc = some (.file content))

section Rounds

variable {dstFile : List (Component Name)} {state : UnzipState}

theorem WritesOnly.refl (dstFile : List (Component Name)) (state : UnzipState) :
    WritesOnly dstFile state state :=
  ⟨Grows.refl state.tree, fun _ h => h, fun _ h => Or.inl h, fun _ => Iff.rfl⟩

theorem WritesOnly.trans {first second third : UnzipState} (h : WritesOnly dstFile first second)
    (h' : WritesOnly dstFile second third) : WritesOnly dstFile first third where
  grows := h.grows.trans h'.grows
  kept loc hloc := h'.kept loc (h.kept loc hloc)
  touched loc hloc := by
    rcases h'.touched loc hloc with hsecond | hnew
    · rcases h.touched loc hsecond with hfirst | ⟨heq, hwritten⟩
      · exact Or.inl hfirst
      · exact Or.inr ⟨heq, hwritten.grows h'.grows⟩
    · exact Or.inr hnew
  untouched {loc content} hloc := by
    have hsecond : loc ∉ second.touched := fun hmem => hloc (h'.kept loc hmem)
    exact (h'.untouched hloc).trans (h.untouched hsecond)

/-- One directory of `mkdirs` takes nothing away and changes no file. -/
theorem mkdir_spec (fails : List Name → Bool) (path : List (Component Name)) (tree : Files) :
    Grows tree (mkdir fails path tree) ∧ ∀ loc content,
      (mkdir fails path tree).node loc = some (.file content) ↔
        tree.node loc = some (.file content) := by
  unfold mkdir
  by_cases hwalks : tree.Walks path
  · simp only [hwalks.locate]
    by_cases hfails : fails (normal path) = true
    · rw [if_pos hfails]
      exact ⟨Grows.refl tree, fun _ _ => Iff.rfl⟩
    · rw [if_neg hfails]
      exact ⟨grows_makeDirectory hwalks.tail, fun _ _ => file_makeDirectory_iff hwalks.tail⟩
  · rw [tree.locate_of_not_walks hwalks]
    exact ⟨Grows.refl tree, fun _ _ => Iff.rfl⟩

/-- Nor do all of them. -/
theorem mkdirs_spec (fails : List Name → Bool) (path : List (Component Name)) (tree : Files) :
    Grows tree (mkdirs fails path tree) ∧ ∀ loc content,
      (mkdirs fails path tree).node loc = some (.file content) ↔
        tree.node loc = some (.file content) := by
  induction path with
  | nil => exact ⟨Grows.refl tree, fun _ _ => Iff.rfl⟩
  | cons component path ih =>
    unfold mkdirs
    split_ifs with hexists
    · exact ⟨Grows.refl tree, fun _ _ => Iff.rfl⟩
    · obtain ⟨hgrows, hfiles⟩ := mkdir_spec fails (component :: path) (mkdirs fails path tree)
      exact ⟨ih.1.trans hgrows,
        fun loc content => (hfiles loc content).trans (ih.2 loc content)⟩

/-- A file that is put where the path leads. -/
theorem writesOnly_putFile (content : Content) (hwalks : state.tree.Walks dstFile)
    (hfree : state.tree.node (normal dstFile) ≠ some .directory) :
    WritesOnly dstFile state (putFile (normal dstFile) content state) ∧
      Written (putFile (normal dstFile) content state).tree dstFile := by
  have hgrows : Grows state.tree (putFile (normal dstFile) content state).tree :=
    grows_putFile content hwalks.tail hfree
  have hnode : (putFile (normal dstFile) content state).tree.node =
      Function.update state.tree.node (normal dstFile) (some (.file content)) :=
    state.tree.node_putFile content hwalks.tail hfree
  have hwritten : Written (putFile (normal dstFile) content state).tree dstFile :=
    ⟨hwalks.grows hgrows, content, by rw [hnode, Function.update_self]⟩
  refine ⟨⟨hgrows, fun loc hloc => List.mem_cons_of_mem _ hloc, fun loc hloc => ?_,
    fun {loc other} hloc => ?_⟩, hwritten⟩
  · rcases List.mem_cons.mp hloc with heq | hmem
    · exact Or.inr ⟨heq, hwritten⟩
    · exact Or.inl hmem
  · have hne : loc ≠ normal dstFile := fun heq => hloc (heq ▸ List.mem_cons_self)
    rw [hnode, Function.update_of_ne hne]

/-- `createNewFile` touches nothing else. -/
theorem writesOnly_createNewFile (fails : Bool) (dstFile : List (Component Name))
    (state : UnzipState) : WritesOnly dstFile state (createNewFile fails dstFile state).2 := by
  unfold createNewFile
  by_cases hwalks : state.tree.Walks dstFile
  · simp only [hwalks.locate]
    by_cases hsome : (state.tree.node (normal dstFile)).isSome = true
    · rw [if_pos hsome]
      exact WritesOnly.refl dstFile state
    · have hfree : state.tree.node (normal dstFile) ≠ some .directory := by
        intro hdir
        exact hsome (by rw [hdir]; rfl)
      rw [if_neg hsome]
      by_cases hfails : fails = true
      · rw [if_pos hfails]
        exact WritesOnly.refl dstFile state
      · rw [if_neg hfails]
        exact (writesOnly_putFile [] hwalks hfree).1
  · simp only [state.tree.locate_of_not_walks hwalks]
    exact WritesOnly.refl dstFile state

/-- The directories in front of the file are no files. -/
theorem writesOnly_createDstFile (faults : EntryFaults) (dstFile : List (Component Name))
    (state : UnzipState) : WritesOnly dstFile state (createDstFile faults dstFile state).2 := by
  have hmade (tree : Files) (hgrows : Grows state.tree tree) (hfiles : ∀ loc content,
      tree.node loc = some (.file content) ↔ state.tree.node loc = some (.file content)) :
      WritesOnly dstFile state { state with tree := tree } :=
    ⟨hgrows, fun _ h => h, fun _ h => Or.inl h, fun {loc content} _ => hfiles loc content⟩
  unfold createDstFile
  split_ifs with hdst
  · exact WritesOnly.refl dstFile state
  refine WritesOnly.trans ?_ (writesOnly_createNewFile faults.createFails dstFile _)
  by_cases hexists : state.tree.exists dstFile.tail = true
  · simp only [if_pos hexists]
    exact WritesOnly.refl dstFile state
  · simp only [if_neg hexists]
    obtain ⟨hgrows, hfiles⟩ := mkdirs_spec faults.mkdirFails dstFile.tail state.tree
    exact hmade _ hgrows hfiles

/-- A file that is written to its end has been written. -/
theorem writesOnly_writeDstFile (faults : EntryFaults) (content : Content)
    (dstFile : List (Component Name)) (state : UnzipState) :
    WritesOnly dstFile state (writeDstFile faults content dstFile state).2 ∧
      ((writeDstFile faults content dstFile state).1 = true →
        Written (writeDstFile faults content dstFile state).2.tree dstFile) := by
  unfold writeDstFile
  by_cases hwalks : state.tree.Walks dstFile
  · simp only [hwalks.locate]
    by_cases hrefused :
        state.tree.node (normal dstFile) = some .directory ∨ faults.openFails = true
    · rw [if_pos hrefused]
      exact ⟨WritesOnly.refl dstFile state, fun h => absurd h Bool.false_ne_true⟩
    · have hfree : state.tree.node (normal dstFile) ≠ some .directory :=
        fun hdir => hrefused (Or.inl hdir)
      obtain ⟨hopened, hempty⟩ := writesOnly_putFile [] hwalks hfree
      have hagain : (putFile (normal dstFile) [] state).tree.node (normal dstFile) ≠
          some .directory := by
        obtain ⟨old, hfile⟩ := hempty.isFile
        rw [hfile]
        simp
      have hcopy (block : Content) := writesOnly_putFile block hempty.walks hagain
      rw [if_neg hrefused]
      unfold copyContent
      cases faults.copyEnds with
      | some count =>
        have hpart := hopened.trans (hcopy (content.take count)).1
        exact ⟨hpart, fun h => absurd h Bool.false_ne_true⟩
      | none =>
        obtain ⟨honly, hwritten⟩ := hcopy content
        have hall := hopened.trans honly
        exact ⟨⟨hall.grows, hall.kept, hall.touched, hall.untouched⟩, fun _ => hwritten⟩
  · simp only [state.tree.locate_of_not_walks hwalks]
    exact ⟨WritesOnly.refl dstFile state, fun h => absurd h Bool.false_ne_true⟩

/-- A round writes the file of its entry only; a round that ends has written it. -/
theorem unzipEntry_spec (folderPath : List Char) (faults : EntryFaults) (entry : ZipEntry)
    (state : UnzipState) :
    WritesOnly (dstPath folderPath entry) state (unzipEntry folderPath faults entry state).2 ∧
      ((unzipEntry folderPath faults entry state).1 = true →
        Written (unzipEntry folderPath faults entry state).2.tree
          (dstPath folderPath entry)) := by
  unfold unzipEntry
  generalize dstPath folderPath entry = dstFile
  by_cases hunreadable : faults.unreadable = true
  · rw [if_pos hunreadable]
    exact ⟨WritesOnly.refl dstFile state, fun h => absurd h Bool.false_ne_true⟩
  rw [if_neg hunreadable]
  obtain ⟨honly, hwritten⟩ := writesOnly_writeDstFile faults entry.content dstFile
    (createDstFile faults dstFile state).2
  have hcreated := writesOnly_createDstFile faults dstFile state
  by_cases hreturned : (createDstFile faults dstFile state).1 = true
  · rw [unlessThrown_returned hreturned]
    exact ⟨hcreated.trans honly, hwritten⟩
  · rw [unlessThrown_threw hreturned]
    exact ⟨hcreated, fun h => absurd h hreturned⟩

end Rounds

/-- The path of an entry is walked from where the folder's path leads. -/
theorem dstPath_eq (folderPath : List Char) (entry : ZipEntry) :
    dstPath folderPath entry = file entry.name ++ file folderPath := by
  unfold dstPath file
  rw [List.splitOn_append_cons_self, List.filter_append, List.map_append, List.reverse_append]

/-- The entries can stand in one tree: none is a directory on the way to another. -/
def Consistent (folderPath : List Char) (entries : List ZipEntry) : Prop :=
  ∀ first ∈ entries, ∀ second ∈ entries,
    normal (dstPath folderPath first) ∉ passed (dstPath folderPath second)

/-- No name of an entry that can be reached leads out of the folder. -/
def EscapeFree (folderPath : List Char) (entries : List ZipEntry) : Prop :=
  ∀ done entry later, entries = done ++ entry :: later →
    Consistent folderPath (done ++ [entry]) →
    normal (file folderPath) <:+ normal (dstPath folderPath entry)

/-- Whatever the files of the device are, and whatever fails, no file outside
the folder is created or written. -/
def Contained (folderPath : List Char) (entries : List ZipEntry) : Prop :=
  ∀ faults tree, ∀ loc ∈ (unzipFile folderPath entries faults tree).2.touched,
    normal (file folderPath) <:+ loc

section Runs

variable {folderPath : List Char} {entries done : List ZipEntry} {state : UnzipState}

/-- Files that stand in one tree are consistent. -/
theorem consistent_of_written {tree : Files}
    (h : ∀ entry ∈ entries, Written tree (dstPath folderPath entry)) :
    Consistent folderPath entries := by
  intro first hfirst second hsecond hpassed
  obtain ⟨content, hfile⟩ := (h first hfirst).isFile
  have hdirectory := (h second hsecond).walks _ hpassed
  exact absurd (hfile.symm.trans hdirectory) (by simp)

/-- What holds of a run so far: the files of the entries that are done stand. -/
theorem unzipEntry_done (faults : EntryFaults) (entry : ZipEntry)
    (hdone : ∀ other ∈ done, Written state.tree (dstPath folderPath other))
    (hentry : Written (unzipEntry folderPath faults entry state).2.tree
      (dstPath folderPath entry)) :
    ∀ other ∈ done ++ [entry], Written (unzipEntry folderPath faults entry state).2.tree
      (dstPath folderPath other) := by
  intro other hother
  have hgrows := (unzipEntry_spec folderPath faults entry state).1.grows
  rcases List.mem_append.mp hother with hmem | hmem
  · exact (hdone other hmem).grows hgrows
  · exact List.mem_singleton.mp hmem ▸ hentry

/-- The rounds stay in the folder where no reachable name leads out of it. -/
theorem unzipEntries_inside (faults : ℕ → EntryFaults)
    (hescape : EscapeFree folderPath (done ++ entries))
    (hdone : ∀ entry ∈ done, Written state.tree (dstPath folderPath entry))
    (hstate : ∀ loc ∈ state.touched, normal (file folderPath) <:+ loc) :
    ∀ loc ∈ (unzipEntries folderPath faults entries state).2.touched,
      normal (file folderPath) <:+ loc := by
  induction entries generalizing faults done state with
  | nil => exact hstate
  | cons entry entries ih =>
    obtain ⟨honly, hwritten⟩ := unzipEntry_spec folderPath (faults 0) entry state
    have hround : ∀ loc ∈ (unzipEntry folderPath (faults 0) entry state).2.touched,
        normal (file folderPath) <:+ loc := by
      intro loc hloc
      rcases honly.touched loc hloc with hold | ⟨rfl, hentry⟩
      · exact hstate loc hold
      · have hall := unzipEntry_done (faults 0) entry hdone hentry
        exact hescape done entry entries rfl (consistent_of_written hall)
    by_cases hreturned : (unzipEntry folderPath (faults 0) entry state).1 = true
    · have hall := unzipEntry_done (faults 0) entry hdone (hwritten hreturned)
      have hsplit : done ++ entry :: entries = done ++ [entry] ++ entries := by simp
      rw [unzipEntries, unlessThrown_returned hreturned]
      exact ih (fun i => faults (i + 1)) (hsplit ▸ hescape) hall hround
    · rw [unzipEntries, unlessThrown_threw hreturned]
      exact hround

/-- A run that returns has written the file of every entry. -/
theorem unzipEntries_written (faults : ℕ → EntryFaults)
    (hdone : ∀ entry ∈ done, Written state.tree (dstPath folderPath entry))
    (hreturned : (unzipEntries folderPath faults entries state).1 = true) :
    ∀ entry ∈ done ++ entries, Written (unzipEntries folderPath faults entries state).2.tree
      (dstPath folderPath entry) := by
  induction entries generalizing faults done state with
  | nil => simpa [unzipEntries] using hdone
  | cons entry entries ih =>
    have hwritten := (unzipEntry_spec folderPath (faults 0) entry state).2
    by_cases hround : (unzipEntry folderPath (faults 0) entry state).1 = true
    · have hall := unzipEntry_done (faults 0) entry hdone (hwritten hround)
      rw [unzipEntries, unlessThrown_returned hround] at hreturned ⊢
      have hrest := ih (fun i => faults (i + 1)) hall hreturned
      simpa using hrest
    · rw [unzipEntries, unlessThrown_threw hround] at hreturned
      exact absurd hreturned hround

/-- What the rounds touched stays in the record. -/
theorem unzipEntries_kept (faults : ℕ → EntryFaults) :
    ∀ loc ∈ state.touched,
      loc ∈ (unzipEntries folderPath faults entries state).2.touched := by
  induction entries generalizing faults state with
  | nil => exact fun _ h => h
  | cons entry entries ih =>
    intro loc hloc
    have hround := (unzipEntry_spec folderPath (faults 0) entry state).1.kept loc hloc
    by_cases hreturned : (unzipEntry folderPath (faults 0) entry state).1 = true
    · rw [unzipEntries, unlessThrown_returned hreturned]
      exact ih (fun i => faults (i + 1)) loc hround
    · rw [unzipEntries, unlessThrown_threw hreturned]
      exact hround

/-- The record misses no change: a file the rounds did not touch is as it was. -/
theorem unzipEntries_untouched (faults : ℕ → EntryFaults) {loc : List Name} {content : Content}
    (hloc : loc ∉ (unzipEntries folderPath faults entries state).2.touched) :
    (unzipEntries folderPath faults entries state).2.tree.node loc = some (.file content) ↔
      state.tree.node loc = some (.file content) := by
  induction entries generalizing faults state with
  | nil => exact Iff.rfl
  | cons entry entries ih =>
    have honly := (unzipEntry_spec folderPath (faults 0) entry state).1
    by_cases hreturned : (unzipEntry folderPath (faults 0) entry state).1 = true
    · rw [unzipEntries, unlessThrown_returned hreturned] at hloc ⊢
      have hround : loc ∉ (unzipEntry folderPath (faults 0) entry state).2.touched :=
        fun hmem => hloc (unzipEntries_kept _ loc hmem)
      exact (ih (fun i => faults (i + 1)) hloc).trans (honly.untouched hround)
    · rw [unzipEntries, unlessThrown_threw hreturned] at hloc ⊢
      exact honly.untouched hloc

/-- So it is over a whole run, whatever the archive. -/
theorem unzipFile_untouched (faults : UnzipFaults) (tree : Files) {loc : List Name}
    {content : Content} (hloc : loc ∉ (unzipFile folderPath entries faults tree).2.touched) :
    (unzipFile folderPath entries faults tree).2.tree.node loc = some (.file content) ↔
      tree.node loc = some (.file content) := by
  have hmade : (if tree.exists (file folderPath) then tree
      else mkdirs faults.mkdirFails (file folderPath) tree).node loc = some (.file content) ↔
        tree.node loc = some (.file content) := by
    split_ifs
    · exact Iff.rfl
    · exact (mkdirs_spec faults.mkdirFails (file folderPath) tree).2 loc content
  unfold unzipFile at hloc ⊢
  by_cases hzip : faults.zipFails = true
  · simp only [if_pos hzip]
    exact hmade
  · simp only [if_neg hzip] at hloc ⊢
    exact (unzipEntries_untouched faults.entry hloc).trans hmade

/-- Names that do not lead out keep a run in the folder. -/
theorem contained_of_escapeFree (h : EscapeFree folderPath entries) :
    Contained folderPath entries := by
  intro faults tree
  unfold unzipFile
  by_cases hzip : faults.zipFails = true
  · rw [if_pos hzip]
    exact fun loc hloc => absurd hloc List.not_mem_nil
  · rw [if_neg hzip]
    have hall : EscapeFree folderPath ([] ++ entries) := h
    exact unzipEntries_inside faults.entry hall (by simp) (by simp)

end Runs

end RobotOta.UnzipFile
