import RobotOta.UnzipArchive
import RobotOta.SeparatedText
import Mathlib.Data.List.DropRight

/-!
# Taking the unpacked files away again

`installUpdate` keeps the names of the files that `unzipFile` unpacked, each with
a semicolon behind it; when the service starts again `clearDownloadPackage` splits
the text and deletes what has one of these names in the download folder. The way
to a file is not kept, and a semicolon in a name is taken for a separator.
-/

namespace RobotOta.UnzipCleanup

open FileTree UnzipFile UnzipTree UnzipArchive SeparatedText

/-- `getName`: the last piece of a path. -/
def getName : List (Component Name) → Name
  | [] => []
  | .down name :: _ => name
  | .here :: _ => ['.']
  | .up :: _ => ['.', '.']

/-- What stands behind each name. -/
def listSeparator : Char := ';'

/-- The text that `installUpdate` builds from the unpacked files. -/
def sigFile (files : List (List (Component Name))) : List Char :=
  files.flatMap fun fl => getName fl ++ [listSeparator]

/-- `split`: empty pieces at the end are dropped; a text without a separator is one
piece. -/
def split (tmpFiles : List Char) : List Name :=
  if listSeparator ∈ tmpFiles then
    (tmpFiles.splitOn listSeparator).rdropWhile fun piece => piece = []
  else [tmpFiles]

/-- Which directories `rmdir` takes away: some that hold nothing. -/
structure Rmdir where
  /-- Whether it takes the directory at a location away. -/
  removes : Files → List Name → Bool
  /-- Such a directory holds nothing. -/
  empty : ∀ {tree : Files} {loc : List Name}, removes tree loc = true →
    ∀ name, tree.node (name :: loc) = none

/-- `File.delete`. -/
def delete (rmdir : Rmdir) (delFile : List (Component Name)) (tree : Files) : Files :=
  match tree.locate delFile with
  | none => tree
  | some loc =>
    match tree.node loc with
    | none => tree
    | some (.file _) => tree.remove loc
    | some .directory => if rmdir.removes tree loc then tree.remove loc else tree

/-- The preferences that are used here. -/
structure Preferences where
  /-- The names of the unpacked files. -/
  unzipTmpFiles : Option (List Char)
  /-- The digest of the package. -/
  packageMd5 : Option (List Char)
  deriving DecidableEq

/-- What `installUpdate` keeps of the unpacked files. -/
def storeFiles (files : List (List (Component Name))) (prefs : Preferences) : Preferences :=
  { prefs with unzipTmpFiles := some (sigFile files) }

/-- The file of a name in the download folder. -/
def delFile (folderPath : List Char) (name : Name) : List (Component Name) :=
  file (folderPath ++ separator :: name)

/-- The loop over the names. -/
def deleteFiles (rmdir : Rmdir) (folderPath : List Char) (names : List Name) (tree : Files) :
    Files :=
  names.foldl (fun tree name => delete rmdir (delFile folderPath name) tree) tree

/-- `clearDownloadPackage`. -/
def clearDownloadPackage (rmdir : Rmdir) (folderPath : List Char) (prefs : Preferences)
    (tree : Files) : Preferences × Files :=
  match prefs.unzipTmpFiles with
  | none => (prefs, tree)
  | some tmpFiles =>
    ({ prefs with unzipTmpFiles := none, packageMd5 := none },
      deleteFiles rmdir folderPath (split tmpFiles) tree)

/-- An archive has been unpacked into a folder, and nothing of what stood there then
has gone away or changed its kind. -/
structure Restarted (folderPath : List Char) (entries : List ZipEntry) (state : UnzipState)
    (later : Files) : Prop where
  unpacked : ∃ faults tree, tree.node (normal (file folderPath)) = some .directory ∧
    unzipFile folderPath entries faults tree = (true, state)
  grows : Grows state.tree later

/-- The clean-up takes the unpacked files away, and no other file. -/
def CleansUp (rmdir : Rmdir) (folderPath : List Char) (entries : List ZipEntry)
    (prefs : Preferences) (state : UnzipState) (later : Files) : Prop :=
  ∀ loc content,
    (clearDownloadPackage rmdir folderPath (storeFiles state.files prefs) later).2.node loc =
        some (.file content) ↔
      later.node loc = some (.file content) ∧
        ∀ entry ∈ entries, loc ≠ normal (dstPath folderPath entry)

/-- The name of the entry leads to a file of the folder itself, and the last piece of
the name has no semicolon. -/
structure Listed (folderPath : List Char) (entry : ZipEntry) : Prop where
  inFolder : (normal (dstPath folderPath entry)).tail = normal (file folderPath)
  noSeparator : listSeparator ∉ getName (dstPath folderPath entry)

section Texts

variable {text : List Char} {piece : Name} {files : List (List (Component Name))}

/-- The pieces that `split` keeps have no separator, and no other characters than the
text. -/
theorem mem_split (h : piece ∈ split text) : listSeparator ∉ piece ∧ ∀ c ∈ piece, c ∈ text := by
  rw [split] at h
  split_ifs at h with hmem
  · exact mem_splitOn ((List.rdropWhile_prefix _ _).subset h)
  · rw [List.mem_singleton] at h
    subst h
    exact ⟨hmem, fun c hc => hc⟩

/-- Names without a separator come back as they were kept. -/
theorem split_sigFile (hfiles : files ≠ [])
    (h : ∀ fl ∈ files, getName fl ≠ [] ∧ listSeparator ∉ getName fl) :
    split (sigFile files) = files.map getName := by
  have hpieces : (sigFile files).splitOn listSeparator = files.map getName ++ [[]] := by
    have hfree : ∀ part ∈ files.map getName, listSeparator ∉ part := by
      intro part hpart
      obtain ⟨fl, hfl, rfl⟩ := List.mem_map.mp hpart
      exact (h fl hfl).2
    have hended := splitOn_ended hfree []
    rw [List.append_nil, List.flatMap_map, List.splitOn_nil] at hended
    exact hended
  have hmem : listSeparator ∈ sigFile files := by
    obtain ⟨fl, hfl⟩ := List.exists_mem_of_ne_nil files hfiles
    exact List.mem_flatMap.mpr ⟨fl, hfl, List.mem_append_right _ List.mem_cons_self⟩
  rw [split, if_pos hmem, hpieces, List.rdropWhile_concat_pos _ _ _ (by simp),
    List.rdropWhile_eq_self_iff]
  intro hnames
  obtain ⟨fl, hfl, hlast⟩ := List.mem_map.mp (List.getLast_mem hnames)
  rw [← hlast]
  simpa using (h fl hfl).1

end Texts

section Deleting

variable {rmdir : Rmdir} {tree : Files} {path : List (Component Name)} {loc : List Name}
  {content : Content}

/-- A deletion takes away the node at the end of the path, or nothing; a file that can be
reached is taken away. -/
theorem delete_cases (rmdir : Rmdir) (path : List (Component Name)) (tree : Files) :
    (delete rmdir path tree = tree ∧
        ¬(tree.Walks path ∧ ∃ content, tree.node (normal path) = some (.file content))) ∨
      tree.Walks path ∧
        (delete rmdir path tree).node = Function.update tree.node (normal path) none := by
  by_cases hwalks : tree.Walks path
  · rw [delete, hwalks.locate]
    dsimp only
    cases hnode : tree.node (normal path) with
    | none => exact Or.inl ⟨rfl, fun ⟨_, content, hfile⟩ => by cases hfile⟩
    | some node =>
      cases node with
      | file content =>
        have hroot : normal path ≠ [] := by
          intro hnil
          rw [hnil, tree.root] at hnode
          cases hnode
        exact Or.inr ⟨hwalks, tree.node_remove (tree.empty_of_file hnode) hroot⟩
      | directory =>
        dsimp only
        have hnofile : ¬(tree.Walks path ∧
            ∃ content, some (Node.directory : Node Content) = some (.file content)) :=
          fun ⟨_, content, hfile⟩ => by cases hfile
        split_ifs with hremoved
        · by_cases hroot : normal path = []
          · refine Or.inl ⟨?_, hnofile⟩
            rw [hroot]
            rfl
          · exact Or.inr ⟨hwalks, tree.node_remove (rmdir.empty hremoved) hroot⟩
        · exact Or.inl ⟨rfl, hnofile⟩
  · refine Or.inl ⟨?_, fun h => hwalks h.1⟩
    rw [delete, tree.locate_of_not_walks hwalks]

/-- Nothing else is taken away. -/
theorem node_delete_of_ne (h : loc ≠ normal path) :
    (delete rmdir path tree).node loc = tree.node loc := by
  rcases delete_cases rmdir path tree with ⟨heq, -⟩ | ⟨-, hnode⟩
  · rw [heq]
  · rw [hnode, Function.update_of_ne h]

/-- What is a file behind a deletion was one before, and can not be reached on the path. -/
theorem file_of_delete (h : (delete rmdir path tree).node loc = some (.file content)) :
    tree.node loc = some (.file content) ∧ ¬(tree.Walks path ∧ loc = normal path) := by
  rcases delete_cases rmdir path tree with ⟨heq, hnone⟩ | ⟨-, hnode⟩
  · rw [heq] at h
    refine ⟨h, fun ⟨hwalks, hloc⟩ => hnone ⟨hwalks, content, ?_⟩⟩
    rw [← hloc]
    exact h
  · have hne : loc ≠ normal path := by
      intro heq
      rw [hnode, heq, Function.update_self] at h
      cases h
    rw [hnode, Function.update_of_ne hne] at h
    exact ⟨h, fun hreached => hne hreached.2⟩

/-- No directory is lost where none stands at the end of the path. -/
theorem directory_delete (hfree : tree.node (normal path) ≠ some .directory)
    (h : tree.node loc = some .directory) :
    (delete rmdir path tree).node loc = some .directory := by
  have hne : loc ≠ normal path := fun heq => hfree (heq ▸ h)
  rw [node_delete_of_ne hne]
  exact h

variable {folderPath : List Char} {names : List Name} {name : Name}

/-- What a loop leaves as a file was one before. -/
theorem file_of_deleteFiles
    (h : (deleteFiles rmdir folderPath names tree).node loc = some (.file content)) :
    tree.node loc = some (.file content) := by
  induction names generalizing tree with
  | nil => exact h
  | cons name names ih => exact (file_of_delete (ih h)).1

/-- It takes nothing away but at the ends of its paths. -/
theorem node_deleteFiles_of_ne (h : ∀ name ∈ names, loc ≠ normal (delFile folderPath name)) :
    (deleteFiles rmdir folderPath names tree).node loc = tree.node loc := by
  induction names generalizing tree with
  | nil => rfl
  | cons name names ih =>
    have hrest := @ih (delete rmdir (delFile folderPath name) tree) fun other hother =>
      h other (List.mem_cons_of_mem _ hother)
    exact hrest.trans (node_delete_of_ne (h name List.mem_cons_self))

/-- Where no directory stands at the end of a path, each file that can be reached is
taken away. -/
theorem not_file_deleteFiles
    (hfree : ∀ name ∈ names, tree.node (normal (delFile folderPath name)) ≠ some .directory)
    (hname : name ∈ names) (hwalks : tree.Walks (delFile folderPath name)) :
    (deleteFiles rmdir folderPath names tree).node (normal (delFile folderPath name)) ≠
      some (.file content) := by
  induction names generalizing tree with
  | nil => exact absurd hname List.not_mem_nil
  | cons first names ih =>
    intro hfile
    have hkept : ∀ dir, tree.node dir = some .directory →
        (delete rmdir (delFile folderPath first) tree).node dir = some .directory :=
      fun dir hdir => directory_delete (hfree first List.mem_cons_self) hdir
    rcases List.mem_cons.mp hname with rfl | hrest
    · exact (file_of_delete (file_of_deleteFiles hfile)).2 ⟨hwalks, rfl⟩
    · refine ih (fun other hother hdirectory => ?_) hrest
        (fun dir hdir => hkept dir (hwalks dir hdir)) hfile
      by_cases hsame : normal (delFile folderPath other) = normal (delFile folderPath first)
      · rcases delete_cases rmdir (delFile folderPath first) tree with ⟨heq, -⟩ | ⟨-, hnode⟩
        · rw [heq] at hdirectory
          exact hfree other (List.mem_cons_of_mem _ hother) hdirectory
        · rw [hnode, hsame, Function.update_self] at hdirectory
          cases hdirectory
      · rw [node_delete_of_ne hsame] at hdirectory
        exact hfree other (List.mem_cons_of_mem _ hother) hdirectory

end Deleting

section Runs

variable {folderPath : List Char} {entries : List ZipEntry} {state : UnzipState}
  {later : Files}

/-- A round that ends has put its file behind the others. -/
theorem unzipEntry_files {faults : EntryFaults} {entry : ZipEntry}
    (h : (unzipEntry folderPath faults entry state).1 = true) :
    (unzipEntry folderPath faults entry state).2.files =
      state.files ++ [dstPath folderPath entry] := by
  have hcreated : (createDstFile faults (dstPath folderPath entry) state).2.files =
      state.files := by
    unfold createDstFile createNewFile
    split_ifs
    · rfl
    all_goals
      dsimp only
      split
      · rfl
      · split_ifs <;> rfl
  unfold unzipEntry at h ⊢
  by_cases hunreadable : faults.unreadable = true
  · rw [if_pos hunreadable] at h
    exact absurd h Bool.false_ne_true
  rw [if_neg hunreadable] at h ⊢
  by_cases hreturned : (createDstFile faults (dstPath folderPath entry) state).1 = true
  · rw [unlessThrown_returned hreturned] at h ⊢
    rw [← hcreated]
    generalize (createDstFile faults (dstPath folderPath entry) state).2 = created at h ⊢
    unfold writeDstFile copyContent at h ⊢
    split at h
    · exact absurd h Bool.false_ne_true
    · split_ifs at h ⊢
      cases hends : faults.copyEnds with
      | some count =>
        rw [hends] at h
        exact absurd h Bool.false_ne_true
      | none => rfl
  · rw [unlessThrown_threw hreturned] at h
    exact absurd h hreturned

/-- A run that returns has put the files of all entries there. -/
theorem unzipEntries_files {faults : ℕ → EntryFaults}
    (h : (unzipEntries folderPath faults entries state).1 = true) :
    (unzipEntries folderPath faults entries state).2.files =
      state.files ++ entries.map (dstPath folderPath) := by
  induction entries generalizing faults state with
  | nil => exact (List.append_nil _).symm
  | cons entry entries ih =>
    by_cases hround : (unzipEntry folderPath (faults 0) entry state).1 = true
    · rw [unzipEntries, unlessThrown_returned hround] at h ⊢
      rw [ih h, unzipEntry_files hround, List.append_assoc]
      rfl
    · rw [unzipEntries, unlessThrown_threw hround] at h
      exact absurd h hround

/-- It takes nothing away. -/
theorem unzipEntries_grows (folderPath : List Char) (faults : ℕ → EntryFaults)
    (entries : List ZipEntry) (state : UnzipState) :
    Grows state.tree (unzipEntries folderPath faults entries state).2.tree := by
  induction entries generalizing faults state with
  | nil => exact Grows.refl state.tree
  | cons entry entries ih =>
    have hround := (unzipEntry_spec folderPath (faults 0) entry state).1.grows
    by_cases hreturned : (unzipEntry folderPath (faults 0) entry state).1 = true
    · rw [unzipEntries, unlessThrown_returned hreturned]
      exact hround.trans (ih _ _)
    · rw [unzipEntries, unlessThrown_threw hreturned]
      exact hround

/-- What a restart finds: the files that were kept are those of the entries, they still
stand, and so does the folder. -/
theorem Restarted.found (h : Restarted folderPath entries state later) :
    state.files = entries.map (dstPath folderPath) ∧
      (∀ entry ∈ entries, Written later (dstPath folderPath entry)) ∧
      later.node (normal (file folderPath)) = some .directory := by
  obtain ⟨⟨faults, tree, hfolder, hrun⟩, hgrows⟩ := h
  unfold unzipFile at hrun
  have hmade : Grows tree (if tree.exists (file folderPath) then tree
      else mkdirs faults.mkdirFails (file folderPath) tree) := by
    split_ifs
    · exact Grows.refl tree
    · exact (mkdirs_spec _ _ _).1
  dsimp only at hrun
  generalize (if tree.exists (file folderPath) then tree
      else mkdirs faults.mkdirFails (file folderPath) tree) = made at hrun hmade
  split_ifs at hrun with hzip
  · exact absurd (congrArg Prod.fst hrun) Bool.false_ne_true
  have hreturned : (unzipEntries folderPath faults.entry entries ⟨made, [], []⟩).1 = true := by
    rw [hrun]
  have hstart : ∀ other ∈ ([] : List ZipEntry), Written made (dstPath folderPath other) :=
    fun _ hmem => absurd hmem List.not_mem_nil
  have hfiles := unzipEntries_files hreturned
  have hwritten := @unzipEntries_written folderPath entries [] ⟨made, [], []⟩ faults.entry
    hstart hreturned
  have hkept := unzipEntries_grows folderPath faults.entry entries ⟨made, [], []⟩
  rw [hrun] at hfiles hwritten hkept
  exact ⟨hfiles, fun entry hentry => (hwritten entry hentry).grows hgrows,
    hgrows.directory (hkept.directory (hmade.directory hfolder))⟩

end Runs

section Names

variable {folderPath : List Char} {entry : ZipEntry} {name : Name}
  {rest path : List (Component Name)} {tree : Files}

/-- The name of a file is what `File` takes for one. -/
theorem plain_of_file {text : List Char} (h : file text = .down name :: rest) :
    Plain name ∧ separator ∉ name := by
  have hmem : Component.down name ∈ file text := by
    rw [h]
    exact List.mem_cons_self
  rw [file, List.mem_reverse] at hmem
  obtain ⟨piece, hpiece, hcomponent⟩ := List.mem_map.mp hmem
  obtain ⟨hsplit, hempty⟩ := List.mem_filter.mp hpiece
  rw [component] at hcomponent
  split_ifs at hcomponent with hhere hup
  cases hcomponent
  exact ⟨⟨of_decide_eq_true hempty, hhere, hup⟩, (mem_splitOn hsplit).1⟩

/-- The path of a written file ends with its name, in a directory. -/
theorem written_head (h : Written tree path) :
    ∃ name rest, path = .down name :: rest ∧ tree.node (normal rest) = some .directory := by
  obtain ⟨content, hfile⟩ := h.isFile
  cases path with
  | nil => exact absurd (hfile.symm.trans tree.root) (by simp)
  | cons component rest =>
    have hdirectory : tree.node (normal rest) = some .directory := h.walks _ List.mem_cons_self
    cases component with
    | up =>
      have habove := tree.directory_suffix hdirectory (List.tail_suffix _)
      exact absurd (hfile.symm.trans habove) (by simp)
    | here => exact absurd (hfile.symm.trans hdirectory) (by simp)
    | down name => exact ⟨name, rest, rfl, hdirectory⟩

theorem delFile_eq (folderPath : List Char) (name : Name) :
    delFile folderPath name = file name ++ file folderPath := dstPath_eq folderPath ⟨name, []⟩

/-- A plain name is looked for in the folder. -/
theorem delFile_of_plain (hplain : Plain name) (hseparator : separator ∉ name) :
    delFile folderPath name = .down name :: file folderPath := by
  have hfile : file name = [.down name] := by
    rw [file_of_plain, List.splitOn_eq_singleton hseparator]
    · rfl
    · rw [List.splitOn_eq_singleton hseparator]
      exact fun piece hpiece => List.mem_singleton.mp hpiece ▸ hplain
  rw [delFile_eq, hfile]
  rfl

/-- Any other one leads to the folder or out of it. -/
theorem normal_delFile (hseparator : separator ∉ name) :
    normal (delFile folderPath name) <:+ normal (file folderPath) ∨
      normal (delFile folderPath name) = name :: normal (file folderPath) := by
  rw [delFile_eq, file, List.splitOn_eq_singleton hseparator]
  by_cases hempty : name = []
  · subst hempty
    exact Or.inl List.suffix_rfl
  · rw [List.filter_cons_of_pos (by simpa using hempty), List.filter_nil, List.map_singleton,
      List.reverse_singleton, component]
    split_ifs
    · exact Or.inl List.suffix_rfl
    · exact Or.inl (List.tail_suffix _)
    · exact Or.inr rfl

/-- The file of a listed entry is looked for where it has been unpacked to. -/
theorem normal_delFile_getName (hlisted : Listed folderPath entry)
    (hwritten : Written tree (dstPath folderPath entry)) :
    Plain (getName (dstPath folderPath entry)) ∧
      delFile folderPath (getName (dstPath folderPath entry)) =
        .down (getName (dstPath folderPath entry)) :: file folderPath ∧
      normal (delFile folderPath (getName (dstPath folderPath entry))) =
        normal (dstPath folderPath entry) := by
  obtain ⟨name, rest, hdst, -⟩ := written_head hwritten
  obtain ⟨hplain, hseparator⟩ := plain_of_file hdst
  have hfolder := hlisted.inFolder
  rw [hdst] at hfolder ⊢
  have hpath := @delFile_of_plain folderPath name hplain hseparator
  refine ⟨hplain, hpath, ?_⟩
  rw [getName, hpath]
  exact congrArg (name :: ·) hfolder.symm

end Names

section CleanUp

variable {folderPath : List Char} {entries : List ZipEntry} {state : UnzipState}
  {later : Files} {rmdir : Rmdir} {prefs : Preferences}

/-- The names that are kept hold no separator of a path. -/
theorem separator_not_mem_of_split (hfiles : state.files = entries.map (dstPath folderPath))
    (hwritten : ∀ entry ∈ entries, Written later (dstPath folderPath entry)) {piece : Name}
    (hpiece : piece ∈ split (sigFile state.files)) : separator ∉ piece := by
  intro hmem
  obtain ⟨fl, hfl, hname⟩ := List.mem_flatMap.mp ((mem_split hpiece).2 _ hmem)
  rw [hfiles] at hfl
  obtain ⟨other, hother, rfl⟩ := List.mem_map.mp hfl
  obtain ⟨last, way, hpath, -⟩ := written_head (hwritten other hother)
  rw [hpath, getName] at hname
  rcases List.mem_append.mp hname with hlast | hlist
  · exact (plain_of_file hpath).2 hlast
  · exact absurd (List.mem_singleton.mp hlist) (by decide)

/-- Where the clean-up takes the unpacked files away, each was a file of the folder
itself, and its name has no semicolon. -/
theorem listed_of_cleansUp (h : Restarted folderPath entries state later)
    (hclean : CleansUp rmdir folderPath entries prefs state later) :
    ∀ entry ∈ entries, Listed folderPath entry := by
  obtain ⟨hfiles, hwritten, hfolder⟩ := h.found
  intro entry hentry
  obtain ⟨name, rest, hdst, -⟩ := written_head (hwritten entry hentry)
  obtain ⟨content, hfile⟩ := (hwritten entry hentry).isFile
  -- it has been taken away by one of the deletions
  obtain ⟨piece, hpiece, hloc⟩ : ∃ piece ∈ split (sigFile state.files),
      normal (dstPath folderPath entry) = normal (delFile folderPath piece) := by
    by_contra hnone
    have hkept := @node_deleteFiles_of_ne rmdir later _ folderPath
      (split (sigFile state.files)) fun piece hpiece hloc => hnone ⟨piece, hpiece, hloc⟩
    exact ((hclean _ content).mp (hkept.trans hfile)).2 entry hentry rfl
  have hseparator := separator_not_mem_of_split hfiles hwritten hpiece
  rcases normal_delFile hseparator with habove | hbelow
  · rw [← hloc] at habove
    exact absurd (hfile.symm.trans (later.directory_suffix hfolder habove)) (by simp)
  · rw [hbelow] at hloc
    have hname : name = piece := by
      rw [hdst] at hloc
      exact (List.cons.inj hloc).1
    refine ⟨by rw [hloc, List.tail_cons], ?_⟩
    rw [hdst, getName, hname]
    exact (mem_split hpiece).1

/-- Names of listed entries come back as they were kept. -/
theorem split_of_listed (hfiles : state.files = entries.map (dstPath folderPath))
    (hwritten : ∀ entry ∈ entries, Written later (dstPath folderPath entry))
    (hlisted : ∀ entry ∈ entries, Listed folderPath entry) (hsome : entries ≠ []) :
    split (sigFile state.files) =
      entries.map fun entry => getName (dstPath folderPath entry) := by
  rw [hfiles, split_sigFile, List.map_map]
  · rfl
  · exact fun hnil => hsome (List.map_eq_nil_iff.mp hnil)
  · intro fl hfl
    obtain ⟨entry, hentry, rfl⟩ := List.mem_map.mp hfl
    have hplain := (normal_delFile_getName (hlisted entry hentry) (hwritten entry hentry)).1
    exact ⟨hplain.1, (hlisted entry hentry).noSeparator⟩

/-- What is looked for are the files of the entries. -/
theorem normal_delFile_of_listed (hfiles : state.files = entries.map (dstPath folderPath))
    (hwritten : ∀ entry ∈ entries, Written later (dstPath folderPath entry))
    (hlisted : ∀ entry ∈ entries, Listed folderPath entry) (hsome : entries ≠ [])
    {piece : Name} (hpiece : piece ∈ split (sigFile state.files)) :
    ∃ entry ∈ entries,
      normal (delFile folderPath piece) = normal (dstPath folderPath entry) := by
  rw [split_of_listed hfiles hwritten hlisted hsome] at hpiece
  obtain ⟨entry, hentry, rfl⟩ := List.mem_map.mp hpiece
  exact ⟨entry, hentry,
    (normal_delFile_getName (hlisted entry hentry) (hwritten entry hentry)).2.2⟩

/-- The file of a listed entry does not stay. -/
theorem taken_of_listed (h : Restarted folderPath entries state later)
    (hlisted : ∀ entry ∈ entries, Listed folderPath entry) {entry : ZipEntry}
    (hentry : entry ∈ entries) (content : Content) :
    (deleteFiles rmdir folderPath (split (sigFile state.files)) later).node
      (normal (dstPath folderPath entry)) ≠ some (.file content) := by
  obtain ⟨hfiles, hwritten, hfolder⟩ := h.found
  have hsome : entries ≠ [] := List.ne_nil_of_mem hentry
  obtain ⟨-, hdel, hnormal⟩ :=
    normal_delFile_getName (hlisted entry hentry) (hwritten entry hentry)
  have hwalks : later.Walks (delFile folderPath (getName (dstPath folderPath entry))) := by
    intro dir hdir
    rw [hdel] at hdir
    rcases List.mem_cons.mp hdir with rfl | hpassed
    · exact hfolder
    · have hall := (hwritten entry hentry).walks
      rw [dstPath_eq] at hall
      exact hall dir (passed_subset_append _ _ dir hpassed)
  rw [← hnormal]
  refine not_file_deleteFiles (fun piece hpiece hdirectory => ?_) ?_ hwalks
  · obtain ⟨other, hother, hsame⟩ :=
      normal_delFile_of_listed hfiles hwritten hlisted hsome hpiece
    obtain ⟨written, hthere⟩ := (hwritten other hother).isFile
    rw [hsame, hthere] at hdirectory
    cases hdirectory
  · rw [split_of_listed hfiles hwritten hlisted hsome]
    exact List.mem_map_of_mem hentry

/-- Any other file does. -/
theorem kept_of_listed (h : Restarted folderPath entries state later)
    (hlisted : ∀ entry ∈ entries, Listed folderPath entry) {loc : List Name}
    {content : Content} (hfile : later.node loc = some (.file content))
    (hother : ∀ entry ∈ entries, loc ≠ normal (dstPath folderPath entry)) :
    (deleteFiles rmdir folderPath (split (sigFile state.files)) later).node loc =
      some (.file content) := by
  obtain ⟨hfiles, hwritten, hfolder⟩ := h.found
  refine (node_deleteFiles_of_ne fun piece hpiece hloc => ?_).trans hfile
  by_cases hsome : entries = []
  · -- the empty text is one empty name, which stands for the folder
    subst hsome
    rw [hfiles] at hpiece
    obtain rfl : piece = [] := List.mem_singleton.mp hpiece
    have hroot : normal (delFile folderPath []) = normal (file folderPath) := by
      rw [delFile_eq]
      rfl
    rw [hloc, hroot, hfolder] at hfile
    cases hfile
  · obtain ⟨entry, hentry, hsame⟩ :=
      normal_delFile_of_listed hfiles hwritten hlisted hsome hpiece
    exact hother entry hentry (hloc.trans hsame)

/-- The clean-up takes listed files away, and no others. -/
theorem cleansUp_of_listed (h : Restarted folderPath entries state later)
    (hlisted : ∀ entry ∈ entries, Listed folderPath entry) :
    CleansUp rmdir folderPath entries prefs state later := by
  intro loc content
  constructor
  · intro hfile
    refine ⟨file_of_deleteFiles hfile, fun entry hentry hloc => ?_⟩
    rw [hloc] at hfile
    exact taken_of_listed h hlisted hentry content hfile
  · rintro ⟨hfile, hother⟩
    exact kept_of_listed h hlisted hfile hother

/-- For names without empty pieces and dots: an entry is listed if and only if its name
has neither kind of separator. -/
theorem listed_iff_of_plain {entry : ZipEntry} (hfile : entry.isDirectory = false)
    (hplain : ∀ piece ∈ pieces entry, Plain piece) :
    Listed folderPath entry ↔ separator ∉ entry.name ∧ listSeparator ∉ entry.name := by
  have hpieces : pieces entry = entry.name.splitOn separator := by
    rw [pieces, hfile, if_neg Bool.false_ne_true]
  have hdst : separator ∉ entry.name →
      dstPath folderPath entry = .down entry.name :: file folderPath := by
    intro hfree
    rw [dstPath_of_plain hplain, hpieces, List.splitOn_eq_singleton hfree]
    rfl
  constructor
  · rintro ⟨hfolder, hname⟩
    have hlength := congrArg List.length hfolder
    rw [normal_dstPath hplain, location, List.length_tail, List.length_append,
      List.length_reverse] at hlength
    have hsome : (pieces entry).length ≠ 0 := by
      rw [hpieces]
      exact fun h => List.splitOn_ne_nil _ _ (List.length_eq_zero_iff.mp h)
    obtain ⟨piece, hone⟩ := List.length_eq_one_iff.mp (by omega : (pieces entry).length = 1)
    rw [hpieces] at hone
    have hjoined : [separator].intercalate (entry.name.splitOn separator) = entry.name :=
      List.intercalate_splitOn _
    have hfree : separator ∉ piece := (mem_splitOn (hone ▸ List.mem_singleton_self piece)).1
    have heq : entry.name = piece := by
      rw [hone] at hjoined
      simpa using hjoined.symm
    rw [← heq] at hfree
    rw [hdst hfree, getName] at hname
    exact ⟨hfree, hname⟩
  · rintro ⟨hfree, hname⟩
    refine ⟨?_, ?_⟩
    · rw [hdst hfree]
      rfl
    · rw [hdst hfree]
      exact hname

/-- Split again, the kept names make the clean-up take away the unpacked files and no
others, if and only if every entry is a file of the folder itself and has a name without
a semicolon. -/
theorem cleansUp_iff (h : Restarted folderPath entries state later) (rmdir : Rmdir)
    (prefs : Preferences) :
    CleansUp rmdir folderPath entries prefs state later ↔
      ∀ entry ∈ entries, Listed folderPath entry :=
  ⟨listed_of_cleansUp h, cleansUp_of_listed h⟩

end CleanUp

/-- A device that keeps its directories. -/
def keepingRmdir : Rmdir := ⟨fun _ _ => false, fun h => absurd h Bool.false_ne_true⟩

/-- What is left when the archive has been unpacked into an empty folder. -/
def unpackedState (entries : List ZipEntry) : UnzipState :=
  (unzipFile "/ota".toList entries noFaults (.ofDirectories [["ota".toList]])).2

/-- A restart comes right behind it. -/
theorem restarted_emptyFolder {entries : List ZipEntry}
    (h : (unzipFile "/ota".toList entries noFaults (.ofDirectories [["ota".toList]])).1 = true) :
    Restarted "/ota".toList entries (unpackedState entries) (unpackedState entries).tree where
  unpacked := ⟨noFaults, .ofDirectories [["ota".toList]],
    node_ofDirectories List.mem_cons_self, Prod.ext h rfl⟩
  grows := Grows.refl _

/-- Two files, the second with this name. -/
def twoFiles (name : List Char) : List ZipEntry := [⟨"rc.hex".toList, [1]⟩, ⟨name, [2, 3]⟩]

/-- Both are taken away, unless the name of one comes apart. -/
theorem cleansUp_iff_twoFiles :
    CleansUp keepingRmdir "/ota".toList (twoFiles "rf.hex".toList) ⟨none, none⟩
        (unpackedState (twoFiles "rf.hex".toList))
        (unpackedState (twoFiles "rf.hex".toList)).tree ∧
      ¬CleansUp keepingRmdir "/ota".toList (twoFiles "r;f.hex".toList) ⟨none, none⟩
        (unpackedState (twoFiles "r;f.hex".toList))
        (unpackedState (twoFiles "r;f.hex".toList)).tree := by
  constructor
  · refine (cleansUp_iff (restarted_emptyFolder (by decide)) keepingRmdir ⟨none, none⟩).mpr ?_
    intro entry hentry
    rcases List.mem_pair.mp hentry with rfl | rfl
    · exact ⟨by decide, by decide⟩
    · exact ⟨by decide, by decide⟩
  · intro hclean
    have hlisted := (cleansUp_iff (restarted_emptyFolder (by decide)) keepingRmdir ⟨none, none⟩).mp
      hclean _ (List.mem_cons_of_mem _ List.mem_cons_self)
    exact absurd hlisted.noSeparator (by decide)

/-- A file that was unpacked into a directory of the folder is left there. -/
theorem not_cleansUp_nested :
    ∃ state, Restarted "/ota".toList [⟨"robot/rc.hex".toList, [1]⟩] state state.tree ∧
      ¬CleansUp keepingRmdir "/ota".toList [⟨"robot/rc.hex".toList, [1]⟩] ⟨none, none⟩
        state state.tree := by
  refine ⟨_, restarted_emptyFolder (by decide), fun hclean => ?_⟩
  have hlisted := listed_of_cleansUp (restarted_emptyFolder (by decide)) hclean _
    List.mem_cons_self
  exact absurd hlisted.inFolder (by decide)

end RobotOta.UnzipCleanup
