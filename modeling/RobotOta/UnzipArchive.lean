import RobotOta.UnzipTree

/-!
# Which archives are unpacked faithfully

The entries of an archive as a tree of names, and what it means that unpacking
them leaves exactly this tree. `unzipFile` does so for files; an entry that is
a directory becomes a file.
-/

namespace RobotOta.UnzipArchive

open FileTree UnzipFile UnzipTree

/-- A name that a directory can hold. -/
def Plain (piece : Name) : Prop := piece ≠ [] ∧ piece ≠ ['.'] ∧ piece ≠ ['.', '.']

/-- The names on the way to an entry, outermost first. -/
def pieces (entry : ZipEntry) : List Name :=
  (if entry.isDirectory then entry.name.dropLast else entry.name).splitOn separator

/-- Where an entry belongs in a folder. -/
def location (folderPath : List Char) (entry : ZipEntry) : List Name :=
  (pieces entry).reverse ++ normal (file folderPath)

/-- The entries form a tree: they have plain names, the files different ones,
and nothing stands in or at the place of a file but this file. -/
structure ValidTree (entries : List ZipEntry) : Prop where
  /-- Names are made of plain pieces. -/
  plain : ∀ entry ∈ entries, ∀ piece ∈ pieces entry, Plain piece
  /-- No two files have one name. -/
  distinct : entries.Pairwise fun first second =>
    first.isDirectory = false → second.isDirectory = false → first.name ≠ second.name
  /-- Nothing lies below a file. -/
  nested : ∀ first ∈ entries, first.isDirectory = false → ∀ second ∈ entries,
    pieces first <+: pieces second →
      second.isDirectory = false ∧ pieces second = pieces first

/-- The folder is there and holds nothing. -/
structure EmptyFolder (folderPath : List Char) (tree : Files) : Prop where
  walks : tree.Walks (file folderPath)
  directory : tree.node (normal (file folderPath)) = some .directory
  empty : ∀ name, tree.node (name :: normal (file folderPath)) = none

/-- Every entry stands at its place, and nothing changed but on the way to one. -/
structure LeavesTree (folderPath : List Char) (entries : List ZipEntry) (tree after : Files) :
    Prop where
  entry : ∀ entry ∈ entries, after.node (location folderPath entry) =
    some (if entry.isDirectory then .directory else .file entry.content)
  only : ∀ loc, after.node loc ≠ tree.node loc →
    normal (file folderPath) <:+ loc ∧ ∃ entry ∈ entries, loc <:+ location folderPath entry

/-- Unpacked into an empty folder without faults, a valid tree is what is left. -/
def Faithful (folderPath : List Char) (entries : List ZipEntry) : Prop :=
  ValidTree entries → ∀ tree, EmptyFolder folderPath tree →
    ∃ state, unzipFile folderPath entries noFaults tree = (true, state) ∧
      LeavesTree folderPath entries tree state.tree

/-- The folder's path does not lead through something in the folder, as `/sd/..`
would: otherwise it is never empty. -/
def Emptiable (folderPath : List Char) : Prop :=
  ∀ name, name :: normal (file folderPath) ∉ passed (file folderPath)

section Pieces

variable {folderPath : List Char} {entry : ZipEntry}

/-- A path of plain pieces is walked by their names. -/
theorem file_of_plain {text : List Char}
    (hplain : ∀ piece ∈ text.splitOn separator, Plain piece) :
    file text = (text.splitOn separator).reverse.map .down := by
  have hkept : (text.splitOn separator).filter (· ≠ []) = text.splitOn separator :=
    List.filter_eq_self.mpr fun piece hpiece => decide_eq_true (hplain piece hpiece).1
  have hnames : (text.splitOn separator).map component =
      (text.splitOn separator).map .down := by
    apply List.map_congr_left
    intro piece hpiece
    rw [component, if_neg (hplain piece hpiece).2.1, if_neg (hplain piece hpiece).2.2]
  rw [file, hkept, hnames, List.map_reverse]

/-- A separator at the end of a path makes no difference. -/
theorem file_append_separator (text : List Char) : file (text ++ [separator]) = file text := by
  have hsplit : (text ++ [separator]).splitOn separator = text.splitOn separator ++ [[]] :=
    List.splitOn_append_cons_self text []
  rw [file, hsplit, List.filter_append]
  simp [file]

/-- An entry with plain names is unpacked to where it belongs. -/
theorem dstPath_of_plain (hplain : ∀ piece ∈ pieces entry, Plain piece) :
    dstPath folderPath entry = under (pieces entry).reverse (file folderPath) := by
  rw [dstPath_eq, under]
  congr 1
  unfold pieces at hplain ⊢
  by_cases hdirectory : entry.isDirectory = true
  · have hlast : entry.name.getLast? = some separator := of_decide_eq_true hdirectory
    rw [if_pos hdirectory] at hplain ⊢
    have hname : entry.name = entry.name.dropLast ++ [separator] :=
      (List.dropLast_append_getLast? separator hlast).symm
    calc file entry.name = file (entry.name.dropLast ++ [separator]) := congrArg file hname
      _ = file entry.name.dropLast := file_append_separator _
      _ = _ := file_of_plain hplain
  · rw [if_neg hdirectory] at hplain ⊢
    exact file_of_plain hplain

/-- Where that is. -/
theorem normal_dstPath (hplain : ∀ piece ∈ pieces entry, Plain piece) :
    normal (dstPath folderPath entry) = location folderPath entry := by
  rw [dstPath_of_plain hplain, normal_under]
  rfl

/-- The pieces of a file give its name back. -/
theorem name_of_pieces {first second : ZipEntry} (hfirst : first.isDirectory = false)
    (hsecond : second.isDirectory = false) (h : pieces first = pieces second) :
    first.name = second.name := by
  simp only [pieces, hfirst, hsecond, Bool.false_eq_true, if_false] at h
  have hjoined := congrArg (List.intercalate [separator]) h
  rwa [List.intercalate_splitOn, List.intercalate_splitOn] at hjoined

/-- One entry belongs above another where its names begin the other's. -/
theorem location_suffix_iff {first second : ZipEntry} :
    location folderPath first <:+ location folderPath second ↔
      pieces first <+: pieces second := by
  unfold location
  rw [← List.reverse_suffix]
  constructor
  · rintro ⟨above, habove⟩
    rw [← List.append_assoc] at habove
    exact ⟨above, List.append_cancel_right habove⟩
  · rintro ⟨above, habove⟩
    exact ⟨above, by rw [← List.append_assoc, habove]⟩

end Pieces

section Rounds

variable {folderPath : List Char} {tree : Files} {state : UnzipState}
  {done later : List ZipEntry} {entry : ZipEntry}

/-- Nothing stands in an empty folder, at no depth. -/
theorem EmptyFolder.node_eq_none (hempty : EmptyFolder folderPath tree) {loc : List Name}
    (habove : normal (file folderPath) <:+ loc) (hne : loc ≠ normal (file folderPath)) :
    tree.node loc = none := tree.node_below hempty.empty habove hne

/-- What a run put into the folder lies on the way to an entry. -/
theorem LeavesTree.on_way (hleaves : LeavesTree folderPath done tree state.tree)
    (hempty : EmptyFolder folderPath tree) {loc : List Name}
    (habove : normal (file folderPath) <:+ loc) (hne : loc ≠ normal (file folderPath))
    (hnode : state.tree.node loc ≠ none) :
    ∃ other ∈ done, loc <:+ location folderPath other := by
  have hchanged : state.tree.node loc ≠ tree.node loc := by
    rwa [hempty.node_eq_none habove hne]
  exact (hleaves.only loc hchanged).2

/-- The place of the next file is free. -/
theorem place_free (hvalid : ValidTree (done ++ entry :: later))
    (hfiles : ∀ other ∈ done ++ entry :: later, other.isDirectory = false)
    (hempty : EmptyFolder folderPath tree)
    (hleaves : LeavesTree folderPath done tree state.tree) :
    state.tree.node (location folderPath entry) = none := by
  have hmem : entry ∈ done ++ entry :: later := by simp
  have habove : normal (file folderPath) <:+ location folderPath entry :=
    List.suffix_append _ _
  have hne : location folderPath entry ≠ normal (file folderPath) := by
    intro heq
    have hnil : (pieces entry).reverse = [] := List.append_left_eq_self.mp heq
    exact List.splitOn_ne_nil _ _ (List.reverse_eq_nil_iff.mp hnil)
  by_contra hnode
  obtain ⟨other, hother, hsuffix⟩ := hleaves.on_way hempty habove hne hnode
  have hall : other ∈ done ++ entry :: later := List.mem_append_left _ hother
  have hpieces := (hvalid.nested entry hmem (hfiles entry hmem) other hall
    (location_suffix_iff.mp hsuffix)).2
  have hnames := name_of_pieces (hfiles other hall) (hfiles entry hmem) hpieces
  have hdistinct := (List.pairwise_append.mp hvalid.distinct).2.2 other hother entry
    List.mem_cons_self
  exact hdistinct (hfiles other hall) (hfiles entry hmem) hnames

/-- No file is in the way to it. -/
theorem way_free (hvalid : ValidTree (done ++ entry :: later))
    (hfiles : ∀ other ∈ done ++ entry :: later, other.isDirectory = false)
    (hempty : EmptyFolder folderPath tree) (hgrows : Grows tree state.tree)
    (hleaves : LeavesTree folderPath done tree state.tree) {name : Name} {names : List Name}
    (hnames : (pieces entry).reverse = name :: names) (loc : List Name) (content : Content)
    (hbetween : Between (file folderPath) names loc) :
    state.tree.node loc ≠ some (.file content) := by
  intro hfile
  have hne : loc ≠ normal (file folderPath) := by
    intro heq
    have hdirectory := hgrows.directory hempty.directory
    rw [← heq, hfile] at hdirectory
    exact absurd hdirectory (by simp)
  obtain ⟨other, hother, hsuffix⟩ := hleaves.on_way hempty hbetween.1 hne (by simp [hfile])
  have hall : other ∈ done ++ entry :: later := List.mem_append_left _ hother
  have hthere := hleaves.entry other hother
  have heq : loc = location folderPath other := by
    by_contra hnot
    have hdirectory := state.tree.directory_above (Option.isSome_of_eq_some hthere) hsuffix hnot
    exact absurd (hfile.symm.trans hdirectory) (by simp)
  have hentry : location folderPath entry = name :: (names ++ normal (file folderPath)) := by
    rw [location, hnames, List.cons_append]
  have habove : location folderPath other <:+ location folderPath entry := by
    rw [← heq, hentry]
    exact hbetween.2.trans (List.suffix_cons _ _)
  have hpieces := (hvalid.nested other hall (hfiles other hall) entry (by simp)
    (location_suffix_iff.mp habove)).2
  -- so the file would stand at the place of the entry, below the way to it
  have hlength : loc.length ≤ (names ++ normal (file folderPath)).length :=
    hbetween.2.length_le
  rw [heq, location, ← hpieces, ← location, hentry, List.length_cons] at hlength
  omega

/-- One file more, with the directories on the way to it. -/
theorem leavesTree_append {made after : Files} {name : Name} {names : List Name}
    (hdone : ∀ other ∈ done, other.isDirectory = false) (hentry : entry.isDirectory = false)
    (hleaves : LeavesTree folderPath done tree state.tree)
    (hloc : location folderPath entry = name :: names ++ normal (file folderPath))
    (hplace : state.tree.node (location folderPath entry) = none)
    (hway : ∀ loc content, Between (file folderPath) names loc →
      state.tree.node loc ≠ some (.file content))
    (houtside : ∀ loc, ¬Between (file folderPath) names loc →
      made.node loc = state.tree.node loc)
    (hnode : after.node = Function.update made.node (location folderPath entry)
      (some (.file entry.content))) :
    LeavesTree folderPath (done ++ [entry]) tree after where
  entry other hother := by
    rw [hnode]
    rcases List.mem_append.mp hother with hmem | hmem
    · have hthere := hleaves.entry other hmem
      rw [hdone other hmem] at hthere
      have hne : location folderPath other ≠ location folderPath entry := by
        intro heq
        rw [heq, hplace] at hthere
        exact absurd hthere (by simp)
      have hnot : ¬Between (file folderPath) names (location folderPath other) :=
        fun hbetween => hway _ _ hbetween hthere
      rw [Function.update_of_ne hne, houtside _ hnot, hdone other hmem]
      exact hthere
    · rw [List.mem_singleton.mp hmem, Function.update_self, hentry]
      rfl
  only loc hchanged := by
    rw [hnode] at hchanged
    by_cases heq : loc = location folderPath entry
    · exact ⟨heq ▸ List.suffix_append _ _, entry, by simp, heq ▸ List.suffix_refl _⟩
    rw [Function.update_of_ne heq] at hchanged
    by_cases hbetween : Between (file folderPath) names loc
    · have hbelow : loc <:+ location folderPath entry :=
        hloc ▸ hbetween.2.trans (List.suffix_cons _ _)
      exact ⟨hbetween.1, entry, by simp, hbelow⟩
    · rw [houtside loc hbetween] at hchanged
      obtain ⟨habove, other, hother, hsuffix⟩ := hleaves.only loc hchanged
      exact ⟨habove, other, List.mem_append_left _ hother, hsuffix⟩

/-- The round of a file leaves the tree of one entry more. -/
theorem unzipEntry_leaves (hvalid : ValidTree (done ++ entry :: later))
    (hfiles : ∀ other ∈ done ++ entry :: later, other.isDirectory = false)
    (hempty : EmptyFolder folderPath tree) (hgrows : Grows tree state.tree)
    (hleaves : LeavesTree folderPath done tree state.tree) :
    ∃ after, unzipEntry folderPath noEntryFaults entry state = (true, after) ∧
      Grows tree after.tree ∧ LeavesTree folderPath (done ++ [entry]) tree after.tree := by
  have hmem : entry ∈ done ++ entry :: later := by simp
  have hplace := place_free hvalid hfiles hempty hleaves
  cases hnames : (pieces entry).reverse with
  | nil => exact absurd (List.reverse_eq_nil_iff.mp hnames) (List.splitOn_ne_nil _ _)
  | cons name names =>
    have hway := way_free hvalid hfiles hempty hgrows hleaves hnames
    have hdst : dstPath folderPath entry = under (name :: names) (file folderPath) := by
      rw [dstPath_of_plain (hvalid.plain entry hmem), hnames]
    have hloc : location folderPath entry = name :: names ++ normal (file folderPath) := by
      rw [location, hnames]
    have hwalks := hempty.walks.grows hgrows
    obtain ⟨hinside, houtside⟩ :=
      node_mkdirs hwalks (hgrows.directory hempty.directory) hway
    have hmade := (mkdirs_spec (fun _ => false) (under names (file folderPath)) state.tree).1
    have hfree : (mkdirs (fun _ => false) (under names (file folderPath)) state.tree).node
        (location folderPath entry) = none := by
      rw [hloc, houtside _ (not_between_cons name names _), ← hloc, hplace]
    obtain ⟨after, hcall, hnode, -⟩ := unzipEntry_noFaults folderPath entry hdst
      (walks_under (hwalks.grows hmade) hinside)
      (by rw [normal_under, ← hloc]; exact fun h => absurd (hfree.symm.trans h) (by simp))
    have hspec := (unzipEntry_spec folderPath noEntryFaults entry state).1.grows
    rw [hcall] at hspec
    rw [normal_under, ← hloc] at hnode
    have hdone : ∀ other ∈ done, other.isDirectory = false :=
      fun other hother => hfiles other (List.mem_append_left _ hother)
    exact ⟨after, hcall, hgrows.trans hspec,
      leavesTree_append hdone (hfiles entry hmem) hleaves hloc hplace hway houtside hnode⟩

/-- Without directory entries, the rounds leave the whole tree. -/
theorem unzipEntries_leaves (hvalid : ValidTree (done ++ later))
    (hfiles : ∀ other ∈ done ++ later, other.isDirectory = false)
    (hempty : EmptyFolder folderPath tree) (hgrows : Grows tree state.tree)
    (hleaves : LeavesTree folderPath done tree state.tree) :
    ∃ after, unzipEntries folderPath (fun _ => noEntryFaults) later state = (true, after) ∧
      LeavesTree folderPath (done ++ later) tree after.tree := by
  induction later generalizing done state with
  | nil => exact ⟨state, rfl, by rwa [List.append_nil]⟩
  | cons entry later ih =>
    obtain ⟨between, hcall, hgrows', hleaves'⟩ :=
      unzipEntry_leaves hvalid hfiles hempty hgrows hleaves
    have hsplit : done ++ entry :: later = done ++ [entry] ++ later := List.append_cons _ _ _
    rw [hsplit] at hvalid hfiles ⊢
    rw [unzipEntries, hcall, unlessThrown_returned rfl]
    exact ih hvalid hfiles hgrows' hleaves'

end Rounds

section Archives

variable {folderPath : List Char} {entries : List ZipEntry}

/-- A valid tree without directory entries is unpacked faithfully. -/
theorem faithful_of_files (h : ∀ entry ∈ entries, entry.isDirectory = false) :
    Faithful folderPath entries := by
  intro hvalid tree hempty
  have hexists : tree.exists (file folderPath) = true :=
    tree.exists_iff.mpr ⟨hempty.walks, Option.isSome_of_eq_some hempty.directory⟩
  have hnothing : LeavesTree folderPath [] tree tree :=
    ⟨fun _ hmem => absurd hmem List.not_mem_nil, fun _ hchanged => absurd rfl hchanged⟩
  obtain ⟨after, hrun, hleaves⟩ := @unzipEntries_leaves folderPath tree ⟨tree, [], []⟩ []
    entries hvalid h hempty (Grows.refl tree) hnothing
  refine ⟨after, ?_, hleaves⟩
  unfold unzipFile
  simp only [if_pos hexists]
  exact hrun

/-- A folder that can be empty is, in some tree. -/
theorem exists_emptyFolder (h : Emptiable folderPath) : ∃ tree, EmptyFolder folderPath tree := by
  refine ⟨.ofDirectories (normal (file folderPath) :: passed (file folderPath)),
    fun dir hdir => node_ofDirectories (List.mem_cons_of_mem _ hdir),
    node_ofDirectories List.mem_cons_self, fun name => ?_⟩
  by_contra hnode
  rcases above_of_ofDirectories hnode with hnil | ⟨dir, hdir, hsuffix⟩
  · exact absurd hnil (by simp)
  · rcases List.mem_cons.mp hdir with heq | hpassed
    · have hlength := (heq ▸ hsuffix).length_le
      rw [List.length_cons] at hlength
      omega
    · exact h name (suffix_passed hpassed hsuffix)

/-- In an empty folder, a directory entry is not unpacked as a directory. -/
theorem files_of_faithful (hfaithful : Faithful folderPath entries) (hvalid : ValidTree entries)
    (hemptiable : Emptiable folderPath) : ∀ entry ∈ entries, entry.isDirectory = false := by
  intro entry hentry
  by_contra hdirectory
  obtain ⟨tree, hempty⟩ := exists_emptyFolder hemptiable
  obtain ⟨state, hrun, hleaves⟩ := hfaithful hvalid tree hempty
  have hexists : tree.exists (file folderPath) = true :=
    tree.exists_iff.mpr ⟨hempty.walks, Option.isSome_of_eq_some hempty.directory⟩
  have hrounds : unzipEntries folderPath (fun _ => noEntryFaults) entries ⟨tree, [], []⟩ =
      (true, state) := by
    unfold unzipFile at hrun
    simp only [if_pos hexists] at hrun
    exact hrun
  have hnone : ∀ other ∈ ([] : List ZipEntry), Written tree (dstPath folderPath other) :=
    fun _ hmem => absurd hmem List.not_mem_nil
  have hwritten := @unzipEntries_written folderPath entries [] ⟨tree, [], []⟩
    (fun _ => noEntryFaults) hnone (by rw [hrounds]) entry hentry
  rw [hrounds] at hwritten
  obtain ⟨content, hfile⟩ := hwritten.isFile
  rw [normal_dstPath (hvalid.plain entry hentry), hleaves.entry entry hentry,
    if_pos (Bool.not_eq_false _ ▸ hdirectory)] at hfile
  exact absurd hfile (by simp)

/-- No file outside the folder is created or written, and a valid tree is
unpacked faithfully. -/
def UnzipSound (folderPath : List Char) (entries : List ZipEntry) : Prop :=
  Contained folderPath entries ∧ Faithful folderPath entries

/-- Unpacking is sound where no reachable name leads out of the folder, and,
for a valid tree, no entry is a directory. -/
theorem unzipSound_iff (folderPath : List Char) (entries : List ZipEntry) :
    UnzipSound folderPath entries ↔ EscapeFree folderPath entries ∧
      (ValidTree entries → Emptiable folderPath →
        ∀ entry ∈ entries, entry.isDirectory = false) := by
  constructor
  · rintro ⟨hcontained, hfaithful⟩
    exact ⟨escapeFree_of_contained hcontained, files_of_faithful hfaithful⟩
  · rintro ⟨hescape, hfiles⟩
    refine ⟨contained_of_escapeFree hescape, fun hvalid tree hempty => ?_⟩
    have hemptiable : Emptiable folderPath := by
      intro name hpassed
      have hdirectory := hempty.walks _ hpassed
      exact absurd ((hempty.empty name).symm.trans hdirectory) (by simp)
    exact faithful_of_files (hfiles hvalid hemptiable) hvalid tree hempty

/-- An archive whose entry lands beside the folder, and one whose directory
becomes a file. -/
theorem not_unzipSound_up_directory :
    ¬UnzipSound "/ota".toList [⟨"../x".toList, [1]⟩] ∧
      ¬UnzipSound "/ota".toList [⟨"d/".toList, []⟩] := by
  constructor
  · rintro ⟨hcontained, -⟩
    have hinside := hcontained noFaults (.ofDirectories [["ota".toList]])
    revert hinside
    decide
  · rintro ⟨-, hfaithful⟩
    have hvalid : ValidTree [⟨"d/".toList, []⟩] :=
      ⟨by unfold Plain; decide, List.pairwise_singleton _ _, by decide⟩
    have hemptiable : Emptiable "/ota".toList := by
      intro name
      have hpassed : passed (file "/ota".toList) = [[]] := by decide
      rw [hpassed]
      simp
    have hfile := files_of_faithful hfaithful hvalid hemptiable _ (List.mem_singleton_self _)
    exact absurd hfile (by decide)

end Archives

end RobotOta.UnzipArchive
