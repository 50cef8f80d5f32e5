import RobotOta.UnzipFile

/-!
# Unpacking without faults

Which archives `unzipFile` unpacks as it should: no file outside the folder,
and, of a tree of entries, exactly that tree. A name that leads out of the
folder is followed where the directories on its way exist, and an entry that is
a directory is written as a file.
-/

namespace RobotOta.UnzipTree

open FileTree UnzipFile

/-- Nothing fails while an entry is unpacked. -/
def noEntryFaults : EntryFaults where
  unreadable := false
  mkdirFails _ := false
  createFails := false
  openFails := false
  copyEnds := none

/-- Nothing fails during the run. -/
def noFaults : UnzipFaults where
  mkdirFails _ := false
  zipFails := false
  entry _ := noEntryFaults

section Rounds

variable {dstFile : List (Component Name)} {state : UnzipState} {tree : Files}

/-- `mkdirs` leaves an existing directory alone. -/
theorem mkdirs_of_exists (fails : List Name → Bool) (h : tree.exists dstFile = true) :
    mkdirs fails dstFile tree = tree := by
  cases dstFile with
  | nil => rfl
  | cons component path => rw [mkdirs, if_pos h]

/-- What can be walked to stands in a directory. -/
theorem exists_tail (hwalks : tree.Walks dstFile) : tree.exists dstFile.tail = true := by
  cases dstFile with
  | nil => exact tree.exists_iff.mpr ⟨hwalks, Option.isSome_of_eq_some tree.root⟩
  | cons component path =>
    have hpath : tree.Walks path := fun dir hdir => hwalks dir (List.mem_cons_of_mem _ hdir)
    have hend : tree.node (normal path) = some .directory := hwalks _ List.mem_cons_self
    exact tree.exists_iff.mpr ⟨hpath, Option.isSome_of_eq_some hend⟩

/-- `mkdirs` checks by itself whether the directory exists. -/
theorem createDstFile_eq (dstFile : List (Component Name)) (state : UnzipState) :
    createDstFile noEntryFaults dstFile state =
      if state.tree.exists dstFile then (true, state)
      else createNewFile false dstFile
        { state with tree := mkdirs (fun _ => false) dstFile.tail state.tree } := by
  unfold createDstFile
  by_cases htail : state.tree.exists dstFile.tail = true
  · simp only [if_pos htail, mkdirs_of_exists _ htail]
    rfl
  · simp only [if_neg htail]
    rfl

/-- `createNewFile` leaves a file at a free place. -/
theorem createNewFile_noFaults (hwalks : state.tree.Walks dstFile)
    (hfree : state.tree.node (normal dstFile) ≠ some .directory) :
    ∃ after, createNewFile false dstFile state = (true, after) ∧ after.tree.Walks dstFile ∧
      after.tree.node (normal dstFile) ≠ some .directory ∧
      ∀ loc, loc ≠ normal dstFile → after.tree.node loc = state.tree.node loc := by
  unfold createNewFile
  simp only [hwalks.locate]
  by_cases hsome : (state.tree.node (normal dstFile)).isSome = true
  · exact ⟨state, if_pos hsome, hwalks, hfree, fun _ _ => rfl⟩
  · have hnode := state.tree.node_putFile [] hwalks.tail hfree
    have hwritten := (writesOnly_putFile [] hwalks hfree).2
    refine ⟨putFile (normal dstFile) [] state, ?_, hwritten.walks, ?_, fun loc hne => ?_⟩
    · simp only [if_neg hsome]
      rfl
    · obtain ⟨content, hfile⟩ := hwritten.isFile
      rw [hfile]
      simp
    · exact (congrFun hnode loc).trans (Function.update_of_ne hne _ _)

/-- The output stream and the copy loop put the content there. -/
theorem writeDstFile_noFaults (content : Content) (hwalks : state.tree.Walks dstFile)
    (hfree : state.tree.node (normal dstFile) ≠ some .directory) :
    ∃ after, writeDstFile noEntryFaults content dstFile state = (true, after) ∧
      after.tree.node =
        Function.update state.tree.node (normal dstFile) (some (.file content)) ∧
      normal dstFile ∈ after.touched := by
  have hopened := (writesOnly_putFile [] hwalks hfree).2
  have hnode := state.tree.node_putFile [] hwalks.tail hfree
  have hagain : (putFile (normal dstFile) [] state).tree.node (normal dstFile) ≠
      some .directory := by
    obtain ⟨old, hfile⟩ := hopened.isFile
    rw [hfile]
    simp
  have hcopied := (putFile (normal dstFile) [] state).tree.node_putFile content
    hopened.walks.tail hagain
  have hrefused : ¬(state.tree.node (normal dstFile) = some .directory ∨
      noEntryFaults.openFails = true) := fun h => h.elim hfree (by decide)
  unfold writeDstFile
  simp only [hwalks.locate, if_neg hrefused]
  refine ⟨_, rfl, ?_, List.mem_cons_self⟩
  have hfirst : (putFile (normal dstFile) [] state).tree.node =
      Function.update state.tree.node (normal dstFile) (some (.file [])) := hnode
  rw [hfirst, Function.update_idem] at hcopied
  exact hcopied

/-- A round without faults, where the directories in front of the file can be
made and none stands at its place. -/
theorem unzipEntry_noFaults (folderPath : List Char) (entry : ZipEntry)
    (hdst : dstPath folderPath entry = dstFile)
    (hwalks : (mkdirs (fun _ => false) dstFile.tail state.tree).Walks dstFile)
    (hfree : (mkdirs (fun _ => false) dstFile.tail state.tree).node (normal dstFile) ≠
      some .directory) :
    ∃ after, unzipEntry folderPath noEntryFaults entry state = (true, after) ∧
      after.tree.node = Function.update (mkdirs (fun _ => false) dstFile.tail state.tree).node
        (normal dstFile) (some (.file entry.content)) ∧
      normal dstFile ∈ after.touched := by
  have hcreated : ∃ between, createDstFile noEntryFaults dstFile state = (true, between) ∧
      between.tree.Walks dstFile ∧ between.tree.node (normal dstFile) ≠ some .directory ∧
      ∀ loc, loc ≠ normal dstFile → between.tree.node loc =
        (mkdirs (fun _ => false) dstFile.tail state.tree).node loc := by
    rw [createDstFile_eq]
    split_ifs with hexists
    · have hthere : state.tree.Walks dstFile := (state.tree.exists_iff.mp hexists).1
      rw [mkdirs_of_exists _ (exists_tail hthere)] at hfree ⊢
      exact ⟨state, rfl, hthere, hfree, fun _ _ => rfl⟩
    · exact createNewFile_noFaults hwalks hfree
  obtain ⟨between, hcall, hready, hplace, hothers⟩ := hcreated
  obtain ⟨after, hwrite, hnode, htouched⟩ := writeDstFile_noFaults entry.content hready hplace
  refine ⟨after, ?_, ?_, htouched⟩
  · have hround : unzipEntry folderPath noEntryFaults entry state =
        unlessThrown (createDstFile noEntryFaults dstFile state)
          (writeDstFile noEntryFaults entry.content dstFile) := by
      rw [← hdst]
      rfl
    rw [hround, hcall, unlessThrown_returned rfl, hwrite]
  · rw [hnode]
    funext loc
    by_cases heq : loc = normal dstFile
    · rw [heq, Function.update_self, Function.update_self]
    · rw [Function.update_of_ne heq, Function.update_of_ne heq, hothers loc heq]

end Rounds

/-- The tree has the directories that a file needs, and none at its place. -/
def Ready (tree : Files) (dstFile : List (Component Name)) : Prop :=
  tree.Walks dstFile ∧ tree.node (normal dstFile) ≠ some .directory

section Escapes

variable {folderPath : List Char} {entries : List ZipEntry} {state : UnzipState}

/-- A round without faults for a file whose directories are there. -/
theorem unzipEntry_ready {entry : ZipEntry} (h : Ready state.tree (dstPath folderPath entry)) :
    ∃ after, unzipEntry folderPath noEntryFaults entry state = (true, after) ∧
      normal (dstPath folderPath entry) ∈ after.touched ∧
      ∀ dstFile, Ready state.tree dstFile → Ready after.tree dstFile := by
  have hmade := mkdirs_of_exists (fun _ => false) (exists_tail h.1)
  obtain ⟨after, hcall, hnode, htouched⟩ := unzipEntry_noFaults folderPath entry rfl
    (hmade.symm ▸ h.1) (hmade.symm ▸ h.2)
  have hgrows : Grows state.tree after.tree := by
    have hspec := (unzipEntry_spec folderPath noEntryFaults entry state).1.grows
    rwa [hcall] at hspec
  refine ⟨after, hcall, htouched, fun dstFile hready => ⟨hready.1.grows hgrows, ?_⟩⟩
  rw [hnode, hmade]
  by_cases heq : normal dstFile = normal (dstPath folderPath entry)
  · rw [heq, Function.update_self]
    simp
  · rw [Function.update_of_ne heq]
    exact hready.2

/-- Where each of the entries is ready, a run without faults gets to the last. -/
theorem unzipEntries_reach {done later : List ZipEntry} {entry : ZipEntry}
    (hready : ∀ other ∈ done ++ [entry], Ready state.tree (dstPath folderPath other)) :
    normal (dstPath folderPath entry) ∈
      (unzipEntries folderPath (fun _ => noEntryFaults) (done ++ entry :: later)
        state).2.touched := by
  induction done generalizing state with
  | nil =>
    obtain ⟨after, hcall, htouched, -⟩ := unzipEntry_ready (hready entry (by simp))
    rw [List.nil_append, unzipEntries, hcall, unlessThrown_returned rfl]
    exact unzipEntries_kept (fun _ => noEntryFaults) _ htouched
  | cons first done ih =>
    obtain ⟨after, hcall, -, hkept⟩ := unzipEntry_ready (hready first (by simp))
    rw [List.cons_append, unzipEntries, hcall, unlessThrown_returned rfl]
    exact ih fun other hother => hkept _ (hready other (List.mem_cons_of_mem _ hother))

/-- The tree with the directories that these entries need. -/
def neededTree (folderPath : List Char) (entries : List ZipEntry) : Files :=
  .ofDirectories (entries.flatMap fun entry => passed (dstPath folderPath entry))

/-- Consistent entries are ready in it, if one of them has a path at all. -/
theorem neededTree_ready (h : Consistent folderPath entries) {other : ZipEntry}
    (hother : other ∈ entries) (hpath : dstPath folderPath other ≠ []) :
    ∀ entry ∈ entries, Ready (neededTree folderPath entries) (dstPath folderPath entry) := by
  intro entry hentry
  have hneeded : ∀ second ∈ entries, ∀ dir ∈ passed (dstPath folderPath second),
      dir ∈ entries.flatMap fun needed => passed (dstPath folderPath needed) :=
    fun second hsecond dir hdir => List.mem_flatMap.mpr ⟨second, hsecond, hdir⟩
  refine ⟨fun dir hdir => node_ofDirectories (hneeded entry hentry dir hdir), ?_⟩
  intro hdirectory
  have hnode :
      (neededTree folderPath entries).node (normal (dstPath folderPath entry)) ≠ none := by
    rw [hdirectory]
    simp
  have habove : ∃ second ∈ entries,
      normal (dstPath folderPath entry) ∈ passed (dstPath folderPath second) := by
    rcases above_of_ofDirectories hnode with hroot | ⟨dir, hdir, hsuffix⟩
    · have hfirst :
          normal (dstPath folderPath other).tail ∈ passed (dstPath folderPath other) := by
        cases hdst : dstPath folderPath other with
        | nil => exact absurd hdst hpath
        | cons component path => exact List.mem_cons_self
      exact ⟨other, hother, suffix_passed hfirst (hroot ▸ List.nil_suffix)⟩
    · obtain ⟨second, hsecond, hpassed⟩ := List.mem_flatMap.mp hdir
      exact ⟨second, hsecond, suffix_passed hpassed hsuffix⟩
  obtain ⟨second, hsecond, hpassed⟩ := habove
  exact h entry hentry second hsecond hpassed

/-- A contained run has no reachable name that leads out of the folder. -/
theorem escapeFree_of_contained (h : Contained folderPath entries) :
    EscapeFree folderPath entries := by
  intro done entry later hsplit hconsistent
  by_contra hescape
  have hname : file entry.name ≠ [] := by
    intro hnil
    apply hescape
    rw [dstPath_eq, hnil]
    exact List.suffix_refl _
  have hpath : dstPath folderPath entry ≠ [] := by
    rw [dstPath_eq]
    exact List.append_ne_nil_of_left_ne_nil hname _
  have hlast : entry ∈ done ++ [entry] := by simp
  have hready := neededTree_ready hconsistent hlast hpath
  -- the folder exists in this tree, so nothing has to be made for it
  have hfolder : (neededTree folderPath (done ++ [entry])).exists (file folderPath) = true := by
    have hwalks := (hready entry hlast).1
    rw [dstPath_eq] at hwalks
    have hdirectory := hwalks _ (normal_mem_passed_append hname (file folderPath))
    refine DirTree.exists_iff.mpr ⟨fun dir hdir => ?_, Option.isSome_of_eq_some hdirectory⟩
    exact hwalks dir (passed_subset_append (file entry.name) _ dir hdir)
  have htouched : normal (dstPath folderPath entry) ∈ (unzipFile folderPath entries noFaults
      (neededTree folderPath (done ++ [entry]))).2.touched := by
    unfold unzipFile
    simp only [if_pos hfolder, hsplit]
    exact unzipEntries_reach hready
  exact hescape (h noFaults _ _ htouched)

end Escapes

section Directories

variable {tree : Files} {path : List (Component Name)} {names : List Name}

/-- Between the end of `path` and the end of `names` below it. -/
def Between (path : List (Component Name)) (names loc : List Name) : Prop :=
  normal path <:+ loc ∧ loc <:+ names ++ normal path

/-- The end of `names` is between the two, and nothing else is new with its last name. -/
theorem between_cons {name : Name} {loc : List Name} : Between path (name :: names) loc ↔
    loc = name :: names ++ normal path ∨ Between path names loc := by
  unfold Between
  rw [List.cons_append, List.suffix_cons_iff]
  constructor
  · rintro ⟨habove, heq | hbelow⟩
    · exact Or.inl heq
    · exact Or.inr ⟨habove, hbelow⟩
  · rintro (heq | ⟨habove, hbelow⟩)
    · exact ⟨heq ▸ List.suffix_append (name :: names) _, Or.inl heq⟩
    · exact ⟨habove, Or.inr hbelow⟩

/-- A location does not lie above the one that holds it. -/
theorem not_between_cons (name : Name) (names : List Name) (path : List (Component Name)) :
    ¬Between path names (name :: names ++ normal path) := by
  intro hloc
  have hlength : (name :: names ++ normal path).length ≤ (names ++ normal path).length :=
    hloc.2.length_le
  rw [List.cons_append, List.length_cons] at hlength
  omega

/-- Everything between two directories can be walked through. -/
theorem walks_under {name : Name} (hwalks : tree.Walks path)
    (hinside : ∀ loc, Between path names loc → tree.node loc = some .directory) :
    tree.Walks (under (name :: names) path) := by
  intro dir hdir
  have hend : Between path names (names ++ normal path) :=
    ⟨List.suffix_append _ _, List.suffix_refl _⟩
  rcases List.mem_cons.mp hdir with heq | hmem
  · have hloc : dir = names ++ normal path := heq.trans (normal_under names path)
    exact hloc ▸ hinside _ hend
  · rcases mem_passed_under hmem with hbefore | hbetween
    · exact hwalks dir hbefore
    · exact hinside dir hbetween

/-- One more directory below such a place, unless a file is there. -/
theorem node_mkdir {name : Name} (hwalks : tree.Walks path)
    (hinside : ∀ loc, Between path names loc → tree.node loc = some .directory)
    (hlast : tree.node (name :: names ++ normal path) = none ∨
      tree.node (name :: names ++ normal path) = some .directory) :
    (mkdir (fun _ => false) (under (name :: names) path) tree).node =
      Function.update tree.node (name :: names ++ normal path) (some .directory) := by
  have hmkdir : mkdir (fun _ => false) (under (name :: names) path) tree =
      tree.makeDirectory (name :: names ++ normal path) := by
    unfold mkdir
    rw [(walks_under hwalks hinside).locate, normal_under]
    rfl
  rw [hmkdir]
  rcases hlast with hnone | hdirectory
  · have htail : tree.node (names ++ normal path) = some .directory :=
      hinside _ ⟨List.suffix_append _ _, List.suffix_refl _⟩
    exact tree.node_makeDirectory htail hnone
  · rw [tree.makeDirectory_of_isSome (Option.isSome_of_eq_some hdirectory), ← hdirectory,
      Function.update_eq_self]

/-- `mkdirs` below a directory, where no file is in the way. -/
theorem node_mkdirs (hwalks : tree.Walks path) (hpath : tree.node (normal path) = some .directory)
    (hfree : ∀ loc content, Between path names loc → tree.node loc ≠ some (.file content)) :
    (∀ loc, Between path names loc →
      (mkdirs (fun _ => false) (under names path) tree).node loc = some .directory) ∧
    ∀ loc, ¬Between path names loc →
      (mkdirs (fun _ => false) (under names path) tree).node loc = tree.node loc := by
  induction names with
  | nil =>
    have hexists : tree.exists path = true :=
      tree.exists_iff.mpr ⟨hwalks, Option.isSome_of_eq_some hpath⟩
    have hmade : mkdirs (fun _ => false) (under [] path) tree = tree :=
      mkdirs_of_exists _ hexists
    rw [hmade]
    refine ⟨fun loc hloc => ?_, fun _ _ => rfl⟩
    have heq : normal path = loc := hloc.1.eq_of_length_le hloc.2.length_le
    rw [← heq, hpath]
  | cons name names ih =>
    have hlast : tree.node (name :: names ++ normal path) = none ∨
        tree.node (name :: names ++ normal path) = some .directory := by
      have hnofile := fun content => hfree _ content (between_cons.mpr (Or.inl rfl))
      cases hnode : tree.node (name :: names ++ normal path) with
      | none => exact Or.inl rfl
      | some node =>
        cases node with
        | directory => exact Or.inr rfl
        | file content => exact absurd hnode (hnofile content)
    by_cases hexists : tree.exists (under (name :: names) path) = true
    · -- the directory is there, and so is everything above it
      have hsome : tree.node (name :: names ++ normal path) ≠ none := by
        rw [← normal_under]
        exact Option.isSome_iff_ne_none.mp (tree.exists_iff.mp hexists).2
      have hdirectory := hlast.resolve_left hsome
      rw [mkdirs_of_exists _ hexists]
      exact ⟨fun loc hloc => tree.directory_suffix hdirectory hloc.2, fun _ _ => rfl⟩
    · obtain ⟨hinside, houtside⟩ := ih fun loc content hloc =>
        hfree loc content (between_cons.mpr (Or.inr hloc))
      have hgrows := (mkdirs_spec (fun _ => false) (under names path) tree).1
      have hstep : mkdirs (fun _ => false) (under (name :: names) path) tree =
          mkdir (fun _ => false) (under (name :: names) path)
            (mkdirs (fun _ => false) (under names path) tree) := if_neg hexists
      have hsame := houtside _ (not_between_cons name names path)
      rw [hstep, node_mkdir (hwalks.grows hgrows) hinside (by rwa [hsame])]
      refine ⟨fun loc hloc => ?_, fun loc hloc => ?_⟩
      · by_cases heq : loc = name :: names ++ normal path
        · rw [heq, Function.update_self]
        · rw [Function.update_of_ne heq]
          exact hinside loc ((between_cons.mp hloc).resolve_left heq)
      · rw [between_cons, not_or] at hloc
        rw [Function.update_of_ne hloc.1]
        exact houtside loc hloc.2

end Directories

end RobotOta.UnzipTree
