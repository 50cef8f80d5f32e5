import Mathlib.Data.List.Infix

/-!
# File trees and paths

A tree of directories and files, and the paths that are walked in it from its
root. A location is a list of names, innermost first, so the directory that
holds it is its tail. A path may step up as well; where a walk ends depends on
the path alone, and whether it gets there on the directories it passes.
-/

namespace RobotOta.FileTree

/-- What may stand at a location. -/
inductive Node (Content : Type) where
  | directory
  | file (content : Content)
  deriving DecidableEq

/-- A tree: its root is a directory, and so is whatever holds a node. -/
structure DirTree (Name Content : Type) where
  /-- What stands at a location, the name in it first. -/
  node : List Name → Option (Node Content)
  /-- The root is a directory. -/
  root : node [] = some .directory
  /-- What there is stands in a directory. -/
  parent : ∀ {name : Name} {dir : List Name}, (node (name :: dir)).isSome →
    node dir = some .directory

/-- A step of a path. -/
inductive Component (Name : Type) where
  | up
  | here
  | down (name : Name)
  deriving DecidableEq

variable {Name Content : Type}

/-- The location one step further. -/
def Component.step : Component Name → List Name → List Name
  | .up, loc => loc.tail
  | .here, loc => loc
  | .down name, loc => name :: loc

/-- Where a path leads. Its steps stand last one first. -/
def normal : List (Component Name) → List Name
  | [] => []
  | component :: path => component.step (normal path)

/-- The locations that a path walks through, without the one it leads to. -/
def passed : List (Component Name) → List (List Name)
  | [] => []
  | _ :: path => normal path :: passed path

/-- A path in front of another one. -/
def under (names : List Name) (path : List (Component Name)) : List (Component Name) :=
  names.map Component.down ++ path

section Paths

variable {path : List (Component Name)} {loc above : List Name}

/-- With names only, a path leads down from where it starts. -/
@[simp] theorem normal_under (names : List Name) (path : List (Component Name)) :
    normal (under names path) = names ++ normal path := by
  induction names with
  | nil => rfl
  | cons name names ih => exact congrArg (name :: ·) ih

/-- It passes what the path in front of it passes. -/
theorem passed_subset_append (later path : List (Component Name)) :
    ∀ loc ∈ passed path, loc ∈ passed (later ++ path) := by
  induction later with
  | nil => exact fun loc hloc => hloc
  | cons component later ih => exact fun loc hloc => List.mem_cons_of_mem _ (ih loc hloc)

/-- Unless it stops there, it passes where the path in front of it leads. -/
theorem normal_mem_passed_append {later : List (Component Name)} (hlater : later ≠ [])
    (path : List (Component Name)) : normal path ∈ passed (later ++ path) := by
  induction later with
  | nil => exact absurd rfl hlater
  | cons component later ih =>
    rcases later with _ | ⟨next, later⟩
    · exact List.mem_cons_self
    · exact List.mem_cons_of_mem _ (ih (by simp))

/-- What it passes was passed before, or lies between its two ends. -/
theorem mem_passed_under {names : List Name} (h : loc ∈ passed (under names path)) :
    loc ∈ passed path ∨ normal path <:+ loc ∧ loc <:+ names ++ normal path := by
  induction names with
  | nil => exact Or.inl h
  | cons name names ih =>
    rcases List.mem_cons.mp h with heq | hmem
    · have hloc : loc = names ++ normal path := heq.trans (normal_under names path)
      exact Or.inr ⟨hloc ▸ List.suffix_append _ _, hloc ▸ List.suffix_cons _ _⟩
    · rcases ih hmem with hbefore | ⟨habove, hbelow⟩
      · exact Or.inl hbefore
      · exact Or.inr ⟨habove, hbelow.trans (List.suffix_cons _ _)⟩

/-- What lies above the end of a path is its end or was passed. -/
theorem suffix_normal (h : above <:+ normal path) :
    above = normal path ∨ above ∈ passed path := by
  induction path generalizing above with
  | nil => exact Or.inl (List.suffix_nil.mp h)
  | cons component path ih =>
    have hpassed (habove : above <:+ normal path) : above ∈ passed (component :: path) := by
      rcases ih habove with heq | hmem
      · exact heq ▸ List.mem_cons_self
      · exact List.mem_cons_of_mem _ hmem
    cases component with
    | up => exact Or.inr (hpassed (h.trans (List.tail_suffix _)))
    | here => exact Or.inr (hpassed h)
    | down name =>
      rcases List.suffix_cons_iff.mp h with heq | habove
      · exact Or.inl heq
      · exact Or.inr (hpassed habove)

/-- A walk passes everything above the locations it passes. -/
theorem suffix_passed (hloc : loc ∈ passed path) (h : above <:+ loc) : above ∈ passed path := by
  induction path with
  | nil => exact absurd hloc List.not_mem_nil
  | cons component path ih =>
    rcases List.mem_cons.mp hloc with rfl | hmem
    · rcases suffix_normal h with heq | habove
      · exact heq ▸ List.mem_cons_self
      · exact List.mem_cons_of_mem _ habove
    · exact List.mem_cons_of_mem _ (ih hmem)

end Paths

/-- The location that a path reaches, `none` where something it passes is no
directory. What is at the end of the path is not looked at. -/
def DirTree.locate [DecidableEq Content] (tree : DirTree Name Content) :
    List (Component Name) → Option (List Name)
  | [] => some []
  | component :: path =>
    match tree.locate path with
    | none => none
    | some loc => if tree.node loc = some .directory then some (component.step loc) else none

/-- There is something at the end of the path. -/
def DirTree.exists [DecidableEq Content] (tree : DirTree Name Content)
    (path : List (Component Name)) : Bool :=
  match tree.locate path with
  | none => false
  | some loc => (tree.node loc).isSome

/-- The tree with a new node, at a place that is not a directory yet. -/
def DirTree.place [DecidableEq Name] (tree : DirTree Name Content) (name : Name) (dir : List Name)
    (new : Node Content)
    (h : tree.node dir = some .directory ∧ tree.node (name :: dir) ≠ some .directory) :
    DirTree Name Content where
  node := Function.update tree.node (name :: dir) (some new)
  root := tree.root
  parent := by
    intro inner outer hsome
    have houter : tree.node outer = some .directory := by
      by_cases heq : inner :: outer = name :: dir
      · exact (List.cons.inj heq).2 ▸ h.1
      · rw [Function.update_of_ne heq] at hsome
        exact tree.parent hsome
    have hne : outer ≠ name :: dir := fun heq => h.2 (heq ▸ houter)
    rw [Function.update_of_ne hne]
    exact houter

section Operations

variable [DecidableEq Name] [DecidableEq Content]

/-- Gives the file at a location this content, and creates it where there is none. -/
def DirTree.putFile (tree : DirTree Name Content) (content : Content) :
    List Name → DirTree Name Content
  | [] => tree
  | name :: dir =>
    if h : tree.node dir = some .directory ∧ tree.node (name :: dir) ≠ some .directory then
      tree.place name dir (.file content) h
    else tree

/-- Makes a directory at a free location. -/
def DirTree.makeDirectory (tree : DirTree Name Content) : List Name → DirTree Name Content
  | [] => tree
  | name :: dir =>
    if h : tree.node dir = some .directory ∧ tree.node (name :: dir) = none then
      tree.place name dir .directory ⟨h.1, by simp [h.2]⟩
    else tree

end Operations

section Directories

variable [DecidableEq Name]

/-- The tree that consists of these directories and what is above them. -/
def DirTree.ofDirectories (dirs : List (List Name)) : DirTree Name Content where
  node loc := if loc = [] ∨ ∃ dir ∈ dirs, loc <:+ dir then some .directory else none
  root := if_pos (Or.inl rfl)
  parent := by
    intro name dir hsome
    have hbelow : ∃ below ∈ dirs, name :: dir <:+ below := by
      by_contra hnone
      have hnot : ¬(name :: dir = [] ∨ ∃ below ∈ dirs, name :: dir <:+ below) := by
        simp [hnone]
      rw [if_neg hnot] at hsome
      exact absurd hsome (by simp)
    obtain ⟨below, hmem, hsuffix⟩ := hbelow
    exact if_pos (Or.inr ⟨below, hmem, (List.suffix_cons name dir).trans hsuffix⟩)

/-- Its directories are directories. -/
theorem node_ofDirectories {dirs : List (List Name)} {dir : List Name} (h : dir ∈ dirs) :
    (DirTree.ofDirectories dirs : DirTree Name Content).node dir = some .directory :=
  if_pos (Or.inr ⟨dir, h, List.suffix_refl dir⟩)

/-- There is nothing else in it. -/
theorem above_of_ofDirectories {dirs : List (List Name)} {loc : List Name}
    (h : (DirTree.ofDirectories dirs : DirTree Name Content).node loc ≠ none) :
    loc = [] ∨ ∃ dir ∈ dirs, loc <:+ dir := by
  by_contra hnone
  exact h (if_neg hnone)

end Directories

/-- Every location that the path walks through is a directory. -/
def DirTree.Walks (tree : DirTree Name Content) (path : List (Component Name)) : Prop :=
  ∀ dir ∈ passed path, tree.node dir = some .directory

/-- Nothing that stands in the tree goes away or changes its kind. -/
structure Grows (tree grown : DirTree Name Content) : Prop where
  directory : ∀ {loc : List Name}, tree.node loc = some .directory →
    grown.node loc = some .directory
  file : ∀ {loc : List Name} {content : Content}, tree.node loc = some (.file content) →
    ∃ changed, grown.node loc = some (.file changed)

theorem Grows.refl (tree : DirTree Name Content) : Grows tree tree :=
  ⟨fun h => h, fun h => ⟨_, h⟩⟩

theorem Grows.trans {first second third : DirTree Name Content} (h : Grows first second)
    (h' : Grows second third) : Grows first third where
  directory hloc := h'.directory (h.directory hloc)
  file hloc := by
    obtain ⟨changed, hchanged⟩ := h.file hloc
    exact h'.file hchanged

/-- A path that can be walked stays so. -/
theorem DirTree.Walks.grows {tree grown : DirTree Name Content} {path : List (Component Name)}
    (hwalks : tree.Walks path) (h : Grows tree grown) : grown.Walks path :=
  fun dir hdir => h.directory (hwalks dir hdir)

section Walking

variable {tree : DirTree Name Content} {path : List (Component Name)} {loc above : List Name}

/-- Everything above a node is a directory. -/
theorem DirTree.directory_above (h : (tree.node loc).isSome) (habove : above <:+ loc)
    (hne : above ≠ loc) : tree.node above = some .directory := by
  induction loc with
  | nil => exact absurd (List.suffix_nil.mp habove) hne
  | cons name dir ih =>
    have hdir : tree.node dir = some .directory := tree.parent h
    rcases List.suffix_cons_iff.mp habove with heq | hsuffix
    · exact absurd heq hne
    · by_cases heq : above = dir
      · exact heq ▸ hdir
      · exact ih (by rw [hdir]; rfl) hsuffix heq

/-- Everything above a directory is one, and so is the directory. -/
theorem DirTree.directory_suffix (h : tree.node loc = some .directory) (habove : above <:+ loc) :
    tree.node above = some .directory := by
  by_cases heq : above = loc
  · exact heq ▸ h
  · exact tree.directory_above (by rw [h]; rfl) habove heq

/-- Where a walk ends there is room: the location above is a directory. -/
theorem DirTree.Walks.tail (hwalks : tree.Walks path) :
    tree.node (normal path).tail = some .directory := by
  cases path with
  | nil => exact tree.root
  | cons component path =>
    have hlast : tree.node (normal path) = some .directory := hwalks _ List.mem_cons_self
    have habove : tree.node (normal path).tail = some .directory :=
      tree.directory_suffix hlast (List.tail_suffix _)
    cases component with
    | up => exact tree.directory_suffix habove (List.tail_suffix _)
    | here => exact habove
    | down name => exact hlast

/-- A file holds nothing. -/
theorem DirTree.empty_of_file {content : Content} (h : tree.node loc = some (.file content))
    (name : Name) : tree.node (name :: loc) = none := by
  by_contra hnode
  have hdirectory := tree.parent (Option.isSome_iff_ne_none.mpr hnode)
  exact absurd (h.symm.trans hdirectory) (by simp)

end Walking

section Locating

variable [DecidableEq Content] {tree : DirTree Name Content} {path : List (Component Name)}

/-- A path that can be walked leads where its steps say. -/
theorem DirTree.Walks.locate (hwalks : tree.Walks path) :
    tree.locate path = some (normal path) := by
  induction path with
  | nil => rfl
  | cons component path ih =>
    have hpath : tree.locate path = some (normal path) :=
      ih fun dir hdir => hwalks dir (List.mem_cons_of_mem _ hdir)
    simp only [DirTree.locate, hpath]
    exact if_pos (hwalks _ List.mem_cons_self)

/-- One that leads somewhere can be walked. -/
theorem DirTree.walks_of_locate {loc : List Name} (h : tree.locate path = some loc) :
    tree.Walks path := by
  induction path generalizing loc with
  | nil => exact fun dir hdir => absurd hdir List.not_mem_nil
  | cons component path ih =>
    cases hpath : tree.locate path with
    | none => simp only [DirTree.locate, hpath, reduceCtorEq] at h
    | some last =>
      have hwalks := ih hpath
      have hlast : last = normal path := Option.some.inj (hpath.symm.trans hwalks.locate)
      simp only [DirTree.locate, hpath, Option.ite_none_right_eq_some] at h
      intro dir hdir
      rcases List.mem_cons.mp hdir with rfl | hmem
      · exact hlast ▸ h.1
      · exact hwalks dir hmem

/-- What can not be walked leads nowhere. -/
theorem DirTree.locate_of_not_walks (h : ¬tree.Walks path) : tree.locate path = none := by
  cases hloc : tree.locate path with
  | none => rfl
  | some loc => exact absurd (tree.walks_of_locate hloc) h

/-- There is something at a path that can be walked to a node. -/
theorem DirTree.exists_iff :
    tree.exists path = true ↔ tree.Walks path ∧ (tree.node (normal path)).isSome := by
  unfold DirTree.exists
  by_cases hwalks : tree.Walks path
  · rw [hwalks.locate]
    exact ⟨fun h => ⟨hwalks, h⟩, fun h => h.2⟩
  · rw [tree.locate_of_not_walks hwalks]
    exact ⟨fun h => absurd h (by simp), fun h => absurd h.1 hwalks⟩

end Locating

section Changing

variable [DecidableEq Name] [DecidableEq Content] {tree : DirTree Name Content} {loc : List Name}

/-- What writing a file does to the nodes. -/
theorem DirTree.node_putFile (content : Content) (hdir : tree.node loc.tail = some .directory)
    (hloc : tree.node loc ≠ some .directory) :
    (tree.putFile content loc).node = Function.update tree.node loc (some (.file content)) := by
  cases loc with
  | nil => exact absurd tree.root hloc
  | cons name dir =>
    have h : tree.node dir = some .directory ∧ tree.node (name :: dir) ≠ some .directory :=
      ⟨hdir, hloc⟩
    rw [DirTree.putFile, dif_pos h]
    rfl

/-- What making a directory does to them. -/
theorem DirTree.node_makeDirectory (hdir : tree.node loc.tail = some .directory)
    (hloc : tree.node loc = none) :
    (tree.makeDirectory loc).node = Function.update tree.node loc (some .directory) := by
  cases loc with
  | nil => exact absurd (hloc.symm.trans tree.root) (by simp)
  | cons name dir =>
    rw [DirTree.makeDirectory, dif_pos ⟨hdir, hloc⟩]
    rfl

/-- Where no directory can be made the tree stays as it is. -/
theorem DirTree.makeDirectory_of_isSome (hloc : (tree.node loc).isSome) :
    tree.makeDirectory loc = tree := by
  cases loc with
  | nil => rfl
  | cons name dir =>
    have h : ¬(tree.node dir = some .directory ∧ tree.node (name :: dir) = none) := by
      intro hfree
      rw [hfree.2] at hloc
      exact absurd hloc (by simp)
    rw [DirTree.makeDirectory, dif_neg h]

/-- A written file takes nothing away. -/
theorem grows_putFile (content : Content) (hdir : tree.node loc.tail = some .directory)
    (hloc : tree.node loc ≠ some .directory) : Grows tree (tree.putFile content loc) where
  directory {other} hother := by
    have hne : other ≠ loc := fun heq => hloc (heq ▸ hother)
    rw [tree.node_putFile content hdir hloc, Function.update_of_ne hne]
    exact hother
  file {other old} hother := by
    rw [tree.node_putFile content hdir hloc]
    by_cases heq : other = loc
    · exact ⟨content, by rw [heq, Function.update_self]⟩
    · exact ⟨old, by rw [Function.update_of_ne heq]; exact hother⟩

/-- Nor does a new directory, and it changes no file. -/
theorem file_makeDirectory_iff {other : List Name} {content : Content}
    (hdir : tree.node loc.tail = some .directory) :
    (tree.makeDirectory loc).node other = some (.file content) ↔
      tree.node other = some (.file content) := by
  cases hloc : tree.node loc with
  | some node => rw [tree.makeDirectory_of_isSome (by rw [hloc]; rfl)]
  | none =>
    rw [tree.node_makeDirectory hdir hloc]
    by_cases heq : other = loc
    · rw [heq, Function.update_self, hloc]
      simp
    · rw [Function.update_of_ne heq]

theorem grows_makeDirectory (hdir : tree.node loc.tail = some .directory) :
    Grows tree (tree.makeDirectory loc) where
  directory {other} hother := by
    cases hloc : tree.node loc with
    | some node => rwa [tree.makeDirectory_of_isSome (by rw [hloc]; rfl)]
    | none =>
      have hne : other ≠ loc := fun heq => absurd (hloc.symm.trans (heq ▸ hother)) (by simp)
      rw [tree.node_makeDirectory hdir hloc, Function.update_of_ne hne]
      exact hother
  file hother := ⟨_, (file_makeDirectory_iff hdir).mpr hother⟩

end Changing

section Removing

variable [DecidableEq Name] {tree : DirTree Name Content} {loc other : List Name}

/-- The tree without a node and what is below it. The root stays. -/
def DirTree.remove (tree : DirTree Name Content) : List Name → DirTree Name Content
  | [] => tree
  | name :: dir =>
    { node := fun loc => if name :: dir <:+ loc then none else tree.node loc
      root := (if_neg fun h => List.cons_ne_nil name dir (List.suffix_nil.mp h)).trans tree.root
      parent := by
        intro inner outer hsome
        have hinner : ¬name :: dir <:+ inner :: outer := by
          intro h
          rw [if_pos h] at hsome
          exact absurd hsome Bool.false_ne_true
        have houter : ¬name :: dir <:+ outer := fun h => hinner (h.trans (List.suffix_cons _ _))
        rw [if_neg hinner] at hsome
        rw [if_neg houter]
        exact tree.parent hsome }

/-- Where a location holds nothing, nothing is below it at any depth. -/
theorem DirTree.node_below (hempty : ∀ name, tree.node (name :: loc) = none) (h : loc <:+ other)
    (hne : other ≠ loc) : tree.node other = none := by
  obtain ⟨names, rfl⟩ := h
  have hnames : names ≠ [] := fun hnil => hne (by rw [hnil, List.nil_append])
  have hsplit : names.dropLast ++ [names.getLast hnames] = names :=
    List.dropLast_append_getLast hnames
  have hchild : names.getLast hnames :: loc <:+ names ++ loc :=
    ⟨names.dropLast, by rw [List.append_cons, hsplit]⟩
  by_contra hnode
  have hfree := hempty (names.getLast hnames)
  by_cases heq : names.getLast hnames :: loc = names ++ loc
  · exact hnode (heq ▸ hfree)
  · have hdirectory := tree.directory_above (Option.isSome_iff_ne_none.mpr hnode) hchild heq
    exact absurd (hfree.symm.trans hdirectory) (by simp)

/-- What taking away such a node does to the nodes. -/
theorem DirTree.node_remove (hempty : ∀ name, tree.node (name :: loc) = none) (hloc : loc ≠ []) :
    (tree.remove loc).node = Function.update tree.node loc none := by
  cases loc with
  | nil => exact absurd rfl hloc
  | cons name dir =>
    funext other
    change (if name :: dir <:+ other then none else tree.node other) = _
    by_cases heq : other = name :: dir
    · rw [heq, Function.update_self, if_pos List.suffix_rfl]
    · rw [Function.update_of_ne heq]
      by_cases hbelow : name :: dir <:+ other
      · rw [if_pos hbelow, tree.node_below hempty hbelow heq]
      · rw [if_neg hbelow]

end Removing

end RobotOta.FileTree
