import RobotOta.PackageBrowser
import RobotOta.RecordedKnowledge

/-!
# Where the browser gets to

Whatever the directories list and whatever keys are pressed, a directory that is
opened has been shown as a subdirectory, and a package that is installed stood in
the last listing of such a directory. The item for the way up is taken to be the
first of the menu. A package whose name sorts before it makes it an ordinary
item, which leads to the directory above, and is itself taken for the way up.
-/

namespace RobotOta.PackageBrowser

open RequestProgram DocumentedSort

/-- Everything asked and answered. -/
abbrev BrowserEvent := Event BrowserRequest BrowserAnswer

/-- A directory has been read with these entries. -/
def Listed (record : List BrowserEvent) (path : List Char) (entries : List DirectoryEntry) : Prop :=
  (⟨.readDirectory path, some entries⟩ : BrowserEvent) ∈ record

/-- A package stands in front of the way up. -/
def UpMoved (entries : List DirectoryEntry) : Prop :=
  ∃ zip, ⟨.regular, zip⟩ ∈ entries ∧ isZip zip ∧ zip < upItem

theorem upMoved_iff_entry {entries : List DirectoryEntry} :
    (∃ entry ∈ entries, entry.type = .regular ∧ isZip entry.name ∧ entry.name < upItem) ↔
      UpMoved entries := by
  constructor
  · rintro ⟨⟨_, name⟩, hentry, rfl, hzip, hbefore⟩
    exact ⟨name, hentry, hzip, hbefore⟩
  · rintro ⟨zip, hentry, hzip, hbefore⟩
    exact ⟨⟨.regular, zip⟩, hentry, rfl, hzip, hbefore⟩

instance (entries : List DirectoryEntry) : Decidable (UpMoved entries) :=
  decidable_of_iff _ upMoved_iff_entry

/-- The directories the browser may be in. -/
inductive Shown (root : List Char) (record : List BrowserEvent) : (path : List Char) → Prop
  | root : Shown root record root
  | down {path name : List Char} {entries : List DirectoryEntry} :
      Shown root record path → Listed record path entries → ⟨.directory, name⟩ ∈ entries →
      name ≠ ['.'] → name ≠ ['.', '.'] → Shown root record (newPath path (name ++ ['/'])).dropLast
  | up {path : List Char} {entries : List DirectoryEntry} :
      Shown root record path → Listed record path entries → UpMoved entries →
      Shown root record (newPath path upItem).dropLast

/-- The path is that of a listed package, and the boot message has just been set. -/
def Offered (root : List Char) (record : List BrowserEvent) (path : List Char) : Prop :=
  ∃ before answer directory entries name,
    record = before ++ [⟨.setBootloaderMessage RecoveryMain.bareMessage, answer⟩] ∧
      Shown root record directory ∧ Listed record directory entries ∧
      ⟨.regular, name⟩ ∈ entries ∧ isZip name ∧ path = newPath directory name

/-- What has to stand in front of an event. -/
def Warranted (root : List Char) (front : List BrowserEvent) : (event : BrowserEvent) → Prop
  | ⟨.readDirectory path, _⟩ => Shown root front path
  | ⟨.installPackage path, _⟩ => Offered root front path
  | _ => True

section Menu

variable {sorter : KeySort (id : List Char → List Char)} {entries : List DirectoryEntry}
  {item : List Char}

theorem mem_dirs (h : item ∈ dirs entries) : ∃ name, ⟨.directory, name⟩ ∈ entries ∧
    name ≠ ['.'] ∧ name ≠ ['.', '.'] ∧ item = name ++ ['/'] := by
  obtain ⟨entry, hentry, hitem⟩ := List.mem_filterMap.mp h
  split_ifs at hitem with hdir
  obtain ⟨htype, hdot, hdots⟩ := hdir
  obtain rfl := Option.some.inj hitem
  exact ⟨entry.name, htype ▸ hentry, hdot, hdots, rfl⟩

theorem mem_zips (h : item ∈ zips entries) :
    item = upItem ∨ ⟨.regular, item⟩ ∈ entries ∧ isZip item := by
  rcases List.mem_cons.mp h with rfl | hzip
  · exact .inl rfl
  · obtain ⟨entry, hentry, hitem⟩ := List.mem_filterMap.mp hzip
    split_ifs at hitem with hreg
    obtain ⟨htype, hname⟩ := hreg
    obtain rfl := Option.some.inj hitem
    exact .inr ⟨htype ▸ hentry, hname⟩

theorem not_isZip_upItem : ¬ isZip upItem := by decide

/-- The way up is not a subdirectory. -/
theorem upItem_not_mem_dirs : upItem ∉ dirs entries := by
  intro h
  obtain ⟨name, -, -, hdots, hname⟩ := mem_dirs h
  have hname : name ++ ['/'] = ['.', '.'] ++ ['/'] := hname.symm
  exact hdots (List.append_inj' hname rfl).1

/-- The way up stands in the menu once. -/
theorem count_upItem (entries : List DirectoryEntry) : (zips entries).count upItem = 1 := by
  rw [zips, List.count_cons_self, Nat.add_eq_right]
  refine List.count_eq_zero.mpr fun hmem => ?_
  obtain ⟨entry, -, hitem⟩ := List.mem_filterMap.mp hmem
  split_ifs at hitem with hreg
  rw [Option.some.inj hitem] at hreg
  exact not_isZip_upItem hreg.2

/-- A way up that is not the first item stands behind a package. -/
theorem upMoved_of_index {index : ℕ} (hne : index ≠ 0)
    (h : (sorter.sort (zips entries))[index]? = some upItem) : UpMoved entries := by
  obtain ⟨index, rfl⟩ := Nat.exists_eq_succ_of_ne_zero hne
  have hcount := (sorter.perm (zips entries)).count_eq upItem
  rw [count_upItem] at hcount
  have hordered := sorter.ordered (zips entries)
  cases hsorted : sorter.sort (zips entries) with
  | nil =>
    rw [hsorted] at h
    cases h
  | cons first rest =>
    rw [hsorted] at h hcount hordered
    have hmem : upItem ∈ rest := List.mem_of_getElem? h
    have hfirst : first ≠ upItem := by
      rintro rfl
      rw [List.count_cons_self] at hcount
      have hpos := List.count_pos_iff.mpr hmem
      omega
    have hle : first ≤ upItem := (List.pairwise_cons.mp hordered).1 upItem hmem
    have hzip : first ∈ zips entries := sorter.mem_sort.mp (hsorted ▸ List.mem_cons_self)
    obtain ⟨hentry, hname⟩ := (mem_zips hzip).resolve_left hfirst
    exact ⟨first, hentry, hname, lt_of_le_of_ne hle hfirst⟩

/-- The way up is an item like the others just behind a package that sorts before it. -/
theorem upMoved_iff (sorter : KeySort (id : List Char → List Char)) :
    UpMoved entries ↔ ∃ index, index ≠ 0 ∧ (menuItems sorter entries)[index]? = some upItem := by
  constructor
  · rintro ⟨zip, hentry, hzip, hbefore⟩
    have hup : upItem ∈ sorter.sort (zips entries) :=
      sorter.mem_sort.mpr List.mem_cons_self
    obtain ⟨index, hindex⟩ := List.mem_iff_getElem?.mp hup
    refine ⟨index, ?_, ?_⟩
    · -- As the first item it would be at most the package.
      rintro rfl
      have hmem : zip ∈ sorter.sort (zips entries) :=
        sorter.mem_sort.mpr (List.mem_cons_of_mem _ (List.mem_filterMap.mpr
          ⟨⟨.regular, zip⟩, hentry, if_pos ⟨rfl, hzip⟩⟩))
      have hordered := sorter.ordered (zips entries)
      cases hsorted : sorter.sort (zips entries) with
      | nil =>
        rw [hsorted] at hmem
        exact List.not_mem_nil hmem
      | cons first rest =>
        rw [hsorted] at hindex hmem hordered
        obtain rfl : first = upItem := Option.some.inj hindex
        rcases List.mem_cons.mp hmem with rfl | hrest
        · exact lt_irrefl _ hbefore
        · have hle : upItem ≤ zip := (List.pairwise_cons.mp hordered).1 zip hrest
          exact absurd hbefore (not_lt_of_ge hle)
    · obtain ⟨hlt, -⟩ := List.getElem?_eq_some_iff.mp hindex
      rw [menuItems, List.getElem?_append_left hlt, hindex]
  · rintro ⟨index, hne, hindex⟩
    rw [menuItems, List.getElem?_append] at hindex
    split_ifs at hindex with hlt
    · exact upMoved_of_index hne hindex
    · exact absurd (sorter.mem_sort.mp (List.mem_of_getElem? hindex)) upItem_not_mem_dirs

/-- What stands in the menu. -/
theorem menuItems_cases {index : ℕ} (hne : index ≠ 0)
    (h : (menuItems sorter entries)[index]? = some item) :
    (item = upItem ∧ UpMoved entries) ∨
      (∃ name, ⟨.directory, name⟩ ∈ entries ∧ name ≠ ['.'] ∧ name ≠ ['.', '.'] ∧
        item = name ++ ['/']) ∨
      ⟨.regular, item⟩ ∈ entries ∧ isZip item := by
  rw [menuItems, List.getElem?_append] at h
  split_ifs at h with hlt
  · rcases mem_zips (sorter.mem_sort.mp (List.mem_of_getElem? h)) with rfl | hzip
    · exact .inl ⟨rfl, upMoved_of_index hne h⟩
    · exact .inr (.inr hzip)
  · exact .inr (.inl (mem_dirs (sorter.mem_sort.mp (List.mem_of_getElem? h))))

/-- The name of a package does not end with a slash. -/
theorem getLast?_of_isZip (h : isZip item) : item.getLast? ≠ some '/' := by
  obtain ⟨hlength, hlast⟩ := h
  intro hslash
  have hdrop : (item.drop (item.length - 4)).getLast? = some '/' := by
    rw [List.getLast?_drop, if_neg (by omega), hslash]
  have hmap := congrArg List.getLast? hlast
  rw [List.getLast?_map, hdrop] at hmap
  exact absurd hmap (by decide)

end Menu

section Browsing

variable {sorter : KeySort (id : List Char → List Char)} {unmountWhenDone : Option (List Char)}
  {root path : List Char} {record : List BrowserEvent}
  {Know : List BrowserEvent → Prop}

theorem Listed.more {entries : List DirectoryEntry} (h : Listed record path entries)
    (more : List BrowserEvent) : Listed (record ++ more) path entries :=
  List.mem_append_left more h

theorem Shown.more (h : Shown root record path) (more : List BrowserEvent) :
    Shown root (record ++ more) path := by
  induction h with
  | root => exact .root
  | down _ hlisted hentry hdot hdots ih => exact .down ih (hlisted.more more) hentry hdot hdots
  | up _ hlisted hmoved ih => exact .up ih (hlisted.more more) hmoved

/-- A menu asks for nothing that has to be warranted. -/
theorem justifies_getMenuSelection (hlasting : Lasting Know) (last : ℕ) (menuOnly : Bool)
    (keys selected : ℕ) :
    Justifies (Warranted root) Know (getMenuSelection last menuOnly keys selected) := by
  induction keys generalizing selected with
  | zero => exact justifies_pure _
  | succ keys ih =>
    have hask : ∀ r : BrowserRequest, (∀ front answer, Warranted root front ⟨r, answer⟩) →
        Justifies (Warranted root) Know (ask r : BrowserM _) := fun r h =>
      justifies_ask fun record answer _ => h record answer
    refine (hask .waitKey fun _ _ => trivial).bind_lasting hlasting
      fun (key : Int) => ?_
    refine (hask .isTextVisible fun _ _ => trivial).bind_lasting hlasting fun visible => ?_
    refine justifies_ite (fun _ => ?_) fun _ => ?_
    · refine (hask .wasTextEverVisible fun _ _ => trivial).bind_lasting hlasting
        fun (ever : Bool) => ?_
      exact justifies_ite (fun _ => ih selected) fun _ => justifies_pure _
    · refine (hask (.handleMenuKey key visible) fun _ _ => trivial).bind_lasting hlasting
        fun action => ?_
      cases action with
      | highlightUp =>
        exact (hask (.selectMenu last _) fun _ _ => trivial).bind_lasting hlasting fun next =>
          ih next.val
      | highlightDown =>
        exact (hask (.selectMenu last _) fun _ _ => trivial).bind_lasting hlasting fun next =>
          ih next.val
      | invokeItem => exact justifies_pure _
      | noAction => exact ih selected
      | item index => exact justifies_ite (fun _ => ih selected) fun _ => justifies_pure _

theorem justifies_unmount : Justifies (Warranted root) Know (unmount unmountWhenDone) := by
  rw [unmount.eq_def]
  cases unmountWhenDone with
  | none => exact justifies_pure _
  | some path =>
    refine (justifies_ask fun _ _ _ => trivial).bind (fun _ _ _ _ _ => trivial) fun _ => ?_
    exact justifies_pure _

/-- A directory that was shown is read, and its loop knows what it lists. -/
theorem justifies_inDirectory (hlasting : Lasting Know)
    (hshown : ∀ record, Know record → Shown root record path) (wipeCache : Int)
    {loop : List (List Char) → BrowserM (Option (Int × Int))}
    (hloop : ∀ entries, Justifies (Warranted root)
      (fun record => Know record ∧ Listed record path entries) (loop (menuItems sorter entries))) :
    Justifies (Warranted root) Know
      (inDirectory sorter unmountWhenDone path wipeCache loop) := by
  have hmount : Justifies (Warranted root) Know
      (ask (.ensurePathMounted path) : BrowserM _) :=
    justifies_ask fun _ _ _ => trivial
  refine hmount.bind_lasting hlasting fun _ => ?_
  refine @justifies_ask_bind _ BrowserAnswer _ (Warranted root) Know (.readDirectory path)
    (fun answer record => Know record ∧ ∀ entries, answer = some entries →
      Listed record path entries) _ (fun record answer hknow => hshown record hknow) ?_ ?_
  · intro record answer hknow
    refine ⟨hlasting record _ hknow, ?_⟩
    rintro entries rfl
    exact List.mem_append_right record List.mem_cons_self
  · intro answer
    have hend : ∀ result : Option (Int × Int),
        Justifies (Warranted root) (fun _ => True)
          (unmount unmountWhenDone >>= fun _ => pure result) := fun result =>
      justifies_unmount.bind (fun _ _ _ _ _ => trivial) fun _ => justifies_pure _
    cases answer with
    | none => exact (hend _).of_imp fun _ _ => trivial
    | some entries =>
      refine ((hloop entries).of_imp fun record hknow => ⟨hknow.1, hknow.2 entries rfl⟩).bind
        (fun _ _ _ _ _ => trivial) fun result => ?_
      cases result with
      | none => exact justifies_pure _
      | some result => exact hend _

/-- Wherever the loop is, it goes on to what its menu offers. -/
theorem justifies_browse (rounds : ℕ) (entries : List DirectoryEntry) (chosenItem : ℕ)
    (wipeCache : Int) :
    Justifies (Warranted root) (fun record => Shown root record path ∧ Listed record path entries)
      (browse sorter unmountWhenDone rounds path (menuItems sorter entries) chosenItem
        wipeCache) := by
  induction rounds generalizing path entries chosenItem wipeCache with
  | zero => exact justifies_pure _
  | succ rounds ih =>
    have hlasting : Lasting fun record => Shown root record path ∧ Listed record path entries :=
      fun record more hknow => ⟨hknow.1.more more, hknow.2.more more⟩
    refine (justifies_getMenuSelection hlasting _ _ _ _).bind_lasting hlasting fun chosen => ?_
    cases chosen with
    | none => exact justifies_pure _
    | some chosen =>
      dsimp only
      cases hitem : (menuItems sorter entries)[chosen]? with
      | none => exact justifies_pure _
      | some item =>
        refine justifies_ite (fun _ => justifies_pure _) fun hne => ?_
        have hcases := menuItems_cases hne hitem
        refine justifies_ite (fun hslash => ?_) fun hslash => ?_
        · -- The way up, if it is an item, or a subdirectory.
          have hsub : ∀ record, Shown root record path ∧ Listed record path entries →
              Shown root record (newPath path item).dropLast := by
            rintro record ⟨hshown, hlisted⟩
            rcases hcases with ⟨rfl, hmoved⟩ | ⟨name, hentry, hdot, hdots, rfl⟩ | ⟨-, hzip⟩
            · exact .up hshown hlisted hmoved
            · exact .down hshown hlisted hentry hdot hdots
            · exact absurd hslash (getLast?_of_isZip hzip)
          refine (justifies_inDirectory hlasting hsub wipeCache fun listing => ?_).bind_lasting
            hlasting fun result => ?_
          · exact (ih listing 0 wipeCache).of_imp fun record hknow =>
              ⟨hsub record hknow.1, hknow.2⟩
          · cases result with
            | none => exact justifies_pure _
            | some result => exact justifies_ite (fun _ => justifies_pure _) fun _ => ih _ _ _
        · obtain ⟨hentry, hzip⟩ : ⟨.regular, item⟩ ∈ entries ∧ isZip item := by
            rcases hcases with ⟨rfl, -⟩ | ⟨name, -, -, -, rfl⟩ | hzip
            · exact absurd rfl hslash
            · exact absurd List.getLast?_concat hslash
            · exact hzip
          refine @justifies_ask_bind _ BrowserAnswer _ (Warranted root) _
            (.setBootloaderMessage RecoveryMain.bareMessage)
            (fun _ record => Offered root record (newPath path item)) _ (fun _ _ _ => trivial) ?_
            fun _ => ?_
          · rintro record answer ⟨hshown, hlisted⟩
            exact ⟨record, answer, path, entries, item, rfl, hshown.more _, hlisted.more _, hentry,
              hzip, rfl⟩
          · refine @justifies_ask_bind _ BrowserAnswer _ (Warranted root) _
              (.installPackage (newPath path item)) (fun _ _ => True) _
              (fun record answer hoffered => hoffered) (fun _ _ _ => trivial) fun _ => ?_
            exact justifies_pure _

theorem justifies_updateDirectory (rounds : ℕ) (wipeCache : Int) :
    Justifies (Warranted root) (fun _ => True)
      (updateDirectory sorter unmountWhenDone rounds root wipeCache) := by
  refine justifies_inDirectory (fun _ _ _ => trivial) (fun _ _ => .root) wipeCache fun entries => ?_
  exact (justifies_browse rounds entries 0 wipeCache).of_imp fun record hknow => ⟨.root, hknow.2⟩

/-- A user highlights an item of the menu and invokes it. -/
theorem records_highlight {last index : ℕ} (hindex : index ≤ last) (keys : ℕ) :
    ∃ record : List BrowserEvent,
      Records (getMenuSelection last true (keys + 2) 0) (some index) record := by
  refine ⟨[⟨.waitKey, (0 : Int)⟩, ⟨.isTextVisible, true⟩,
    ⟨.handleMenuKey 0 true, MenuKey.highlightDown⟩,
    ⟨.selectMenu last (0 + 1), (⟨index, Nat.lt_succ_of_le hindex⟩ : Fin (last + 1))⟩,
    ⟨.waitKey, (0 : Int)⟩, ⟨.isTextVisible, true⟩, ⟨.handleMenuKey 0 true, MenuKey.invokeItem⟩], ?_⟩
  refine records_of_request (records_of_request (records_of_request (records_of_request ?_)))
  exact records_of_request (records_of_request (records_of_request Exec.pure))

theorem records_unmount (unmountWhenDone : Option (List Char)) :
    ∃ record : List BrowserEvent, Records (unmount unmountWhenDone) () record := by
  cases unmountWhenDone with
  | none => exact ⟨[], Exec.pure⟩
  | some path => exact ⟨[⟨.ensurePathUnmounted path, (0 : Int)⟩], records_of_request Exec.pure⟩

/-- A directory that is read ends as its loop does. -/
theorem records_inDirectory (unmountWhenDone : Option (List Char)) (path : List Char)
    {entries : List DirectoryEntry} {wipeCache : Int}
    {loop : List (List Char) → BrowserM (Option (Int × Int))} {result : Int × Int}
    {inner : List BrowserEvent}
    (h : Records (loop (menuItems sorter entries)) (some result) inner) :
    ∃ behind, Records (inDirectory sorter unmountWhenDone path wipeCache loop) (some result)
      (⟨.ensurePathMounted path, (0 : Int)⟩ :: ⟨.readDirectory path, some entries⟩ ::
        (inner ++ behind)) := by
  obtain ⟨behind, hbehind⟩ := records_unmount unmountWhenDone
  refine ⟨behind ++ [], records_of_request (records_of_request ?_)⟩
  exact h.bind (hbehind.bind Exec.pure)

/-- A directory that cannot be read. -/
theorem records_inDirectory_none (sorter : KeySort (id : List Char → List Char))
    (unmountWhenDone : Option (List Char)) (path : List Char) (wipeCache : Int)
    (loop : List (List Char) → BrowserM (Option (Int × Int))) :
    ∃ record, (⟨.readDirectory path, none⟩ : BrowserEvent) ∈ record ∧
      Records (inDirectory sorter unmountWhenDone path wipeCache loop) (some (0, wipeCache))
        record := by
  obtain ⟨behind, hbehind⟩ := records_unmount unmountWhenDone
  refine ⟨⟨.ensurePathMounted path, (0 : Int)⟩ :: ⟨.readDirectory path, none⟩ :: (behind ++ []),
    List.mem_cons_of_mem _ List.mem_cons_self, ?_⟩
  exact records_of_request (records_of_request (hbehind.bind Exec.pure))

/-- Behind a moved way up, the directory above can be opened. -/
theorem recorded_above (sorter : KeySort (id : List Char → List Char))
    (unmountWhenDone : Option (List Char)) (path : List Char) {entries : List DirectoryEntry}
    (h : UpMoved entries) (wipeCache : Int) :
    ∃ record, Recorded (updateDirectory sorter unmountWhenDone 3 path wipeCache) record ∧
      Listed record path entries ∧
      (⟨.readDirectory (newPath path upItem).dropLast, none⟩ : BrowserEvent) ∈ record := by
  obtain ⟨index, hne, hitem⟩ := (upMoved_iff sorter).mp h
  obtain ⟨hlt, -⟩ := List.getElem?_eq_some_iff.mp hitem
  obtain ⟨keys, hkeys⟩ := records_highlight (Nat.le_sub_one_of_lt hlt) 0
  obtain ⟨inside, hmem, hinside⟩ := records_inDirectory_none sorter unmountWhenDone
    (newPath path upItem).dropLast wipeCache fun items =>
      browse sorter unmountWhenDone 2 (newPath path upItem).dropLast items 0 wipeCache
  have hloop : Records
      (browse sorter unmountWhenDone 3 path (menuItems sorter entries) 0 wipeCache)
      (some (0, wipeCache)) (keys ++ (inside ++ [])) := by
    refine hkeys.bind ?_
    dsimp only
    rw [hitem]
    dsimp only
    have hup : upItem.getLast? = some '/' := by decide
    rw [if_neg hne, if_pos hup]
    exact hinside.bind Exec.pure
  obtain ⟨behind, hrun⟩ : ∃ behind, Records
      (updateDirectory sorter unmountWhenDone 3 path wipeCache) _ (_ :: _ :: (_ ++ behind)) :=
    records_inDirectory unmountWhenDone path hloop
  refine ⟨_, hrun.recorded, List.mem_cons_of_mem _ List.mem_cons_self, ?_⟩
  refine List.mem_cons_of_mem _ (List.mem_cons_of_mem _ (List.mem_append_left behind ?_))
  exact List.mem_append_right keys (List.mem_append_left [] hmem)

/-- Over every record of the browser, finished or not: a directory is read only if it is the root
or has been shown, and a package is installed only if it stands in a listing of such a
directory, right behind the boot message for it. The way up is an item like the others
just where a package sorts before it, and there it can be followed. -/
theorem packages_shown {rounds : ℕ} {wipeCache : Int}
    (h : Recorded (updateDirectory sorter unmountWhenDone rounds root wipeCache) record) :
    (∀ front path answer behind, record = front ++ ⟨.readDirectory path, answer⟩ :: behind →
      Shown root front path) ∧
      (∀ front path answer behind, record = front ++ ⟨.installPackage path, answer⟩ :: behind →
        Offered root front path) ∧
      (∀ entries, UpMoved entries ↔
        ∃ index, index ≠ 0 ∧ (menuItems sorter entries)[index]? = some upItem) ∧
      ∀ path entries, UpMoved entries → ∃ rounds run,
        Recorded (updateDirectory sorter unmountWhenDone rounds path wipeCache) run ∧
          Listed run path entries ∧
          ∃ answer, (⟨.readDirectory (newPath path upItem).dropLast, answer⟩ : BrowserEvent) ∈
            run := by
  have hjustified := (justifies_updateDirectory rounds wipeCache).recorded trivial h
  refine ⟨fun front path answer behind hsplit => hjustified front _ behind hsplit,
    fun front path answer behind hsplit => hjustified front _ behind hsplit,
    fun entries => upMoved_iff sorter, fun path entries hmoved => ?_⟩
  obtain ⟨run, hrun, hlisted, habove⟩ :=
    recorded_above sorter unmountWhenDone path hmoved wipeCache
  exact ⟨3, run, hrun, hlisted, none, habove⟩

/-- A path that is cut off once more. -/
theorem take_append_take {α : Type*} (first second : List α) (count : ℕ) :
    (first.take count ++ second).take count = (first ++ second).take count := by
  rw [List.take_append, List.take_append, List.take_take, Nat.min_self, List.length_take]
  congr 2
  omega

/-- The path of an item is cut off at the end of its array. -/
theorem newPath_eq (path item : List Char) :
    newPath path item = (path ++ '/' :: item).take (pathMax - 1) := by
  rw [newPath, strlcat, strlcat, strlcpy, take_append_take, List.append_assoc, take_append_take,
    List.singleton_append]

/-- What `readdir` promises of a name. -/
def FileName (name : List Char) : Prop := name ≠ [] ∧ '/' ∉ name

instance (name : List Char) : Decidable (FileName name) := inferInstanceAs (Decidable (_ ∧ _))

/-- The path along these names. -/
def pathAlong (root : List Char) (names : List (List Char)) : List Char :=
  root ++ names.flatMap ('/' :: ·)

/-- Each of the names was listed as a subdirectory where the names in front of it lead. -/
inductive ListedAlong (root : List Char) (record : List BrowserEvent) :
    (names : List (List Char)) → Prop
  | root : ListedAlong root record []
  | down {names : List (List Char)} {name : List Char} {entries : List DirectoryEntry} :
      ListedAlong root record names → Listed record (pathAlong root names) entries →
      ⟨.directory, name⟩ ∈ entries → FileName name → name ≠ ['.'] → name ≠ ['.', '.'] →
      ListedAlong root record (names ++ [name])

theorem pathAlong_snoc (root : List Char) (names : List (List Char)) (name : List Char) :
    pathAlong root (names ++ [name]) = pathAlong root names ++ '/' :: name := by
  rw [pathAlong, pathAlong, List.flatMap_append, List.flatMap_singleton, List.append_assoc]

theorem ListedAlong.more {names : List (List Char)} (h : ListedAlong root record names)
    (more : List BrowserEvent) : ListedAlong root (record ++ more) names := by
  induction h with
  | root => exact .root
  | down _ hlisted hentry hname hdot hdots ih =>
    exact .down ih (hlisted.more more) hentry hname hdot hdots

/-- Nowhere on record is the way up moved, and all names are names of files. -/
def Orderly (record : List BrowserEvent) : Prop :=
  ∀ directory entries, Listed record directory entries →
    ¬ UpMoved entries ∧ ∀ entry ∈ entries, FileName entry.name

theorem Orderly.of_append {more : List BrowserEvent} (h : Orderly (record ++ more)) :
    Orderly record :=
  fun directory entries hlisted => h directory entries (hlisted.more more)

/-- Without a moved way up, each directory on the way is a listed subdirectory. -/
theorem shown_along (horderly : Orderly record) (h : Shown root record path)
    (hlength : path.length < pathMax - 2) :
    ∃ names, path = pathAlong root names ∧ ListedAlong root record names := by
  induction h with
  | root => exact ⟨[], (List.append_nil _).symm, .root⟩
  | up _ hlisted hmoved _ => exact absurd hmoved (horderly _ _ hlisted).1
  | @down path name entries _ hlisted hentry hdot hdots ih =>
    rw [newPath_eq] at hlength ⊢
    have hwhole : (path ++ '/' :: (name ++ ['/'])).length ≤ pathMax - 1 := by
      rw [List.length_dropLast, List.length_take] at hlength
      omega
    rw [List.take_of_length_le hwhole] at hlength ⊢
    rw [← List.cons_append, ← List.append_assoc, List.dropLast_concat] at hlength ⊢
    rw [List.length_append] at hlength
    obtain ⟨names, rfl, hnames⟩ := ih (by omega)
    refine ⟨names ++ [name], (pathAlong_snoc root names name).symm, ?_⟩
    exact hnames.down hlisted hentry ((horderly _ _ hlisted).2 _ hentry) hdot hdots

/-- Unless some listing has a package whose name sorts before `"../"`, every package that is
installed lies below the root, along listed subdirectories, in the last of which it is
listed itself, if its path is not cut off. -/
theorem packages_below_root {rounds : ℕ} {wipeCache : Int}
    (h : Recorded (updateDirectory sorter unmountWhenDone rounds root wipeCache) record)
    (hnone : ∀ directory entries, Listed record directory entries → ¬ UpMoved entries)
    (hnames : ∀ directory entries, Listed record directory entries →
      ∀ entry ∈ entries, FileName entry.name)
    {answer : Int × Int} (hinstalled : (⟨.installPackage path, answer⟩ : BrowserEvent) ∈ record)
    (hlength : path.length < pathMax - 1) :
    ∃ names entries zip, path = pathAlong root names ++ '/' :: zip ∧
      ListedAlong root record names ∧ Listed record (pathAlong root names) entries ∧
      ⟨.regular, zip⟩ ∈ entries ∧ isZip zip ∧ FileName zip := by
  have horderly : Orderly record := fun directory entries hlisted =>
    ⟨hnone directory entries hlisted, hnames directory entries hlisted⟩
  obtain ⟨front, behind, rfl⟩ := List.append_of_mem hinstalled
  have hjustified := (justifies_updateDirectory rounds wipeCache).recorded trivial h
  obtain ⟨-, -, directory, entries, zip, -, hshown, hlisted, hentry, hzip, rfl⟩ :
      Offered root front path := hjustified front _ behind rfl
  rw [newPath_eq] at hlength ⊢
  have hwhole : (directory ++ '/' :: zip).length ≤ pathMax - 1 := by
    rw [List.length_take] at hlength
    omega
  rw [List.take_of_length_le hwhole] at hlength ⊢
  rw [List.length_append, List.length_cons] at hlength
  have hfour := hzip.1
  obtain ⟨names, rfl, halong⟩ := shown_along horderly.of_append hshown (by omega)
  exact ⟨names, entries, zip, rfl, halong.more _, hlisted.more _, hentry, hzip,
    (horderly _ _ (hlisted.more _)).2 _ hentry⟩

/-- A user who presses these keys, with answers that depend on how much has happened. -/
def cardReply (listing : List Char → Option (List DirectoryEntry)) (keys : ℕ → MenuKey) :
    (r : BrowserRequest) → ℕ → BrowserAnswer r
  | .ensurePathMounted _, _ => (0 : Int)
  | .readDirectory path, _ => listing path
  | .ensurePathUnmounted _, _ => (0 : Int)
  | .waitKey, _ => (0 : Int)
  | .isTextVisible, _ => true
  | .wasTextEverVisible, _ => true
  | .handleMenuKey _ _, time => keys time
  | .selectMenu last selected, _ => ⟨min selected.toNat last, by omega⟩
  | .setBootloaderMessage _, _ => (0 : Int)
  | .installPackage _, _ => ((0 : Int), (0 : Int))

/-- What the browser records with this user. -/
def cardRecord (listing : List Char → Option (List DirectoryEntry)) (keys : ℕ → MenuKey)
    (root : List Char) : List BrowserEvent :=
  ((updateDirectory (insertionKeySort id) none 20 root 0).run
    (fun r record => (cardReply listing keys r record.length,
      record ++ [⟨r, cardReply listing keys r record.length⟩])) []).2

/-- It is a record of the browser. -/
theorem recorded_cardRecord (listing : List Char → Option (List DirectoryEntry))
    (keys : ℕ → MenuKey) (root : List Char) :
    Recorded (updateDirectory (insertionKeySort id) none 20 root 0)
      (cardRecord listing keys root) :=
  (exec_run (fun _ _ => rfl) _ []).reaches

/-- A card whose root has a package that sorts before the way up, and one above it. -/
def minusCard (path : List Char) : Option (List DirectoryEntry) :=
  if path = "/card".toList then some [⟨.regular, "-.zip".toList⟩]
  else if path = "/card/..".toList then some [⟨.regular, "x.zip".toList⟩]
  else none

/-- Down and invoke, twice. -/
def downInvoke (time : ℕ) : MenuKey :=
  if time = 4 ∨ time = 13 then .highlightDown else .invokeItem

/-- The package above the root of the card can be installed. -/
theorem packages_shown_sample :
    Offered "/card".toList ((cardRecord minusCard downInvoke "/card".toList).take 19)
        "/card/../x.zip".toList ∧
      ∃ index, index ≠ 0 ∧
        (menuItems (insertionKeySort id) [⟨.regular, "-.zip".toList⟩])[index]? = some upItem := by
  have hevent : (cardRecord minusCard downInvoke "/card".toList)[19]? =
      some ⟨.installPackage "/card/../x.zip".toList, ((0 : Int), (0 : Int))⟩ := by rfl
  obtain ⟨hlt, hget⟩ := List.getElem?_eq_some_iff.mp hevent
  obtain ⟨-, hoffered, hmoved, -⟩ :=
    packages_shown (recorded_cardRecord minusCard downInvoke "/card".toList)
  constructor
  · refine hoffered _ _ ((0 : Int), (0 : Int))
      ((cardRecord minusCard downInvoke "/card".toList).drop 20) ?_
    rw [← hget, ← List.drop_eq_getElem_cons hlt, List.take_append_drop]
  · exact (hmoved _).mp ⟨"-.zip".toList, List.mem_cons_self, by decide, by decide⟩

/-- What this user's requests do. -/
def cardEffect (listing : List Char → Option (List DirectoryEntry)) (keys : ℕ → MenuKey) :
    Effect BrowserRequest BrowserAnswer (List BrowserEvent) :=
  fun r record answer record' =>
    answer = cardReply listing keys r record.length ∧ record' = record ++ [⟨r, answer⟩]

/-- The listings on record are those of the card. -/
theorem listed_cardRecord {listing : List Char → Option (List DirectoryEntry)}
    {keys : ℕ → MenuKey} {root path : List Char} {entries : List DirectoryEntry}
    (h : Listed (cardRecord listing keys root) path entries) : listing path = some entries := by
  have hkeeps : Keeps (cardEffect listing keys)
      (fun record => ∀ path entries, Listed record path entries → listing path = some entries)
      (updateDirectory (insertionKeySort id) none 20 root 0) := by
    refine keeps_of_forall ?_ _
    rintro r record answer - hknown ⟨hanswer, rfl⟩ path entries hlisted
    rcases List.mem_append.mp hlisted with hin | hlast
    · exact hknown path entries hin
    · obtain ⟨rfl, hsame⟩ := Sigma.mk.inj (List.mem_singleton.mp hlast)
      exact hanswer.symm.trans (eq_of_heq hsame).symm
  have hrun : Exec (cardEffect listing keys) []
      (updateDirectory (insertionKeySort id) none 20 root 0) _ (cardRecord listing keys root) :=
    exec_run (fun _ _ => ⟨rfl, rfl⟩) _ []
  exact hkeeps [] _ (fun _ _ hnil => absurd hnil List.not_mem_nil) hrun.reaches path entries h

/-- A card with a package in a directory in a directory. -/
def nestedCard (path : List Char) : Option (List DirectoryEntry) :=
  if path = "/card".toList then
    some [⟨.directory, "..".toList⟩, ⟨.directory, "fw".toList⟩, ⟨.regular, "a.zip".toList⟩]
  else if path = "/card/fw".toList then some [⟨.directory, "new".toList⟩]
  else if path = "/card/fw/new".toList then some [⟨.regular, "x.ZIP".toList⟩]
  else none

theorem nestedCard_orderly {path : List Char} {entries : List DirectoryEntry}
    (h : nestedCard path = some entries) :
    ¬ UpMoved entries ∧ ∀ entry ∈ entries, FileName entry.name := by
  rw [nestedCard] at h
  split_ifs at h <;> obtain rfl := Option.some.inj h <;> decide

/-- Down to it, past the other package. -/
def downPast (time : ℕ) : MenuKey :=
  if time = 4 ∨ time = 8 ∨ time = 17 ∨ time = 26 then .highlightDown else .invokeItem

/-- It is installed along both. -/
theorem packages_below_root_sample : ∃ names entries zip,
    "/card/fw/new/x.ZIP".toList = pathAlong "/card".toList names ++ '/' :: zip ∧
      ListedAlong "/card".toList (cardRecord nestedCard downPast "/card".toList) names ∧
      Listed (cardRecord nestedCard downPast "/card".toList) (pathAlong "/card".toList names)
        entries ∧
      ⟨.regular, zip⟩ ∈ entries ∧ isZip zip ∧ FileName zip := by
  have hevent : (cardRecord nestedCard downPast "/card".toList)[32]? =
      some ⟨.installPackage "/card/fw/new/x.ZIP".toList, ((0 : Int), (0 : Int))⟩ := by rfl
  refine packages_below_root (recorded_cardRecord nestedCard downPast "/card".toList) ?_ ?_
    (List.mem_of_getElem? hevent) (by decide)
  · exact fun directory entries hlisted => (nestedCard_orderly (listed_cardRecord hlisted)).1
  · exact fun directory entries hlisted => (nestedCard_orderly (listed_cardRecord hlisted)).2

end Browsing

end RobotOta.PackageBrowser
