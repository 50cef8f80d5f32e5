import RobotOta.RecoveryMain
import RobotOta.DocumentedSort
import Mathlib.Data.Char
import Mathlib.Data.List.Lex

/-!
# Choosing a package on the card

`update_directory` with the menu of `get_menu_selection`. What a directory lists
may be different each time it is read, and the keys are any; the menu itself is
outside the repository and keeps the highlighted item among those it shows. A
character stands for a byte of a name.
-/

namespace RobotOta.PackageBrowser

open RequestProgram DocumentedSort

/-- The types of directory entries. -/
inductive EntryType where
  | directory
  | regular
  | other
  deriving DecidableEq

/-- `struct dirent`. -/
structure DirectoryEntry where
  /-- `d_type`. -/
  type : EntryType
  /-- `d_name`. -/
  name : List Char
  deriving DecidableEq

/-- What `HandleMenuKey` makes of a key: its negative codes, or an item. -/
inductive MenuKey where
  | highlightUp
  | highlightDown
  | invokeItem
  | noAction
  | item (index : ℕ)
  deriving DecidableEq

/-- Everything the browser asks for. -/
inductive BrowserRequest where
  | ensurePathMounted (path : List Char)
  | readDirectory (path : List Char)
  | ensurePathUnmounted (path : List Char)
  | waitKey
  | isTextVisible
  | wasTextEverVisible
  | handleMenuKey (key : Int) (visible : Bool)
  | selectMenu (last : ℕ) (selected : Int)
  | setBootloaderMessage (boot : RecoveryRequests.BootloaderMessage)
  | installPackage (path : List Char)

/-- The answers; the menu answers with one of its items. -/
def BrowserAnswer : BrowserRequest → Type
  | .ensurePathMounted _ => Int
  | .readDirectory _ => Option (List DirectoryEntry)
  | .ensurePathUnmounted _ => Int
  | .waitKey => Int
  | .isTextVisible => Bool
  | .wasTextEverVisible => Bool
  | .handleMenuKey _ _ => MenuKey
  | .selectMenu last _ => Fin (last + 1)
  | .setBootloaderMessage _ => Int
  | .installPackage _ => Int × Int

/-- A program of the browser. -/
abbrev BrowserM := Program BrowserRequest BrowserAnswer

/-- `get_menu_selection` over so many keys, for a menu with this last item; none if it
still waits behind them. -/
def getMenuSelection (last : ℕ) (menuOnly : Bool) :
    (keys : ℕ) → (selected : ℕ) → BrowserM (Option ℕ)
  | 0, _ => pure none
  | keys + 1, selected => do
    let key : Int ← ask BrowserRequest.waitKey
    let visible : Bool ← ask BrowserRequest.isTextVisible
    if key = -1 then
      let everVisible : Bool ← ask BrowserRequest.wasTextEverVisible
      if everVisible then getMenuSelection last menuOnly keys selected else pure (some 0)
    else
      match (← ask (BrowserRequest.handleMenuKey key visible) : MenuKey) with
      | .highlightUp => do
        let selected : Fin (last + 1) ← ask (BrowserRequest.selectMenu last (selected - 1))
        getMenuSelection last menuOnly keys selected
      | .highlightDown => do
        let selected : Fin (last + 1) ← ask (BrowserRequest.selectMenu last (selected + 1))
        getMenuSelection last menuOnly keys selected
      | .invokeItem => pure (some selected)
      | .noAction => getMenuSelection last menuOnly keys selected
      | .item index =>
        if menuOnly then getMenuSelection last menuOnly keys selected else pure (some index)

/-- The last four characters are `.zip`, in any case. -/
def isZip (name : List Char) : Prop :=
  4 ≤ name.length ∧ (name.drop (name.length - 4)).map Char.toLower = ".zip".toList

instance (name : List Char) : Decidable (isZip name) := inferInstanceAs (Decidable (_ ∧ _))

/-- `"../"` -/
def upItem : List Char := "../".toList

/-- The subdirectories in a directory, each with a slash. -/
def dirs (entries : List DirectoryEntry) : List (List Char) :=
  entries.filterMap fun entry =>
    if entry.type = .directory ∧ entry.name ≠ ['.'] ∧ entry.name ≠ ['.', '.'] then
      some (entry.name ++ ['/'])
    else none

/-- The packages in a directory, behind `"../"`. -/
def zips (entries : List DirectoryEntry) : List (List Char) :=
  upItem :: entries.filterMap fun entry =>
    if entry.type = .regular ∧ isZip entry.name then some entry.name else none

/-- `PATH_MAX`. -/
def pathMax : ℕ := 4096

/-- `strlcpy` of so many characters. -/
def strlcpy (size : ℕ) (src : List Char) : List Char := src.take (size - 1)

/-- `strlcat` up to so many characters. -/
def strlcat (size : ℕ) (dst src : List Char) : List Char := (dst ++ src).take (size - 1)

/-- The path of an item. -/
def newPath (path item : List Char) : List Char :=
  strlcat pathMax (strlcat pathMax (strlcpy pathMax path) ['/']) item

section Browser

variable (sorter : KeySort (id : List Char → List Char)) (unmountWhenDone : Option (List Char))

/-- The items of the menu for a directory. -/
def menuItems (entries : List DirectoryEntry) : List (List Char) :=
  sorter.sort (zips entries) ++ sorter.sort (dirs entries)

/-- `ensure_path_unmounted`, if there is something to unmount. -/
def unmount : BrowserM Unit :=
  match unmountWhenDone with
  | none => pure ()
  | some path => do
    let _ ← ask (BrowserRequest.ensurePathUnmounted path)
    pure ()

/-- `update_directory` around its loop: its result, and `*wipe_cache`. -/
def inDirectory (path : List Char) (wipeCache : Int)
    (browse : List (List Char) → BrowserM (Option (Int × Int))) :
    BrowserM (Option (Int × Int)) := do
  let _ ← ask (BrowserRequest.ensurePathMounted path)
  match (← ask (BrowserRequest.readDirectory path) : Option (List DirectoryEntry)) with
  | none => do
    unmount unmountWhenDone
    pure (some (0, wipeCache))
  | some entries => do
    match ← browse (menuItems sorter entries) with
    | none => pure none
    | some result => do
      unmount unmountWhenDone
      pure (some result)

/-- The loop of `update_directory`; none if it still waits. -/
def browse : (rounds : ℕ) → (path : List Char) → (items : List (List Char)) →
    (chosenItem : ℕ) → (wipeCache : Int) → BrowserM (Option (Int × Int))
  | 0, _, _, _, _ => pure none
  | rounds + 1, path, items, chosenItem, wipeCache => do
    match ← getMenuSelection (items.length - 1) true rounds chosenItem with
    | none => pure none
    | some chosenItem =>
      match items[chosenItem]? with
      | none => pure none
      | some item =>
        if chosenItem = 0 then pure (some (-1, wipeCache))
        else if item.getLast? = some '/' then do
          let subdirectory := (newPath path item).dropLast
          match ← inDirectory sorter unmountWhenDone subdirectory wipeCache
              fun items => browse rounds subdirectory items 0 wipeCache with
          | none => pure none
          | some (result, wipeCache) =>
            if 0 ≤ result then pure (some (result, wipeCache))
            else browse rounds path items chosenItem wipeCache
        else do
          let _ ← ask (BrowserRequest.setBootloaderMessage RecoveryMain.bareMessage)
          let (result, wipeCache) : Int × Int ←
            ask (BrowserRequest.installPackage (newPath path item))
          pure (some (result, wipeCache))

/-- `update_directory`, for so many rounds of its loops. -/
def updateDirectory (rounds : ℕ) (path : List Char) (wipeCache : Int) :
    BrowserM (Option (Int × Int)) :=
  inDirectory sorter unmountWhenDone path wipeCache fun items =>
    browse sorter unmountWhenDone rounds path items 0 wipeCache

end Browser

end RobotOta.PackageBrowser
