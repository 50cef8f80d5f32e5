import Mathlib.Data.List.AList
import Mathlib.Data.Set.Function

/-!
# Numbered slots that rotate

A finite map keeps the latest values of a history in numbered slots: before a
new value is written to slot zero, every slot is renamed to the next one, from
the last downwards. Values that are missing leave gaps, which rotate as well.
-/

namespace RobotOta.RotatingSlots

variable {κ β : Type}

section Files

variable [DecidableEq κ]

/-- Give an entry another name; what had that name is gone. Without the entry
nothing happens. -/
def rename (files : AList fun _ : κ => β) (old new : κ) : AList fun _ : κ => β :=
  match files.lookup old with
  | none => files
  | some file => (files.erase old).insert new file

/-- Rename the slots below the given one, the last of them first. -/
def rotate (slot : ℕ → κ) : ℕ → (AList fun _ : κ => β) → AList fun _ : κ => β
  | 0, files => files
  | i + 1, files => rotate slot i (rename files (slot i) (slot (i + 1)))

section Rename

variable {files : AList fun _ : κ => β} {old new other : κ}

theorem lookup_rename_old (h : old ≠ new) : (rename files old new).lookup old = none := by
  rw [rename]
  cases hfile : files.lookup old with
  | none => exact hfile
  | some file => exact (AList.lookup_insert_ne h).trans (AList.lookup_erase old files)

theorem lookup_rename_new :
    (rename files old new).lookup new = (files.lookup old <|> files.lookup new) := by
  rw [rename]
  cases hfile : files.lookup old with
  | none => rfl
  | some file => exact AList.lookup_insert _

theorem lookup_rename_other (hold : other ≠ old) (hnew : other ≠ new) :
    (rename files old new).lookup other = files.lookup other := by
  rw [rename]
  cases hfile : files.lookup old with
  | none => rfl
  | some file => exact (AList.lookup_insert_ne hnew).trans (AList.lookup_erase_ne hold)

end Rename

section Rotate

variable {slot : ℕ → κ} {max : ℕ} {files : AList fun _ : κ => β}

/-- Rotation touches the slots only. -/
theorem lookup_rotate_other {other : κ} (h : ∀ i ≤ max, other ≠ slot i) :
    (rotate slot max files).lookup other = files.lookup other := by
  induction max generalizing files with
  | zero => rfl
  | succ max ih =>
    rw [rotate, ih fun i hi => h i (by omega)]
    exact lookup_rename_other (h max (by omega)) (h (max + 1) le_rfl)

/-- The first slot is free for a new value. -/
theorem lookup_rotate_zero (hslot : Set.InjOn slot {i | i ≤ max}) (hmax : 0 < max) :
    (rotate slot max files).lookup (slot 0) = none := by
  induction max generalizing files with
  | zero => omega
  | succ max ih =>
    rw [rotate]
    cases max with
    | zero =>
      refine lookup_rename_old fun heq => ?_
      exact absurd (hslot (by simp) (by simp) heq) (by omega)
    | succ max => exact ih (hslot.mono fun i hi => Nat.le_succ_of_le hi) (by omega)

/-- The value of every slot goes to the next one; the last slot keeps its own if
nothing comes. -/
theorem lookup_rotate_succ (hslot : Set.InjOn slot {i | i ≤ max}) {i : ℕ} (hi : i < max) :
    (rotate slot max files).lookup (slot (i + 1)) =
      (files.lookup (slot i) <|> if i + 1 = max then files.lookup (slot max) else none) := by
  induction max generalizing files with
  | zero => omega
  | succ max ih =>
    have hne : ∀ j k, j ≤ max + 1 → k ≤ max + 1 → j ≠ k → slot j ≠ slot k :=
      fun j k hj hk hjk heq => hjk (hslot hj hk heq)
    rw [rotate]
    by_cases hlast : i = max
    · subst hlast
      rw [lookup_rotate_other fun j hj => hne _ _ le_rfl (by omega) (by omega),
        lookup_rename_new, if_pos rfl]
    · rw [ih (hslot.mono fun j hj => Nat.le_succ_of_le hj) (by omega),
        lookup_rename_other (hne _ _ (by omega) (by omega) hlast)
          (hne _ _ (by omega) (by omega) (by omega)),
        lookup_rename_old (hne _ _ (by omega) le_rfl (by omega)), ite_self,
        if_neg (by omega : ¬i + 1 = max + 1)]

end Rotate

end Files

/-- The slots below the last show the latest values of the history, newest
first; the last one shows the newest of all older values. -/
structure Holds {γ : Type} (slot : ℕ → κ) (max : ℕ) (view : κ → Option γ)
    (history : List (Option γ)) : Prop where
  latest : ∀ i < max, view (slot i) = history[i]?.join
  oldest : view (slot max) = (history.drop max).findSome? id

section Holds

variable {γ : Type} {slot : ℕ → κ} {max : ℕ} {view : κ → Option γ} {history : List (Option γ)}

/-- A rotation makes room for the next value. -/
theorem Holds.rotate [DecidableEq κ] {files : AList fun _ : κ => β} {f : β → γ}
    (h : Holds slot max (fun name => (files.lookup name).map f) history)
    (hslot : Set.InjOn slot {i | i ≤ max}) (hmax : 0 < max) :
    Holds slot max (fun name => ((rotate slot max files).lookup name).map f)
      (none :: history) where
  latest i hi := by
    cases i with
    | zero =>
      rw [lookup_rotate_zero hslot hmax]
      rfl
    | succ i =>
      have hlatest := h.latest i (by omega)
      rw [lookup_rotate_succ hslot (by omega), if_neg (by omega), List.getElem?_cons_succ,
        ← hlatest]
      cases files.lookup (slot i) with
      | none => rfl
      | some file => rfl
  oldest := by
    obtain ⟨i, rfl⟩ : ∃ i, max = i + 1 := ⟨max - 1, by omega⟩
    have hlatest := h.latest i (Nat.lt_succ_self i)
    have holdest := h.oldest
    rw [lookup_rotate_succ hslot (Nat.lt_succ_self i), if_pos rfl, List.drop_succ_cons]
    have hdrop : (history.drop i).findSome? id =
        (history[i]?.join <|> (history.drop (i + 1)).findSome? id) := by
      by_cases hshort : i < history.length
      · rw [List.drop_eq_getElem_cons hshort, List.findSome?_cons,
          List.getElem?_eq_getElem hshort]
        cases history[i] with
        | none => rfl
        | some value => rfl
      · rw [List.getElem?_eq_none (by omega), List.drop_eq_nil_of_le (by omega),
          List.drop_eq_nil_of_le (by omega)]
        rfl
    rw [hdrop, ← hlatest, ← holdest]
    cases files.lookup (slot i) with
    | none => rfl
    | some file => rfl

/-- What changes the first slot alone changes the newest value. -/
theorem Holds.write {value : Option γ} (h : Holds slot max view (value :: history))
    (hmax : 0 < max) {after : κ → Option γ}
    (hafter : ∀ i < max, after (slot (i + 1)) = view (slot (i + 1))) :
    Holds slot max after (after (slot 0) :: history) where
  latest i hi := by
    cases i with
    | zero => rfl
    | succ i => exact (hafter i (by omega)).trans (h.latest (i + 1) hi)
  oldest := by
    obtain ⟨i, rfl⟩ : ∃ i, max = i + 1 := ⟨max - 1, by omega⟩
    exact (hafter i (Nat.lt_succ_self i)).trans h.oldest

/-- A change that acts on each slot alone acts on each value of the history. -/
theorem Holds.map {γ' : Type} (h : Holds slot max view history) {after : κ → Option γ'}
    {f : γ → γ'} (hafter : ∀ i ≤ max, after (slot i) = (view (slot i)).map f) :
    Holds slot max after (history.map (Option.map f)) where
  latest i hi := by
    rw [hafter i (Nat.le_of_lt hi), h.latest i hi, List.getElem?_map]
    cases history[i]? with
    | none => rfl
    | some value => rfl
  oldest := by
    rw [hafter max le_rfl, h.oldest, ← List.map_drop, List.findSome?_map]
    generalize history.drop max = values
    induction values with
    | nil => rfl
    | cons value values ih =>
      cases value with
      | none => exact ih
      | some value => rfl

end Holds

end RobotOta.RotatingSlots
