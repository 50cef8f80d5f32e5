import Mathlib.Algebra.Order.Ring.Int
import Mathlib.Tactic.Common

/-!
# Reading and storing runs of cells

A medium gives a cell at each place, or nothing where it cannot be read, and a
read goes up to the first such place. Memory holds a cell at each place; a block
stored into it replaces the cells under the block. Numbers of 32 bits with a
sign are integers reduced to that range.
-/

namespace RobotOta.BlockDevice

variable {α : Type*}

section Medium

variable {medium : ℕ → Option α} {position count : ℕ}

/-- What a read of `count` cells gets. -/
def readAt (medium : ℕ → Option α) : (position count : ℕ) → List α
  | _, 0 => []
  | position, count + 1 =>
    match medium position with
    | none => []
    | some cell => cell :: readAt medium (position + 1) count

theorem readAt_succ (count : ℕ) (hcell : (medium position).isSome) :
    ∃ cell, medium position = some cell ∧
      readAt medium position (count + 1) = cell :: readAt medium (position + 1) count := by
  obtain ⟨cell, hcell⟩ := Option.isSome_iff_exists.mp hcell
  exact ⟨cell, hcell, by rw [readAt, hcell]⟩

theorem length_readAt_le (medium : ℕ → Option α) (position count : ℕ) :
    (readAt medium position count).length ≤ count := by
  induction count generalizing position with
  | zero => exact le_rfl
  | succ count ih =>
    rw [readAt]
    cases medium position with
    | none => exact Nat.zero_le _
    | some cell => exact Nat.succ_le_succ (ih (position + 1))

/-- A read is complete where every place can be read. -/
theorem length_readAt (h : ∀ i < count, (medium (position + i)).isSome) :
    (readAt medium position count).length = count := by
  induction count generalizing position with
  | zero => rfl
  | succ count ih =>
    obtain ⟨cell, -, hread⟩ := readAt_succ count (h 0 (Nat.succ_pos count))
    have hrest := @ih (position + 1) fun i hi => by
      rw [Nat.add_right_comm]
      exact h (i + 1) (Nat.succ_lt_succ hi)
    rw [Nat.add_zero] at hread
    rw [hread, List.length_cons, hrest]

/-- A read in two parts, the first of which is complete. -/
theorem readAt_add (h : (readAt medium position count).length = count) (more : ℕ) :
    readAt medium position (count + more) =
      readAt medium position count ++ readAt medium (position + count) more := by
  induction count generalizing position with
  | zero => rw [Nat.zero_add]; rfl
  | succ count ih =>
    rw [Nat.succ_add, readAt, readAt]
    rw [readAt] at h
    cases hcell : medium position with
    | none =>
      rw [hcell] at h
      cases h
    | some cell =>
      rw [hcell] at h
      dsimp only at h ⊢
      rw [ih (Nat.succ.inj h), List.cons_append, Nat.add_assoc, Nat.add_comm 1 count]

/-- What has been read is what the medium holds. -/
theorem getElem?_readAt {i : ℕ} (hi : i < (readAt medium position count).length) :
    (readAt medium position count)[i]? = medium (position + i) := by
  induction count generalizing position i with
  | zero => exact absurd hi (Nat.not_lt_zero i)
  | succ count ih =>
    cases hcell : medium position with
    | none =>
      rw [readAt, hcell] at hi
      exact absurd hi (Nat.not_lt_zero i)
    | some cell =>
      rw [readAt, hcell] at hi ⊢
      cases i with
      | zero => rw [List.getElem?_cons_zero, Nat.add_zero, hcell]
      | succ i =>
        rw [List.getElem?_cons_succ, ih (Nat.lt_of_succ_lt_succ hi), Nat.add_right_comm,
          Nat.add_assoc]

/-- It is complete if both parts are. -/
theorem length_readAt_add (count more : ℕ) :
    (readAt medium position (count + more)).length = count + more ↔
      (readAt medium position count).length = count ∧
        (readAt medium (position + count) more).length = more := by
  have hle := length_readAt_le medium (position + count) more
  constructor
  · intro h
    have hfirst : (readAt medium position count).length = count := by
      by_contra hshort
      refine hshort (length_readAt fun i hi => ?_)
      have hread : i < (readAt medium position (count + more)).length := by omega
      rw [← getElem?_readAt hread, List.getElem?_eq_getElem hread]
      rfl
    rw [readAt_add hfirst, List.length_append, hfirst] at h
    exact ⟨hfirst, by omega⟩
  · rintro ⟨hfirst, hmore⟩
    rw [readAt_add hfirst, List.length_append, hfirst, hmore]

end Medium

section Memory

variable {cells : ℕ → α} {place i : ℕ} {block : List α}

/-- Store a block at a place. -/
def store (cells : ℕ → α) (place : ℕ) (block : List α) (i : ℕ) : α :=
  if place ≤ i then block[i - place]?.getD (cells i) else cells i

/-- Beside the block nothing changes. -/
theorem store_outside (h : i < place ∨ place + block.length ≤ i) :
    store cells place block i = cells i := by
  rw [store]
  split_ifs with hle
  · rw [List.getElem?_eq_none (by omega), Option.getD_none]
  · rfl

/-- Under the block is the block. -/
theorem store_inside (h : i < block.length) :
    block[i]? = some (store cells place block (place + i)) := by
  rw [store, if_pos (Nat.le_add_right place i), Nat.add_sub_cancel_left,
    List.getElem?_eq_getElem h, Option.getD_some]

/-- The cells from the start on. -/
def firstCells (cells : ℕ → α) (count : ℕ) : List α := (List.range count).map cells

@[simp] theorem length_firstCells (cells : ℕ → α) (count : ℕ) :
    (firstCells cells count).length = count := by
  rw [firstCells, List.length_map, List.length_range]

theorem getElem?_firstCells {count : ℕ} (h : i < count) :
    (firstCells cells count)[i]? = some (cells i) := by
  rw [firstCells, List.getElem?_map, List.getElem?_range h, Option.map_some]

/-- Two runs of equal cells, one behind the other, are one run. -/
theorem equal_behind {medium : ℕ → Option α} {start count : ℕ} (head : ℕ)
    (hhead : ∀ i < head, medium (start + i) = some (cells (place + i)))
    (hrest : ∀ i < count - head, medium (start + head + i) = some (cells (place + head + i))) :
    ∀ i < count, medium (start + i) = some (cells (place + i)) := by
  intro i hi
  by_cases hi' : i < head
  · exact hhead i hi'
  · have hcell := hrest (i - head) (by omega)
    rwa [Nat.add_assoc, Nat.add_assoc, Nat.add_sub_of_le (Nat.le_of_not_lt hi')] at hcell

end Memory

section Int32

variable {x : ℤ}

/-- Reduction to a signed number of 32 bits. -/
def int32 (x : ℤ) : ℤ := x.bmod (2 ^ 32)

theorem int32_def (x : ℤ) :
    int32 x = if x % 2 ^ 32 < 2 ^ 31 then x % 2 ^ 32 else x % 2 ^ 32 - 2 ^ 32 := rfl

/-- A number that fits is kept. -/
theorem int32_eq (hlo : -2 ^ 31 ≤ x) (hhi : x < 2 ^ 31) : int32 x = x := by
  rw [int32_def]
  split_ifs <;> omega

/-- From 2^31 up to 2^32 the reduction is negative. -/
theorem int32_neg (hlo : 2 ^ 31 ≤ x) (hhi : x < 2 ^ 32) : int32 x = x - 2 ^ 32 := by
  rw [int32_def]
  split_ifs <;> omega

theorem int32_lt (x : ℤ) : int32 x < 2 ^ 31 := by
  rw [int32_def]
  split_ifs <;> omega

/-- Sums may be reduced at every step. -/
theorem int32_add (x y : ℤ) : int32 (int32 x + y) = int32 (x + y) := by
  simp only [int32_def]
  split_ifs <;> omega

end Int32

end RobotOta.BlockDevice
