import RobotOta.ByteBuffer

/-!
# Memory accesses with their bounds

A region is a list of cells of fixed length. A load or a store that leaves its
region is an overrun, which ends the program; an access of no cells touches
nothing. Programs are sequences of such accesses, and an overrun in one of its
steps is an overrun of the whole.
-/

namespace RobotOta.CheckedMemory

open ByteBuffer

universe u

variable {ρ ε : Type*} {α β : Type u}

/-- An access that leaves its region. -/
structure Overrun (ρ : Type*) where
  /-- The region that was left. -/
  region : ρ
  /-- The cell that it does not have. -/
  index : ℕ
  deriving DecidableEq

/-- Load some cells. -/
def load (region : ρ) (cells : List α) (place count : ℕ) : Except (Overrun ρ) (List α) :=
  if count = 0 ∨ place + count ≤ cells.length then .ok ((cells.drop place).take count)
  else .error ⟨region, place + count - 1⟩

/-- Load one cell. -/
def loadCell (region : ρ) (cells : List α) (place : ℕ) : Except (Overrun ρ) α :=
  match cells[place]? with
  | some cell => .ok cell
  | none => .error ⟨region, place⟩

/-- Store a block. -/
def store (region : ρ) (cells : List α) (place : ℕ) (block : List α) :
    Except (Overrun ρ) (List α) :=
  if block = [] ∨ place + block.length ≤ cells.length then .ok (memcpy cells place block)
  else .error ⟨region, place + block.length - 1⟩

/-- The program has ended in an overrun. -/
def Faults (program : Except ε α) : Prop := ∃ fault, program = .error fault

section Program

variable {program : Except ε α} {next : α → Except ε β} {a : α}

theorem not_faults_ok : ¬Faults (.ok a : Except ε α) := by
  rintro ⟨fault, h⟩
  cases h

/-- Behind a result the program goes on. -/
theorem bind_of_ok (h : program = .ok a) : (program >>= next) = next a := by
  rw [h]
  rfl

/-- A fault is the end. -/
theorem faults_bind (h : Faults program) : Faults (program >>= next) := by
  obtain ⟨fault, rfl⟩ := h
  exact ⟨fault, rfl⟩

end Program

section Access

variable {region : ρ} {cells : List α} {place count : ℕ} {block : List α}

theorem load_eq (h : place + count ≤ cells.length) :
    load region cells place count = .ok ((cells.drop place).take count) := if_pos (Or.inr h)

theorem load_zero (region : ρ) (cells : List α) (place : ℕ) :
    load region cells place 0 = .ok [] := by
  rw [load, if_pos (Or.inl rfl), List.take_zero]

/-- A load that takes a cell outside the region faults. -/
theorem faults_load (hcount : count ≠ 0) (h : cells.length < place + count) :
    Faults (load region cells place count) :=
  ⟨_, if_neg (not_or.mpr ⟨hcount, Nat.not_le_of_lt h⟩)⟩

theorem loadCell_eq (otherwise : α) (h : place < cells.length) :
    loadCell region cells place = .ok (cells.getD place otherwise) := by
  rw [loadCell, List.getD_eq_getElem?_getD, List.getElem?_eq_getElem h]
  rfl

theorem faults_loadCell (h : cells.length ≤ place) : Faults (loadCell region cells place) := by
  refine ⟨⟨region, place⟩, ?_⟩
  rw [loadCell, List.getElem?_eq_none h]

theorem store_eq (h : place + block.length ≤ cells.length) :
    store region cells place block = .ok (memcpy cells place block) := if_pos (Or.inr h)

theorem store_nil (region : ρ) (cells : List α) (place : ℕ) :
    store region cells place [] = .ok cells := by
  rw [store, if_pos (Or.inl rfl), memcpy, List.append_nil, List.length_nil, Nat.add_zero,
    List.take_append_drop]

/-- A store that sets a cell outside the region faults. -/
theorem faults_store (hblock : block ≠ []) (h : cells.length < place + block.length) :
    Faults (store region cells place block) :=
  ⟨_, if_neg (not_or.mpr ⟨hblock, Nat.not_le_of_lt h⟩)⟩

end Access

end RobotOta.CheckedMemory
