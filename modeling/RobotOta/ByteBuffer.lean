import Mathlib.Data.List.Basic
import Mathlib.Tactic.Linarith

/-!
# Fixed-size buffers written piecewise

A buffer is a list whose length never changes; copying a block into it
replaces exactly the cells under the block. The element type is arbitrary.
-/

namespace RobotOta.ByteBuffer

variable {α : Type*}

/-- Copy a block over the cells of a buffer starting at an offset. -/
def memcpy (buffer : List α) (offset : ℕ) (block : List α) : List α :=
  buffer.take offset ++ block ++ buffer.drop (offset + block.length)

/-- A copy inside the buffer keeps the buffer's length. -/
theorem length_memcpy {buffer block : List α} {offset : ℕ}
    (h : offset + block.length ≤ buffer.length) :
    (memcpy buffer offset block).length = buffer.length := by
  simp only [memcpy, List.length_append, List.length_take, List.length_drop]
  omega

/-- A copy at the start is the block followed by the untouched cells. -/
theorem memcpy_zero (buffer block : List α) :
    memcpy buffer 0 block = block ++ buffer.drop block.length := by
  simp [memcpy]

/-- The copied block is read back from the start of the buffer. -/
theorem take_memcpy_zero (buffer block : List α) :
    (memcpy buffer 0 block).take block.length = block := by
  rw [memcpy_zero, List.take_left]

/-- A prefix shorter than the copied block is a prefix of the block. -/
theorem take_memcpy_zero_le {buffer block : List α} {n : ℕ} (h : n ≤ block.length) :
    (memcpy buffer 0 block).take n = block.take n := by
  rw [memcpy_zero, List.take_append_of_le_length h]

/-- Elements spelled out one after another, all with the same width, are told apart. -/
theorem flatMap_injective {β : Type*} {spell : α → List β} {width : ℕ} (hpos : 0 < width)
    (hwidth : ∀ a, (spell a).length = width) (hspell : Function.Injective spell) :
    Function.Injective fun elements : List α => elements.flatMap spell := by
  intro xs ys h
  dsimp only at h
  induction xs generalizing ys with
  | nil =>
    cases ys with
    | nil => rfl
    | cons y ys =>
      have hlen := congrArg List.length h
      rw [List.flatMap_cons, List.length_append, hwidth, List.flatMap_nil, List.length_nil] at hlen
      omega
  | cons x xs ih =>
    cases ys with
    | nil =>
      have hlen := congrArg List.length h
      rw [List.flatMap_cons, List.length_append, hwidth, List.flatMap_nil, List.length_nil] at hlen
      omega
    | cons y ys =>
      obtain ⟨hhead, htail⟩ := List.append_inj h (by rw [hwidth, hwidth])
      rw [hspell hhead, ih htail]

end RobotOta.ByteBuffer
