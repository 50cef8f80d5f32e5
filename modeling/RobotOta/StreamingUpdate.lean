import Mathlib.Data.List.Basic
import Mathlib.Data.List.TakeDrop

/-!
# Consumers that take a stream piece by piece

Digests, checksums and signatures are updated with the pieces of a stream. All that
is asked of an update is that two pieces have the effect of the joined piece; then a
content may be fed in pieces of any size.
-/

namespace RobotOta.StreamingUpdate

variable {α σ : Type*} {update : σ → List α → σ}

/-- An update with two pieces is the update with the joined piece. -/
structure Streaming (update : σ → List α → σ) : Prop where
  update_nil : ∀ state, update state [] = state
  update_append : ∀ state xs ys, update state (xs ++ ys) = update (update state xs) ys

/-- The piece behind a prefix that has been fed leads to the longer prefix. -/
theorem Streaming.update_take (h : Streaming update) (state : σ) (content : List α) (n k : ℕ) :
    update (update state (content.take n)) ((content.drop n).take k) =
      update state (content.take (n + k)) := by
  rw [← h.update_append, ← List.take_add]

/-- Nothing has been fed before the start. -/
theorem Streaming.update_take_zero (h : Streaming update) (state : σ) (content : List α) :
    update state (content.take 0) = state := by
  rw [List.take_zero, h.update_nil]

end RobotOta.StreamingUpdate
