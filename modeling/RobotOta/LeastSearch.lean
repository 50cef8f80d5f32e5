import Mathlib.Data.Prod.Lex
import Mathlib.Tactic.Common

/-!
# Searching a list for a least candidate

A search walks over the candidates, keeps the latest one whose key is not above
the kept one's, and may stop early at a candidate that no other can beat. What
it keeps in the end is least among all candidates, the ones behind an early stop
included.
-/

namespace RobotOta.LeastSearch

variable {α κ : Type*} [LinearOrder κ] (key : α → κ)

/-- Keep the later candidate where its key is not above the kept one's. -/
def keep (best : Option α) (candidate : α) : Option α :=
  match best with
  | none => some candidate
  | some kept => if key candidate ≤ key kept then some candidate else some kept

/-- Walk over the candidates and stop at a perfect one that has been kept. -/
def scan (perfect : α → Bool) : Option α → List α → Option α
  | best, [] => best
  | best, candidate :: rest =>
    if perfect candidate = true then some candidate
    else scan perfect (keep key best candidate) rest

/-- The kept candidate is one of those seen and none of them has a smaller key. -/
def Least (seen : List α) : Option α → Prop
  | none => seen = []
  | some kept => kept ∈ seen ∧ ∀ candidate ∈ seen, key kept ≤ key candidate

variable {key} {seen : List α} {best : Option α}

/-- A candidate no other can beat is kept. -/
theorem keep_of_least {candidate : α} (h : ∀ other, key candidate ≤ key other) :
    keep key best candidate = some candidate := by
  cases best with
  | none => rfl
  | some kept => rw [keep, if_pos (h kept)]

theorem keep_least (h : Least key seen best) (candidate : α) :
    Least key (seen ++ [candidate]) (keep key best candidate) := by
  cases best with
  | none =>
    have hseen : seen = [] := h
    subst hseen
    simp [keep, Least]
  | some kept =>
    obtain ⟨hmem, hleast⟩ := h
    rw [keep]
    split
    · next hle =>
      refine ⟨by simp, fun other hother => ?_⟩
      rcases List.mem_append.mp hother with h | h
      · exact hle.trans (hleast other h)
      · rw [List.mem_singleton.mp h]
    · next hle =>
      refine ⟨List.mem_append_left _ hmem, fun other hother => ?_⟩
      rcases List.mem_append.mp hother with h | h
      · exact hleast other h
      · rw [List.mem_singleton.mp h]
        exact (not_le.mp hle).le

/-- Stopping at a perfect candidate loses nothing, so the search ends with a
least candidate of all. -/
theorem scan_least {perfect : α → Bool}
    (hperfect : ∀ candidate, perfect candidate = true → ∀ other, key candidate ≤ key other)
    (h : Least key seen best) (candidates : List α) :
    Least key (seen ++ candidates) (scan key perfect best candidates) := by
  induction candidates generalizing seen best with
  | nil => rwa [List.append_nil, scan]
  | cons candidate rest ih =>
    rw [scan]
    split
    · next hp => exact ⟨by simp, fun other _ => hperfect candidate hp other⟩
    · have hrest := ih (keep_least h candidate)
      rwa [List.append_assoc, List.singleton_append] at hrest

/-- A whole search from nothing kept. -/
theorem scan_none_least {perfect : α → Bool}
    (hperfect : ∀ candidate, perfect candidate = true → ∀ other, key candidate ≤ key other)
    (candidates : List α) : Least key candidates (scan key perfect none candidates) := by
  have h : Least key [] (none : Option α) := rfl
  exact scan_least hperfect h candidates

end RobotOta.LeastSearch
