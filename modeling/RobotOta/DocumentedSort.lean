import Mathlib.Data.List.Nodup
import Mathlib.Data.List.Sort

/-!
# Sorting as its documentation describes it

An unstable library sort promises a rearrangement in ascending key order and
leaves the order of equal keys open. A sort here is any function with that
promise, so results about it hold for every implementation; where the keys
are distinct there is only one outcome.
-/

namespace RobotOta.DocumentedSort

variable {α κ : Type*} [LinearOrder κ]

/-- A sort by ascending key, whatever it does with equal keys. -/
structure KeySort (key : α → κ) where
  /-- The rearranged list. -/
  sort : List α → List α
  /-- Nothing is lost and nothing added. -/
  perm : ∀ xs, (sort xs).Perm xs
  /-- Keys ascend. -/
  ordered : ∀ xs, (sort xs).Pairwise fun a b => key a ≤ key b

/-- Insertion sort keeps the promise, so the structure is inhabited for every key. -/
def insertionKeySort (key : α → κ) : KeySort key where
  sort := List.insertionSort fun a b => key a ≤ key b
  perm := List.perm_insertionSort _
  ordered xs := by
    have : Std.Total fun a b : α => key a ≤ key b := ⟨fun a b => le_total (key a) (key b)⟩
    have : IsTrans α fun a b => key a ≤ key b := ⟨fun _ _ _ => le_trans⟩
    exact List.pairwise_insertionSort _ xs

/-- Sorting keeps the members. -/
theorem KeySort.mem_sort {key : α → κ} (s : KeySort key) {xs : List α} {a : α} :
    a ∈ s.sort xs ↔ a ∈ xs := (s.perm xs).mem_iff

/-- A rearrangement of the input in strictly ascending key order is the only
possible outcome of the sort. -/
theorem KeySort.sort_eq_of_strict {key : α → κ} (s : KeySort key) {xs ys : List α}
    (hperm : ys.Perm xs) (hys : ys.Pairwise fun a b => key a < key b) : s.sort xs = ys := by
  have hp : (s.sort xs).Perm ys := (s.perm xs).trans hperm.symm
  refine hp.eq_of_pairwise ?_ (s.ordered xs) (hys.imp fun h => le_of_lt h)
  intro a b ha hb hab hba
  have hkey : key a = key b := le_antisymm hab hba
  have ha' : a ∈ ys := hp.mem_iff.mp ha
  have hdiff : (ys.map key).Nodup := List.pairwise_map.mpr (hys.imp fun h => ne_of_lt h)
  exact List.inj_on_of_nodup_map hdiff ha' hb hkey

end RobotOta.DocumentedSort
