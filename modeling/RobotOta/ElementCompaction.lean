import RobotOta.DocumentedSort
import RobotOta.HexAddresses
import Mathlib.Data.List.Chain
import Mathlib.Algebra.Group.Nat.Even

/-!
# The compaction of the image elements

`CompactElements` sorts the elements by address and walks over them once,
copying an element into its neighbour where the two seem contiguous. The
bound of the walk is the last element as it is then, so a copy of the last
element takes the iterator past it, and an empty vector has no last element.
-/

namespace RobotOta.ElementCompaction

open DocumentedSort HexLoader HexRecords HexAddresses

/-- `CompareElement` orders by the signed address. -/
def elementKey (element : ImageElement) : ℤ := element.address.toInt

/-- The test of `CompactElements` on an element and its successor. -/
def Touches (pElement1 pElement2 : ImageElement) : Prop :=
  pElement1.address + BitVec.ofNat 32 (pElement1.data.length / 2) = pElement2.address

instance (pElement1 pElement2 : ImageElement) : Decidable (Touches pElement1 pElement2) :=
  inferInstanceAs (Decidable (_ = _))

/-- The first element after the second was copied behind its data. -/
def merged (pElement1 pElement2 : ImageElement) : ImageElement :=
  { pElement1 with data := pElement1.data ++ pElement2.data }

/-- The loop of `CompactElements` on the vector and the position of `it`: the
vector it leaves, or none where it reads outside of the vector. -/
def compactLoop (mPElements : List ImageElement) (it : ℕ) : Option (List ImageElement) :=
  if it + 1 = mPElements.length then some mPElements
  else if hread : it + 1 < mPElements.length then
    let pElement1 := mPElements[it]
    let pElement2 := mPElements[it + 1]
    if Touches pElement1 pElement2 then
      compactLoop ((mPElements.set it (merged pElement1 pElement2)).eraseIdx (it + 1)) (it + 1)
    else compactLoop mPElements (it + 1)
  else none
termination_by mPElements.length - it
decreasing_by
  · have hle := List.length_eraseIdx_le
      (mPElements.set it (merged mPElements[it] mPElements[it + 1])) (it + 1)
    rw [List.length_set] at hle
    omega
  · omega

/-- `CompactElements`. -/
def compactElements (sorter : KeySort elementKey) (mPElements : List ImageElement) :
    Option (List ImageElement) :=
  compactLoop (sorter.sort mPElements) 0

/-- What becomes of the vector from the iterator on. Behind a copy the iterator
moves on, so the element after the copied one is not compared with it. -/
def compactFrom : List ImageElement → Option (List ImageElement)
  | [] => none
  | [pElement] => some [pElement]
  | pElement1 :: pElement2 :: rest =>
    if Touches pElement1 pElement2 then
      (compactFrom rest).map (merged pElement1 pElement2 :: ·)
    else (compactFrom (pElement2 :: rest)).map (pElement1 :: ·)

/-- The loop leaves what is in front of the iterator as it is. -/
theorem compactLoop_append (front rest : List ImageElement) :
    compactLoop (front ++ rest) front.length = (compactFrom rest).map (front ++ ·) := by
  induction rest using compactFrom.induct generalizing front with
  | case1 =>
    rw [compactLoop, if_neg (by simp), dif_neg (by simp)]
    rfl
  | case2 pElement =>
    rw [compactLoop, if_pos (by simp)]
    rfl
  | case3 pElement1 pElement2 rest htouches ih =>
    have hrest := ih (front ++ [merged pElement1 pElement2])
    have herase : ((front ++ pElement1 :: pElement2 :: rest).set front.length
        (merged pElement1 pElement2)).eraseIdx (front.length + 1) =
        front ++ [merged pElement1 pElement2] ++ rest := by
      rw [List.set_append_right _ _ le_rfl, Nat.sub_self, List.set_cons_zero,
        List.eraseIdx_append_of_length_le (Nat.le_succ _)]
      simp
    rw [compactLoop, if_neg (by simp), dif_pos (by simp)]
    simp only [List.getElem_append_right, le_refl, Nat.sub_self, List.getElem_cons_zero,
      Nat.le_succ, Nat.add_sub_cancel_left, List.getElem_cons_succ, if_pos htouches, herase]
    rw [List.length_append, List.length_singleton] at hrest
    rw [hrest, compactFrom, if_pos htouches, Option.map_map]
    simp [Function.comp_def]
  | case4 pElement1 pElement2 rest htouches ih =>
    have hrest := ih (front ++ [pElement1])
    rw [compactLoop, if_neg (by simp), dif_pos (by simp)]
    simp only [List.getElem_append_right, le_refl, Nat.sub_self, List.getElem_cons_zero,
      Nat.le_succ, Nat.add_sub_cancel_left, List.getElem_cons_succ, if_neg htouches]
    rw [List.length_append, List.length_singleton, List.append_assoc, List.singleton_append]
      at hrest
    rw [hrest, compactFrom, if_neg htouches, Option.map_map]
    simp [Function.comp_def]

/-- `CompactElements` is the walk over the sorted vector. -/
theorem compactElements_eq (sorter : KeySort elementKey) (mPElements : List ImageElement) :
    compactElements sorter mPElements = compactFrom (sorter.sort mPElements) := by
  have h := compactLoop_append [] (sorter.sort mPElements)
  simpa [compactElements] using h

/-- The elements behind the last pair of neighbours that do not touch are odd
in number. -/
def EndsInOddRun (elements : List ImageElement) : Prop :=
  ∃ front run, elements = front ++ run ∧ run.IsChain Touches ∧
    (∀ last ∈ front.getLast?, ∀ first ∈ run.head?, ¬Touches last first) ∧ Odd run.length

/-- An element that does not touch the next one is in front of the last run. -/
theorem endsInOddRun_cons {pElement1 pElement2 : ImageElement} {rest : List ImageElement}
    (h : ¬Touches pElement1 pElement2) :
    EndsInOddRun (pElement1 :: pElement2 :: rest) ↔ EndsInOddRun (pElement2 :: rest) := by
  constructor
  · rintro ⟨front, run, hsplit, hchain, hbreak, hodd⟩
    cases front with
    | nil =>
      rw [List.nil_append] at hsplit
      rw [← hsplit] at hchain
      exact absurd (List.isChain_cons_cons.mp hchain).1 h
    | cons first front =>
      obtain ⟨-, htail⟩ := List.cons_eq_cons.mp hsplit
      refine ⟨front, run, htail, hchain, ?_, hodd⟩
      intro last hlast
      exact hbreak last (List.mem_getLast?_cons hlast)
  · rintro ⟨front, run, hsplit, hchain, hbreak, hodd⟩
    refine ⟨pElement1 :: front, run, by rw [hsplit, List.cons_append], hchain, ?_, hodd⟩
    cases front with
    | nil =>
      rw [List.nil_append] at hsplit
      intro last hlast first hfirst
      rw [← hsplit] at hfirst
      cases hlast
      cases hfirst
      exact h
    | cons second front =>
      intro last hlast
      rw [List.getLast?_cons_cons] at hlast
      exact hbreak last hlast

/-- A pair that touches is in the last run with what is behind it, or in front
of that run. -/
theorem endsInOddRun_cons_cons {pElement1 pElement2 : ImageElement} {rest : List ImageElement}
    (h : Touches pElement1 pElement2) :
    EndsInOddRun (pElement1 :: pElement2 :: rest) ↔ EndsInOddRun rest := by
  constructor
  · rintro ⟨front, run, hsplit, hchain, hbreak, hodd⟩
    cases front with
    | nil =>
      rw [List.nil_append] at hsplit
      subst hsplit
      refine ⟨[], rest, rfl, hchain.tail.tail, by simp, ?_⟩
      rw [List.length_cons, List.length_cons] at hodd
      rw [Nat.odd_iff] at hodd ⊢
      omega
    | cons first front =>
      obtain ⟨hfirst, htail⟩ := List.cons_eq_cons.mp hsplit
      cases front with
      | nil =>
        have hrun : pElement2 :: rest = run := htail
        rw [← hrun] at hbreak
        rw [← hfirst] at hbreak
        exact absurd h (hbreak _ rfl _ rfl)
      | cons second front =>
        obtain ⟨-, hrest⟩ := List.cons_eq_cons.mp htail
        refine ⟨front, run, hrest, hchain, ?_, hodd⟩
        intro last hlast
        exact hbreak last (List.mem_getLast?_cons (List.mem_getLast?_cons hlast))
  · rintro ⟨front, run, rfl, hchain, hbreak, hodd⟩
    cases front with
    | nil =>
      cases run with
      | nil => simp at hodd
      | cons first run =>
        by_cases hnext : Touches pElement2 first
        · refine ⟨[], pElement1 :: pElement2 :: first :: run, rfl, ?_, by simp, ?_⟩
          · exact List.isChain_cons_cons.mpr ⟨h, List.isChain_cons_cons.mpr ⟨hnext, hchain⟩⟩
          · rw [List.length_cons, List.length_cons]
            rw [Nat.odd_iff] at hodd ⊢
            omega
        · refine ⟨[pElement1, pElement2], first :: run, rfl, hchain, ?_, hodd⟩
          intro last hlast other hother
          cases hlast
          cases hother
          exact hnext
    | cons second front =>
      refine ⟨pElement1 :: pElement2 :: second :: front, run, rfl, hchain, ?_, hodd⟩
      intro last hlast
      rw [List.getLast?_cons_cons, List.getLast?_cons_cons] at hlast
      exact hbreak last hlast

/-- The walk ends at the last element if and only if the last run is odd. -/
theorem compactFrom_isSome_iff (elements : List ImageElement) :
    (compactFrom elements).isSome ↔ EndsInOddRun elements := by
  induction elements using compactFrom.induct with
  | case1 =>
    refine iff_of_false (by simp [compactFrom]) ?_
    rintro ⟨front, run, hsplit, -, -, hodd⟩
    obtain ⟨-, rfl⟩ := List.append_eq_nil_iff.mp hsplit.symm
    simp at hodd
  | case2 pElement =>
    refine iff_of_true rfl ⟨[], [pElement], rfl, List.IsChain.singleton _, by simp, ?_⟩
    exact odd_one
  | case3 pElement1 pElement2 rest htouches ih =>
    rw [compactFrom, if_pos htouches, Option.isSome_map, ih, endsInOddRun_cons_cons htouches]
  | case4 pElement1 pElement2 rest htouches ih =>
    rw [compactFrom, if_neg htouches, Option.isSome_map, ih, endsInOddRun_cons htouches]

/-- Every access of `CompactElements` lies in the vector, and its loop stops. -/
def StaysInside (sorter : KeySort elementKey) (mPElements : List ImageElement) : Prop :=
  ∃ compacted, compactElements sorter mPElements = some compacted

/-- `CompactElements` stays inside of the vector if and only if the last
elements in address order that touch are odd in number. -/
theorem staysInside_iff (sorter : KeySort elementKey) (mPElements : List ImageElement) :
    StaysInside sorter mPElements ↔ EndsInOddRun (sorter.sort mPElements) := by
  rw [StaysInside, ← Option.isSome_iff_exists, compactElements_eq, compactFrom_isSome_iff]

/-- Two words at word address 2, then the two in front of them. -/
def swappedRecords : List HexRecord :=
  [⟨4, 2, 0, [1, 2, 3, 4], 0xF0⟩, ⟨4, 0, 0, [5, 6, 7, 8], 0xE2⟩, ⟨0, 0, 1, [], 0xFF⟩]

/-- The loader accepts a file that has not one byte, or its records out of
order, and the compaction leaves the vector. -/
theorem not_staysInside_accepted :
    ¬(∀ rest state, recordLoop 2 (startState ⟨0, 0, 0, 0, 0⟩) [] = .accepted rest state →
        StaysInside (insertionKeySort elementKey) state.mPElements) ∧
      ¬∀ rest state,
        recordLoop 2 (startState ⟨0, 0, 0, 0, 0⟩) (formatLines swappedRecords) =
            .accepted rest state →
          StaysInside (insertionKeySort elementKey) state.mPElements := by
  constructor
  · intro h
    obtain ⟨compacted, hcompacted⟩ := h _ _ (recordLoop_lastByte rfl)
    rw [compactElements_eq] at hcompacted
    cases hcompacted
  · intro h
    have hfile : WellFormed (formatLines swappedRecords) swappedRecords :=
      wellFormed_formatLines (by decide) (by decide)
    have hrun := recordLoop_wellFormed hfile 2 ⟨0, 0, 0, 0, 0⟩
    rw [if_neg (by decide)] at hrun
    obtain ⟨rest, final, haccept, -, hstored⟩ := hrun
    obtain ⟨compacted, hcompacted⟩ := h rest final haccept
    rw [compactElements_eq, hstored] at hcompacted
    have hnone : compactFrom ((insertionKeySort elementKey).sort
        ((loaderElements 0 0 swappedRecords).foldl (storeElement 2) [])) = none := by decide
    exact Option.some_ne_none compacted (hcompacted.symm.trans hnone)

end RobotOta.ElementCompaction
