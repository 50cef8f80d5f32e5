import RobotOta.ElementCompaction
import RobotOta.SegmentImage

/-!
# The memory image of the elements

An element covers the bytes from its address, which counts bytes or words, on.
The compaction computes in words whatever the unit is, and goes on behind the
neighbour it has copied: it never joins elements of a byte-addressed image,
and of three in a row it joins only the first two.
-/

namespace RobotOta.ElementImage

open DocumentedSort HexLoader HexRecords HexAddresses ElementCompaction SegmentImage
open CanFrameCodec (Byte)

variable {addrBytes : ℕ} {elements compacted : List ImageElement}
  {pElement1 pElement2 : ImageElement}

/-- The bytes of an element and the byte address of the first one. -/
def bytesOf (addrBytes : ℕ) (element : ImageElement) : Segment Byte :=
  ⟨addrBytes * element.address.toInt, element.data⟩

/-- The bytes of all elements. -/
def image (addrBytes : ℕ) (elements : List ImageElement) : List (Segment Byte) :=
  elements.map (bytesOf addrBytes)

/-- The elements are of lengths a `long` holds, none is empty, and their byte
ranges are disjoint. -/
structure DisjointElements (addrBytes : ℕ) (elements : List ImageElement) : Prop where
  length_pos : ∀ element ∈ elements, 1 ≤ element.data.length
  length_lt : ∀ element ∈ elements, element.data.length < 2 ^ 31
  apart : (image addrBytes elements).Pairwise Apart

/-- The second element starts right behind the first one, in the unit of the
addresses. -/
def Contiguous (addrBytes : ℕ) (first second : ImageElement) : Prop :=
  first.address.toInt + (first.data.length / addrBytes : ℕ) = second.address.toInt

instance (first second : ImageElement) : Decidable (Contiguous addrBytes first second) :=
  inferInstanceAs (Decidable (_ = _))

/-- The compacted elements are in strictly ascending order, hold the same
memory image in as many bytes, and no two neighbours are contiguous. -/
structure Normalised (addrBytes : ℕ) (elements compacted : List ImageElement) : Prop where
  /-- Addresses ascend. -/
  ascending : compacted.Pairwise fun first second =>
    first.address.toInt < second.address.toInt
  /-- Every byte is where it was. -/
  holds : ∀ a b, Holds (image addrBytes compacted) a b ↔ Holds (image addrBytes elements) a b
  /-- Their number is the same. -/
  length : (compacted.map fun element => element.data.length).sum =
    (elements.map fun element => element.data.length).sum
  /-- No two neighbours could be joined. -/
  separate : compacted.IsChain fun first second => ¬Contiguous addrBytes first second

/-- What the compaction leaves nothing to join in: of byte addresses no two
elements that adjoin, of word addresses no three in a row. -/
def FewAdjoin (addrBytes : ℕ) (elements : List ImageElement) : Prop :=
  if addrBytes = 1 then
    ∀ s ∈ image addrBytes elements, ∀ t ∈ image addrBytes elements, ¬Adjoins s t
  else NoThreeAdjoin (image addrBytes elements)

/-- The test of the compaction does not wrap on elements in order. -/
theorem touches_iff (hlen : pElement1.data.length < 2 ^ 31)
    (hle : pElement1.address.toInt + (pElement1.data.length / 2 : ℕ) ≤ pElement2.address.toInt) :
    Touches pElement1 pElement2 ↔
      pElement1.address.toInt + (pElement1.data.length / 2 : ℕ) = pElement2.address.toInt := by
  have hwords : (BitVec.ofNat 32 (pElement1.data.length / 2)).toInt =
      (pElement1.data.length / 2 : ℕ) := by
    rw [BitVec.toInt_eq_toNat_of_lt (by rw [BitVec.toNat_ofNat]; omega), BitVec.toNat_ofNat,
      Nat.mod_eq_of_lt (by omega)]
  have hlo := BitVec.le_toInt pElement1.address
  have hhi := BitVec.toInt_lt (x := pElement2.address)
  rw [Touches, ← BitVec.toInt_inj, BitVec.toInt_add, hwords, Int.bmod_eq_of_le]
  · omega
  · omega

/-- On word addresses the test of the compaction finds what adjoins. -/
theorem touches_iff_adjoins (hlen : pElement1.data.length < 2 ^ 31)
    (hle : (bytesOf 2 pElement1).stop ≤ (bytesOf 2 pElement2).start) :
    Touches pElement1 pElement2 ↔ Adjoins (bytesOf 2 pElement1) (bytesOf 2 pElement2) := by
  simp only [Segment.stop, bytesOf, Adjoins, Nat.cast_ofNat] at hle ⊢
  rw [touches_iff hlen (by omega)]
  omega

/-- On byte addresses it finds nothing. -/
theorem not_touches (hpos : 1 ≤ pElement1.data.length) (hlen : pElement1.data.length < 2 ^ 31)
    (hle : (bytesOf 1 pElement1).stop ≤ (bytesOf 1 pElement2).start) :
    ¬Touches pElement1 pElement2 := by
  simp only [Segment.stop, bytesOf, Nat.cast_one, one_mul] at hle
  rw [touches_iff hlen (by omega)]
  omega

/-- Elements in order are contiguous if and only if they adjoin. -/
theorem contiguous_iff_adjoins (hbytes : addrBytes = 1 ∨ addrBytes = 2)
    (hle : (bytesOf addrBytes pElement1).stop ≤ (bytesOf addrBytes pElement2).start) :
    Contiguous addrBytes pElement1 pElement2 ↔
      Adjoins (bytesOf addrBytes pElement1) (bytesOf addrBytes pElement2) := by
  rcases hbytes with rfl | rfl
  · simp only [Segment.stop, bytesOf, Adjoins, Contiguous, Nat.cast_one, one_mul, Nat.div_one]
  · simp only [Segment.stop, bytesOf, Adjoins, Contiguous, Nat.cast_ofNat] at hle ⊢
    omega

/-- Elements in order are in strictly ascending address order. -/
theorem address_lt (hbytes : addrBytes = 1 ∨ addrBytes = 2)
    (hcells : (bytesOf addrBytes pElement1).cells ≠ [])
    (hle : (bytesOf addrBytes pElement1).stop ≤ (bytesOf addrBytes pElement2).start) :
    pElement1.address.toInt < pElement2.address.toInt := by
  have hlt := (start_lt_stop hcells).trans_le hle
  rcases hbytes with rfl | rfl
  · simp only [bytesOf, Nat.cast_one, one_mul] at hlt
    exact hlt
  · simp only [bytesOf, Nat.cast_ofNat] at hlt
    omega

/-- On word addresses the walk of the compaction joins pairs that adjoin. -/
theorem paired_compactFrom (hasc : Ascending (image 2 elements))
    (hlen : ∀ element ∈ elements, element.data.length < 2 ^ 31)
    (hok : compactFrom elements = some compacted) :
    Paired (image 2 elements) (image 2 compacted) := by
  induction elements using compactFrom.induct generalizing compacted with
  | case1 => cases hok
  | case2 pElement =>
    cases hok
    exact Paired.last _
  | case3 pElement1 pElement2 rest htouches ih =>
    rw [compactFrom, if_pos htouches, Option.map_eq_some_iff] at hok
    obtain ⟨result, hresult, rfl⟩ := hok
    have hle := (List.pairwise_cons.mp hasc).1 _ List.mem_cons_self
    have hadj := (touches_iff_adjoins (hlen _ List.mem_cons_self) hle).mp htouches
    exact Paired.join hadj (ih hasc.of_cons.of_cons
      (fun element hmem => hlen element (by simp [hmem])) hresult)
  | case4 pElement1 pElement2 rest htouches ih =>
    rw [compactFrom, if_neg htouches, Option.map_eq_some_iff] at hok
    obtain ⟨result, hresult, rfl⟩ := hok
    have hle := (List.pairwise_cons.mp hasc).1 _ List.mem_cons_self
    have hadj := (touches_iff_adjoins (hlen _ List.mem_cons_self) hle).not.mp htouches
    exact Paired.keep hadj (ih hasc.of_cons
      (fun element hmem => hlen element (List.mem_cons_of_mem _ hmem)) hresult)

/-- On byte addresses it changes nothing. -/
theorem compactFrom_eq_self (hasc : Ascending (image 1 elements))
    (hpos : ∀ element ∈ elements, 1 ≤ element.data.length)
    (hlen : ∀ element ∈ elements, element.data.length < 2 ^ 31)
    (hok : compactFrom elements = some compacted) : compacted = elements := by
  induction elements using compactFrom.induct generalizing compacted with
  | case1 => cases hok
  | case2 pElement =>
    cases hok
    rfl
  | case3 pElement1 pElement2 rest htouches ih =>
    have hle := (List.pairwise_cons.mp hasc).1 _ List.mem_cons_self
    exact absurd htouches
      (not_touches (hpos _ List.mem_cons_self) (hlen _ List.mem_cons_self) hle)
  | case4 pElement1 pElement2 rest htouches ih =>
    rw [compactFrom, if_neg htouches, Option.map_eq_some_iff] at hok
    obtain ⟨result, hresult, rfl⟩ := hok
    rw [ih hasc.of_cons (fun element hmem => hpos element (List.mem_cons_of_mem _ hmem))
      (fun element hmem => hlen element (List.mem_cons_of_mem _ hmem)) hresult]

section Sorted

variable (sorter : KeySort elementKey)

/-- Elements with bytes are segments with cells. -/
theorem DisjointElements.noneEmpty (h : DisjointElements addrBytes elements) :
    NoneEmpty (image addrBytes elements) := by
  intro s hs
  obtain ⟨element, hmem, rfl⟩ := List.mem_map.mp hs
  exact List.ne_nil_of_length_pos (h.length_pos element hmem)

/-- Sorting rearranges the elements. -/
theorem DisjointElements.sort (h : DisjointElements addrBytes elements) :
    DisjointElements addrBytes (sorter.sort elements) := by
  have hperm : (image addrBytes elements).Perm (image addrBytes (sorter.sort elements)) :=
    (sorter.perm elements).symm.map _
  refine ⟨?_, ?_, hperm.pairwise h.apart fun hab => hab.symm⟩
  · intro element hmem
    exact h.length_pos element (sorter.mem_sort.mp hmem)
  · intro element hmem
    exact h.length_lt element (sorter.mem_sort.mp hmem)

/-- Sorted elements are segments in order. -/
theorem DisjointElements.ascending_sort (h : DisjointElements addrBytes elements) :
    Ascending (image addrBytes (sorter.sort elements)) := by
  refine ascending_of_sorted ?_ (h.sort sorter).apart (h.sort sorter).noneEmpty
  refine List.pairwise_map.mpr ((sorter.ordered elements).imp ?_)
  intro first second hle
  exact Int.mul_le_mul_of_nonneg_left hle (Int.natCast_nonneg _)

end Sorted

/-- The compacted segments, in whichever unit the addresses count. -/
structure CompactedImage (image compacted : List (Segment Byte)) (few : Prop) : Prop where
  /-- Addresses ascend. -/
  ascending : Ascending compacted
  /-- No segment is empty. -/
  noneEmpty : NoneEmpty compacted
  /-- Every byte is where it was. -/
  holds : ∀ a b, Holds compacted a b ↔ Holds image a b
  /-- Their number is the same. -/
  length : (compacted.map fun s => s.cells.length).sum = (image.map fun s => s.cells.length).sum
  /-- Neighbours that could be joined are not left, just under this condition. -/
  separate : compacted.IsChain (fun s t => ¬Adjoins s t) ↔ few

/-- What the compaction makes of disjoint elements. -/
theorem compactedImage (sorter : KeySort elementKey) (hbytes : addrBytes = 1 ∨ addrBytes = 2)
    (h : DisjointElements addrBytes elements)
    (hok : compactElements sorter elements = some compacted) :
    CompactedImage (image addrBytes elements) (image addrBytes compacted)
      (FewAdjoin addrBytes elements) := by
  have hsorted := h.sort sorter
  have hasc := h.ascending_sort sorter
  have hperm : (image addrBytes (sorter.sort elements)).Perm (image addrBytes elements) :=
    (sorter.perm elements).map _
  have hsum := (hperm.map fun s => s.cells.length).sum_eq
  rw [compactElements_eq] at hok
  rcases hbytes with rfl | rfl
  · rw [compactFrom_eq_self hasc hsorted.length_pos hsorted.length_lt hok]
    refine ⟨hasc, hsorted.noneEmpty, fun a b => holds_of_perm hperm, hsum, ?_⟩
    rw [hasc.isChain_iff hsorted.noneEmpty, FewAdjoin, if_pos rfl]
    simp only [hperm.mem_iff]
  · have hpaired := paired_compactFrom hasc hsorted.length_lt hok
    refine ⟨hpaired.ascending hasc, hpaired.noneEmpty hsorted.noneEmpty, ?_, ?_, ?_⟩
    · intro a b
      rw [hpaired.holds_iff, holds_of_perm hperm]
    · rw [hpaired.length_eq, hsum]
    · rw [hpaired.isChain_iff hasc hsorted.noneEmpty, noThreeAdjoin_of_perm hperm, FewAdjoin,
        if_neg (by decide)]

/-- Relations that agree on the ordered pairs of a list make the same chains. -/
theorem isChain_congr {α : Type*} {l : List α} {P R S : α → α → Prop} (hP : l.Pairwise P)
    (h : ∀ a b, P a b → (R a b ↔ S a b)) : l.IsChain R ↔ l.IsChain S := by
  induction l with
  | nil => simp
  | cons a l ih =>
    cases l with
    | nil => simp
    | cons b l =>
      obtain ⟨ha, hl⟩ := List.pairwise_cons.mp hP
      rw [List.isChain_cons_cons, List.isChain_cons_cons, h a b (ha b List.mem_cons_self), ih hl]

/-- Where the compaction stays inside of the vector, its result is normalised
if and only if there was little to join. -/
theorem normalised_iff (sorter : KeySort elementKey) (hbytes : addrBytes = 1 ∨ addrBytes = 2)
    (h : DisjointElements addrBytes elements)
    (hok : compactElements sorter elements = some compacted) :
    Normalised addrBytes elements compacted ↔ FewAdjoin addrBytes elements := by
  obtain ⟨hasc, hcells, hholds, hlength, hseparate⟩ := compactedImage sorter hbytes h hok
  have hpairs : compacted.Pairwise fun first second =>
      (bytesOf addrBytes first).stop ≤ (bytesOf addrBytes second).start :=
    List.pairwise_map.mp hasc
  have hchain : compacted.IsChain (fun first second => ¬Contiguous addrBytes first second) ↔
      (image addrBytes compacted).IsChain fun s t => ¬Adjoins s t := by
    rw [image, List.isChain_map]
    exact isChain_congr hpairs fun _ _ hle => not_congr (contiguous_iff_adjoins hbytes hle)
  rw [← hseparate, ← hchain]
  constructor
  · exact Normalised.separate
  · intro hnone
    refine ⟨?_, hholds, ?_, hnone⟩
    · refine hpairs.imp_of_mem ?_
      intro first second hfirst _ hle
      exact address_lt hbytes (hcells _ (List.mem_map_of_mem hfirst)) hle
    · simp only [image, List.map_map] at hlength
      exact hlength

/-- Two words that adjoin, and two more bytes further on. -/
def pairElements : List ImageElement :=
  [⟨0, [1, 2, 3, 4]⟩, ⟨2, [5, 6, 7, 8]⟩, ⟨8, [9, 10]⟩]

/-- A pair that adjoins is joined. -/
theorem normalised_iff_pair :
    Normalised 2 pairElements [⟨0, [1, 2, 3, 4, 5, 6, 7, 8]⟩, ⟨8, [9, 10]⟩] ↔
      FewAdjoin 2 pairElements :=
  normalised_iff (insertionKeySort elementKey) (Or.inr rfl)
    ⟨by decide, by decide, by decide⟩ (by rw [compactElements_eq]; decide)

/-- Three elements of two words each that adjoin, the last one first. -/
def tripleElements : List ImageElement :=
  [⟨4, [9, 10, 11, 12]⟩, ⟨2, [5, 6, 7, 8]⟩, ⟨0, [1, 2, 3, 4]⟩]

/-- Of three elements that adjoin the third one is left alone, though the
compaction stays inside of the vector. -/
theorem not_normalised_triple :
    ¬∀ compacted, DisjointElements 2 tripleElements →
      compactElements (insertionKeySort elementKey) tripleElements = some compacted →
        Normalised 2 tripleElements compacted := by
  intro h
  have hresult : compactElements (insertionKeySort elementKey) tripleElements =
      some [⟨0, [1, 2, 3, 4, 5, 6, 7, 8]⟩, ⟨4, [9, 10, 11, 12]⟩] := by
    rw [compactElements_eq]
    decide
  have hnormal := h _ ⟨by decide, by decide, by decide⟩ hresult
  have hpair := (List.isChain_cons_cons.mp hnormal.separate).1
  exact hpair (by decide)

end RobotOta.ElementImage
