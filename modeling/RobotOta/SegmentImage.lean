import Mathlib.Data.List.Basic
import Mathlib.Data.List.Chain
import Mathlib.Algebra.Order.Ring.Int
import Mathlib.Tactic.Common

/-!
# Images made of segments

A segment is a block of cells at an integer address, and a list of segments an
image: the cells it holds at each address. Segments that lie apart never
compete for an address, and two that adjoin hold the same cells as their join.
The cell type is arbitrary.
-/

namespace RobotOta.SegmentImage

variable {β : Type*}

/-- A block of cells and the address of its first one. -/
structure Segment (β : Type*) where
  /-- The address of the first cell. -/
  start : ℤ
  /-- The cells, one behind the other. -/
  cells : List β

/-- The first address behind a segment. -/
def Segment.stop (s : Segment β) : ℤ := s.start + s.cells.length

/-- The segment has this cell at this address. -/
def Segment.Holds (s : Segment β) (a : ℤ) (b : β) : Prop :=
  ∃ i : ℕ, s.cells[i]? = some b ∧ a = s.start + i

/-- Some segment of the image has this cell at this address. -/
def Holds (image : List (Segment β)) (a : ℤ) (b : β) : Prop := ∃ s ∈ image, s.Holds a b

/-- The address ranges of two segments are disjoint. -/
def Apart (s t : Segment β) : Prop := s.stop ≤ t.start ∨ t.stop ≤ s.start

instance (s t : Segment β) : Decidable (Apart s t) :=
  inferInstanceAs (Decidable (s.stop ≤ t.start ∨ t.stop ≤ s.start))

/-- The second segment begins where the first one stops. -/
def Adjoins (s t : Segment β) : Prop := s.stop = t.start

/-- One segment for two that adjoin. -/
def join (s t : Segment β) : Segment β := ⟨s.start, s.cells ++ t.cells⟩

/-- The segments are in order, each one behind the one before. -/
def Ascending (image : List (Segment β)) : Prop := image.Pairwise fun s t => s.stop ≤ t.start

/-- No segment is empty. -/
def NoneEmpty (image : List (Segment β)) : Prop := ∀ s ∈ image, s.cells ≠ []

variable {s t u : Segment β} {image other : List (Segment β)} {a : ℤ} {b : β}

theorem Apart.symm (h : Apart s t) : Apart t s := h.elim Or.inr Or.inl

/-- A segment with cells ends behind its start. -/
theorem start_lt_stop (h : s.cells ≠ []) : s.start < s.stop := by
  have hpos := List.length_pos_of_ne_nil h
  rw [Segment.stop]
  omega

@[simp] theorem start_join : (join s t).start = s.start := rfl

/-- A join of adjoining segments stops where the second one does. -/
theorem stop_join (h : Adjoins s t) : (join s t).stop = t.stop := by
  rw [Adjoins, Segment.stop] at h
  rw [Segment.stop, join, List.length_append, Segment.stop, ← h]
  push_cast
  omega

theorem join_cells_ne_nil (h : s.cells ≠ []) : (join s t).cells ≠ [] := by
  rw [join]
  exact List.append_ne_nil_of_left_ne_nil h _

/-- A cell lies between its segment's ends. -/
theorem Segment.Holds.bounds (h : s.Holds a b) : s.start ≤ a ∧ a < s.stop := by
  obtain ⟨i, hi, rfl⟩ := h
  obtain ⟨hlt, -⟩ := List.getElem?_eq_some_iff.mp hi
  rw [Segment.stop]
  omega

/-- Every address between the ends has a cell. -/
theorem Segment.exists_holds (hlo : s.start ≤ a) (hhi : a < s.stop) : ∃ b, s.Holds a b := by
  rw [Segment.stop] at hhi
  have hlt : (a - s.start).toNat < s.cells.length := by omega
  refine ⟨s.cells[(a - s.start).toNat], (a - s.start).toNat, List.getElem?_eq_getElem hlt, ?_⟩
  omega

/-- A join of adjoining segments holds what the two of them hold. -/
theorem holds_join (h : Adjoins s t) : (join s t).Holds a b ↔ s.Holds a b ∨ t.Holds a b := by
  rw [Adjoins, Segment.stop] at h
  constructor
  · rintro ⟨i, hi, rfl⟩
    rw [join] at hi ⊢
    by_cases hlt : i < s.cells.length
    · left
      rw [List.getElem?_append_left hlt] at hi
      exact ⟨i, hi, rfl⟩
    · right
      rw [List.getElem?_append_right (Nat.le_of_not_lt hlt)] at hi
      refine ⟨_, hi, ?_⟩
      dsimp only
      omega
  · rintro (⟨i, hi, rfl⟩ | ⟨i, hi, rfl⟩)
    · obtain ⟨hlt, -⟩ := List.getElem?_eq_some_iff.mp hi
      refine ⟨i, ?_, rfl⟩
      rw [join, List.getElem?_append_left hlt, hi]
    · refine ⟨s.cells.length + i, ?_, ?_⟩
      · rw [join, List.getElem?_append_right (Nat.le_add_right _ _), Nat.add_sub_cancel_left, hi]
      · rw [start_join, ← h]
        push_cast
        omega

@[simp] theorem holds_nil : ¬Holds ([] : List (Segment β)) a b := by simp [Holds]

@[simp] theorem holds_cons : Holds (s :: image) a b ↔ s.Holds a b ∨ Holds image a b := by
  simp [Holds]

@[simp] theorem holds_append :
    Holds (image ++ other) a b ↔ Holds image a b ∨ Holds other a b := by
  simp only [Holds, List.mem_append, or_and_right, exists_or]

/-- Rearranged segments make the same image. -/
theorem holds_of_perm (h : image.Perm other) : Holds image a b ↔ Holds other a b := by
  simp only [Holds, h.mem_iff]

/-- Segments that lie apart share no address. -/
theorem Apart.not_holds {c : β} (h : Apart s t) (hs : s.Holds a b) : ¬t.Holds a c := by
  intro ht
  obtain ⟨hs₁, hs₂⟩ := hs.bounds
  obtain ⟨ht₁, ht₂⟩ := ht.bounds
  rcases h with h | h <;> omega

/-- Segments with cells that share no address lie apart. -/
theorem apart_of_not_holds (hs : s.cells ≠ []) (ht : t.cells ≠ [])
    (h : ∀ a b c, s.Holds a b → ¬t.Holds a c) : Apart s t := by
  by_contra hapart
  rw [Apart, not_or, not_le, not_le] at hapart
  -- the later start lies in both
  obtain ⟨b, hb⟩ := Segment.exists_holds (s := s) (a := max s.start t.start)
    (le_max_left _ _) (max_lt (start_lt_stop hs) hapart.1)
  obtain ⟨c, hc⟩ := Segment.exists_holds (s := t) (a := max s.start t.start)
    (le_max_right _ _) (max_lt hapart.2 (start_lt_stop ht))
  exact h _ _ _ hb hc

/-- What lies apart from two adjoining segments lies apart from their join. -/
theorem apart_join (h : Adjoins s t) (hu : u.cells ≠ []) (hs : Apart u s) (ht : Apart u t) :
    Apart u (join s t) := by
  have hu' := start_lt_stop hu
  rw [Adjoins] at h
  rw [Apart, start_join, stop_join h]
  rcases hs with hs | hs
  · exact Or.inl hs
  · rcases ht with ht | ht
    · omega
    · exact Or.inr ht

/-- Segments that lie apart and are sorted by their starts are in order. -/
theorem ascending_of_sorted (hsorted : image.Pairwise fun s t => s.start ≤ t.start)
    (hapart : image.Pairwise Apart) (hcells : NoneEmpty image) : Ascending image := by
  refine (hsorted.and hapart).imp_of_mem ?_
  rintro s t hs ht ⟨hle, h | h⟩
  · exact h
  · have := start_lt_stop (hcells t ht)
    omega

/-- In order, a segment that adjoins another stands right before it. -/
theorem Ascending.isChain_iff (h : Ascending image) (hcells : NoneEmpty image) :
    image.IsChain (fun s t => ¬Adjoins s t) ↔ ∀ s ∈ image, ∀ t ∈ image, ¬Adjoins s t := by
  constructor
  · intro hchain
    induction image with
    | nil => simp
    | cons first rest ih =>
      obtain ⟨hfirst, hrest⟩ := List.pairwise_cons.mp h
      have hrestCells : NoneEmpty rest := fun s hs => hcells s (List.mem_cons_of_mem _ hs)
      have hfirstCells := start_lt_stop (hcells first List.mem_cons_self)
      have hinner := ih hrest hrestCells hchain.tail
      intro s hs t ht hadj
      rw [Adjoins] at hadj
      rcases List.mem_cons.mp hs with rfl | hsRest
      · rcases List.mem_cons.mp ht with rfl | htRest
        · omega
        · -- the segment between the two would have to be empty
          cases rest with
          | nil => cases htRest
          | cons second tail =>
            have hsecond := hfirst second List.mem_cons_self
            have hnot := (List.isChain_cons_cons.mp hchain).1
            rcases List.mem_cons.mp htRest with rfl | htTail
            · exact hnot hadj
            · have hlt := start_lt_stop (hrestCells second List.mem_cons_self)
              have hle := List.rel_of_pairwise_cons hrest htTail
              omega
      · rcases List.mem_cons.mp ht with rfl | htRest
        · have hle := hfirst s hsRest
          have hlt := start_lt_stop (hrestCells s hsRest)
          omega
        · exact hinner s hsRest t htRest hadj
  · intro hnone
    exact (List.pairwise_of_forall_mem_list hnone).isChain

/-- In order, nothing in front adjoins. -/
theorem Ascending.not_adjoins_head (h : Ascending (s :: image)) (hcells : NoneEmpty (s :: image))
    (ht : t ∈ s :: image) : ¬Adjoins t s := by
  have hs := start_lt_stop (hcells s List.mem_cons_self)
  have htCells := start_lt_stop (hcells t ht)
  intro hadj
  rw [Adjoins] at hadj
  rcases List.mem_cons.mp ht with rfl | ht
  · omega
  · have hle := (List.pairwise_cons.mp h).1 t ht
    omega

/-- In order, what adjoins the first segment is the second one. -/
theorem Ascending.eq_of_adjoins_head (h : Ascending (s :: t :: image))
    (hcells : NoneEmpty (s :: t :: image)) (hu : u ∈ s :: t :: image) (hadj : Adjoins s u) :
    u = t := by
  rcases List.mem_cons.mp hu with rfl | hu
  · exact absurd hadj (h.not_adjoins_head hcells List.mem_cons_self)
  rcases List.mem_cons.mp hu with rfl | hu
  · rfl
  obtain ⟨hs, hrest⟩ := List.pairwise_cons.mp h
  have hst := hs t List.mem_cons_self
  have htu := (List.pairwise_cons.mp hrest).1 u hu
  have ht := start_lt_stop (hcells t (List.mem_cons_of_mem _ List.mem_cons_self))
  rw [Adjoins] at hadj
  omega

theorem NoneEmpty.of_cons (h : NoneEmpty (s :: image)) : NoneEmpty image :=
  fun t ht => h t (List.mem_cons_of_mem _ ht)

theorem Ascending.of_cons (h : Ascending (s :: image)) : Ascending image :=
  List.Pairwise.of_cons h

/-- No segment has one that adjoins it and one that it adjoins. -/
def NoThreeAdjoin (image : List (Segment β)) : Prop :=
  ∀ s ∈ image, ∀ t ∈ image, ∀ u ∈ image, Adjoins s t → ¬Adjoins t u

/-- Rearranged segments have the same neighbours. -/
theorem noThreeAdjoin_of_perm (h : image.Perm other) :
    NoThreeAdjoin image ↔ NoThreeAdjoin other := by
  simp only [NoThreeAdjoin, h.mem_iff]

/-- A first segment that adjoins nothing makes no difference. -/
theorem noThreeAdjoin_cons (h : Ascending (s :: t :: image))
    (hcells : NoneEmpty (s :: t :: image)) (hst : ¬Adjoins s t) :
    NoThreeAdjoin (s :: t :: image) ↔ NoThreeAdjoin (t :: image) := by
  have hfirst : ∀ u ∈ s :: t :: image, ¬Adjoins s u := by
    intro u hu hadj
    rw [h.eq_of_adjoins_head hcells hu hadj] at hadj
    exact hst hadj
  constructor
  · intro hnone u hu v hv w hw
    exact hnone u (List.mem_cons_of_mem _ hu) v (List.mem_cons_of_mem _ hv) w
      (List.mem_cons_of_mem _ hw)
  · intro hnone u hu v hv w hw huv hvw
    rcases List.mem_cons.mp hu with rfl | huRest
    · exact hfirst v hv huv
    rcases List.mem_cons.mp hv with rfl | hvRest
    · exact hfirst w hw hvw
    rcases List.mem_cons.mp hw with rfl | hwRest
    · exact h.not_adjoins_head hcells hv hvw
    · exact hnone u huRest v hvRest w hwRest huv hvw

/-- A first pair that adjoins must end there. -/
theorem noThreeAdjoin_cons_cons (h : Ascending (s :: t :: u :: image))
    (hcells : NoneEmpty (s :: t :: u :: image)) (hst : Adjoins s t) :
    NoThreeAdjoin (s :: t :: u :: image) ↔ ¬Adjoins t u ∧ NoThreeAdjoin (u :: image) := by
  constructor
  · intro hnone
    have htu : ¬Adjoins t u := hnone s (by simp) t (by simp) u (by simp) hst
    refine ⟨htu, ?_⟩
    intro v hv w hw x hx
    exact hnone v (by simp [List.mem_cons.mp hv]) w (by simp [List.mem_cons.mp hw]) x
      (by simp [List.mem_cons.mp hx])
  · rintro ⟨htu, hnone⟩ v hv w hw x hx hvw hwx
    have hrest := (noThreeAdjoin_cons h.of_cons hcells.of_cons htu).mpr hnone
    rcases List.mem_cons.mp hv with rfl | hvRest
    · obtain rfl := h.eq_of_adjoins_head hcells hw hvw
      rcases List.mem_cons.mp hx with rfl | hxRest
      · exact h.not_adjoins_head hcells hw hwx
      · obtain rfl := h.of_cons.eq_of_adjoins_head hcells.of_cons hxRest hwx
        exact htu hwx
    rcases List.mem_cons.mp hw with rfl | hwRest
    · exact h.not_adjoins_head hcells hv hvw
    rcases List.mem_cons.mp hx with rfl | hxRest
    · exact h.not_adjoins_head hcells hw hwx
    · exact hrest v hvRest w hwRest x hxRest hvw hwx

/-- One walk over an image in order that joins two neighbours where they adjoin
and goes on behind them, up to a last segment it leaves alone. -/
inductive Paired : List (Segment β) → List (Segment β) → Prop where
  | last (s : Segment β) : Paired [s] [s]
  | keep {s t : Segment β} {image result : List (Segment β)} :
    ¬Adjoins s t → Paired (t :: image) result → Paired (s :: t :: image) (s :: result)
  | join {s t : Segment β} {image result : List (Segment β)} :
    Adjoins s t → Paired image result → Paired (s :: t :: image) (join s t :: result)

variable {result : List (Segment β)}

/-- The walk starts segments only where one started before, the first in front. -/
theorem Paired.starts (h : Paired image result) :
    (∃ s rest t rest', image = s :: rest ∧ result = t :: rest' ∧ t.start = s.start) ∧
      ∀ t ∈ result, ∃ s ∈ image, t.start = s.start := by
  induction h with
  | last s => exact ⟨⟨s, [], s, [], rfl, rfl, rfl⟩, fun t ht => ⟨t, ht, rfl⟩⟩
  | @keep s t image result _ _ ih =>
    refine ⟨⟨s, _, s, _, rfl, rfl, rfl⟩, ?_⟩
    intro u hu
    rcases List.mem_cons.mp hu with rfl | hu
    · exact ⟨u, List.mem_cons_self, rfl⟩
    · obtain ⟨v, hv, hstart⟩ := ih.2 u hu
      exact ⟨v, List.mem_cons_of_mem _ hv, hstart⟩
  | @join s t image result _ _ ih =>
    refine ⟨⟨s, _, _, _, rfl, rfl, rfl⟩, ?_⟩
    intro u hu
    rcases List.mem_cons.mp hu with rfl | hu
    · exact ⟨s, List.mem_cons_self, rfl⟩
    · obtain ⟨v, hv, hstart⟩ := ih.2 u hu
      exact ⟨v, List.mem_cons_of_mem _ (List.mem_cons_of_mem _ hv), hstart⟩

/-- The walk keeps the image. -/
theorem Paired.holds_iff (h : Paired image result) : Holds result a b ↔ Holds image a b := by
  induction h with
  | last s => exact Iff.rfl
  | keep _ _ ih => rw [holds_cons, holds_cons, ih]
  | join hadj _ ih => rw [holds_cons, holds_cons, holds_cons, holds_join hadj, ih, or_assoc]

/-- The walk keeps the number of cells. -/
theorem Paired.length_eq (h : Paired image result) :
    (result.map fun s => s.cells.length).sum = (image.map fun s => s.cells.length).sum := by
  induction h with
  | last s => rfl
  | keep _ _ ih =>
    rw [List.map_cons, List.sum_cons, ih]
    rfl
  | join _ _ ih =>
    simp only [List.map_cons, List.sum_cons, SegmentImage.join, List.length_append, ih]
    omega

/-- The walk leaves no segment empty. -/
theorem Paired.noneEmpty (h : Paired image result) (hcells : NoneEmpty image) :
    NoneEmpty result := by
  induction h with
  | last s => exact hcells
  | keep _ _ ih =>
    intro u hu
    rcases List.mem_cons.mp hu with rfl | hu
    · exact hcells u List.mem_cons_self
    · exact ih hcells.of_cons u hu
  | @join s t _ _ _ _ ih =>
    intro u hu
    rcases List.mem_cons.mp hu with rfl | hu
    · exact join_cells_ne_nil (hcells s List.mem_cons_self)
    · exact ih hcells.of_cons.of_cons u hu

/-- The walk keeps the order. -/
theorem Paired.ascending (h : Paired image result) (hasc : Ascending image) :
    Ascending result := by
  induction h with
  | last s => exact hasc
  | keep _ hrest ih =>
    refine List.pairwise_cons.mpr ⟨?_, ih hasc.of_cons⟩
    intro u hu
    obtain ⟨v, hv, hstart⟩ := hrest.starts.2 u hu
    rw [hstart]
    exact (List.pairwise_cons.mp hasc).1 v hv
  | @join s t _ _ hadj hrest ih =>
    refine List.pairwise_cons.mpr ⟨?_, ih hasc.of_cons.of_cons⟩
    intro u hu
    obtain ⟨v, hv, hstart⟩ := hrest.starts.2 u hu
    rw [hstart, stop_join hadj]
    exact (List.pairwise_cons.mp hasc.of_cons).1 v hv

/-- One walk joins all that adjoin if and only if no three in a row do. -/
theorem Paired.isChain_iff (h : Paired image result) (hasc : Ascending image)
    (hcells : NoneEmpty image) :
    result.IsChain (fun s t => ¬Adjoins s t) ↔ NoThreeAdjoin image := by
  induction h with
  | last s =>
    refine iff_of_true (List.IsChain.singleton _) ?_
    intro t ht u hu v _ hadj
    rw [List.mem_singleton.mp hu] at hadj
    exact absurd hadj (hasc.not_adjoins_head hcells ht)
  | @keep s t image result hadj hrest ih =>
    obtain ⟨⟨_, _, first, rest, himage, rfl, hstart⟩, -⟩ := hrest.starts
    obtain ⟨rfl, -⟩ := List.cons_eq_cons.mp himage
    have hfirst : ¬Adjoins s first := by
      rw [Adjoins, hstart]
      exact hadj
    rw [List.isChain_cons_cons, and_iff_right hfirst, ih hasc.of_cons hcells.of_cons,
      noThreeAdjoin_cons hasc hcells hadj]
  | @join s t image result hadj hrest ih =>
    obtain ⟨⟨u, image', first, rest, himage, rfl, hstart⟩, -⟩ := hrest.starts
    subst himage
    have hfirst : Adjoins (SegmentImage.join s t) first ↔ Adjoins t u := by
      rw [Adjoins, stop_join hadj, hstart, Adjoins]
    rw [List.isChain_cons_cons, hfirst, ih hasc.of_cons.of_cons hcells.of_cons.of_cons,
      noThreeAdjoin_cons_cons hasc hcells hadj]

end RobotOta.SegmentImage
