import Mathlib.Data.List.Nodup
import Mathlib.Data.List.Perm.Subperm
import Mathlib.Data.List.Induction
import Mathlib.Data.Nat.ModEq
import Mathlib.Tactic.Linarith

/-!
# Fragment arrivals inside a window of message numbers

Messages are numbered in the order they were sent and split into numbered
fragments. Fragments arrive at most once, in any order that stays inside a
window: a fragment never arrives after a fragment of a message that is a full
window younger. The lemmas say which messages can still be incomplete when
message numbers are only known modulo some number of ids.
-/

namespace RobotOta.FragmentWindow

/-- An arrival order over `count` messages of `size k` fragments each. An
arrival is a message number with a fragment number. -/
structure ArrivalOrder (size : ℕ → ℕ) (count window : ℕ) (arrivals : List (ℕ × ℕ)) : Prop where
  /-- No fragment arrives twice. -/
  once : arrivals.Nodup
  /-- What arrives is a fragment of a message. -/
  known : ∀ f ∈ arrivals, f.1 < count ∧ f.2 < size f.1
  /-- Some fragment of every message arrives. -/
  reached : ∀ k < count, ∃ i, (k, i) ∈ arrivals
  /-- An arrival behind one of message `j` belongs to a message above `j - window`. -/
  inWindow : arrivals.Pairwise fun f g => f.1 < g.1 + window

/-- Some fragment of message `k` has arrived. -/
def Begun (seen : List (ℕ × ℕ)) (k : ℕ) : Prop := ∃ i, (k, i) ∈ seen

/-- All fragments of message `k` have arrived. -/
def Complete (size : ℕ → ℕ) (seen : List (ℕ × ℕ)) (k : ℕ) : Prop := ∀ i < size k, (k, i) ∈ seen

instance (size : ℕ → ℕ) (seen : List (ℕ × ℕ)) (k : ℕ) : Decidable (Complete size seen k) :=
  inferInstanceAs (Decidable (∀ i < size k, (k, i) ∈ seen))

/-- The messages completed by each arrival behind `before`, in order. -/
def completions (size : ℕ → ℕ) : (before : List (ℕ × ℕ)) → List (ℕ × ℕ) → List ℕ
  | _, [] => []
  | before, f :: rest =>
    (if Complete size (before ++ [f]) f.1 then [f.1] else []) ++
      completions size (before ++ [f]) rest

/-- The fragment numbers of message `k` that have arrived, in arrival order. -/
def indices (seen : List (ℕ × ℕ)) (k : ℕ) : List ℕ :=
  (seen.filter fun f => f.1 = k).map Prod.snd

/-- Message `k` has begun, is not complete, and the message `gap` numbers
younger has not begun. -/
structure Live (size : ℕ → ℕ) (gap : ℕ) (seen : List (ℕ × ℕ)) (k : ℕ) : Prop where
  /-- A fragment of it has arrived. -/
  begun : Begun seen k
  /-- Not all of them have. -/
  incomplete : ¬Complete size seen k
  /-- No message has begun that evicts it. -/
  unexpired : ¬Begun seen (k + gap)

variable {size : ℕ → ℕ} {count window gap ids : ℕ} {arrivals seen rest : List (ℕ × ℕ)} {k i : ℕ}

theorem mem_indices {j : ℕ} : j ∈ indices seen k ↔ (k, j) ∈ seen := by
  simp [indices]

@[simp] theorem indices_append_self : indices (seen ++ [(k, i)]) k = indices seen k ++ [i] := by
  simp [indices]

theorem indices_append_of_ne {j : ℕ} (h : j ≠ k) :
    indices (seen ++ [(k, i)]) j = indices seen j := by
  simp [indices, Ne.symm h]

theorem begun_append {j : ℕ} : Begun (seen ++ [(k, i)]) j ↔ Begun seen j ∨ j = k := by
  simp [Begun, exists_or]

theorem complete_append_of_ne {j : ℕ} (h : j ≠ k) :
    Complete size (seen ++ [(k, i)]) j ↔ Complete size seen j := by
  simp [Complete, h]

/-- The completions behind one more arrival. -/
theorem completions_append (before : List (ℕ × ℕ)) :
    completions size before (seen ++ [(k, i)]) = completions size before seen ++
      if Complete size (before ++ seen ++ [(k, i)]) k then [k] else [] := by
  induction seen generalizing before with
  | nil => simp [completions]
  | cons f seen ih =>
    rw [List.cons_append, completions, completions, ih, List.append_assoc, List.append_assoc]
    simp [List.append_assoc]

/-- Every fragment in front of an arrival belongs to a message less than a
window younger. -/
theorem ArrivalOrder.lt_of_seen (h : ArrivalOrder size count window arrivals)
    (hsplit : arrivals = seen ++ (k, i) :: rest) {j : ℕ} (hj : Begun seen j) : j < k + window := by
  obtain ⟨m, hm⟩ := hj
  have hw := h.inWindow
  rw [hsplit, List.pairwise_append] at hw
  exact hw.2.2 (j, m) hm (k, i) List.mem_cons_self

/-- When a fragment of message `k` arrives, every message a window older has begun. -/
theorem ArrivalOrder.begun_of_le (h : ArrivalOrder size count window arrivals) (hpos : 0 < window)
    (hsplit : arrivals = seen ++ (k, i) :: rest) {j : ℕ} (hj : j + window ≤ k) : Begun seen j := by
  have hk : k < count := (h.known (k, i) (by simp [hsplit])).1
  obtain ⟨m, hm⟩ := h.reached j (by omega)
  have hw := h.inWindow
  rw [hsplit, List.pairwise_append, List.pairwise_cons] at hw
  rw [hsplit, List.mem_append, List.mem_cons] at hm
  rcases hm with hm | hm | hm
  · exact ⟨m, hm⟩
  · cases hm
    omega
  · have := hw.2.1.1 (j, m) hm
    dsimp only at this
    omega

/-- An arriving fragment has not arrived before. -/
theorem ArrivalOrder.fresh (h : ArrivalOrder size count window arrivals)
    (hsplit : arrivals = seen ++ (k, i) :: rest) : (k, i) ∉ seen := by
  have ho := h.once
  rw [hsplit, List.nodup_append] at ho
  intro hmem
  exact ho.2.2 (k, i) hmem (k, i) List.mem_cons_self rfl

/-- A message is not complete while a fragment of it is still arriving. -/
theorem ArrivalOrder.incomplete (h : ArrivalOrder size count window arrivals)
    (hsplit : arrivals = seen ++ (k, i) :: rest) : ¬Complete size seen k := fun hc =>
  h.fresh hsplit (hc i (h.known (k, i) (by simp [hsplit])).2)

/-- The arrived fragment numbers of a message are distinct and in range. -/
theorem ArrivalOrder.indices_nodup (h : ArrivalOrder size count window arrivals)
    (hsplit : arrivals = seen ++ rest) :
    (indices seen k).Nodup ∧ ∀ j ∈ indices seen k, j < size k := by
  have ho := h.once
  rw [hsplit, List.nodup_append] at ho
  constructor
  · apply List.Nodup.map_on _ (ho.1.filter _)
    intro f hf g hg heq
    have hfk := (List.mem_filter.mp hf).2
    have hgk := (List.mem_filter.mp hg).2
    rw [decide_eq_true_iff] at hfk hgk
    exact Prod.ext (hfk.trans hgk.symm) heq
  · intro j hj
    exact (h.known (k, j) (by simp [hsplit, mem_indices.mp hj])).2

/-- A message is complete when as many of its fragments have arrived as it has;
the fragments are then a rearrangement of all of them. -/
theorem ArrivalOrder.complete_iff (h : ArrivalOrder size count window arrivals)
    (hsplit : arrivals = seen ++ rest) (k : ℕ) :
    (indices seen k).length ≤ size k ∧
      (Complete size seen k ↔ (indices seen k).length = size k) ∧
      (Complete size seen k → (indices seen k).Perm (List.range (size k))) := by
  obtain ⟨hnodup, hrange⟩ := h.indices_nodup hsplit (k := k)
  have hsub : (indices seen k).Subperm (List.range (size k)) :=
    List.subperm_of_subset hnodup fun j hj => List.mem_range.mpr (hrange j hj)
  have hle : (indices seen k).length ≤ size k := by
    have := hsub.length_le
    rwa [List.length_range] at this
  have hperm : Complete size seen k → (indices seen k).Perm (List.range (size k)) := by
    intro hc
    have hback : (List.range (size k)).Subperm (indices seen k) :=
      List.subperm_of_subset List.nodup_range fun j hj =>
        mem_indices.mpr (hc j (List.mem_range.mp hj))
    exact hsub.antisymm hback
  refine ⟨hle, ⟨?_, ?_⟩, hperm⟩
  · intro hc
    rw [(hperm hc).length_eq, List.length_range]
  · intro hlen j hj
    have hp := hsub.perm_of_length_le (by rw [List.length_range, hlen])
    exact mem_indices.mp (hp.mem_iff.mpr (List.mem_range.mpr hj))

/-- No message older by a window and a gap is live when a fragment arrives. -/
theorem ArrivalOrder.not_live_of_old (h : ArrivalOrder size count window arrivals)
    (hpos : 0 < window) (hsplit : arrivals = seen ++ (k, i) :: rest) {j : ℕ}
    (hj : j + gap + window ≤ k) : ¬Live size gap seen j := fun hlive =>
  hlive.unexpired (h.begun_of_le hpos hsplit hj)

/-- Once message `m` has begun, so has every message a window older. -/
theorem ArrivalOrder.begun_of_begun (h : ArrivalOrder size count window arrivals)
    (hpos : 0 < window) (hsplit : arrivals = seen ++ rest) {j m : ℕ} (hm : Begun seen m)
    (hj : j + window ≤ m) : Begun seen j := by
  obtain ⟨x, hx⟩ := hm
  obtain ⟨front, back, rfl⟩ := List.append_of_mem hx
  have hfront : arrivals = front ++ (m, x) :: (back ++ rest) := by simpa using hsplit
  obtain ⟨y, hy⟩ := h.begun_of_le hpos hfront hj
  exact ⟨y, List.mem_append_left _ hy⟩

/-- Two live messages have different ids. -/
theorem ArrivalOrder.live_unique (h : ArrivalOrder size count window arrivals) (hpos : 0 < window)
    (hids : gap + window ≤ ids) (hsplit : arrivals = seen ++ rest) {j m : ℕ}
    (hj : Live size gap seen j) (hm : Live size gap seen m) (hmod : j % ids = m % ids) : j = m := by
  have hfar : ∀ a b, Live size gap seen a → Live size gap seen b → a % ids = b % ids →
      ¬a < b := by
    intro a b ha hb hab hlt
    have hd : ids ∣ b - a := (Nat.modEq_iff_dvd' hlt.le).mp hab
    have hle := Nat.le_of_dvd (by omega) hd
    exact ha.unexpired (h.begun_of_begun hpos hsplit hb.begun (by omega))
  have hjm := hfar j m hj hm hmod
  have hmj := hfar m j hm hj hmod.symm
  omega

/-- When message `k` begins, no live message has its id. -/
theorem ArrivalOrder.id_free (h : ArrivalOrder size count window arrivals) (hpos : 0 < window)
    (hids : gap + window ≤ ids) (hsplit : arrivals = seen ++ (k, i) :: rest)
    (hfirst : ¬Begun seen k) {j : ℕ} (hlive : Live size gap seen j) : j % ids ≠ k % ids := by
  intro hmod
  have hlt := h.lt_of_seen hsplit hlive.begun
  have hne : j ≠ k := fun heq => hfirst (heq ▸ hlive.begun)
  rcases Nat.lt_or_gt_of_ne hne with hjk | hkj
  · have hd : ids ∣ k - j := (Nat.modEq_iff_dvd' hjk.le).mp hmod
    have hle := Nat.le_of_dvd (by omega) hd
    exact h.not_live_of_old hpos hsplit (by omega) hlive
  · have hd : ids ∣ j - k := (Nat.modEq_iff_dvd' hkj.le).mp hmod.symm
    have hle := Nat.le_of_dvd (by omega) hd
    omega

/-- When a fragment of `k` arrives, the only live message whose id is that of
`k` put back by `gap` is the one exactly `gap` older. -/
theorem ArrivalOrder.eq_of_evicted (h : ArrivalOrder size count window arrivals)
    (hpos : 0 < window) (hids : gap + window ≤ ids) (hsplit : arrivals = seen ++ (k, i) :: rest)
    {j : ℕ} (hlive : Live size gap seen j) (hmod : (j + gap) % ids = k % ids) : j + gap = k := by
  have hlt := h.lt_of_seen hsplit hlive.begun
  by_contra hne
  rcases Nat.lt_or_gt_of_ne hne with hjk | hkj
  · have hd : ids ∣ k - (j + gap) := (Nat.modEq_iff_dvd' hjk.le).mp hmod
    have hle := Nat.le_of_dvd (by omega) hd
    exact h.not_live_of_old hpos hsplit (by omega) hlive
  · have hd : ids ∣ j + gap - k := (Nat.modEq_iff_dvd' hkj.le).mp hmod.symm
    have hle := Nat.le_of_dvd (by omega) hd
    omega

/-- A further fragment of a message that has begun leaves the other messages
as live as they were. -/
theorem live_append_of_begun (hbegun : Begun seen k) {j : ℕ} (hne : j ≠ k) :
    Live size gap (seen ++ [(k, i)]) j ↔ Live size gap seen j := by
  have hgap : Begun (seen ++ [(k, i)]) (j + gap) ↔ Begun seen (j + gap) := by
    rw [begun_append]
    constructor
    · rintro (hb | rfl)
      · exact hb
      · exact hbegun
    · exact Or.inl
  have hb : Begun (seen ++ [(k, i)]) j ↔ Begun seen j := by
    rw [begun_append]
    exact or_iff_left hne
  constructor
  · rintro ⟨h1, h2, h3⟩
    exact ⟨hb.mp h1, (complete_append_of_ne hne).not.mp h2, hgap.not.mp h3⟩
  · rintro ⟨h1, h2, h3⟩
    exact ⟨hb.mpr h1, (complete_append_of_ne hne).not.mpr h2, hgap.not.mpr h3⟩

/-- The first fragment of a message ends the life of the message `gap` older
and leaves the others as they were. -/
theorem live_append_of_first {j : ℕ} (hne : j ≠ k) :
    Live size gap (seen ++ [(k, i)]) j ↔ Live size gap seen j ∧ j + gap ≠ k := by
  have hb : Begun (seen ++ [(k, i)]) j ↔ Begun seen j := by
    rw [begun_append]
    exact or_iff_left hne
  have hgap : Begun (seen ++ [(k, i)]) (j + gap) ↔ Begun seen (j + gap) ∨ j + gap = k :=
    begun_append
  constructor
  · rintro ⟨h1, h2, h3⟩
    rw [hgap, not_or] at h3
    exact ⟨⟨hb.mp h1, (complete_append_of_ne hne).not.mp h2, h3.1⟩, h3.2⟩
  · rintro ⟨⟨h1, h2, h3⟩, h4⟩
    exact ⟨hb.mpr h1, (complete_append_of_ne hne).not.mpr h2, hgap.not.mpr (not_or.mpr ⟨h3, h4⟩)⟩

/-- The message of an arriving fragment is live afterwards unless the fragment
completes it. -/
theorem ArrivalOrder.live_append_self (h : ArrivalOrder size count window arrivals)
    (hgap : window ≤ gap) (hpos : 0 < window) (hsplit : arrivals = seen ++ (k, i) :: rest) :
    Live size gap (seen ++ [(k, i)]) k ↔ ¬Complete size (seen ++ [(k, i)]) k := by
  refine ⟨fun hlive => hlive.incomplete, fun hc => ⟨begun_append.mpr (Or.inr rfl), hc, ?_⟩⟩
  rw [begun_append, not_or]
  refine ⟨fun hb => ?_, by omega⟩
  have := h.lt_of_seen hsplit hb
  omega

/-- In an arrival order the completions are the complete messages, each once. -/
theorem ArrivalOrder.completions_spec (h : ArrivalOrder size count window arrivals)
    (hsize : ∀ k, 0 < size k) (hsplit : arrivals = seen ++ rest) :
    (completions size [] seen).Nodup ∧
      ∀ k, k ∈ completions size [] seen ↔ Complete size seen k := by
  induction seen using List.reverseRecOn generalizing rest with
  | nil =>
    refine ⟨List.nodup_nil, fun k => ⟨fun hk => absurd hk List.not_mem_nil, fun hc => ?_⟩⟩
    exact absurd (hc 0 (hsize k)) List.not_mem_nil
  | append_singleton seen f ih =>
    obtain ⟨k, i⟩ := f
    have hsplit' : arrivals = seen ++ (k, i) :: rest := by simpa using hsplit
    obtain ⟨hnodup, hmem⟩ := ih hsplit'
    have hk : k ∉ completions size [] seen := fun hin => h.incomplete hsplit' ((hmem k).mp hin)
    rw [completions_append, List.nil_append]
    by_cases hc : Complete size (seen ++ [(k, i)]) k
    · rw [if_pos hc]
      refine ⟨?_, fun j => ?_⟩
      · rw [List.nodup_append]
        refine ⟨hnodup, List.nodup_singleton k, ?_⟩
        rintro a ha b hb rfl
        rw [List.mem_singleton] at hb
        exact hk (hb ▸ ha)
      · rw [List.mem_append, List.mem_singleton]
        by_cases hj : j = k
        · subst hj
          exact ⟨fun _ => hc, fun _ => Or.inr rfl⟩
        · rw [complete_append_of_ne hj, hmem j]
          exact or_iff_left hj
    · rw [if_neg hc, List.append_nil]
      refine ⟨hnodup, fun j => ?_⟩
      by_cases hj : j = k
      · subst hj
        exact ⟨fun hin => absurd hin hk, fun hin => absurd hin hc⟩
      · rw [complete_append_of_ne hj, hmem j]

end RobotOta.FragmentWindow
