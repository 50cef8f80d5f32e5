import Mathlib.Data.List.Basic

/-!
# Texts with separators

Parts that are written one after another, each with a separator behind it, and what
splitting the text at its separators gives back. A part with a separator of its own
comes back in pieces. Of a text that was cut off the parts come back if and only if
nothing but the last separator is missing.
-/

namespace RobotOta.SeparatedText

variable {α : Type*} {a : α} {text rest piece : List α} {parts : List (List α)}

/-- The last part and its separator. -/
theorem exists_last (h : ∀ part ∈ parts, part ≠ [] ∧ a ∉ part) (hparts : parts ≠ []) :
    ∃ before last, parts = before ++ [last] ∧ last ≠ [] ∧ a ∉ last ∧
      (parts.flatMap fun part => part ++ [a]) =
        (before.flatMap fun part => part ++ [a]) ++ last ++ [a] := by
  have hlast := h _ (List.getLast_mem hparts)
  refine ⟨parts.dropLast, parts.getLast hparts, (List.dropLast_append_getLast hparts).symm,
    hlast.1, hlast.2, ?_⟩
  conv_lhs => rw [← List.dropLast_append_getLast hparts]
  rw [List.flatMap_append, List.flatMap_singleton, List.append_assoc]

/-- Pieces between any kind of separators have none of them, and no other elements than
the text. -/
theorem mem_splitOnP {p : α → Bool} (h : piece ∈ text.splitOnP p) :
    (∀ c ∈ piece, p c = false) ∧ ∀ c ∈ piece, c ∈ text := by
  have hnone : ∀ c ∈ ([] : List α), p c = false := fun c hc => absurd hc List.not_mem_nil
  induction text generalizing piece with
  | nil =>
    rw [List.splitOnP_nil, List.mem_singleton] at h
    subst h
    exact ⟨hnone, fun c hc => absurd hc List.not_mem_nil⟩
  | cons first text ih =>
    rw [List.splitOnP_cons_eq_if_modifyHead] at h
    split_ifs at h with hsep
    · rcases List.mem_cons.mp h with rfl | hrest
      · exact ⟨hnone, fun c hc => absurd hc List.not_mem_nil⟩
      · exact ⟨(ih hrest).1, fun c hc => List.mem_cons_of_mem _ ((ih hrest).2 c hc)⟩
    · cases hsplit : text.splitOnP p with
      | nil => exact absurd hsplit (List.splitOnP_ne_nil p text)
      | cons head rest =>
        rw [hsplit] at h ih
        rcases List.mem_cons.mp h with rfl | hrest
        · obtain ⟨hfree, hchars⟩ := ih List.mem_cons_self
          refine ⟨fun c hc => ?_, fun c hc => ?_⟩
          · rcases List.mem_cons.mp hc with rfl | hc
            · exact Bool.eq_false_iff.mpr hsep
            · exact hfree c hc
          · rcases List.mem_cons.mp hc with rfl | hc
            · exact List.mem_cons_self
            · exact List.mem_cons_of_mem _ (hchars c hc)
        · obtain ⟨hfree, hchars⟩ := ih (List.mem_cons_of_mem _ hrest)
          exact ⟨hfree, fun c hc => List.mem_cons_of_mem _ (hchars c hc)⟩

variable [DecidableEq α]

/-- The pieces of a text have no separator, and no other elements than the text. -/
theorem mem_splitOn (h : piece ∈ text.splitOn a) : a ∉ piece ∧ ∀ c ∈ piece, c ∈ text := by
  rw [List.splitOn_eq_splitOnP] at h
  obtain ⟨hfree, hchars⟩ := mem_splitOnP h
  refine ⟨fun hmem => ?_, hchars⟩
  have hsep := hfree a hmem
  rw [beq_self_eq_true] at hsep
  cases hsep

/-- Parts without a separator come back as they were written. -/
theorem splitOn_ended (h : ∀ part ∈ parts, a ∉ part) (rest : List α) :
    ((parts.flatMap fun part => part ++ [a]) ++ rest).splitOn a = parts ++ rest.splitOn a := by
  induction parts with
  | nil => rfl
  | cons part parts ih =>
    have hrest := ih fun other hother => h other (List.mem_cons_of_mem _ hother)
    rw [List.flatMap_cons, List.append_assoc, List.append_assoc, List.singleton_append,
      List.splitOn_append_cons_self_of_not_mem (h part List.mem_cons_self), hrest,
      List.cons_append]

/-- The pieces without the separators are the text without them. -/
theorem flatten_splitOn (a : α) (text : List α) :
    (text.splitOn a).flatten = text.filter fun c => c ≠ a := by
  induction text with
  | nil => rfl
  | cons first text ih =>
    rw [List.splitOn_cons_eq_if_modifyHead]
    split_ifs with heq
    · rw [List.flatten_cons, List.nil_append, ih, List.filter_cons_of_neg]
      simpa using heq
    · rw [List.filter_cons_of_pos (by simpa using heq), ← ih]
      cases hsplit : text.splitOn a with
      | nil => exact absurd hsplit (List.splitOn_ne_nil a text)
      | cons head rest => rfl

/-- The pieces that are not empty. -/
def tokens (a : α) (text : List α) : List (List α) :=
  (text.splitOn a).filter fun piece => piece ≠ []

theorem flatten_tokens (a : α) (text : List α) :
    (tokens a text).flatten = text.filter fun c => c ≠ a := by
  rw [← flatten_splitOn, tokens]
  exact List.flatten_filter_ne_nil

/-- Parts that are not empty come back as they were written. -/
theorem tokens_ended (h : ∀ part ∈ parts, part ≠ [] ∧ a ∉ part) (rest : List α) :
    tokens a ((parts.flatMap fun part => part ++ [a]) ++ rest) = parts ++ tokens a rest := by
  rw [tokens, splitOn_ended (fun part hpart => (h part hpart).2), List.filter_append]
  congr 1
  exact List.filter_eq_self.mpr fun part hpart => decide_eq_true (h part hpart).1

theorem tokens_nil (a : α) : tokens a [] = [] := rfl

/-- A part without a separator is one token. -/
theorem tokens_part (hne : text ≠ []) (hfree : a ∉ text) : tokens a text = [text] := by
  rw [tokens, List.splitOn_eq_singleton hfree, List.filter_singleton]
  simp [hne]

/-- Where nothing but the last separator is cut off, the parts come back. -/
theorem tokens_take (h : ∀ part ∈ parts, part ≠ [] ∧ a ∉ part) {count : ℕ}
    (hcount : (parts.flatMap fun part => part ++ [a]).length ≤ count + 1) :
    tokens a ((parts.flatMap fun part => part ++ [a]).take count) = parts := by
  by_cases hparts : parts = []
  · rw [hparts, List.flatMap_nil, List.take_nil, tokens_nil]
  obtain ⟨before, last, heq, hne, hfree, htext⟩ := exists_last h hparts
  by_cases hall : (parts.flatMap fun part => part ++ [a]).length ≤ count
  · have hwhole := tokens_ended h []
    rw [List.append_nil, tokens_nil, List.append_nil] at hwhole
    rw [List.take_of_length_le hall, hwhole]
  · have hexact : count = ((before.flatMap fun part => part ++ [a]) ++ last).length := by
      rw [htext, List.length_append, List.length_singleton] at hcount hall
      omega
    rw [htext, hexact, List.take_left, tokens_ended, tokens_part hne hfree, ← heq]
    exact fun part hpart => h part (heq ▸ List.mem_append_left _ hpart)

/-- Where more is cut off, some of their elements are missing. -/
theorem length_tokens_take_lt (h : ∀ part ∈ parts, part ≠ [] ∧ a ∉ part) (hparts : parts ≠ [])
    {count : ℕ} (hcount : count + 1 < (parts.flatMap fun part => part ++ [a]).length) :
    (tokens a ((parts.flatMap fun part => part ++ [a]).take count)).flatten.length <
      parts.flatten.length := by
  obtain ⟨before, last, heq, hne, hfree, htext⟩ := exists_last h hparts
  have hwhole := tokens_ended h []
  rw [List.append_nil, tokens_nil, List.append_nil] at hwhole
  have hc : last.getLast hne ≠ a := fun hc => hfree (hc ▸ List.getLast_mem hne)
  have hfront : (parts.flatMap fun part => part ++ [a]) =
      ((before.flatMap fun part => part ++ [a]) ++ last.dropLast) ++ [last.getLast hne, a] := by
    rw [htext]
    conv_lhs => rw [← List.dropLast_append_getLast hne]
    simp
  generalize (before.flatMap fun part => part ++ [a]) ++ last.dropLast = front at hfront
  have hfits : count ≤ front.length := by
    rw [hfront, List.length_append] at hcount
    simp only [List.length_cons, List.length_nil] at hcount
    omega
  calc (tokens a ((parts.flatMap fun part => part ++ [a]).take count)).flatten.length
      = ((front.take count).filter fun c => c ≠ a).length := by
        rw [flatten_tokens, hfront, List.take_append_of_le_length hfits]
    _ ≤ (front.filter fun c => c ≠ a).length := ((List.take_sublist _ _).filter _).length_le
    _ < (front.filter fun c => c ≠ a).length + 1 := Nat.lt_succ_self _
    _ = ((parts.flatMap fun part => part ++ [a]).filter fun c => c ≠ a).length := by
        rw [hfront, List.filter_append, List.length_append]
        simp [hc]
    _ = parts.flatten.length := by rw [← flatten_tokens, hwhole]

end RobotOta.SeparatedText
