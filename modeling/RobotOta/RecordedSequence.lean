import RobotOta.RecordedRun
import Mathlib.Data.List.Forall2

/-!
# Programs run one behind the other

Unlike a walk, a sequence runs its steps whatever their results are. What is
recorded of it falls into complete runs of the first steps and a begun run of
the next one, so an event on record names the step it belongs to.
-/

namespace RobotOta.RequestProgram

variable {Request : Type} {Answer : Request → Type} {World : Type} {Step Item α β : Type}

/-- Run the steps in order and keep their results. -/
def inOrder (run : Step → Program Request Answer α) :
    (steps : List Step) → Program Request Answer (List α)
  | [] => pure []
  | step :: steps => do
    let value ← run step
    let values ← inOrder run steps
    pure (value :: values)

/-- A complete run of a step, with any result. -/
def Completes (run : Step → Program Request Answer α) (step : Step)
    (record : List (Event Request Answer)) : Prop :=
  ∃ value, Records (run step) value record

/-- Behind this front the event belongs to one of the steps, and the steps in
front of that one have been run completely. -/
def InStep (run : Step → Program Request Answer α) (steps : List Step)
    (front : List (Event Request Answer)) (event : Event Request Answer) : Prop :=
  ∃ done step later pieces inner rest, steps = done ++ step :: later ∧
    front = pieces.flatten ++ inner ∧ List.Forall₂ (Completes run) done pieces ∧
    Recorded (run step) (inner ++ event :: rest)

/-- A correspondence with a list in two parts has two parts. -/
theorem forall₂_parts {R : α → β → Prop} {front behind : List α} {matched : List β}
    (h : List.Forall₂ R (front ++ behind) matched) :
    ∃ first rest, matched = first ++ rest ∧ List.Forall₂ R front first ∧
      List.Forall₂ R behind rest := by
  have hfirst := List.forall₂_take front.length h
  have hrest := List.forall₂_drop front.length h
  rw [List.take_left'] at hfirst
  · rw [List.drop_left'] at hrest
    · exact ⟨_, _, (List.take_append_drop front.length matched).symm, hfirst, hrest⟩
    · rfl
  · rfl

section Sequence

variable {run : Step → Program Request Answer α} {steps more : List Step}
  {front behind record : List (Event Request Answer)} {event : Event Request Answer}

/-- Items that stand for steps. -/
theorem inOrder_map (f : Item → Step) (items : List Item) :
    inOrder run (items.map f) = inOrder (fun item => run (f item)) items := by
  induction items with
  | nil => rfl
  | cons item items ih =>
    rw [List.map_cons, inOrder, inOrder, ih]

/-- Steps that follow do not matter. -/
theorem InStep.followed (h : InStep run steps front event) (more : List Step) :
    InStep run (steps ++ more) front event := by
  obtain ⟨done, step, later, pieces, inner, rest, rfl, hfront, hdone, hin⟩ := h
  refine ⟨done, step, later ++ more, pieces, inner, rest, ?_, hfront, hdone, hin⟩
  rw [List.append_assoc, List.cons_append]

/-- Steps in front that have been run completely. -/
theorem InStep.preceded {pieces : List (List (Event Request Answer))}
    (hdone : List.Forall₂ (Completes run) steps pieces) (h : InStep run more front event) :
    InStep run (steps ++ more) (pieces.flatten ++ front) event := by
  obtain ⟨done, step, later, own, inner, rest, rfl, rfl, hown, hin⟩ := h
  refine ⟨steps ++ done, step, later, pieces ++ own, inner, rest, ?_, ?_, ?_, hin⟩
  · rw [List.append_assoc]
  · rw [List.flatten_append, List.append_assoc]
  · exact List.rel_append hdone hown

/-- An event recorded of a sequence and what follows it belongs to a step, or
comes behind complete runs of all of them. -/
theorem recorded_inOrder_bind {k : List α → Program Request Answer β}
    (h : Recorded (inOrder run steps >>= k) (front ++ event :: behind)) :
    InStep run steps front event ∨ ∃ values pieces own, front = pieces.flatten ++ own ∧
      List.Forall₂ (Completes run) steps pieces ∧
      Recorded (k values) (own ++ event :: behind) := by
  induction steps generalizing k front with
  | nil => exact Or.inr ⟨[], [], front, rfl, List.Forall₂.nil, h⟩
  | cons step steps ih =>
    rw [inOrder, bind_assoc] at h
    have hhere : ∀ {rest}, Recorded (run step) (front ++ event :: rest) →
        InStep run (step :: steps) front event := fun {rest} hin =>
      ⟨[], step, steps, [], front, rest, rfl, rfl, List.Forall₂.nil, hin⟩
    rcases recorded_bind h with hin | ⟨value, piece, later, hrun, hlater, hsplit⟩
    · exact Or.inl (hhere hin)
    -- The event stands behind a complete run of the first step, or inside it.
    have hbehind : ∀ own, front = piece ++ own → later = own ++ event :: behind →
        InStep run (step :: steps) front event ∨ ∃ values pieces own,
          front = pieces.flatten ++ own ∧ List.Forall₂ (Completes run) (step :: steps) pieces ∧
          Recorded (k values) (own ++ event :: behind) := by
      rintro own rfl rfl
      rw [bind_assoc] at hlater
      have hfirst : Completes run step piece := ⟨value, hrun⟩
      rcases ih hlater with hin | ⟨values, pieces, rest, rfl, hpieces, hrest⟩
      · have hstep : InStep run ([step] ++ steps) ([piece].flatten ++ own) event :=
          hin.preceded (List.Forall₂.cons hfirst List.Forall₂.nil)
        rw [List.flatten_singleton] at hstep
        exact Or.inl hstep
      · exact Or.inr ⟨value :: values, piece :: pieces, rest,
          by rw [List.flatten_cons, List.append_assoc], List.Forall₂.cons hfirst hpieces, hrest⟩
    rcases List.append_eq_append_iff.mp hsplit with ⟨own, hpiece, hevent⟩ | ⟨own, hfront, hrest⟩
    · cases own with
      | nil => exact hbehind [] (by rw [hpiece, List.append_nil, List.append_nil]) hevent.symm
      | cons first more =>
        rw [List.cons_append] at hevent
        obtain ⟨rfl, -⟩ := List.cons.inj hevent
        rw [hpiece] at hrun
        exact Or.inl (hhere hrun.recorded)
    · exact hbehind own hfront hrest

end Sequence

/-- Something recorded behind the test of an early return has passed it. -/
theorem recorded_passed {γ : Type} [DecidableEq γ] {ret good : γ} {failed : α}
    {p : Program Request Answer α} {record : List (Event Request Answer)} (hne : record ≠ [])
    (h : Recorded (if ret ≠ good then pure failed else p) record) :
    ret = good ∧ Recorded p record := by
  by_cases hret : ret = good
  · rw [if_neg (not_not.mpr hret)] at h
    exact ⟨hret, h⟩
  · rw [if_pos hret] at h
    exact absurd (recorded_pure h) hne

section Keeps

variable {act : Effect Request Answer World} {Inv : World → Prop}

/-- A walk keeps what its steps keep. -/
theorem keeps_walk {State : Type} {run : Step → State → Program Request Answer (Int × State)}
    (h : ∀ step state, Keeps act Inv (run step state)) (steps : List Step) (state : State) :
    Keeps act Inv (walk run steps state) := by
  induction steps generalizing state with
  | nil => exact keeps_pure _
  | cons step steps ih => exact keeps_bind (h step state) fun _ => keeps_ite (keeps_pure _) (ih _)

end Keeps

/-- Everything on record is a request of this kind. -/
def AllAsk (allowed : Request → Prop) (record : List (Event Request Answer)) : Prop :=
  ∀ event ∈ record, allowed event.1

/-- An allowed request keeps the record to the allowed kind. -/
theorem keeps_allowed {allowed : Request → Prop} {r : Request} (h : allowed r) :
    Keeps recording (@AllAsk Request Answer allowed) (ask r) := by
  refine keeps_ask fun record answer record' hrecord hact event hevent => ?_
  rw [show record' = record ++ [⟨r, answer⟩] from hact] at hevent
  rcases List.mem_append.mp hevent with hin | hin
  · exact hrecord event hin
  · rw [List.mem_singleton.mp hin]
    exact h

end RobotOta.RequestProgram
