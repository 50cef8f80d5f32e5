import RobotOta.RequestProgram
import Mathlib.Data.List.Basic

/-!
# Records of runs, and walks that stop at the first failure

The record of a run is everything it asked with everything it was answered. A
record determines how far the program has come. A walk runs one program for
each of its steps until one of them fails; whatever stands in its record stands
in one step, behind complete successful runs of the steps in front of it.
-/

namespace RobotOta.RequestProgram

variable {Request : Type} {Answer : Request → Type} {World : Type} {α β : Type}

/-- Programs follow the laws of a monad. -/
instance : LawfulMonad (Program Request Answer) :=
  LawfulMonad.mk' (Program Request Answer)
    (by
      intro α p
      induction p with
      | pure value => rfl
      | request r next ih => exact congrArg (Program.request r) (funext fun answer => ih answer))
    (fun _ _ => rfl)
    (by
      intro α β γ p k k'
      induction p with
      | pure value => rfl
      | request r next ih => exact congrArg (Program.request r) (funext fun answer => ih answer))

/-- A request with its answer. -/
abbrev Event (Request : Type) (Answer : Request → Type) := (r : Request) × Answer r

/-- The effect that records everything. -/
def recording : Effect Request Answer (List (Event Request Answer)) :=
  logging fun r answer => [⟨r, answer⟩]

/-- The record of a complete run. -/
def Records (p : Program Request Answer α) (value : α) (record : List (Event Request Answer)) :
    Prop :=
  Exec recording [] p value record

/-- The record of a run so far. -/
def Recorded (p : Program Request Answer α) (record : List (Event Request Answer)) : Prop :=
  Reaches recording [] p record

variable {p : Program Request Answer α} {record : List (Event Request Answer)}

theorem Records.recorded {value : α} (h : Records p value record) : Recorded p record :=
  h.reaches

/-- Nothing is recorded of a program that returns. -/
theorem recorded_pure {value : α}
    (h : Recorded (pure value : Program Request Answer α) record) : record = [] := by
  cases h with
  | here => rfl

theorem records_pure {value result : α}
    (h : Records (pure value : Program Request Answer α) result record) :
    result = value ∧ record = [] :=
  exec_pure.mp h

theorem records_ask {r : Request} {answer : Answer r} (h : Records (ask r) answer record) :
    record = [⟨r, answer⟩] :=
  exec_ask.mp h

/-- The record of a sequence is that of its parts. -/
theorem records_bind {k : α → Program Request Answer β} {result : β}
    (h : Records (p >>= k) result record) :
    ∃ value front behind, Records p value front ∧ Records (k value) result behind ∧
      record = front ++ behind :=
  exec_logging_bind h

/-- A record that has begun is that of the first part, or goes on with the second. -/
theorem recorded_bind {k : α → Program Request Answer β} (h : Recorded (p >>= k) record) :
    Recorded p record ∨ ∃ value front behind, Records p value front ∧
      Recorded (k value) behind ∧ record = front ++ behind := by
  rcases reaches_bind h with hin | ⟨value, front, hrun, hin⟩
  · exact Or.inl hin
  · obtain ⟨behind, hrecord, hbehind⟩ := reaches_logging hin
    exact Or.inr ⟨value, front, behind, hrun, hbehind, hrecord⟩

/-- The record begins with the first request. -/
theorem recorded_request {r : Request} {next : Answer r → Program Request Answer α}
    {event : Event Request Answer} (h : Recorded (.request r next) (event :: record)) :
    ∃ answer, event = ⟨r, answer⟩ ∧ Recorded (next answer) record := by
  cases h with
  | @later _ _ _ w₁ _ answer hact hrest =>
    obtain rfl : w₁ = [⟨r, answer⟩] := hact
    obtain ⟨behind, hrecord, hbehind⟩ := reaches_logging hrest
    obtain ⟨rfl, rfl⟩ := List.cons.inj hrecord
    exact ⟨answer, rfl, hbehind⟩

/-- The record goes on behind the first request. -/
theorem records_of_request {r : Request} {next : Answer r → Program Request Answer α}
    {answer : Answer r} {value : α} (h : Records (next answer) value record) :
    Records (.request r next) value (⟨r, answer⟩ :: record) :=
  Exec.request rfl (exec_logging_prepend h [⟨r, answer⟩])

/-- A complete record begins with the first request, too. -/
theorem records_request {r : Request} {next : Answer r → Program Request Answer α} {value : α}
    (h : Records (.request r next) value record) :
    ∃ answer rest, record = ⟨r, answer⟩ :: rest ∧ Records (next answer) value rest := by
  cases h with
  | @request _ _ _ w₁ _ answer _ hact hrest =>
    obtain rfl : w₁ = [⟨r, answer⟩] := hact
    obtain ⟨rest, hrecord, hrun⟩ := exec_logging hrest
    exact ⟨answer, rest, hrecord, hrun⟩

/-- Two records of one program that stand in front of the same events are one. -/
theorem records_cancel {value value' : α}
    {front front' behind behind' : List (Event Request Answer)} (h : Records p value front)
    (h' : Records p value' front') (heq : front ++ behind = front' ++ behind') :
    value = value' ∧ front = front' ∧ behind = behind' := by
  induction p generalizing front front' with
  | pure returned =>
    obtain ⟨rfl, rfl⟩ := records_pure h
    obtain ⟨rfl, rfl⟩ := records_pure h'
    exact ⟨rfl, rfl, heq⟩
  | request r next ih =>
    obtain ⟨answer, rest, rfl, hrun⟩ := records_request h
    obtain ⟨answer', rest', rfl, hrun'⟩ := records_request h'
    obtain ⟨hevent, hrest⟩ := List.cons.inj heq
    obtain rfl : answer = answer' := eq_of_heq (Sigma.mk.inj hevent).2
    obtain ⟨hvalue, hfront, hbehind⟩ := ih answer hrun hrun' hrest
    exact ⟨hvalue, congrArg _ hfront, hbehind⟩

/-- A sequence records its parts one behind the other. -/
theorem Records.bind {k : α → Program Request Answer β} {value : α} {result : β}
    {front behind : List (Event Request Answer)} (h : Records p value front)
    (hk : Records (k value) result behind) : Records (p >>= k) result (front ++ behind) := by
  induction p generalizing front with
  | pure returned =>
    obtain ⟨rfl, rfl⟩ := records_pure h
    exact hk
  | request r next ih =>
    obtain ⟨answer, rest, rfl, hrun⟩ := records_request h
    exact records_of_request (ih answer hrun)

/-- What the first part of a sequence recorded is behind; the rest of the record
is that of the second. -/
theorem Recorded.of_records {k : α → Program Request Answer β} {value : α}
    {front behind : List (Event Request Answer)} (h : Recorded (p >>= k) (front ++ behind))
    (hrun : Records p value front) : Recorded (k value) behind := by
  induction p generalizing front with
  | pure returned =>
    obtain ⟨rfl, rfl⟩ := records_pure hrun
    exact h
  | request r next ih =>
    cases hrun with
    | @request _ _ _ w₁ _ answer _ hact hrest =>
      obtain rfl : w₁ = [⟨r, answer⟩] := hact
      obtain ⟨later, rfl, hlater⟩ := exec_logging hrest
      obtain ⟨answer', hevent, hnext⟩ := recorded_request h
      obtain rfl : answer = answer' := eq_of_heq (Sigma.mk.inj hevent).2
      exact ih answer hnext hlater

section Walk

variable {Step State : Type} (run : Step → State → Program Request Answer (Int × State))

/-- Run the steps in order until one of them fails. -/
def walk : (steps : List Step) → State → Program Request Answer (Int × State)
  | [], state => pure (0, state)
  | step :: steps, state => do
    let (ret, state) ← run step state
    if ret ≠ 0 then pure (-1, state) else walk steps state

/-- A successful run of a step, from some state to some state. -/
def Succeeds (step : Step) (record : List (Event Request Answer)) : Prop :=
  ∃ before after, Records (run step before) (0, after) record

/-- A walk over more steps goes on where the first ones succeeded. -/
theorem walk_append (steps more : List Step) (state : State) :
    walk run (steps ++ more) state = walk run steps state >>= fun result =>
      if result.1 ≠ 0 then pure (-1, result.2) else walk run more result.2 := by
  induction steps generalizing state with
  | nil => rfl
  | cons step steps ih =>
    rw [List.cons_append, walk, walk, bind_assoc]
    congr 1
    funext result
    by_cases hret : result.1 = 0
    · simpa only [hret, ne_eq, not_true_eq_false, if_false] using ih result.2
    · simp only [hret, ne_eq, not_false_eq_true, if_true]
      rfl

variable {run} {steps : List Step} {state : State}

/-- What a walk records, it records inside one step, and the steps in front of
that one have succeeded. -/
theorem recorded_walk {front behind : List (Event Request Answer)}
    {event : Event Request Answer}
    (h : Recorded (walk run steps state) (front ++ event :: behind)) :
    ∃ done step later pieces inner, steps = done ++ step :: later ∧
      front = pieces.flatten ++ inner ∧ List.Forall₂ (Succeeds run) done pieces ∧
      ∃ before rest, Recorded (run step before) (inner ++ event :: rest) := by
  induction steps generalizing state front with
  | nil => exact absurd (recorded_pure h) (by simp)
  | cons step steps ih =>
    have hhere : ∀ {rest}, Recorded (run step state) (front ++ event :: rest) →
        ∃ done step' later pieces inner, step :: steps = done ++ step' :: later ∧
          front = pieces.flatten ++ inner ∧ List.Forall₂ (Succeeds run) done pieces ∧
          ∃ before rest, Recorded (run step' before) (inner ++ event :: rest) :=
      fun {rest} hin => ⟨[], step, steps, [], front, rfl, rfl, List.Forall₂.nil, state, rest, hin⟩
    rcases recorded_bind h with hin | ⟨⟨ret, after⟩, piece, later, hrun, hlater, hsplit⟩
    · exact hhere hin
    -- The steps behind only begin when this one has succeeded.
    have hbehind : ∀ own, front = piece ++ own → later = own ++ event :: behind →
        ∃ done step' later pieces inner, step :: steps = done ++ step' :: later ∧
          front = pieces.flatten ++ inner ∧ List.Forall₂ (Succeeds run) done pieces ∧
          ∃ before rest, Recorded (run step' before) (inner ++ event :: rest) := by
      rintro own rfl rfl
      dsimp only at hlater
      split_ifs at hlater with hret
      · exact absurd (recorded_pure hlater) (by simp)
      · rw [ne_eq, not_not] at hret
        subst hret
        obtain ⟨done, step', others, pieces, inner, rfl, rfl, hdone, hin⟩ := ih hlater
        exact ⟨step :: done, step', others, piece :: pieces, inner, rfl,
          by rw [List.flatten_cons, List.append_assoc],
          List.Forall₂.cons ⟨state, after, hrun⟩ hdone, hin⟩
    rcases List.append_eq_append_iff.mp hsplit with ⟨own, hpiece, hevent⟩ | ⟨own, hfront, hrest⟩
    · cases own with
      | nil => exact hbehind [] (by rw [hpiece, List.append_nil, List.append_nil]) hevent.symm
      | cons first more =>
        rw [List.cons_append] at hevent
        obtain ⟨rfl, -⟩ := List.cons.inj hevent
        rw [hpiece] at hrun
        exact hhere hrun.recorded
    · exact hbehind own hfront hrest

end Walk

end RobotOta.RequestProgram
