import Mathlib.Data.List.Induction
import Mathlib.Tactic.Common

/-!
# Runs of a step over a list of events

A step consumes one event and either yields the next state or a fault. The
rules below lift what one step preserves to whole runs: an invariant that may
speak about the events consumed so far, and a simulation of a run by the run
over the events of one class. The last rule is for steps that cannot fail.
-/

namespace RobotOta.EventRun

variable {σ ε φ : Type*}

/-- Consume the events in order, stopping at the first fault. -/
def runEvents (step : σ → ε → Except φ σ) : σ → List ε → Except φ σ
  | state, [] => .ok state
  | state, event :: rest =>
    match step state event with
    | .ok next => runEvents step next rest
    | .error fault => .error fault

/-- A run over a joined list is the run over the second part from wherever
the first part ends. -/
theorem runEvents_append (step : σ → ε → Except φ σ) (state : σ) (xs ys : List ε) :
    runEvents step state (xs ++ ys) =
      match runEvents step state xs with
      | .ok next => runEvents step next ys
      | .error fault => .error fault := by
  induction xs generalizing state with
  | nil => rfl
  | cons event xs ih =>
    rw [List.cons_append, runEvents, runEvents]
    cases step state event with
    | ok next => exact ih next
    | error fault => rfl

/-- One more step after a faultless run. -/
theorem runEvents_concat {step : σ → ε → Except φ σ} {start state next : σ} {event : ε}
    {events : List ε} (hrun : runEvents step start events = .ok state)
    (hstep : step state event = .ok next) :
    runEvents step start (events ++ [event]) = .ok next := by
  rw [runEvents_append, hrun]
  simp only [runEvents, hstep]

/-- A run over the events some source items stand for is a run over the items. -/
theorem runEvents_filterMap {ι : Type*} (step : σ → ε → Except φ σ) (event : ι → Option ε)
    (state : σ) (items : List ι) :
    runEvents step state (items.filterMap event) =
      runEvents (fun state item =>
        match event item with
        | none => .ok state
        | some e => step state e) state items := by
  induction items generalizing state with
  | nil => rfl
  | cons item items ih =>
    cases he : event item with
    | none => rw [List.filterMap_cons_none he, ih, runEvents, he]
    | some e =>
      rw [List.filterMap_cons_some he, runEvents, runEvents, he]
      dsimp only
      cases step state e with
      | ok next => exact ih next
      | error fault => rfl

/-- An invariant of the consumed prefix that every step re-establishes, without
fault, holds of the state after every prefix of the run. -/
theorem runEvents_prefix_invariant (step : σ → ε → Except φ σ) {start : σ} {events : List ε}
    (Inv : List ε → σ → Prop) (hstart : Inv [] start)
    (hstep : ∀ seen event rest state, events = seen ++ event :: rest → Inv seen state →
      ∃ next, step state event = .ok next ∧ Inv (seen ++ [event]) next)
    {seen rest : List ε} (hsplit : events = seen ++ rest) :
    ∃ state, runEvents step start seen = .ok state ∧ Inv seen state := by
  induction seen using List.reverseRecOn generalizing rest with
  | nil => exact ⟨start, rfl, hstart⟩
  | append_singleton seen event ih =>
    have hsplit' : events = seen ++ event :: rest := by simpa using hsplit
    obtain ⟨state, hrun, hinv⟩ := ih hsplit'
    obtain ⟨next, hnext, hinv'⟩ := hstep seen event rest state hsplit' hinv
    exact ⟨next, runEvents_concat hrun hnext, hinv'⟩

/-- An invariant that every faultless step keeps holds wherever a run ends. -/
theorem runEvents_invariant (step : σ → ε → Except φ σ) {Inv : σ → Prop}
    (hinv : ∀ state event next, Inv state → step state event = .ok next → Inv next)
    {start state : σ} {events : List ε} (hstart : Inv start)
    (hrun : runEvents step start events = .ok state) : Inv state := by
  induction events generalizing start with
  | nil =>
    cases hrun
    exact hstart
  | cons event events ih =>
    rw [runEvents] at hrun
    cases hnext : step start event with
    | error fault =>
      rw [hnext] at hrun
      cases hrun
    | ok next =>
      rw [hnext] at hrun
      exact ih (hinv start event next hstart hnext) hrun

/-- If steps on other classes of events keep the relation on their own and
steps on the observed class keep it jointly, a faultless run is matched by the
run over the observed events alone. -/
theorem runEvents_filter_simulation (step : σ → ε → Except φ σ) (observed : ε → Bool)
    (R : σ → σ → Prop)
    (hother : ∀ event s t s', observed event = false → R s t → step s event = .ok s' → R s' t)
    (hobserved : ∀ event s t s', observed event = true → R s t → step s event = .ok s' →
      ∃ t', step t event = .ok t' ∧ R s' t')
    {events : List ε} {s t s' : σ} (hR : R s t) (hrun : runEvents step s events = .ok s') :
    ∃ t', runEvents step t (events.filter observed) = .ok t' ∧ R s' t' := by
  induction events generalizing s t with
  | nil =>
    cases hrun
    exact ⟨t, rfl, hR⟩
  | cons event events ih =>
    rw [runEvents] at hrun
    cases hs : step s event with
    | error fault =>
      rw [hs] at hrun
      cases hrun
    | ok next =>
      rw [hs] at hrun
      cases ho : observed event with
      | false =>
        rw [List.filter_cons_of_neg (by simp [ho])]
        exact ih (hother event s t next ho hR hs) hrun
      | true =>
        obtain ⟨next', hnext', hR'⟩ := hobserved event s t next ho hR hs
        obtain ⟨t', ht', hRt⟩ := ih hR' hrun
        refine ⟨t', ?_, hRt⟩
        rw [List.filter_cons_of_pos ho, runEvents, hnext']
        exact ht'

/-- Where an invariant holds throughout and one condition on a step decides
whether it leads to a good state without fault, the good runs are those whose
steps all meet the condition. -/
theorem runEvents_good_iff (step : σ → ε → Except φ σ) (Inv Good : σ → Prop)
    (Sound : σ → ε → Prop)
    (hinv : ∀ state event next, Inv state → step state event = .ok next → Inv next)
    (hstep : ∀ state event, Inv state → Good state →
      ((∃ next, step state event = .ok next ∧ Good next) ↔ Sound state event))
    {start : σ} (hstart : Inv start) (hgood : Good start) (events : List ε) :
    (∀ seen rest, events = seen ++ rest →
        ∃ state, runEvents step start seen = .ok state ∧ Good state) ↔
      ∀ seen event rest state, events = seen ++ event :: rest →
        runEvents step start seen = .ok state → Sound state event := by
  induction events generalizing start with
  | nil =>
    refine iff_of_true ?_ (by simp)
    intro seen rest hsplit
    obtain ⟨rfl, -⟩ := List.append_eq_nil_iff.mp hsplit.symm
    exact ⟨start, rfl, hgood⟩
  | cons first events ih =>
    have hcons : ∀ next, step start first = .ok next → ∀ seen,
        runEvents step start (first :: seen) = runEvents step next seen := by
      intro next hnext seen
      rw [runEvents, hnext]
    constructor
    · intro h
      have hfirst : ∃ next, step start first = .ok next ∧ Good next := by
        obtain ⟨next, hrun, hnext⟩ := h [first] events rfl
        refine ⟨next, ?_, hnext⟩
        rw [runEvents] at hrun
        cases hs : step start first with
        | error fault =>
          rw [hs] at hrun
          cases hrun
        | ok state =>
          rw [hs] at hrun
          exact hrun
      obtain ⟨next, hnext, hnextGood⟩ := hfirst
      have hrest := (ih (hinv start first next hstart hnext) hnextGood).mp
        (fun seen rest hsplit => by
          rw [← hcons next hnext]
          exact h (first :: seen) rest (congrArg (first :: ·) hsplit))
      intro seen event rest state hsplit hrun
      cases seen with
      | nil =>
        obtain ⟨rfl, -⟩ := List.cons_eq_cons.mp hsplit
        cases hrun
        exact (hstep start first hstart hgood).mp ⟨next, hnext, hnextGood⟩
      | cons other seen =>
        obtain ⟨rfl, htail⟩ := List.cons_eq_cons.mp hsplit
        rw [hcons next hnext] at hrun
        exact hrest seen event rest state htail hrun
    · intro h
      obtain ⟨next, hnext, hnextGood⟩ :=
        (hstep start first hstart hgood).mpr (h [] first events start rfl rfl)
      have hrest := (ih (hinv start first next hstart hnext) hnextGood).mpr
        (fun seen event rest state hsplit hrun =>
          h (first :: seen) event rest state (congrArg (first :: ·) hsplit)
            (by rwa [hcons next hnext]))
      intro seen rest hsplit
      cases seen with
      | nil => exact ⟨start, rfl, hgood⟩
      | cons other seen =>
        obtain ⟨rfl, htail⟩ := List.cons_eq_cons.mp hsplit
        rw [hcons next hnext]
        exact hrest seen rest htail

/-- A step that cannot fail folds over the events. -/
theorem runEvents_ok (step : σ → ε → σ) (start : σ) (events : List ε) :
    runEvents (fun state event => (.ok (step state event) : Except φ σ)) start events =
      .ok (events.foldl step start) := by
  induction events generalizing start with
  | nil => rfl
  | cons event events ih => exact ih (step start event)

/-- The same for steps that cannot fail. -/
theorem foldl_good_iff (step : σ → ε → σ) (Inv Good : σ → Prop) (Sound : σ → ε → Prop)
    (hinv : ∀ state event, Inv state → Inv (step state event))
    (hstep : ∀ state event, Inv state → Good state →
      (Good (step state event) ↔ Sound state event))
    {start : σ} (hstart : Inv start) (hgood : Good start) (events : List ε) :
    (∀ seen rest, events = seen ++ rest → Good (seen.foldl step start)) ↔
      ∀ seen event rest, events = seen ++ event :: rest →
        Sound (seen.foldl step start) event := by
  have hruns := runEvents_good_iff
    (fun state event => (.ok (step state event) : Except Unit σ)) Inv Good Sound
    (by
      rintro state event _ hstate ⟨⟩
      exact hinv state event hstate)
    (by
      intro state event hstate hgood
      simpa using hstep state event hstate hgood)
    hstart hgood events
  simpa [runEvents_ok] using hruns

end RobotOta.EventRun
