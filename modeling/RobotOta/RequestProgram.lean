import Mathlib.Tactic.Common

/-!
# Programs that make requests

A program either returns or makes a request and goes on with the answer. What
a request does to the world is a relation, so one program can be run against a
faulty network, against a disk that loses power, or against nothing but a log
of what it asked for. The rules take runs and unfinished runs apart along the
program's own structure.
-/

namespace RobotOta.RequestProgram

/-- A program over requests with typed answers. -/
inductive Program (Request : Type) (Answer : Request → Type) (α : Type) where
  | pure (value : α)
  | request (r : Request) (next : Answer r → Program Request Answer α)

variable {Request : Type} {Answer : Request → Type} {World : Type} {α β : Type}

/-- Run a second program on the first one's result. -/
def Program.bind (p : Program Request Answer α) (k : α → Program Request Answer β) :
    Program Request Answer β :=
  match p with
  | .pure value => k value
  | .request r next => .request r fun answer => (next answer).bind k

instance : Monad (Program Request Answer) where
  pure := .pure
  bind := .bind

/-- Make one request and return its answer. -/
def ask (r : Request) : Program Request Answer (Answer r) := .request r .pure

/-- What a request may answer, and what it may do to the world. -/
abbrev Effect (Request : Type) (Answer : Request → Type) (World : Type) :=
  (r : Request) → World → Answer r → World → Prop

/-- A complete run: the world in front, the result and the world behind. -/
inductive Exec (act : Effect Request Answer World) :
    World → Program Request Answer α → α → World → Prop where
  | pure {w : World} {value : α} : Exec act w (.pure value) value w
  | request {r : Request} {next : Answer r → Program Request Answer α} {w w₁ w₂ : World}
    {answer : Answer r} {value : α} :
    act r w answer w₁ → Exec act w₁ (next answer) value w₂ →
      Exec act w (.request r next) value w₂

/-- A world between two requests of a run, finished or not. -/
inductive Reaches (act : Effect Request Answer World) :
    World → Program Request Answer α → World → Prop where
  | here {w : World} {p : Program Request Answer α} : Reaches act w p w
  | later {r : Request} {next : Answer r → Program Request Answer α} {w w₁ w₂ : World}
    {answer : Answer r} :
    act r w answer w₁ → Reaches act w₁ (next answer) w₂ → Reaches act w (.request r next) w₂

variable {act : Effect Request Answer World} {w w' : World}

/-- A returning program has nothing left to run. -/
@[simp] theorem exec_pure {value result : α} :
    Exec act w (pure value : Program Request Answer α) result w' ↔ result = value ∧ w' = w := by
  constructor
  · intro h
    cases h
    exact ⟨rfl, rfl⟩
  · rintro ⟨rfl, rfl⟩
    exact Exec.pure

/-- A run of a sequence is a run of the first part and one of the second. -/
theorem exec_bind {p : Program Request Answer α} {k : α → Program Request Answer β}
    {result : β} :
    Exec act w (p >>= k) result w' ↔
      ∃ value w₁, Exec act w p value w₁ ∧ Exec act w₁ (k value) result w' := by
  constructor
  · intro h
    induction p generalizing w with
    | pure value => exact ⟨value, w, Exec.pure, h⟩
    | request r next ih =>
      cases h with
      | request hact hrest =>
        obtain ⟨value, w₁, hfirst, hsecond⟩ := ih _ hrest
        exact ⟨value, w₁, Exec.request hact hfirst, hsecond⟩
  · rintro ⟨value, w₁, hfirst, hsecond⟩
    induction hfirst with
    | pure => exact hsecond
    | request hact _ ih => exact Exec.request hact (ih hsecond)

/-- A single request runs in one step. -/
theorem exec_ask {r : Request} {answer : Answer r} :
    Exec act w (ask r) answer w' ↔ act r w answer w' := by
  constructor
  · intro h
    cases h with
    | request hact hrest =>
      cases hrest
      exact hact
  · exact fun h => Exec.request h Exec.pure

/-- A run that does not end with the value of an early return has passed its
test, and goes on with the rest. -/
theorem exec_passed {γ : Type} [DecidableEq γ] {ret good : γ} {failed result : α}
    {rest : Program Request Answer α} (hne : result ≠ failed)
    (h : Exec act w (if ret ≠ good then pure failed else rest) result w') :
    ret = good ∧ Exec act w rest result w' := by
  by_cases hret : ret = good
  · rw [if_neg (not_not.mpr hret)] at h
    exact ⟨hret, h⟩
  · rw [if_pos hret] at h
    exact absurd (exec_pure.mp h).1 hne

/-- A world inside a sequence is inside its first part, or inside the second
after a run of the first. -/
theorem reaches_bind {p : Program Request Answer α} {k : α → Program Request Answer β}
    (h : Reaches act w (p >>= k) w') :
    Reaches act w p w' ∨ ∃ value w₁, Exec act w p value w₁ ∧ Reaches act w₁ (k value) w' := by
  induction p generalizing w with
  | pure value => exact Or.inr ⟨value, w, Exec.pure, h⟩
  | request r next ih =>
    cases h with
    | here => exact Or.inl Reaches.here
    | later hact hrest =>
      rcases ih _ hrest with hin | ⟨value, w₁, hrun, hin⟩
      · exact Or.inl (Reaches.later hact hin)
      · exact Or.inr ⟨value, w₁, Exec.request hact hrun, hin⟩

/-- The world behind a run is one the run reaches. -/
theorem Exec.reaches {p : Program Request Answer α} {value : α} (h : Exec act w p value w') :
    Reaches act w p w' := by
  induction h with
  | pure => exact Reaches.here
  | request hact _ ih => exact Reaches.later hact ih

/-- The program keeps an invariant in every world it reaches. -/
def Keeps (act : Effect Request Answer World) (Inv : World → Prop)
    (p : Program Request Answer α) : Prop :=
  ∀ w w', Inv w → Reaches act w p w' → Inv w'

section Keeps

variable {Inv : World → Prop}

/-- Returning keeps everything. -/
theorem keeps_pure (value : α) : Keeps act Inv (pure value : Program Request Answer α) := by
  intro w w' hw h
  cases h with
  | here => exact hw

/-- A request keeps what its effect keeps. -/
theorem keeps_ask {r : Request} (h : ∀ w answer w', Inv w → act r w answer w' → Inv w') :
    Keeps act Inv (ask r) := by
  intro w w' hw hreach
  cases hreach with
  | here => exact hw
  | later hact hrest =>
    cases hrest with
    | here => exact h _ _ _ hw hact

/-- A sequence keeps what both of its parts keep. -/
theorem keeps_bind {p : Program Request Answer α} {k : α → Program Request Answer β}
    (hp : Keeps act Inv p) (hk : ∀ value, Keeps act Inv (k value)) : Keeps act Inv (p >>= k) := by
  intro w w' hw h
  rcases reaches_bind h with hin | ⟨value, w₁, hrun, hin⟩
  · exact hp w w' hw hin
  · exact hk value w₁ w' (hp w w₁ hw hrun.reaches) hin

/-- A choice keeps what both of its sides keep. -/
theorem keeps_ite {c : Prop} [Decidable c] {p q : Program Request Answer α}
    (hp : Keeps act Inv p) (hq : Keeps act Inv q) : Keeps act Inv (if c then p else q) := by
  split_ifs
  · exact hp
  · exact hq

/-- From one kind of world, the program reaches only worlds of another. -/
def Leads (act : Effect Request Answer World) (Pre Post : World → Prop)
    (p : Program Request Answer α) : Prop :=
  ∀ w w', Pre w → Reaches act w p w' → Post w'

variable {Pre Mid Post : World → Prop}

/-- What is kept implies what is asked for. -/
theorem Keeps.leads {p : Program Request Answer α} (h : Keeps act Pre p)
    (himp : ∀ w, Pre w → Post w) : Leads act Pre Post p :=
  fun w w' hw hreach => himp w' (h w w' hw hreach)

/-- A request leads where its effect does. -/
theorem leads_ask {r : Request} (himp : ∀ w, Pre w → Post w)
    (h : ∀ w answer w', Pre w → act r w answer w' → Post w') : Leads act Pre Post (ask r) := by
  intro w w' hw hreach
  cases hreach with
  | here => exact himp _ hw
  | later hact hrest =>
    cases hrest with
    | here => exact h _ _ _ hw hact

/-- A sequence, over what holds between its parts. -/
theorem Leads.bind {p : Program Request Answer α} {k : α → Program Request Answer β}
    (hp : Leads act Pre Post p) (hmid : ∀ w value w', Pre w → Exec act w p value w' → Mid w')
    (hk : ∀ value, Leads act Mid Post (k value)) : Leads act Pre Post (p >>= k) := by
  intro w w' hw h
  rcases reaches_bind h with hin | ⟨value, w₁, hrun, hin⟩
  · exact hp w w' hw hin
  · exact hk value w₁ w' (hmid w value w₁ hw hrun) hin

/-- A first part that keeps the precondition. -/
theorem Keeps.leads_bind {p : Program Request Answer α} {k : α → Program Request Answer β}
    (hp : Keeps act Pre p) (himp : ∀ w, Pre w → Post w)
    (hk : ∀ value, Leads act Pre Post (k value)) : Leads act Pre Post (p >>= k) :=
  (hp.leads himp).bind (fun w _ w' hw hrun => hp w w' hw hrun.reaches) hk

/-- A second part that keeps the postcondition. -/
theorem Leads.bind_keeps {p : Program Request Answer α} {k : α → Program Request Answer β}
    (hp : Leads act Pre Post p) (hk : ∀ value, Keeps act Post (k value)) :
    Leads act Pre Post (p >>= k) :=
  hp.bind (fun w _ w' hw hrun => hp w w' hw hrun.reaches) hk

/-- A choice leads where both of its sides do. -/
theorem leads_ite {c : Prop} [Decidable c] {p q : Program Request Answer α}
    (hp : Leads act Pre Post p) (hq : Leads act Pre Post q) :
    Leads act Pre Post (if c then p else q) := by
  split_ifs
  · exact hp
  · exact hq

/-- Every program keeps what every request keeps. -/
theorem keeps_of_forall (h : ∀ r w answer w', Inv w → act r w answer w' → Inv w')
    (p : Program Request Answer α) : Keeps act Inv p := by
  intro w w' hw hreach
  induction hreach with
  | here => exact hw
  | later hact _ ih => exact ih (h _ _ _ _ hw hact)

end Keeps

/-- Run a program in a world that has one answer to every request. -/
def Program.run (respond : (r : Request) → World → Answer r × World) :
    Program Request Answer α → World → α × World
  | .pure value, w => (value, w)
  | .request r next, w => (next (respond r w).1).run respond (respond r w).2

/-- A sequence runs its parts one behind the other. -/
theorem run_bind (respond : (r : Request) → World → Answer r × World)
    (p : Program Request Answer α) (k : α → Program Request Answer β) (w : World) :
    (p >>= k).run respond w = (k (p.run respond w).1).run respond (p.run respond w).2 := by
  induction p generalizing w with
  | pure value => rfl
  | request r next ih => exact ih _ _

/-- What follows a request gets its answer. -/
theorem run_ask_bind (respond : (r : Request) → World → Answer r × World) (r : Request)
    (k : Answer r → Program Request Answer α) (w : World) :
    (ask r >>= k).run respond w = (k (respond r w).1).run respond (respond r w).2 := rfl

/-- Running against allowed answers is a run. -/
theorem exec_run {respond : (r : Request) → World → Answer r × World}
    (hact : ∀ r w, act r w (respond r w).1 (respond r w).2) (p : Program Request Answer α)
    (w : World) : Exec act w p (p.run respond w).1 (p.run respond w).2 := by
  induction p generalizing w with
  | pure value => exact Exec.pure
  | request r next ih => exact Exec.request (hact r w) (ih _ _)

/-- The effect that leaves a log of what the requests and answers stand for. -/
def logging {Event : Type} (emit : (r : Request) → Answer r → List Event) :
    Effect Request Answer (List Event) :=
  fun r log answer log' => log' = log ++ emit r answer

/-- What stood in front of the log when a run began still does when it ends,
and the run would have been the same without it. -/
theorem exec_logging_append {Event : Type} {emit : (r : Request) → Answer r → List Event}
    {p : Program Request Answer α} {value : α} {front log log' : List Event}
    (h : Exec (logging emit) (front ++ log) p value log') :
    ∃ behind, log' = front ++ behind ∧ Exec (logging emit) log p value behind := by
  induction p generalizing log with
  | pure value =>
    cases h
    exact ⟨log, rfl, Exec.pure⟩
  | request r next ih =>
    cases h with
    | @request _ _ _ _ _ answer _ hact hrest =>
      unfold logging at hact
      rw [hact, List.append_assoc] at hrest
      obtain ⟨behind, hbehind, hrun⟩ := ih _ hrest
      exact ⟨behind, hbehind, Exec.request rfl hrun⟩

/-- A run goes the same way behind whatever the log holds. -/
theorem exec_logging_prepend {Event : Type} {emit : (r : Request) → Answer r → List Event}
    {p : Program Request Answer α} {value : α} {log log' : List Event}
    (h : Exec (logging emit) log p value log') (front : List Event) :
    Exec (logging emit) (front ++ log) p value (front ++ log') := by
  induction h with
  | pure => exact Exec.pure
  | request hact _ ih =>
    unfold logging at hact
    rw [hact] at ih
    exact Exec.request (List.append_assoc _ _ _).symm ih

/-- A logged run only appends. -/
theorem exec_logging {Event : Type} {emit : (r : Request) → Answer r → List Event}
    {p : Program Request Answer α} {value : α} {log log' : List Event}
    (h : Exec (logging emit) log p value log') :
    ∃ events, log' = log ++ events ∧ Exec (logging emit) [] p value events := by
  rw [← List.append_nil log] at h
  exact exec_logging_append h

/-- The log of a sequence is that of its parts. -/
theorem exec_logging_bind {Event : Type} {emit : (r : Request) → Answer r → List Event}
    {p : Program Request Answer α} {k : α → Program Request Answer β} {result : β}
    {log : List Event} (h : Exec (logging emit) [] (p >>= k) result log) :
    ∃ value front behind, Exec (logging emit) [] p value front ∧
      Exec (logging emit) [] (k value) result behind ∧ log = front ++ behind := by
  obtain ⟨value, front, hfront, hrest⟩ := exec_bind.mp h
  obtain ⟨behind, hlog, hbehind⟩ := exec_logging hrest
  exact ⟨value, front, behind, hfront, hbehind, hlog⟩

/-- An unfinished run only appends, too. -/
theorem reaches_logging_append {Event : Type} {emit : (r : Request) → Answer r → List Event}
    {p : Program Request Answer α} {front log log' : List Event}
    (h : Reaches (logging emit) (front ++ log) p log') :
    ∃ behind, log' = front ++ behind ∧ Reaches (logging emit) log p behind := by
  induction p generalizing log with
  | pure value =>
    cases h
    exact ⟨log, rfl, Reaches.here⟩
  | request r next ih =>
    cases h with
    | here => exact ⟨log, rfl, Reaches.here⟩
    | @later _ _ _ _ _ answer hact hrest =>
      unfold logging at hact
      rw [hact, List.append_assoc] at hrest
      obtain ⟨behind, hbehind, hin⟩ := ih _ hrest
      exact ⟨behind, hbehind, Reaches.later rfl hin⟩

theorem reaches_logging {Event : Type} {emit : (r : Request) → Answer r → List Event}
    {p : Program Request Answer α} {log log' : List Event}
    (h : Reaches (logging emit) log p log') :
    ∃ events, log' = log ++ events ∧ Reaches (logging emit) [] p events := by
  rw [← List.append_nil log] at h
  exact reaches_logging_append h

/-- The world behind so many requests, or behind all of them. -/
def Program.worldAfter (respond : (r : Request) → World → Answer r × World) :
    (requests : ℕ) → Program Request Answer α → World → World
  | 0, _, w => w
  | _ + 1, .pure _, w => w
  | requests + 1, .request r next, w =>
    (next (respond r w).1).worldAfter respond requests (respond r w).2

/-- It is one the program reaches. -/
theorem reaches_worldAfter {respond : (r : Request) → World → Answer r × World}
    (hact : ∀ r w, act r w (respond r w).1 (respond r w).2) (requests : ℕ)
    (p : Program Request Answer α) (w : World) :
    Reaches act w p (p.worldAfter respond requests w) := by
  induction requests generalizing p w with
  | zero => exact Reaches.here
  | succ requests ih =>
    cases p with
    | pure value => exact Reaches.here
    | request r next => exact Reaches.later (hact r w) (ih _ _)

/-- Answer every request the same way and log it. -/
def replyAndLog {Event : Type} (emit : (r : Request) → Answer r → List Event)
    (reply : (r : Request) → Answer r) (r : Request) (log : List Event) :
    Answer r × List Event :=
  (reply r, log ++ emit r (reply r))

/-- Such surroundings log a run of any program. -/
theorem exec_replyAndLog {Event : Type} (emit : (r : Request) → Answer r → List Event)
    (reply : (r : Request) → Answer r) (p : Program Request Answer α) (log : List Event) :
    Exec (logging emit) log p (p.run (replyAndLog emit reply) log).1
      (p.run (replyAndLog emit reply) log).2 :=
  exec_run (fun _ _ => rfl) p log

end RobotOta.RequestProgram
