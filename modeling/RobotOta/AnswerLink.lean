import Mathlib.Data.List.Pairwise
import Mathlib.Data.List.Sort
import Mathlib.Logic.Relation

/-!
# Commands and answers over channels that lose and delay

One sender, one responder that handles what reaches it in order, and a first
in, first out channel each way. Answers carry no number on the wire; the
numbers here are ghosts, the place of each command in the order of issue. The
sender repeats one command until it accepts an answer, and drops what it does
not expect. If nothing that is under way answers to that kind of command when
it starts, the answer it accepts is to a copy it issued itself.
-/

namespace RobotOta.AnswerLink

/-- What the sender accepted, with ghosts that say what it took it for. -/
structure Accepted (Command Answer : Type) where
  /-- The command that was answered, `none` for traffic of others. -/
  number : Option ℕ
  /-- The answer itself. -/
  answer : Answer
  /-- How many commands were issued when the sender accepted the answer before. -/
  since : ℕ
  /-- The command the sender issued last. -/
  awaited : Option Command

/-- The responder's record of an accepted answer. -/
def Accepted.entry {Command Answer : Type} (acceptance : Accepted Command Answer) :
    Option (ℕ × Option Answer) :=
  acceptance.number.map fun number => (number, some acceptance.answer)

/-- Sender, responder and the channels between them. -/
structure Link (Command Answer : Type) where
  /-- Every command the sender issued; its place is its number. -/
  issued : List Command
  /-- The commands on the way, by number. -/
  commands : List ℕ
  /-- What the responder received, in order, with its answer if it gave one. -/
  handled : List (ℕ × Option Answer)
  /-- The answers on the way. -/
  answers : List (ℕ × Answer)
  /-- The sender's receive queue; traffic of others has no number. -/
  queue : List (Option ℕ × Answer)
  /-- The answers the sender accepted. -/
  accepted : List (Accepted Command Answer)
  /-- How many commands were issued when it accepted the last of them. -/
  mark : ℕ

variable {Command Answer : Type}

/-- Everything that may still reach the sender as an answer, next one first. -/
def Link.pending (link : Link Command Answer) : List ℕ :=
  link.queue.filterMap Prod.fst ++ (link.answers.map Prod.fst ++ link.commands)

/-- The sender issues a command, which may get lost at once. -/
def Link.issue (link : Link Command Answer) (command : Command) (sent : Bool) :
    Link Command Answer :=
  { link with
    issued := link.issued ++ [command]
    commands := link.commands ++ (if sent then [link.issued.length] else []) }

/-- The sender takes the head of its queue and drops it. -/
def Link.discard (link : Link Command Answer) : Link Command Answer :=
  { link with queue := link.queue.tail }

/-- The sender takes an item off its queue as the answer it waits for. -/
def Link.accept (link : Link Command Answer) (item : Option ℕ × Answer) : Link Command Answer :=
  { link with
    queue := link.queue.tail
    accepted := link.accepted ++ [⟨item.1, item.2, link.mark, link.issued.getLast?⟩]
    mark := link.issued.length }

section Traffic

variable (Replies : Command → Answer → Prop) (Foreign : Answer → Prop)

/-- What happens on the link between two actions of the sender. -/
inductive Traffic : Link Command Answer → Link Command Answer → Prop where
  | loseCommand {link : Link Command Answer} {before behind : List ℕ} {number : ℕ} :
    link.commands = before ++ number :: behind →
      Traffic link { link with commands := before ++ behind }
  | keepSilent {link : Link Command Answer} {rest : List ℕ} {number : ℕ} :
    link.commands = number :: rest →
      Traffic link { link with commands := rest, handled := link.handled ++ [(number, none)] }
  | respond {link : Link Command Answer} {rest : List ℕ} {number : ℕ} {command : Command}
    {answer : Answer} :
    link.commands = number :: rest → link.issued[number]? = some command →
      Replies command answer →
      Traffic link
        { link with
          commands := rest
          handled := link.handled ++ [(number, some answer)]
          answers := link.answers ++ [(number, answer)] }
  | loseAnswer {link : Link Command Answer} {before behind : List (ℕ × Answer)}
    {item : ℕ × Answer} :
    link.answers = before ++ item :: behind →
      Traffic link { link with answers := before ++ behind }
  | deliver {link : Link Command Answer} {rest : List (ℕ × Answer)} {number : ℕ}
    {answer : Answer} :
    link.answers = (number, answer) :: rest →
      Traffic link
        { link with answers := rest, queue := link.queue ++ [(some number, answer)] }
  | interfere {link : Link Command Answer} {answer : Answer} :
    Foreign answer → Traffic link { link with queue := link.queue ++ [(none, answer)] }

/-- Any amount of traffic. -/
abbrev Traffics : Link Command Answer → Link Command Answer → Prop :=
  Relation.ReflTransGen (Traffic Replies Foreign)

/-- What the numbers on a link mean. -/
structure WellFormed (link : Link Command Answer) : Prop where
  /-- Nothing overtakes, and what was accepted is behind. -/
  increasing : (link.accepted.filterMap (·.number) ++ link.pending).Pairwise (· < ·)
  /-- Numbers belong to commands. -/
  pending_issued : ∀ number ∈ link.pending, number < link.issued.length
  /-- The responder received the commands in order. -/
  handled_increasing : (link.handled.map Prod.fst ++ link.commands).Pairwise (· < ·)
  handled_issued : ∀ number ∈ link.handled.map Prod.fst, number < link.issued.length
  /-- Answers were given by the responder. -/
  answers_given : ∀ number answer, (number, answer) ∈ link.answers →
    (number, some answer) ∈ link.handled
  queue_given : ∀ number answer, (some number, answer) ∈ link.queue →
    (number, some answer) ∈ link.handled
  accepted_given : ∀ acceptance ∈ link.accepted, ∀ number, acceptance.number = some number →
    (number, some acceptance.answer) ∈ link.handled
  /-- What has no number is somebody else's. -/
  queue_foreign : ∀ answer, (none, answer) ∈ link.queue → Foreign answer
  /-- The responder answers what it was asked. -/
  replies : ∀ number answer, (number, some answer) ∈ link.handled →
    ∃ command, link.issued[number]? = some command ∧ Replies command answer
  mark_le : link.mark ≤ link.issued.length

variable {Replies Foreign} {link link' : Link Command Answer}

/-- Traffic only moves and loses what is pending, and adds to what is handled. -/
structure Passed (link link' : Link Command Answer) : Prop where
  issued_eq : link'.issued = link.issued
  accepted_eq : link'.accepted = link.accepted
  mark_eq : link'.mark = link.mark
  pending_sublist : link'.pending.Sublist link.pending
  handled_prefix : link.handled <+: link'.handled

/-- One piece of traffic. -/
theorem Traffic.passed (h : Traffic Replies Foreign link link') : Passed link link' := by
  cases h with
  | loseCommand hcommands =>
    refine ⟨rfl, rfl, rfl, ?_, List.prefix_rfl⟩
    simp only [Link.pending, hcommands]
    gcongr
    exact List.sublist_cons_self _ _
  | keepSilent hcommands =>
    refine ⟨rfl, rfl, rfl, ?_, List.prefix_append _ _⟩
    simp only [Link.pending, hcommands]
    gcongr
    exact List.sublist_cons_self _ _
  | respond hcommands _ _ =>
    refine ⟨rfl, rfl, rfl, ?_, List.prefix_append _ _⟩
    simp [Link.pending, hcommands]
  | loseAnswer hanswers =>
    refine ⟨rfl, rfl, rfl, ?_, List.prefix_rfl⟩
    simp only [Link.pending, hanswers, List.map_append, List.map_cons]
    gcongr
    exact List.sublist_cons_self _ _
  | deliver hanswers =>
    refine ⟨rfl, rfl, rfl, ?_, List.prefix_rfl⟩
    simp [Link.pending, hanswers]
  | interfere _ =>
    refine ⟨rfl, rfl, rfl, ?_, List.prefix_rfl⟩
    simp [Link.pending]

/-- A command on its way is pending. -/
theorem mem_pending_of_mem_commands {number : ℕ} (h : number ∈ link.commands) :
    number ∈ link.pending :=
  List.mem_append_right _ (List.mem_append_right _ h)

/-- Traffic leaves the responder's record in order. -/
theorem Traffic.handled_increasing (h : Traffic Replies Foreign link link')
    (hwf : WellFormed Replies Foreign link) :
    (link'.handled.map Prod.fst ++ link'.commands).Pairwise (· < ·) := by
  have hold := hwf.handled_increasing
  cases h with
  | loseCommand hcommands =>
    rw [hcommands] at hold
    exact hold.sublist (((List.sublist_cons_self _ _).append_left _).append_left _)
  | keepSilent hcommands =>
    rw [hcommands] at hold
    simpa using hold
  | respond hcommands _ _ =>
    rw [hcommands] at hold
    simpa using hold
  | loseAnswer _ => exact hold
  | deliver _ => exact hold
  | interfere _ => exact hold

/-- What the responder handles was issued. -/
theorem Traffic.handled_issued (h : Traffic Replies Foreign link link')
    (hwf : WellFormed Replies Foreign link) :
    ∀ number ∈ link'.handled.map Prod.fst, number < link'.issued.length := by
  have hold := hwf.handled_issued
  -- Only the head of the command channel is new.
  have hnew : ∀ {number rest} (answer : Option Answer), link.commands = number :: rest →
      ∀ n ∈ (link.handled ++ [(number, answer)]).map Prod.fst, n < link.issued.length := by
    intro number rest answer hcommands n hn
    rw [List.map_append, List.mem_append] at hn
    rcases hn with hn | hn
    · exact hold n hn
    · obtain rfl : n = number := by simpa using hn
      exact hwf.pending_issued n (mem_pending_of_mem_commands (by simp [hcommands]))
  cases h with
  | loseCommand _ => exact hold
  | keepSilent hcommands => exact hnew none hcommands
  | respond hcommands _ _ => exact hnew _ hcommands
  | loseAnswer _ => exact hold
  | deliver _ => exact hold
  | interfere _ => exact hold

/-- Answers on their way stand in the responder's record. -/
theorem Traffic.answers_given (h : Traffic Replies Foreign link link')
    (hwf : WellFormed Replies Foreign link) :
    ∀ number answer, (number, answer) ∈ link'.answers → (number, some answer) ∈ link'.handled := by
  have hold := hwf.answers_given
  intro number answer hmem
  cases h with
  | loseCommand _ => exact hold _ _ hmem
  | keepSilent _ => exact List.mem_append_left _ (hold _ _ hmem)
  | respond _ _ _ =>
    rcases List.mem_append.mp hmem with hin | hin
    · exact List.mem_append_left _ (hold _ _ hin)
    · obtain ⟨rfl, rfl⟩ : number = _ ∧ answer = _ := by simpa using hin
      exact List.mem_append_right _ List.mem_cons_self
  | loseAnswer hanswers =>
    refine hold _ _ ?_
    rw [hanswers]
    rcases List.mem_append.mp hmem with hin | hin
    · exact List.mem_append_left _ hin
    · exact List.mem_append_right _ (List.mem_cons_of_mem _ hin)
  | deliver hanswers =>
    refine hold _ _ ?_
    rw [hanswers]
    exact List.mem_cons_of_mem _ hmem
  | interfere _ => exact hold _ _ hmem

/-- So do the answers in the queue. -/
theorem Traffic.queue_given (h : Traffic Replies Foreign link link')
    (hwf : WellFormed Replies Foreign link) :
    ∀ number answer, (some number, answer) ∈ link'.queue →
      (number, some answer) ∈ link'.handled := by
  have hold := hwf.queue_given
  intro number answer hmem
  cases h with
  | loseCommand _ => exact hold _ _ hmem
  | keepSilent _ => exact List.mem_append_left _ (hold _ _ hmem)
  | respond _ _ _ => exact List.mem_append_left _ (hold _ _ hmem)
  | loseAnswer _ => exact hold _ _ hmem
  | deliver hanswers =>
    rcases List.mem_append.mp hmem with hin | hin
    · exact hold _ _ hin
    · obtain ⟨rfl, rfl⟩ : number = _ ∧ answer = _ := by simpa using hin
      exact hwf.answers_given _ _ (by simp [hanswers])
  | interfere _ =>
    rcases List.mem_append.mp hmem with hin | hin
    · exact hold _ _ hin
    · simp at hin

/-- Items without a number stay foreign. -/
theorem Traffic.queue_foreign (h : Traffic Replies Foreign link link')
    (hwf : WellFormed Replies Foreign link) :
    ∀ answer, (none, answer) ∈ link'.queue → Foreign answer := by
  have hold := hwf.queue_foreign
  intro answer hmem
  cases h with
  | loseCommand _ => exact hold _ hmem
  | keepSilent _ => exact hold _ hmem
  | respond _ _ _ => exact hold _ hmem
  | loseAnswer _ => exact hold _ hmem
  | deliver _ =>
    rcases List.mem_append.mp hmem with hin | hin
    · exact hold _ hin
    · simp at hin
  | interfere hforeign =>
    rcases List.mem_append.mp hmem with hin | hin
    · exact hold _ hin
    · obtain rfl : answer = _ := by simpa using hin
      exact hforeign

/-- Every answer in the record answers its command. -/
theorem Traffic.replies (h : Traffic Replies Foreign link link')
    (hwf : WellFormed Replies Foreign link) :
    ∀ number answer, (number, some answer) ∈ link'.handled →
      ∃ command, link'.issued[number]? = some command ∧ Replies command answer := by
  have hold := hwf.replies
  intro number answer hmem
  cases h with
  | loseCommand _ => exact hold _ _ hmem
  | keepSilent _ =>
    rcases List.mem_append.mp hmem with hin | hin
    · exact hold _ _ hin
    · simp at hin
  | respond _ hissued hreplies =>
    rcases List.mem_append.mp hmem with hin | hin
    · exact hold _ _ hin
    · obtain ⟨rfl, rfl⟩ : number = _ ∧ answer = _ := by simpa using hin
      exact ⟨_, hissued, hreplies⟩
  | loseAnswer _ => exact hold _ _ hmem
  | deliver _ => exact hold _ _ hmem
  | interfere _ => exact hold _ _ hmem

/-- Traffic keeps the meaning of the numbers. -/
theorem Traffic.wellFormed (h : Traffic Replies Foreign link link')
    (hwf : WellFormed Replies Foreign link) : WellFormed Replies Foreign link' where
  increasing := by
    rw [h.passed.accepted_eq]
    exact hwf.increasing.sublist (h.passed.pending_sublist.append_left _)
  pending_issued := by
    intro number hnumber
    rw [h.passed.issued_eq]
    exact hwf.pending_issued number (h.passed.pending_sublist.subset hnumber)
  handled_increasing := h.handled_increasing hwf
  handled_issued := h.handled_issued hwf
  answers_given := h.answers_given hwf
  queue_given := h.queue_given hwf
  accepted_given := by
    rw [h.passed.accepted_eq]
    intro acceptance hmem number hnumber
    exact h.passed.handled_prefix.subset (hwf.accepted_given acceptance hmem number hnumber)
  queue_foreign := h.queue_foreign hwf
  replies := h.replies hwf
  mark_le := by
    rw [h.passed.mark_eq, h.passed.issued_eq]
    exact hwf.mark_le

/-- Any amount of traffic does no more than one piece does. -/
theorem Traffics.passed (h : Traffics Replies Foreign link link') : Passed link link' := by
  induction h with
  | refl => exact ⟨rfl, rfl, rfl, List.Sublist.refl _, List.prefix_rfl⟩
  | tail _ hlast ih =>
    have hone := hlast.passed
    exact ⟨hone.issued_eq.trans ih.issued_eq, hone.accepted_eq.trans ih.accepted_eq,
      hone.mark_eq.trans ih.mark_eq, hone.pending_sublist.trans ih.pending_sublist,
      ih.handled_prefix.trans hone.handled_prefix⟩

/-- And keeps the meaning of the numbers. -/
theorem Traffics.wellFormed (h : Traffics Replies Foreign link link')
    (hwf : WellFormed Replies Foreign link) : WellFormed Replies Foreign link' := by
  induction h with
  | refl => exact hwf
  | tail _ hlast ih => exact hlast.wellFormed ih

/-- Accepted answers are to commands that were issued. -/
theorem WellFormed.accepted_issued (h : WellFormed Replies Foreign link) :
    ∀ number ∈ link.accepted.filterMap (·.number), number < link.issued.length := by
  intro number hnumber
  obtain ⟨acceptance, hmem, hsome⟩ := List.mem_filterMap.mp hnumber
  obtain ⟨command, hcommand, -⟩ := h.replies _ _ (h.accepted_given _ hmem _ hsome)
  exact (List.getElem?_eq_some_iff.mp hcommand).1

/-- An increasing list goes on with a number beyond all of its own, or with none. -/
theorem pairwise_append_ite {numbers : List ℕ} {bound : ℕ} (h : numbers.Pairwise (· < ·))
    (hbound : ∀ number ∈ numbers, number < bound) (sent : Bool) :
    (numbers ++ (if sent then [bound] else [])).Pairwise (· < ·) := by
  cases sent with
  | false => simpa using h
  | true =>
    rw [if_pos rfl, List.pairwise_append]
    refine ⟨h, List.pairwise_singleton _ _, ?_⟩
    intro number hnumber last hlast
    rw [List.mem_singleton.mp hlast]
    exact hbound number hnumber

/-- A new command is pending behind everything else, unless it got lost. -/
theorem pending_issue (link : Link Command Answer) (command : Command) (sent : Bool) :
    (link.issue command sent).pending =
      link.pending ++ (if sent then [link.issued.length] else []) := by
  simp only [Link.pending, Link.issue, List.append_assoc]

/-- A new command comes last on every channel. -/
theorem WellFormed.issue (h : WellFormed Replies Foreign link) (command : Command)
    (sent : Bool) : WellFormed Replies Foreign (link.issue command sent) := by
  have hgrows : link.issued.length < (link.issue command sent).issued.length := by
    simp [Link.issue]
  refine ⟨?_, ?_, ?_, ?_, h.answers_given, h.queue_given, h.accepted_given, h.queue_foreign,
    ?_, ?_⟩
  · rw [pending_issue, ← List.append_assoc]
    refine pairwise_append_ite h.increasing ?_ sent
    intro number hnumber
    rcases List.mem_append.mp hnumber with hin | hin
    · exact h.accepted_issued number hin
    · exact h.pending_issued number hin
  · intro number hnumber
    rw [pending_issue] at hnumber
    rcases List.mem_append.mp hnumber with hin | hin
    · exact (h.pending_issued number hin).trans hgrows
    · cases sent with
      | false => simp at hin
      | true =>
        obtain rfl : number = link.issued.length := by simpa using hin
        exact hgrows
  · show (link.handled.map Prod.fst ++ (link.commands ++ _)).Pairwise (· < ·)
    rw [← List.append_assoc]
    refine pairwise_append_ite h.handled_increasing ?_ sent
    intro number hnumber
    rcases List.mem_append.mp hnumber with hin | hin
    · exact h.handled_issued number hin
    · exact h.pending_issued number (mem_pending_of_mem_commands hin)
  · intro number hnumber
    exact (h.handled_issued number hnumber).trans hgrows
  · intro number answer hmem
    obtain ⟨asked, hasked, hreplies⟩ := h.replies _ _ hmem
    refine ⟨asked, ?_, hreplies⟩
    rw [← hasked]
    exact List.getElem?_append_left (List.getElem?_eq_some_iff.mp hasked).1
  · exact h.mark_le.trans hgrows.le

/-- Taking the head of the queue takes at most the first pending number. -/
theorem pending_discard (link : Link Command Answer) :
    link.discard.pending.Sublist link.pending := by
  unfold Link.pending Link.discard
  exact ((List.tail_sublist _).filterMap _).append_right _

/-- Dropping an item keeps the meaning of the numbers. -/
theorem WellFormed.discard (h : WellFormed Replies Foreign link) :
    WellFormed Replies Foreign link.discard where
  increasing := h.increasing.sublist ((pending_discard link).append_left _)
  pending_issued := fun number hnumber =>
    h.pending_issued number ((pending_discard link).subset hnumber)
  handled_increasing := h.handled_increasing
  handled_issued := h.handled_issued
  answers_given := h.answers_given
  queue_given := fun _ _ hmem => h.queue_given _ _ (List.mem_of_mem_tail hmem)
  accepted_given := h.accepted_given
  queue_foreign := fun _ hmem => h.queue_foreign _ (List.mem_of_mem_tail hmem)
  replies := h.replies
  mark_le := h.mark_le

/-- Accepting an answer moves its number from the pending to the accepted ones. -/
theorem WellFormed.accept {number : ℕ} {answer : Answer} {rest : List (Option ℕ × Answer)}
    (h : WellFormed Replies Foreign link) (hqueue : link.queue = (some number, answer) :: rest) :
    WellFormed Replies Foreign (link.accept (some number, answer)) where
  increasing := by
    have hold := h.increasing
    simpa [Link.pending, Link.accept, hqueue] using hold
  pending_issued := h.discard.pending_issued
  handled_increasing := h.handled_increasing
  handled_issued := h.handled_issued
  answers_given := h.answers_given
  queue_given := h.discard.queue_given
  accepted_given := by
    intro acceptance hmem n hnumber
    rcases List.mem_append.mp hmem with hin | hin
    · exact h.accepted_given _ hin _ hnumber
    · obtain rfl := List.mem_singleton.mp hin
      obtain rfl := Option.some.inj hnumber
      exact h.queue_given _ _ (by simp [hqueue])
  queue_foreign := h.discard.queue_foreign
  replies := h.replies
  mark_le := le_rfl

/-- No pending number belongs to a command of this kind. -/
def Quiet (Kind : Command → Prop) (link : Link Command Answer) : Prop :=
  ∀ number ∈ link.pending, ∀ command, link.issued[number]? = some command → ¬ Kind command

/-- Every accepted answer is to a copy of the command issued last, and to one
issued after the acceptance before. -/
def Fresh (link : Link Command Answer) : Prop :=
  ∀ acceptance ∈ link.accepted, ∃ number command, acceptance.number = some number ∧
    acceptance.since ≤ number ∧ acceptance.awaited = some command ∧
    link.issued[number]? = some command

/-- Inside an exchange that repeats one command: so many copies issued, nothing
accepted yet. -/
structure During (Replies : Command → Answer → Prop) (Foreign : Answer → Prop)
    (start : Link Command Answer) (command : Command) (copies : ℕ)
    (link : Link Command Answer) : Prop where
  wellFormed : WellFormed Replies Foreign link
  issued_eq : link.issued = start.issued ++ List.replicate copies command
  pending_cases : ∀ number ∈ link.pending,
    number ∈ start.pending ∨ start.issued.length ≤ number
  accepted_eq : link.accepted = start.accepted
  mark_eq : link.mark = start.mark
  handled_prefix : start.handled <+: link.handled

/-- Behind an exchange whose answer was accepted: it is to one of the copies,
and only copies issued behind that one can still be answered. -/
structure Answered (Replies : Command → Answer → Prop) (Foreign : Answer → Prop)
    (start : Link Command Answer) (command : Command) (copies : ℕ) (answer : Answer)
    (link : Link Command Answer) : Prop where
  wellFormed : WellFormed Replies Foreign link
  issued_eq : link.issued = start.issued ++ List.replicate copies command
  accepted_copy : ∃ number, start.issued.length ≤ number ∧ number < link.issued.length ∧
    (∀ later ∈ link.pending, number < later) ∧
    link.accepted = start.accepted ++ [⟨some number, answer, start.mark, some command⟩]
  handled_prefix : start.handled <+: link.handled

variable {start : Link Command Answer} {command : Command} {copies : ℕ}

/-- An exchange begins with no copy issued. -/
theorem During.refl (h : WellFormed Replies Foreign link) :
    During Replies Foreign link command 0 link :=
  ⟨h, by simp, fun _ hmem => Or.inl hmem, rfl, rfl, List.prefix_rfl⟩

/-- Traffic does not leave the exchange. -/
theorem During.traffics (h : During Replies Foreign start command copies link)
    (htraffic : Traffics Replies Foreign link link') :
    During Replies Foreign start command copies link' := by
  have hpassed := htraffic.passed
  exact ⟨htraffic.wellFormed h.wellFormed, hpassed.issued_eq.trans h.issued_eq,
    fun number hmem => h.pending_cases number (hpassed.pending_sublist.subset hmem),
    hpassed.accepted_eq.trans h.accepted_eq, hpassed.mark_eq.trans h.mark_eq,
    h.handled_prefix.trans hpassed.handled_prefix⟩

/-- One more copy. -/
theorem During.issue (h : During Replies Foreign start command copies link) (sent : Bool) :
    During Replies Foreign start command (copies + 1) (link.issue command sent) := by
  refine ⟨h.wellFormed.issue command sent, ?_, ?_, h.accepted_eq, h.mark_eq, h.handled_prefix⟩
  · rw [Link.issue, h.issued_eq, List.replicate_succ', List.append_assoc]
  · intro number hnumber
    rw [pending_issue] at hnumber
    rcases List.mem_append.mp hnumber with hin | hin
    · exact h.pending_cases number hin
    · right
      cases sent with
      | false => simp at hin
      | true =>
        obtain rfl : number = link.issued.length := by simpa using hin
        simp [h.issued_eq]

/-- A dropped item does not end the exchange. -/
theorem During.discard (h : During Replies Foreign start command copies link) :
    During Replies Foreign start command copies link.discard :=
  ⟨h.wellFormed.discard, h.issued_eq,
    fun number hmem => h.pending_cases number ((pending_discard link).subset hmem),
    h.accepted_eq, h.mark_eq, h.handled_prefix⟩

/-- Copies are what the exchange issued. -/
theorem getElem?_copy {issued : List Command} {number : ℕ}
    (hlow : issued.length ≤ number)
    (hhigh : number < (issued ++ List.replicate copies command).length) :
    (issued ++ List.replicate copies command)[number]? = some command := by
  rw [List.getElem?_append_right hlow, List.getElem?_replicate, if_pos]
  rw [List.length_append, List.length_replicate] at hhigh
  omega

/-- An answer that only a kind of command can have, accepted in an exchange
that nothing of this kind was pending in front of, is to a copy issued in it. -/
theorem During.accept {Kind : Command → Prop} {item : Option ℕ × Answer}
    {rest : List (Option ℕ × Answer)} (h : During Replies Foreign start command copies link)
    (hquiet : Quiet Kind start) (hqueue : link.queue = item :: rest)
    (hown : ¬ Foreign item.2) (hkind : ∀ asked, Replies asked item.2 → Kind asked) :
    Answered Replies Foreign start command copies item.2 (link.accept item) := by
  obtain ⟨tag, answer⟩ := item
  cases tag with
  | none => exact absurd (h.wellFormed.queue_foreign answer (by simp [hqueue])) hown
  | some number =>
    have hpending : number ∈ link.pending := by simp [Link.pending, hqueue]
    have hhigh := h.wellFormed.pending_issued number hpending
    have hgiven := h.wellFormed.queue_given number answer (by simp [hqueue])
    obtain ⟨asked, hasked, hreplies⟩ := h.wellFormed.replies number answer hgiven
    -- A number from before the exchange would be one of the excluded kind.
    have hlow : start.issued.length ≤ number := by
      rcases h.pending_cases number hpending with hold | hnew
      · by_contra hlt
        rw [not_le] at hlt
        rw [h.issued_eq, List.getElem?_append_left hlt] at hasked
        exact hquiet number hold asked hasked (hkind asked hreplies)
      · exact hnew
    have hcopies : copies ≠ 0 := by
      rintro rfl
      rw [h.issued_eq] at hhigh
      simp at hhigh
      omega
    have hwf := h.wellFormed.accept hqueue
    refine ⟨hwf, h.issued_eq, ⟨number, hlow, hhigh, ?_, ?_⟩, h.handled_prefix⟩
    · intro later hlater
      have hincreasing := hwf.increasing
      simp only [Link.accept, List.filterMap_append, List.filterMap_cons, List.filterMap_nil]
        at hincreasing
      exact (List.pairwise_append.mp hincreasing).2.2 number (by simp) later hlater
    · show link.accepted ++ [⟨some number, answer, link.mark, link.issued.getLast?⟩] = _
      rw [h.accepted_eq, h.mark_eq, h.issued_eq, List.getLast?_append, List.getLast?_replicate,
        if_neg hcopies]
      rfl

/-- A command keeps its number when more are issued. -/
theorem getElem?_of_prefix {issued issued' : List Command} (h : issued <+: issued')
    {number : ℕ} (hcommand : issued[number]? = some command) : issued'[number]? = some command := by
  obtain ⟨more, rfl⟩ := h
  rwa [List.getElem?_append_left (List.getElem?_eq_some_iff.mp hcommand).1]

/-- More commands leave the accepted answers fresh. -/
theorem Fresh.of_prefix (h : Fresh start) (hissued : start.issued <+: link.issued) :
    ∀ acceptance ∈ start.accepted, ∃ number command, acceptance.number = some number ∧
      acceptance.since ≤ number ∧ acceptance.awaited = some command ∧
      link.issued[number]? = some command := by
  intro acceptance hmem
  obtain ⟨number, asked, hnumber, hsince, hawaited, hasked⟩ := h acceptance hmem
  exact ⟨number, asked, hnumber, hsince, hawaited, getElem?_of_prefix hissued hasked⟩

/-- Freshness survives an exchange without an answer. -/
theorem During.fresh (h : During Replies Foreign start command copies link)
    (hfresh : Fresh start) : Fresh link := by
  intro acceptance hmem
  rw [h.accepted_eq] at hmem
  exact hfresh.of_prefix ⟨_, h.issued_eq.symm⟩ acceptance hmem

/-- And one with an answer. -/
theorem Answered.fresh {answer : Answer}
    (h : Answered Replies Foreign start command copies answer link)
    (hmark : start.mark ≤ start.issued.length) (hfresh : Fresh start) : Fresh link := by
  obtain ⟨number, hlow, hhigh, -, haccepted⟩ := h.accepted_copy
  intro acceptance hmem
  rw [haccepted] at hmem
  rcases List.mem_append.mp hmem with hin | hin
  · exact hfresh.of_prefix ⟨_, h.issued_eq.symm⟩ acceptance hin
  · obtain rfl := List.mem_singleton.mp hin
    refine ⟨number, command, rfl, hmark.trans hlow, rfl, ?_⟩
    rw [h.issued_eq] at hhigh ⊢
    exact getElem?_copy hlow hhigh

/-- Nothing pending is quiet. -/
theorem quiet_of_nil {Kind : Command → Prop} (h : link.pending = []) : Quiet Kind link := by
  intro number hnumber
  rw [h] at hnumber
  cases hnumber

/-- Traffic does not disturb a quiet kind. -/
theorem Quiet.traffics {Kind : Command → Prop} (hquiet : Quiet Kind link)
    (h : Traffics Replies Foreign link link') : Quiet Kind link' := by
  intro number hnumber asked hasked
  rw [h.passed.issued_eq] at hasked
  exact hquiet number (h.passed.pending_sublist.subset hnumber) asked hasked

/-- Copies of another command do not disturb a quiet kind. -/
theorem quiet_of_copies {Kind : Command → Prop} (hquiet : Quiet Kind start)
    (hkind : ¬ Kind command)
    (hissued : link.issued = start.issued ++ List.replicate copies command)
    (hpending : ∀ number ∈ link.pending, number < link.issued.length)
    (hcases : ∀ number ∈ link.pending, number ∈ start.pending ∨ start.issued.length ≤ number) :
    Quiet Kind link := by
  intro number hnumber asked hasked
  have hhigh := hpending number hnumber
  rw [hissued] at hasked hhigh
  by_cases hlow : start.issued.length ≤ number
  · rw [getElem?_copy hlow hhigh] at hasked
    exact Option.some.inj hasked ▸ hkind
  · rw [List.getElem?_append_left (not_le.mp hlow)] at hasked
    exact hquiet number ((hcases number hnumber).resolve_right hlow) asked hasked

/-- A quiet kind stays quiet while another command is repeated. -/
theorem During.quiet {Kind : Command → Prop}
    (h : During Replies Foreign start command copies link) (hquiet : Quiet Kind start)
    (hkind : ¬ Kind command) : Quiet Kind link :=
  quiet_of_copies hquiet hkind h.issued_eq h.wellFormed.pending_issued h.pending_cases

/-- Behind an accepted answer every other kind is quiet. -/
theorem Answered.quiet {Kind : Command → Prop} {answer : Answer}
    (h : Answered Replies Foreign start command copies answer link) (hkind : ¬ Kind command) :
    Quiet Kind link := by
  obtain ⟨number, hlow, -, hlater, -⟩ := h.accepted_copy
  intro later hmem asked hasked
  have hhigh := h.wellFormed.pending_issued later hmem
  rw [h.issued_eq] at hasked hhigh
  rw [getElem?_copy (hlow.trans (hlater later hmem).le) hhigh] at hasked
  exact Option.some.inj hasked ▸ hkind

/-- If the first copy was the only one, nothing is pending behind its answer. -/
theorem Answered.pending_eq_nil {answer : Answer}
    (h : Answered Replies Foreign start command 1 answer link) : link.pending = [] := by
  obtain ⟨number, hlow, -, hlater, -⟩ := h.accepted_copy
  rw [List.eq_nil_iff_forall_not_mem]
  intro later hmem
  have hhigh := h.wellFormed.pending_issued later hmem
  have := hlater later hmem
  rw [h.issued_eq, List.length_append, List.length_replicate] at hhigh
  omega

/-- The accepted answers stand in the responder's record, in the order of
acceptance. -/
theorem WellFormed.accepted_handled (h : WellFormed Replies Foreign link) :
    (link.accepted.filterMap Accepted.entry).Sublist link.handled := by
  let before : ℕ × Option Answer → ℕ × Option Answer → Prop := fun a b => a.1 < b.1
  have hirrefl : Std.Irrefl before := ⟨fun a => Nat.lt_irrefl a.1⟩
  have hantisymm : Std.Antisymm before := ⟨fun a b hab hba => absurd hab (Nat.lt_asymm hba)⟩
  have hnumbers : (link.accepted.filterMap Accepted.entry).map Prod.fst =
      link.accepted.filterMap (·.number) := by
    rw [List.map_filterMap]
    congr 1
    funext acceptance
    rw [Accepted.entry, Option.map_map]
    exact Option.map_id'
  have haccepted : (link.accepted.filterMap Accepted.entry).Pairwise before := by
    rw [← List.pairwise_map, hnumbers]
    exact (List.pairwise_append.mp h.increasing).1
  have hhandled : link.handled.Pairwise before :=
    List.pairwise_map.mp (List.pairwise_append.mp h.handled_increasing).1
  refine List.sublist_of_subperm_of_pairwise ?_ haccepted hhandled
  refine List.subperm_of_subset haccepted.nodup ?_
  intro entry hentry
  obtain ⟨acceptance, hmem, hsome⟩ := List.mem_filterMap.mp hentry
  obtain ⟨number, hnumber, rfl⟩ := Option.map_eq_some_iff.mp hsome
  exact h.accepted_given acceptance hmem number hnumber

end Traffic

end RobotOta.AnswerLink
