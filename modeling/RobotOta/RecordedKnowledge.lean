import RobotOta.RecordedRun

/-!
# What a record justifies

A program may be allowed to ask something only after what it has been told
before. The rules carry what is known from one request to the next: knowledge
lasts when more is recorded, each request has to be justified by it, and an
answer may add to it.
-/

namespace RobotOta.RequestProgram

variable {Request : Type} {Answer : Request → Type} {α β : Type}

/-- Every event on record is justified by what stands in front of it. -/
def Justified (J : List (Event Request Answer) → Event Request Answer → Prop)
    (record : List (Event Request Answer)) : Prop :=
  ∀ front event behind, record = front ++ event :: behind → J front event

/-- Knowing this, the program records only what is justified. -/
def Justifies (J : List (Event Request Answer) → Event Request Answer → Prop)
    (Know : List (Event Request Answer) → Prop) (p : Program Request Answer α) : Prop :=
  Leads recording (fun record => Justified J record ∧ Know record) (Justified J) p

/-- Knowledge that more records do not take away. -/
def Lasting (Know : List (Event Request Answer) → Prop) : Prop :=
  ∀ record more, Know record → Know (record ++ more)

section Rules

variable {J : List (Event Request Answer) → Event Request Answer → Prop}
  {Know : List (Event Request Answer) → Prop} {record : List (Event Request Answer)}
  {p : Program Request Answer α}

theorem justified_nil : Justified J [] := by
  intro front event behind h
  exact absurd h.symm (List.append_ne_nil_of_right_ne_nil _ (List.cons_ne_nil _ _))

theorem Justified.snoc (h : Justified J record) {event : Event Request Answer}
    (hevent : J record event) : Justified J (record ++ [event]) := by
  intro front other behind hsplit
  rcases List.eq_nil_or_concat behind with rfl | ⟨most, last, rfl⟩
  · obtain ⟨rfl, hlast⟩ := List.append_inj' hsplit rfl
    rwa [← List.singleton_inj.mp hlast]
  · rw [List.concat_eq_append, ← List.cons_append, ← List.append_assoc] at hsplit
    exact h front other most (List.append_inj' hsplit rfl).1

/-- A run adds to the record. -/
theorem exec_recording {record' : List (Event Request Answer)} {value : α}
    (h : Exec recording record p value record') : ∃ more, record' = record ++ more :=
  (exec_logging h).imp fun _ hmore => hmore.1

/-- Returning asks for nothing. -/
theorem justifies_pure (value : α) :
    Justifies J Know (pure value : Program Request Answer α) := by
  rintro w w' ⟨hjustified, -⟩ h
  cases h with
  | here => exact hjustified

/-- A request that what is known justifies. -/
theorem justifies_ask {r : Request} (h : ∀ record answer, Know record → J record ⟨r, answer⟩) :
    Justifies J Know (ask r) := by
  refine leads_ask (fun _ hw => hw.1) fun w answer w' hw hact => ?_
  rw [show w' = w ++ [⟨r, answer⟩] from hact]
  exact hw.1.snoc (h w answer hw.2)

/-- A sequence, over what is known between its parts. -/
theorem Justifies.bind {Know' : α → List (Event Request Answer) → Prop}
    {k : α → Program Request Answer β} (hp : Justifies J Know p)
    (hmid : ∀ record value record', Know record → Exec recording record p value record' →
      Know' value record')
    (hk : ∀ value, Justifies J (Know' value) (k value)) : Justifies J Know (p >>= k) := by
  intro w w' hw h
  rcases reaches_bind h with hin | ⟨value, w₁, hrun, hin⟩
  · exact hp w w' hw hin
  · exact hk value w₁ w' ⟨hp w w₁ hw hrun.reaches, hmid w value w₁ hw.2 hrun⟩ hin

/-- Behind a request its answer is known, too. -/
theorem justifies_ask_bind (r : Request) (Know' : Answer r → List (Event Request Answer) → Prop)
    {k : Answer r → Program Request Answer β}
    (h : ∀ record answer, Know record → J record ⟨r, answer⟩)
    (hmid : ∀ record answer, Know record → Know' answer (record ++ [⟨r, answer⟩]))
    (hk : ∀ answer, Justifies J (Know' answer) (k answer)) : Justifies J Know (ask r >>= k) := by
  refine (justifies_ask h).bind (fun record answer record' hknow hrun => ?_) hk
  rw [show record' = record ++ [⟨r, answer⟩] from exec_ask.mp hrun]
  exact hmid record answer hknow

/-- What lasts is known behind the first part. -/
theorem Justifies.bind_lasting {k : α → Program Request Answer β} (hp : Justifies J Know p)
    (hlasting : Lasting Know) (hk : ∀ value, Justifies J Know (k value)) :
    Justifies J Know (p >>= k) := by
  refine hp.bind (fun record value record' hknow hrun => ?_) hk
  obtain ⟨more, rfl⟩ := exec_recording hrun
  exact hlasting record more hknow

/-- Less need not be known. -/
theorem Justifies.of_imp {Know' : List (Event Request Answer) → Prop} (h : Justifies J Know' p)
    (himp : ∀ record, Know record → Know' record) : Justifies J Know p :=
  fun w w' hw hreach => h w w' ⟨hw.1, himp w hw.2⟩ hreach

theorem justifies_ite {c : Prop} [Decidable c] {q : Program Request Answer α}
    (hp : c → Justifies J Know p) (hq : ¬c → Justifies J Know q) :
    Justifies J Know (if c then p else q) := by
  split_ifs with hc
  · exact hp hc
  · exact hq hc

/-- Everything on record of a program that needs to know nothing is justified. -/
theorem Justifies.recorded (h : Justifies J Know p) (hknow : Know []) (hrun : Recorded p record) :
    Justified J record :=
  h [] record ⟨justified_nil, hknow⟩ hrun

end Rules

end RobotOta.RequestProgram
