import RobotOta.CanDevice

/-!
# Runs of a CAN device

A step is a netlink request, an open or a close, a call of the driver or the
expiry of the restart timer. Drivers are taken to announce bus-off with the state
they set, and to leave that state when a restart they were asked for by hand
succeeds. What every step keeps gives what holds of every device reached.
-/

namespace RobotOta.CanDevice

open BitTiming

variable {dev dev' : NetDevice}

/-- One step of a device, with `hz` timer ticks a second and requests for timings
that the predicate admits. -/
inductive Step (hz : ℕ) (admits : Bittiming → Prop) : NetDevice → NetDevice → Prop
  | changelink {dev next : NetDevice} {request : LinkRequest} {registers : Option ℤ}
      {jiffies : ℕ} {code : ℤ} :
      (∀ bt, request.bittiming = some bt → admits bt) →
      canChangelink dev request registers jiffies = some (code, next) → Step hz admits dev next
  | opened {dev next : NetDevice} {state : CanState} :
      dev.up = false → openCandev dev = (0, next) → state ≠ .BUS_OFF →
      Step hz admits dev { next with up := true, state := state }
  | openUndone {dev next : NetDevice} :
      dev.up = false → openCandev dev = (0, next) → Step hz admits dev (closeCandev next)
  | closed {dev : NetDevice} (state : CanState) :
      dev.up = true →
      Step hz admits dev { closeCandev dev with up := false, state := state }
  | put {dev next : NetDevice} {skb : Skb} {idx : ℕ} {cloned : Bool} :
      dev.up = true → canPutEchoSkb skb dev idx cloned = some next → Step hz admits dev next
  | get {dev next : NetDevice} {idx : ℕ} :
      dev.up = true → canGetEchoSkb dev idx = some next → Step hz admits dev next
  | free {dev next : NetDevice} {idx : ℕ} :
      dev.up = true → canFreeEchoSkb dev idx = some next → Step hz admits dev next
  | busOff {dev : NetDevice} (jiffies : ℕ) :
      dev.up = true → Step hz admits dev (canBusOff { dev with state := .BUS_OFF } hz jiffies)
  | state {dev : NetDevice} {state : CanState} :
      dev.up = true → state ≠ .BUS_OFF → Step hz admits dev { dev with state := state }
  | timer {dev next : NetDevice} {expires : ℕ} {allocated : Bool} {state : CanState} :
      dev.restartTimer = some expires →
      canRestart { dev with restartTimer := none } allocated state = some next →
      state ≠ .BUS_OFF ∨ dev.restartMs ≠ 0 → Step hz admits dev next

/-- A device a driver has registered. -/
def Registered (dev : NetDevice) : Prop :=
  ∃ echoSkbMax bittimingConst clockFreq ctrlmodeSupported echoes,
    canDefaultParameters
      (allocCandev echoSkbMax bittimingConst clockFreq ctrlmodeSupported echoes) = some dev

/-- A device some run leads to. -/
def Reachable (hz : ℕ) (admits : Bittiming → Prop) (dev : NetDevice) : Prop :=
  ∃ start, Registered start ∧ Relation.ReflTransGen (Step hz admits) start dev

/-- An invariant of registered devices that every step keeps holds of every device
reached. -/
theorem Reachable.invariant {hz : ℕ} {admits : Bittiming → Prop} {Inv : NetDevice → Prop}
    (hstart : ∀ dev, Registered dev → Inv dev)
    (hstep : ∀ dev dev', Inv dev → Step hz admits dev dev' → Inv dev')
    (h : Reachable hz admits dev) : Inv dev := by
  obtain ⟨start, hreg, hrun⟩ := h
  induction hrun with
  | refl => exact hstart _ hreg
  | tail _ hlast ih => exact hstep _ _ ih hlast

section Inversion

variable {slots : List (Option Skb)} {ledger : Ledger}

/-- What registering leaves: a device that is down, with restarts after 100 ms and the
timing of 500 kbit/s or none. -/
theorem registered_cases (h : Registered dev) :
    ∃ echoSkbMax bittimingConst clockFreq ctrlmodeSupported echoes bittiming,
      dev = { allocCandev echoSkbMax bittimingConst clockFreq ctrlmodeSupported echoes with
        restartMs := 100, bittiming := bittiming } ∧
      (bittiming = ⟨0, 0, 0, 0, 0, 0, 0, 0⟩ ∨
        canGetBittiming bittimingConst clockFreq ⟨500000, 0, 0, 0, 0, 0, 0, 0⟩ =
          some (.ok bittiming)) := by
  obtain ⟨echoSkbMax, bittimingConst, clockFreq, ctrlmodeSupported, echoes, hdev⟩ := h
  unfold canDefaultParameters at hdev
  dsimp only at hdev
  cases hbt : canGetBittiming (allocCandev echoSkbMax bittimingConst clockFreq ctrlmodeSupported
      echoes).bittimingConst (allocCandev echoSkbMax bittimingConst clockFreq ctrlmodeSupported
      echoes).clockFreq ⟨500000, 0, 0, 0, 0, 0, 0, 0⟩ with
  | none =>
    rw [hbt] at hdev
    cases hdev
  | some result =>
    rw [hbt] at hdev
    cases result with
    | error e =>
      cases hdev
      exact ⟨_, _, _, _, _, _, rfl, .inl rfl⟩
    | ok bt =>
      cases hdev
      exact ⟨_, _, _, _, _, _, rfl, .inr hbt⟩

theorem changeCtrlmode_cases {change : Option (BitVec 32 × BitVec 32)} {code : ℤ}
    (h : changeCtrlmode dev change = (code, dev')) :
    ∃ ctrlmode, dev' = { dev with ctrlmode := ctrlmode } ∧
      (dev.up = true → ctrlmode = dev.ctrlmode) ∧
      (dev.ctrlmode &&& ~~~dev.ctrlmodeSupported = 0 →
        ctrlmode &&& ~~~dev.ctrlmodeSupported = 0) := by
  cases change with
  | none =>
    cases h
    exact ⟨_, rfl, fun _ => rfl, id⟩
  | some change =>
    obtain ⟨mask, flags⟩ := change
    rw [changeCtrlmode] at h
    split_ifs at h with hup hflags <;> cases h
    · exact ⟨_, rfl, fun _ => rfl, id⟩
    · exact ⟨_, rfl, fun _ => rfl, id⟩
    · refine ⟨_, rfl, fun h => absurd h hup, fun hmode => ?_⟩
      rw [not_not] at hflags
      have hkept : dev.ctrlmode &&& ~~~mask &&& ~~~dev.ctrlmodeSupported = 0 := by
        rw [BitVec.and_assoc, BitVec.and_comm (~~~mask), ← BitVec.and_assoc, hmode]
        exact BitVec.zero_and
      rw [BitVec.and_or_distrib_right, hflags, hkept]
      exact BitVec.or_zero

theorem changeBittiming_cases {registers : Option ℤ} {change : Option Bittiming} {code : ℤ}
    (h : changeBittiming dev registers change = some (code, dev')) :
    ∃ bittiming, dev' = { dev with bittiming := bittiming } ∧
      (dev.up = true → bittiming = dev.bittiming) ∧
      (bittiming = dev.bittiming ∨ ∃ bt, change = some bt ∧ (bt.tq = 0 ↔ bt.bitrate ≠ 0) ∧
        canGetBittiming dev.bittimingConst dev.clockFreq bt = some (.ok bittiming)) := by
  cases change with
  | none =>
    cases h
    exact ⟨_, rfl, fun _ => rfl, .inl rfl⟩
  | some bt =>
    rw [changeBittiming] at h
    split_ifs at h with hup hone
    · cases h
      exact ⟨_, rfl, fun _ => rfl, .inl rfl⟩
    · cases h
      exact ⟨_, rfl, fun _ => rfl, .inl rfl⟩
    · cases hbt : canGetBittiming dev.bittimingConst dev.clockFreq bt with
      | none =>
        rw [hbt] at h
        cases h
      | some result =>
        rw [hbt] at h
        cases result with
        | error e =>
          cases h
          exact ⟨_, rfl, fun _ => rfl, .inl rfl⟩
        | ok set =>
          cases h
          exact ⟨_, rfl, fun h => absurd h hup, .inr ⟨bt, rfl, by omega, hbt⟩⟩

theorem changeRestartMs_cases {change : Option ℕ} {code : ℤ}
    (h : changeRestartMs dev change = (code, dev')) :
    ∃ restartMs, dev' = { dev with restartMs := restartMs } ∧
      (dev.up = true → restartMs = dev.restartMs) := by
  cases change with
  | none =>
    cases h
    exact ⟨_, rfl, fun _ => rfl⟩
  | some restartMs =>
    rw [changeRestartMs] at h
    split_ifs at h with hup <;> cases h
    · exact ⟨_, rfl, fun _ => rfl⟩
    · exact ⟨_, rfl, fun h => absurd h hup⟩

theorem changeRestart_cases {restart : Bool} {jiffies : ℕ} {code : ℤ}
    (h : changeRestart dev jiffies restart = (code, dev')) :
    ∃ restartTimer, dev' = { dev with restartTimer := restartTimer } ∧
      (restartTimer = dev.restartTimer ∨
        dev.up = true ∧ dev.restartMs = 0 ∧ dev.state = .BUS_OFF) := by
  unfold changeRestart canRestartNow at h
  split_ifs at h with h1 h2 h3 h4 <;> cases h
  · exact ⟨_, rfl, .inl rfl⟩
  · exact ⟨_, rfl, .inl rfl⟩
  · exact ⟨_, rfl, .inl rfl⟩
  · exact ⟨_, rfl, .inl rfl⟩
  · exact ⟨_, rfl, .inr ⟨by simpa using h2, not_not.mp h3, not_not.mp h4⟩⟩

/-- A request leaves the settings of a device that is up, and may only start the
timer of one that is bus-off and does not restart by itself. The settings it makes
on a device that is down are ones the device supports. -/
theorem canChangelink_cases {request : LinkRequest} {registers : Option ℤ} {jiffies : ℕ}
    {code : ℤ} (h : canChangelink dev request registers jiffies = some (code, dev')) :
    ∃ ctrlmode bittiming restartMs restartTimer,
      dev' = { dev with
        ctrlmode := ctrlmode, bittiming := bittiming, restartMs := restartMs,
        restartTimer := restartTimer } ∧
      (dev.up = true → ctrlmode = dev.ctrlmode ∧ bittiming = dev.bittiming ∧
        restartMs = dev.restartMs) ∧
      (dev.ctrlmode &&& ~~~dev.ctrlmodeSupported = 0 →
        ctrlmode &&& ~~~dev.ctrlmodeSupported = 0) ∧
      (bittiming = dev.bittiming ∨ ∃ bt, request.bittiming = some bt ∧
        (bt.tq = 0 ↔ bt.bitrate ≠ 0) ∧
        canGetBittiming dev.bittimingConst dev.clockFreq bt = some (.ok bittiming)) ∧
      (restartTimer = dev.restartTimer ∨
        dev.up = true ∧ dev.restartMs = 0 ∧ dev.state = .BUS_OFF) := by
  unfold canChangelink at h
  generalize hmode : changeCtrlmode dev request.ctrlmode = first at h
  obtain ⟨err, dev1⟩ := first
  obtain ⟨ctrlmode, hdev1, hmodeUp, hsupported⟩ := changeCtrlmode_cases hmode
  dsimp only at h
  by_cases herr : err ≠ 0
  · rw [if_pos herr] at h
    cases h
    subst hdev1
    exact ⟨_, _, _, _, rfl, fun hup => ⟨hmodeUp hup, rfl, rfl⟩, hsupported, .inl rfl, .inl rfl⟩
  rw [if_neg herr] at h
  generalize hbt : changeBittiming dev1 registers request.bittiming = second at h
  cases second with
  | none => cases h
  | some second =>
    obtain ⟨err, dev2⟩ := second
    obtain ⟨bittiming, hdev2, hbtUp, hset⟩ := changeBittiming_cases hbt
    dsimp only at h
    by_cases herr : err ≠ 0
    · rw [if_pos herr] at h
      cases h
      subst hdev2 hdev1
      exact ⟨_, _, _, _, rfl, fun hup => ⟨hmodeUp hup, hbtUp hup, rfl⟩, hsupported, hset, .inl rfl⟩
    rw [if_neg herr] at h
    generalize hms : changeRestartMs dev2 request.restartMs = third at h
    obtain ⟨err, dev3⟩ := third
    obtain ⟨restartMs, hdev3, hmsUp⟩ := changeRestartMs_cases hms
    dsimp only at h
    by_cases herr : err ≠ 0
    · rw [if_pos herr] at h
      cases h
      subst hdev3 hdev2 hdev1
      exact ⟨_, _, _, _, rfl, fun hup => ⟨hmodeUp hup, hbtUp hup, hmsUp hup⟩, hsupported, hset,
        .inl rfl⟩
    · rw [if_neg herr] at h
      obtain ⟨restartTimer, rfl, htimer⟩ := changeRestart_cases (Option.some.inj h)
      subst hdev3 hdev2 hdev1
      refine ⟨_, _, _, _, rfl, fun hup => ⟨hmodeUp hup, hbtUp hup, hmsUp hup⟩, hsupported, hset, ?_⟩
      rcases htimer with htimer | ⟨hup, hms, hstate⟩
      · exact .inl htimer
      · exact .inr ⟨hup, (hmsUp hup).symm.trans hms, hstate⟩

/-- A buffer handed over for echo is freed or fills the empty slot. -/
theorem canPutEchoSkb_cases {skb : Skb} {idx : ℕ} {cloned : Bool}
    (h : canPutEchoSkb skb dev idx cloned = some dev') :
    dev' = { dev with ledger := { dev.ledger with
        handed := dev.ledger.handed ++ [skb], refused := dev.ledger.refused ++ [skb] } } ∨
      dev.echoSkb[idx]? = some none ∧ dev.echoes = true ∧ skb.pktType = .LOOPBACK ∧
        ∃ copied, dev' = { dev with
          echoSkb := dev.echoSkb.set idx (some skb.forEcho)
          ledger := { dev.ledger with
            handed := dev.ledger.handed ++ [skb], copied := copied } } := by
  unfold canPutEchoSkb at h
  cases hslot : dev.echoSkb[idx]? with
  | none =>
    rw [hslot] at h
    cases h
  | some slot =>
    rw [hslot] at h
    dsimp only at h
    by_cases hecho : dev.echoes = false ∨ skb.pktType ≠ .LOOPBACK
    · rw [if_pos hecho] at h
      cases h
      exact .inl rfl
    rw [if_neg hecho] at h
    obtain ⟨hechoes, hloopback⟩ := not_or.mp hecho
    cases slot with
    | some waiting =>
      cases h
      exact .inl rfl
    | none =>
      dsimp only at h
      have hwanted : dev.echoes = true ∧ skb.pktType = .LOOPBACK :=
        ⟨by simpa using hechoes, not_not.mp hloopback⟩
      split_ifs at h <;> cases h
      · exact .inr ⟨rfl, hwanted.1, hwanted.2, _, rfl⟩
      · exact .inl rfl
      · exact .inr ⟨rfl, hwanted.1, hwanted.2, _, rfl⟩

/-- Taking a buffer out of its slot, to pass it upstream. -/
theorem canGetEchoSkb_cases {idx : ℕ} (h : canGetEchoSkb dev idx = some dev') :
    dev' = dev ∨ ∃ skb, dev.echoSkb[idx]? = some (some skb) ∧ dev' = { dev with
      echoSkb := dev.echoSkb.set idx none
      ledger := { dev.ledger with echoed := dev.ledger.echoed ++ [skb] } } := by
  unfold canGetEchoSkb at h
  cases hslot : dev.echoSkb[idx]? with
  | none =>
    rw [hslot] at h
    cases h
  | some slot =>
    rw [hslot] at h
    cases slot with
    | none =>
      cases h
      exact .inl rfl
    | some skb =>
      cases h
      exact .inr ⟨skb, rfl, rfl⟩

/-- Taking a buffer out of its slot, to free it. -/
theorem canFreeEchoSkb_cases {idx : ℕ} (h : canFreeEchoSkb dev idx = some dev') :
    dev' = dev ∨ ∃ skb, dev.echoSkb[idx]? = some (some skb) ∧ dev' = { dev with
      echoSkb := dev.echoSkb.set idx none
      ledger := { dev.ledger with aborted := dev.ledger.aborted ++ [skb] } } := by
  unfold canFreeEchoSkb at h
  cases hslot : dev.echoSkb[idx]? with
  | none =>
    rw [hslot] at h
    cases h
  | some slot =>
    rw [hslot] at h
    cases slot with
    | none =>
      cases h
      exact .inl rfl
    | some skb =>
      cases h
      exact .inr ⟨skb, rfl, rfl⟩

/-- A restart flushes the slots and switches the carrier on. -/
theorem canRestart_cases {allocated : Bool} {state : CanState}
    (h : canRestart dev allocated state = some dev') :
    dev.carrier = false ∧ ∃ restarted rxPackets rxBytes,
      dev' = { canFlushEchoSkb dev with
        restarted := restarted, rxPackets := rxPackets, rxBytes := rxBytes,
        restarts := dev.restarts + 1, state := state, carrier := true } := by
  unfold canRestart at h
  by_cases hcarrier : dev.carrier = true
  · rw [if_pos hcarrier] at h
    cases h
  rw [if_neg hcarrier] at h
  refine ⟨by simpa using hcarrier, ?_⟩
  cases allocated with
  | false =>
    cases h
    exact ⟨_, _, _, rfl⟩
  | true =>
    cases h
    exact ⟨_, _, _, rfl⟩

theorem openCandev_cases (h : openCandev dev = (0, dev')) :
    (dev.bittiming.tq ≠ 0 ∨ dev.bittiming.bitrate ≠ 0) ∧
      dev' = { dev with carrier := true, restartTimer := none } := by
  unfold openCandev at h
  split_ifs at h with hunset
  · cases h
  · cases h
    exact ⟨by omega, rfl⟩

end Inversion

section Restart

/-- The restart timer runs only on a device that is up without a carrier; a bus-off
device that restarts by itself has it running, and one to be restarted by hand has
no carrier. -/
structure RestartSound (dev : NetDevice) : Prop where
  /-- A restart is pending only for a device that is up and has lost its carrier. -/
  timer : dev.restartTimer.isSome → dev.up = true ∧ dev.carrier = false
  /-- Such a device has one pending, unless restarts are up to the user. -/
  pending : dev.up = true → dev.carrier = false → dev.restartMs ≠ 0 → dev.restartTimer.isSome
  /-- A restart by hand does not meet a device with a carrier. -/
  byHand : dev.up = true → dev.state = .BUS_OFF → dev.carrier = false ∨ dev.restartMs ≠ 0

theorem registered_restartSound (h : Registered dev) : RestartSound dev := by
  obtain ⟨_, _, _, _, _, _, rfl, -⟩ := registered_cases h
  exact ⟨fun h => absurd h Bool.false_ne_true, fun h => absurd h Bool.false_ne_true,
    fun h => absurd h Bool.false_ne_true⟩

theorem step_restartSound {hz : ℕ} {admits : Bittiming → Prop} (hdev : RestartSound dev)
    (h : Step hz admits dev dev') : RestartSound dev' := by
  obtain ⟨htimer, hpending, hbyHand⟩ := hdev
  cases h with
  | changelink hadmits hlink =>
    obtain ⟨_, _, restartMs, _, rfl, hkept, -, -, hstart⟩ := canChangelink_cases hlink
    rcases hstart with rfl | ⟨hup, hms, hstate⟩
    · refine ⟨htimer, fun hup hcarrier hms => ?_, fun hup hstate => ?_⟩
      · rw [(hkept hup).2.2] at hms
        exact hpending hup hcarrier hms
      · rw [(hkept hup).2.2]
        exact hbyHand hup hstate
    · have hcarrier := (hbyHand hup hstate).resolve_right (not_not.mpr hms)
      refine ⟨fun _ => ⟨hup, hcarrier⟩, fun _ _ hne => ?_, fun _ _ => .inl hcarrier⟩
      rw [(hkept hup).2.2] at hne
      exact absurd hms hne
  | opened hdown hopen hstate =>
    obtain ⟨-, rfl⟩ := openCandev_cases hopen
    exact ⟨fun h => absurd h Bool.false_ne_true, fun _ h => absurd h.symm Bool.false_ne_true,
      fun _ h => absurd h hstate⟩
  | openUndone hdown hopen =>
    obtain ⟨-, rfl⟩ := openCandev_cases hopen
    have hnot : ¬ dev.up = true := by simp [hdown]
    exact ⟨fun h => absurd h Bool.false_ne_true, fun h => absurd h hnot, fun h => absurd h hnot⟩
  | closed state hup =>
    exact ⟨fun h => absurd h Bool.false_ne_true, fun h => absurd h Bool.false_ne_true,
      fun h => absurd h Bool.false_ne_true⟩
  | put hup hput =>
    rcases canPutEchoSkb_cases hput with rfl | ⟨-, -, -, _, rfl⟩
    · exact ⟨htimer, hpending, hbyHand⟩
    · exact ⟨htimer, hpending, hbyHand⟩
  | get hup hget =>
    rcases canGetEchoSkb_cases hget with rfl | ⟨_, -, rfl⟩
    · exact ⟨htimer, hpending, hbyHand⟩
    · exact ⟨htimer, hpending, hbyHand⟩
  | free hup hfree =>
    rcases canFreeEchoSkb_cases hfree with rfl | ⟨_, -, rfl⟩
    · exact ⟨htimer, hpending, hbyHand⟩
    · exact ⟨htimer, hpending, hbyHand⟩
  | busOff jiffies hup =>
    refine ⟨fun _ => ⟨hup, rfl⟩, fun _ _ hms => ?_, fun _ _ => .inl rfl⟩
    have hms' : dev.restartMs ≠ 0 := hms
    simp [canBusOff, hms']
  | state hup hstate => exact ⟨htimer, hpending, fun _ h => absurd h hstate⟩
  | timer htick hrestart hstate =>
    obtain ⟨-, _, _, _, rfl⟩ := canRestart_cases hrestart
    refine ⟨fun h => absurd h Bool.false_ne_true, fun _ h => absurd h.symm Bool.false_ne_true,
      fun _ h => .inr ?_⟩
    exact hstate.resolve_left (not_not.mpr h)

/-- The request for nothing but a restart. -/
def restartRequest : LinkRequest := ⟨none, none, none, true⟩

/-- The timer of a device reached never finds the carrier on, a bus-off device that
restarts by itself always has its restart pending, and no timer is pending on a device
that is down, where opening it sets the timer up anew. A driver whose restart by hand
leaves the device bus-off lets the next restart by hand run into the `BUG_ON`. -/
theorem restart_safe {hz : ℕ} {admits : Bittiming → Prop} :
    (∀ dev, Reachable hz admits dev →
      (∀ allocated state, dev.restartTimer.isSome →
        canRestart { dev with restartTimer := none } allocated state ≠ none) ∧
      (dev.up = true → dev.carrier = false → dev.restartMs ≠ 0 → dev.restartTimer.isSome) ∧
      (dev.up = false → dev.restartTimer = none)) ∧
    ∀ dev dev' allocated jiffies, canRestart dev allocated .BUS_OFF = some dev' → dev'.up = true →
      dev'.restartMs = 0 → ∃ armed,
        canChangelink dev' restartRequest none jiffies = some (0, armed) ∧
          armed.restartTimer = some jiffies ∧
          ∀ allocated state,
            canRestart { armed with restartTimer := none } allocated state = none := by
  refine ⟨fun dev hreach => ?_, fun dev dev' allocated jiffies hrestart hup hms => ?_⟩
  · have hsound : RestartSound dev :=
      hreach.invariant (fun _ => registered_restartSound) fun _ _ => step_restartSound
    refine ⟨fun allocated state htimer hnone => ?_, hsound.pending, fun hdown => ?_⟩
    · have hcarrier : dev.carrier = false := (hsound.timer htimer).2
      unfold canRestart at hnone
      rw [if_neg (by simp [hcarrier])] at hnone
      cases hnone
    · cases htimer : dev.restartTimer with
      | none => rfl
      | some expires =>
        have hup := (hsound.timer (by rw [htimer]; rfl)).1
        rw [hdown] at hup
        cases hup
  · obtain ⟨-, restarted, rxPackets, rxBytes, hnext⟩ := canRestart_cases hrestart
    have hstate : dev'.state = .BUS_OFF := by rw [hnext]
    have hcarrier : dev'.carrier = true := by rw [hnext]
    refine ⟨{ dev' with restartTimer := some jiffies }, ?_, rfl, fun allocated state => ?_⟩
    · simp [canChangelink, restartRequest, changeCtrlmode, changeBittiming, changeRestartMs,
        changeRestart, canRestartNow, hup, hms, hstate]
    · exact if_pos hcarrier

/-- A device with a bit rate opens into the error-active state. -/
theorem step_openCandev {hz : ℕ} {admits : Bittiming → Prop} {dev : NetDevice}
    (hdown : dev.up = false) (hrate : dev.bittiming.bitrate ≠ 0) :
    Step hz admits dev
      { dev with up := true, carrier := true, restartTimer := none, state := .ERROR_ACTIVE } := by
  have hopen : openCandev dev = (0, { dev with carrier := true, restartTimer := none }) :=
    if_neg fun h => hrate h.2
  exact @Step.opened hz admits dev _ .ERROR_ACTIVE hdown hopen (by decide)

/-- A device without timing limits, opened and then bus-off at tick 10. -/
def sampleBusOff : NetDevice :=
  canBusOff { allocCandev 2 none 24000000 0 true with
    up := true, restartMs := 100, bittiming := ⟨500000, 0, 0, 0, 0, 0, 0, 0⟩,
    state := .BUS_OFF } 100 10

theorem sampleBusOff_reachable : Reachable 100 (fun _ => True) sampleBusOff := by
  refine ⟨_, ⟨2, none, 24000000, 0, true, rfl⟩, ?_⟩
  have hopen := @step_openCandev 100 (fun _ => True)
    { allocCandev 2 none 24000000 0 true with
      restartMs := 100, bittiming := ⟨500000, 0, 0, 0, 0, 0, 0, 0⟩ } rfl (by decide)
  exact (Relation.ReflTransGen.single hopen).tail (Step.busOff 10 rfl)

/-- The restart of that device is due 100 ms later and finds the carrier off. -/
theorem restart_safe_sample :
    sampleBusOff.restartTimer = some 20 ∧
      canRestart { sampleBusOff with restartTimer := none } true .ERROR_ACTIVE ≠ none :=
  ⟨rfl, ((restart_safe.1 _ sampleBusOff_reachable).1 true .ERROR_ACTIVE rfl)⟩

end Restart

end RobotOta.CanDevice
