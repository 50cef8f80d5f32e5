import RobotOta.CanDeviceRuns

/-!
# The settings of a CAN device

Bit timing, control modes and restart delay change only while a device is down. On
a device whose limits and requests keep the arithmetic in range, the timing of a
device that is up is always one its controller takes, and its control modes are
ones it supports.
-/

namespace RobotOta.CanDevice

open BitTiming

variable {dev dev' : NetDevice} {btc : BittimingConst} {freq hz : ℕ}

/-- The timing nothing has been set for. -/
def unset : Bittiming := ⟨0, 0, 0, 0, 0, 0, 0, 0⟩

/-- The request a device is registered with. -/
def defaultRequest : Bittiming := ⟨500000, 0, 0, 0, 0, 0, 0, 0⟩

/-- A request the calculation, or the check, can work with. -/
def InRange (btc : BittimingConst) (freq : ℕ) (bt : Bittiming) : Prop :=
  if bt.tq = 0 then Calculable btc freq bt
  else bt.propSeg + bt.phaseSeg1 < 2 ^ 31 ∧ practicableBrp btc freq bt.tq < 2 ^ 32

theorem defaultRequest_inRange (h : Calculable btc freq defaultRequest) :
    InRange btc freq defaultRequest := by
  have htq : defaultRequest.tq = 0 := rfl
  rwa [InRange, if_pos htq]

/-- What is worked out for a request in range is legal. -/
theorem canGetBittiming_legal {bt set : Bittiming} (hlimits : Calculable btc freq defaultRequest)
    (hsjw : 0 < btc.sjwMax) (hbt : InRange btc freq bt)
    (h : canGetBittiming (some btc) freq bt = some (.ok set)) :
    Legal btc freq set := by
  unfold canGetBittiming at h
  dsimp only at h
  by_cases htq : bt.tq = 0
  · rw [if_pos htq] at h
    rw [InRange, if_pos htq] at hbt
    exact canCalcBittiming_legal hbt hsjw h
  · rw [if_neg htq] at h
    rw [InRange, if_neg htq] at hbt
    exact canFixupBittiming_legal hlimits.brp_pos hlimits.inc_pos hbt.2 hlimits.quanta_lt
      hlimits.divisor_lt hbt.1 h

/-- A device with the limits and the clock has no timing yet or a legal one, and has one
while it is up; its control modes are ones it supports. -/
structure SettingsSound (btc : BittimingConst) (freq : ℕ) (dev : NetDevice) : Prop where
  /-- The timing is not set yet, or legal. -/
  timing : dev.bittimingConst = some btc → dev.clockFreq = freq →
    dev.bittiming = unset ∨ Legal btc freq dev.bittiming
  /-- A device is up with a timing only. -/
  up : dev.up = true → dev.bittiming ≠ unset
  /-- Only supported modes are on. -/
  modes : dev.ctrlmode &&& ~~~dev.ctrlmodeSupported = 0

theorem registered_settingsSound (hlimits : Calculable btc freq defaultRequest)
    (hsjw : 0 < btc.sjwMax) (h : Registered dev) : SettingsSound btc freq dev := by
  obtain ⟨_, bittimingConst, clockFreq, _, _, bittiming, rfl, hset⟩ := registered_cases h
  refine ⟨fun hconst hclock => ?_, fun h => absurd h Bool.false_ne_true, BitVec.zero_and⟩
  have hconst' : bittimingConst = some btc := hconst
  have hclock' : clockFreq = freq := hclock
  subst hconst' hclock'
  rcases hset with hset | hset
  · exact .inl hset
  · exact .inr (canGetBittiming_legal hlimits hsjw (defaultRequest_inRange hlimits) hset)

/-- A device with the same settings and limits, which was up if this one is. -/
theorem SettingsSound.congr (h : SettingsSound btc freq dev)
    (hconst : dev'.bittimingConst = dev.bittimingConst) (hclock : dev'.clockFreq = dev.clockFreq)
    (hbittiming : dev'.bittiming = dev.bittiming) (hmode : dev'.ctrlmode = dev.ctrlmode)
    (hsupported : dev'.ctrlmodeSupported = dev.ctrlmodeSupported)
    (hup : dev'.up = true → dev.up = true) : SettingsSound btc freq dev' := by
  obtain ⟨htiming, hset, hmodes⟩ := h
  refine ⟨?_, fun h => ?_, ?_⟩
  · rwa [hconst, hclock, hbittiming]
  · rw [hbittiming]
    exact hset (hup h)
  · rwa [hmode, hsupported]

theorem step_settingsSound (hlimits : Calculable btc freq defaultRequest)
    (hsjw : 0 < btc.sjwMax) (hdev : SettingsSound btc freq dev)
    (h : Step hz (InRange btc freq) dev dev') :
    SettingsSound btc freq dev' := by
  cases h with
  | changelink hadmits hlink =>
    obtain ⟨_, bittiming, _, _, rfl, hkept, hmodes, hset, -⟩ := canChangelink_cases hlink
    refine ⟨fun hconst hclock => ?_, fun hup => ?_, hmodes hdev.modes⟩
    · have hconst' : dev.bittimingConst = some btc := hconst
      have hclock' : dev.clockFreq = freq := hclock
      rcases hset with rfl | ⟨bt, hbt, -, hget⟩
      · exact hdev.timing hconst' hclock'
      · rw [hconst', hclock'] at hget
        exact .inr (canGetBittiming_legal hlimits hsjw (hadmits bt hbt) hget)
    · rw [(hkept hup).2.1]
      exact hdev.up hup
  | opened hdown hopen hstate =>
    obtain ⟨hgiven, rfl⟩ := openCandev_cases hopen
    refine ⟨hdev.timing, fun _ hunset => ?_, hdev.modes⟩
    have hbt : dev.bittiming = unset := hunset
    rw [hbt] at hgiven
    exact absurd hgiven (by decide)
  | openUndone hdown hopen =>
    obtain ⟨-, rfl⟩ := openCandev_cases hopen
    exact hdev.congr rfl rfl rfl rfl rfl id
  | closed state hup =>
    exact hdev.congr rfl rfl rfl rfl rfl fun h => absurd h Bool.false_ne_true
  | put hup hput =>
    rcases canPutEchoSkb_cases hput with rfl | ⟨-, -, -, _, rfl⟩
    · exact hdev.congr rfl rfl rfl rfl rfl id
    · exact hdev.congr rfl rfl rfl rfl rfl id
  | get hup hget =>
    rcases canGetEchoSkb_cases hget with rfl | ⟨_, -, rfl⟩
    · exact hdev
    · exact hdev.congr rfl rfl rfl rfl rfl id
  | free hup hfree =>
    rcases canFreeEchoSkb_cases hfree with rfl | ⟨_, -, rfl⟩
    · exact hdev
    · exact hdev.congr rfl rfl rfl rfl rfl id
  | busOff jiffies hup => exact hdev.congr rfl rfl rfl rfl rfl id
  | state hup hstate => exact hdev.congr rfl rfl rfl rfl rfl id
  | timer htick hrestart hstate =>
    obtain ⟨-, _, _, _, rfl⟩ := canRestart_cases hrestart
    exact hdev.congr rfl rfl rfl rfl rfl id

/-- The settings a request can change. -/
def NetDevice.settings (dev : NetDevice) : Bittiming × BitVec 32 × ℕ :=
  (dev.bittiming, dev.ctrlmode, dev.restartMs)

/-- A step from a device that is up to one that is up. -/
def StaysUp (hz : ℕ) (admits : Bittiming → Prop) (dev dev' : NetDevice) : Prop :=
  Step hz admits dev dev' ∧ dev'.up = true

theorem step_settings {admits : Bittiming → Prop} (hup : dev.up = true)
    (h : StaysUp hz admits dev dev') : dev'.settings = dev.settings := by
  obtain ⟨hstep, hup'⟩ := h
  cases hstep with
  | changelink hadmits hlink =>
    obtain ⟨_, _, _, _, rfl, hkept, -⟩ := canChangelink_cases hlink
    obtain ⟨rfl, rfl, rfl⟩ := hkept hup
    rfl
  | opened hdown hopen hstate =>
    rw [hup] at hdown
    cases hdown
  | openUndone hdown hopen =>
    rw [hup] at hdown
    cases hdown
  | closed state hup => cases hup'
  | put hup hput =>
    rcases canPutEchoSkb_cases hput with rfl | ⟨-, -, -, _, rfl⟩ <;> rfl
  | get hup hget =>
    rcases canGetEchoSkb_cases hget with rfl | ⟨_, -, rfl⟩ <;> rfl
  | free hup hfree =>
    rcases canFreeEchoSkb_cases hfree with rfl | ⟨_, -, rfl⟩ <;> rfl
  | busOff jiffies hup => rfl
  | state hup hstate => rfl
  | timer htick hrestart hstate =>
    obtain ⟨-, _, _, _, rfl⟩ := canRestart_cases hrestart
    rfl

/-- As long as a device stays up its settings stay as they were when it came up. -/
theorem settings_frozen {admits : Bittiming → Prop} (hup : dev.up = true)
    (h : Relation.ReflTransGen (StaysUp hz admits) dev dev') :
    dev'.settings = dev.settings ∧ dev'.up = true := by
  induction h with
  | refl => exact ⟨rfl, hup⟩
  | tail _ hlast ih => exact ⟨(step_settings ih.2 hlast).trans ih.1, hlast.2⟩

/-- In every run with limits and requests in range, a device that is up has a bit timing
its controller takes, its control modes are ones it supports, and neither they, the
timing nor the restart delay change until it goes down. -/
theorem settings_sound (hlimits : Calculable btc freq defaultRequest)
    (hsjw : 0 < btc.sjwMax) (h : Reachable hz (InRange btc freq) dev)
    (hconst : dev.bittimingConst = some btc) (hclock : dev.clockFreq = freq) :
    dev.ctrlmode &&& ~~~dev.ctrlmodeSupported = 0 ∧
      (dev.up = true → Legal btc freq dev.bittiming ∧
        ∀ dev', Relation.ReflTransGen (StaysUp hz (InRange btc freq)) dev dev' →
          dev'.bittiming = dev.bittiming ∧ dev'.ctrlmode = dev.ctrlmode ∧
            dev'.restartMs = dev.restartMs) := by
  have hsound : SettingsSound btc freq dev :=
    h.invariant (fun _ => registered_settingsSound hlimits hsjw) fun _ _ =>
      step_settingsSound hlimits hsjw
  refine ⟨hsound.modes, fun hup => ⟨?_, fun dev' hrun => ?_⟩⟩
  · exact (hsound.timing hconst hclock).resolve_left (hsound.up hup)
  · have hsettings := (settings_frozen hup hrun).1
    simp only [NetDevice.settings, Prod.mk.injEq] at hsettings
    exact hsettings

/-- A device with the sample limits on a 24 MHz clock, opened. -/
def sampleTimed : NetDevice :=
  { allocCandev 1 (some sampleLimits) 24000000 0 true with
    up := true, restartMs := 100, bittiming := ⟨500000, 875, 125, 6, 7, 2, 1, 3⟩,
    state := .ERROR_ACTIVE }

theorem sampleTimed_reachable : Reachable 100 (InRange sampleLimits 24000000) sampleTimed := by
  have hregistered : canDefaultParameters (allocCandev 1 (some sampleLimits) 24000000 0 true) =
      some { allocCandev 1 (some sampleLimits) 24000000 0 true with
        restartMs := 100, bittiming := ⟨500000, 875, 125, 6, 7, 2, 1, 3⟩ } := by decide +kernel
  refine ⟨_, ⟨1, some sampleLimits, 24000000, 0, true, hregistered⟩, ?_⟩
  have hopen := @step_openCandev 100 (InRange sampleLimits 24000000)
    { allocCandev 1 (some sampleLimits) 24000000 0 true with
      restartMs := 100, bittiming := ⟨500000, 875, 125, 6, 7, 2, 1, 3⟩ } rfl (by decide)
  exact Relation.ReflTransGen.single hopen

/-- That device runs on the legal 500 kbit/s timing. -/
theorem settings_sound_sample : Legal sampleLimits 24000000 sampleTimed.bittiming :=
  ((settings_sound sample_calculable (by decide) sampleTimed_reachable rfl rfl).2 rfl).1

end RobotOta.CanDevice
