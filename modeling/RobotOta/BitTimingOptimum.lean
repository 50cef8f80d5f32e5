import RobotOta.BitTimingSearch

/-!
# What a calculated bit timing is worth

Among all settings whose exact prescaler lies between two the controller has, none
is closer to the bit rate than the one calculated. The settings reported for it
pass the check of given segment lengths and come back unchanged.
-/

namespace RobotOta.BitTiming

open BlockDevice LeastSearch

section Optimum

variable {btc : BittimingConst} {freq bitrate : ℕ} {sp : ℤ}

/-- Register values a controller takes, with the rate and the sample point they give. -/
structure Legal (btc : BittimingConst) (freq : ℕ) (bt : Bittiming) : Prop where
  brp_min : btc.brpMin ≤ bt.brp
  brp_max : bt.brp ≤ btc.brpMax
  tseg1_min : btc.tseg1Min ≤ bt.propSeg + bt.phaseSeg1
  tseg1_max : bt.propSeg + bt.phaseSeg1 ≤ btc.tseg1Max
  tseg2_min : btc.tseg2Min ≤ bt.phaseSeg2
  tseg2_max : bt.phaseSeg2 ≤ btc.tseg2Max
  /-- The register counts in steps of `brp_inc`. -/
  brp_inc : btc.brpInc ∣ bt.brp
  /-- The jump width is at least one quantum. -/
  sjw_pos : 0 < bt.sjw
  sjw_max : bt.sjw ≤ btc.sjwMax
  /-- The rate is the one that these values give. -/
  rate_eq : bt.bitrate = freq / (bt.brp * (bt.propSeg + bt.phaseSeg1 + bt.phaseSeg2 + 1))
  /-- So is the sample point. -/
  point_eq : bt.samplePoint = pointOf (bt.propSeg + bt.phaseSeg1) bt.phaseSeg2

/-- A segment total for which the exact prescaler lies between two the controller has. -/
def Straddled (btc : BittimingConst) (freq bitrate tseg : ℕ) : Prop :=
  InLimits btc tseg ∧ btc.brpMin ≤ freq / ((tseg + 1) * bitrate) ∧
    freq / ((tseg + 1) * bitrate) < btc.brpMax

/-- With prescaler steps of one, no prescaler beats the two around the exact one. -/
theorem straddled_choice (hinc : btc.brpInc = 1) (hbitrate : 0 < bitrate) {tseg brp : ℕ}
    (hbrp : 0 < brp) (htseg : Straddled btc freq bitrate tseg) :
    ∃ c ∈ allChoices btc freq bitrate,
      c.cost btc freq bitrate sp ≤ (⟨tseg, brp⟩ : Choice).cost btc freq bitrate sp := by
  obtain ⟨hlimits, hmin, hmax⟩ := htseg
  have hpos : 0 < (tseg + 1) * bitrate := Nat.mul_pos (Nat.succ_pos _) hbitrate
  have hdown : choice btc freq bitrate (2 * tseg) =
      some ⟨tseg, freq / ((tseg + 1) * bitrate)⟩ := by
    unfold choice
    rw [show 2 * tseg / 2 = tseg by omega, show 2 * tseg % 2 = 0 by omega, hinc]
    simp only [Nat.add_zero, Nat.div_one, Nat.mul_one]
    rw [if_pos ⟨hmin, hmax.le⟩]
  have hup : choice btc freq bitrate (2 * tseg + 1) =
      some ⟨tseg, freq / ((tseg + 1) * bitrate) + 1⟩ := by
    unfold choice
    rw [show (2 * tseg + 1) / 2 = tseg by omega, show (2 * tseg + 1) % 2 = 1 by omega, hinc]
    simp only [Nat.div_one, Nat.mul_one]
    rw [if_pos ⟨by omega, hmax⟩]
  generalize hq : freq / ((tseg + 1) * bitrate) = q at hdown hup
  rcases Nat.lt_or_ge q brp with hlt | hge
  · -- a larger prescaler than exact is too slow, the next one the least so
    refine ⟨_, mem_allChoices.mpr ⟨_, ?_, hup⟩, Choice.cost_le_iff.mpr ?_⟩
    · rwa [show (2 * tseg + 1) / 2 = tseg by omega]
    have hnext : (⟨tseg, q + 1⟩ : Choice).rate freq < bitrate := by
      rw [Choice.rate, Nat.div_lt_iff_lt_mul (Nat.mul_pos (Nat.succ_pos _) (Nat.succ_pos _))]
      have hfreq : freq < (q + 1) * ((tseg + 1) * bitrate) := by
        rw [← hq, Nat.add_mul, Nat.one_mul]
        exact Nat.lt_div_mul_add hpos
      calc freq < (q + 1) * ((tseg + 1) * bitrate) := hfreq
        _ = bitrate * ((q + 1) * (tseg + 1)) := by ring
    have hslower : (⟨tseg, brp⟩ : Choice).rate freq ≤ (⟨tseg, q + 1⟩ : Choice).rate freq :=
      Nat.div_le_div_left (Nat.mul_le_mul_right _ hlt)
        (Nat.mul_pos (Nat.succ_pos _) (Nat.succ_pos _))
    unfold Choice.rateError
    omega
  · -- a smaller one is too fast or exact, and then the rounded one is exact as well
    refine ⟨_, mem_allChoices.mpr ⟨_, ?_, hdown⟩, Choice.cost_le_iff.mpr ?_⟩
    · rwa [show 2 * tseg / 2 = tseg by omega]
    have hqpos : 0 < q := by omega
    have hreach : bitrate ≤ (⟨tseg, q⟩ : Choice).rate freq := by
      rw [Choice.rate, Nat.le_div_iff_mul_le (Nat.mul_pos hqpos (Nat.succ_pos _))]
      calc bitrate * (q * (tseg + 1)) = q * ((tseg + 1) * bitrate) := by ring
        _ ≤ freq := by
          rw [← hq]
          exact Nat.div_mul_le_self _ _
    have hfaster : (⟨tseg, q⟩ : Choice).rate freq ≤ (⟨tseg, brp⟩ : Choice).rate freq :=
      Nat.div_le_div_left (Nat.mul_le_mul_right _ hge) (Nat.mul_pos hbrp (Nat.succ_pos _))
    have hpoint : (⟨tseg, q⟩ : Choice).pointError btc sp =
        (⟨tseg, brp⟩ : Choice).pointError btc sp := rfl
    unfold Choice.rateError
    omega

/-- What the calculation sets is legal. -/
theorem canCalcBittiming_legal {bt set : Bittiming} (h : Calculable btc freq bt)
    (hsjw : 0 < btc.sjwMax) (hcalc : canCalcBittiming btc freq bt = some (.ok set)) :
    Legal btc freq set := by
  rcases canCalcBittiming_least h with
    ⟨c, hmem, seg1, seg2, -, -, hsplit, hset⟩ | ⟨herror, -⟩
  · obtain ⟨tseg, htseg, hc⟩ := mem_allChoices.mp hmem
    obtain ⟨hhalf, hmin, hmax, hstep⟩ := choice_limits hc
    rw [← hhalf] at htseg
    obtain ⟨seg1', seg2', hsplit', htotal, h1min, h1max, h2min, h2max⟩ :=
      canUpdateSpt_split h.tseg1_le h.tseg2_le h.quanta_lt h.point htseg
    rw [hsplit] at hsplit'
    simp only [Prod.mk.injEq, Nat.cast_inj] at hsplit'
    obtain ⟨-, rfl, rfl⟩ := hsplit'
    have hprop : seg1 / 2 + (seg1 - seg1 / 2) = seg1 := by omega
    have hinc : btc.brpInc ∣ c.brp := by
      rw [hstep]
      exact Nat.dvd_mul_left _ _
    rw [hset] at hcalc
    cases hcalc
    refine ⟨hmin, hmax, ?_, ?_, h2min, h2max, hinc, Nat.one_pos, hsjw, ?_, ?_⟩
    · exact h1min.trans_eq hprop.symm
    · exact hprop.trans_le h1max
    · simp only [Choice.parameters, Choice.rate, hprop, htotal]
    · simp only [Choice.parameters, hprop]
  · rw [herror] at hcalc
    cases hcalc

/-- A calculation never traps. What it sets is legal, its error in tenths of a percent,
rounded down, is at most 50, and no setting with prescaler steps of one comes closer
to the bit rate, nor closer to the sample point where the rate is exact; it refuses
only if that error is above 50 for every such setting. -/
theorem canCalcBittiming_optimal {bt : Bittiming} (h : Calculable btc freq bt)
    (hsjw : 0 < btc.sjwMax) :
    match canCalcBittiming btc freq bt with
    | none => False
    | some (.error e) => e = .EDOM ∧ (btc.brpInc = 1 → ∀ tseg brp,
        Straddled btc freq bt.bitrate tseg → 0 < brp →
          50 < 1000 * (⟨tseg, brp⟩ : Choice).rateError freq bt.bitrate / bt.bitrate)
    | some (.ok set) => Legal btc freq set ∧
        1000 * ((bt.bitrate : ℤ) - set.bitrate).natAbs / bt.bitrate ≤ 50 ∧
        (btc.brpInc = 1 → ∀ tseg brp, Straddled btc freq bt.bitrate tseg → 0 < brp →
          ((bt.bitrate : ℤ) - set.bitrate).natAbs ≤
              (⟨tseg, brp⟩ : Choice).rateError freq bt.bitrate ∧
            (set.bitrate = bt.bitrate → (⟨tseg, brp⟩ : Choice).rateError freq bt.bitrate = 0 →
              (wantedSamplePoint bt - set.samplePoint).natAbs ≤
                (wantedSamplePoint bt -
                  (canUpdateSpt btc (wantedSamplePoint bt) tseg).1).natAbs)) := by
  have hbitrate := h.bitrate_pos
  rcases canCalcBittiming_least h with
    ⟨c, hmem, seg1, seg2, hleast, hclose, hsplit, hcalc⟩ | ⟨hcalc, hfar⟩
  · have hlegal := canCalcBittiming_legal h hsjw hcalc
    rw [hcalc]
    refine ⟨hlegal, hclose, fun hinc tseg brp ht hbrp => ?_⟩
    obtain ⟨other, hother, hcost⟩ :=
      straddled_choice hinc (by omega) hbrp ht
    have hle := Choice.cost_le_iff.mp ((hleast other hother).trans hcost)
    have hpoint : c.pointError btc (wantedSamplePoint bt) =
        (wantedSamplePoint bt - (pointOf seg1 seg2 : ℕ)).natAbs := by
      rw [Choice.pointError, hsplit]
    rw [hpoint] at hle
    refine ⟨?_, fun hexact hother => ?_⟩
    · show c.rateError freq bt.bitrate ≤ _
      omega
    · have hzero : c.rateError freq bt.bitrate = 0 := by
        have hrate : c.rate freq = bt.bitrate := hexact
        rw [Choice.rateError, hrate]
        omega
      rcases hle with hlt | ⟨-, hpoints⟩
      · omega
      · exact hpoints hzero
  · rw [hcalc]
    refine ⟨rfl, fun hinc tseg brp ht hbrp => ?_⟩
    obtain ⟨other, hother, hcost⟩ :=
      @straddled_choice btc freq bt.bitrate (wantedSamplePoint bt) hinc (by omega) tseg brp hbrp ht
    have hle := Choice.cost_le_iff.mp hcost
    have herror : other.rateError freq bt.bitrate ≤
        (⟨tseg, brp⟩ : Choice).rateError freq bt.bitrate := by omega
    exact lt_of_lt_of_le (hfar other hother) (Nat.div_le_div_right (Nat.mul_le_mul_left _ herror))

/-- Limits for which the request below is worked out: segments of 4 to 16 and 2 to 8
quanta, a jump width up to 4, prescalers 1 to 256. -/
def sampleLimits : BittimingConst := ⟨4, 16, 2, 8, 4, 1, 256, 1⟩

/-- 500 kbit/s with everything else left to the calculation. -/
def sampleRequest : Bittiming := ⟨500000, 0, 0, 0, 0, 0, 0, 0⟩

theorem sample_calculable : Calculable sampleLimits 24000000 sampleRequest where
  tseg1_le := by decide
  tseg2_le := by decide
  tseg_pos := by decide
  brp_pos := by decide
  inc_pos := by decide
  bitrate_pos := by decide
  bitrate_lt := by decide
  quanta_lt := by decide
  product_lt := by decide
  divisor_lt := by decide
  freq_le := by decide
  point := ⟨by decide, by decide⟩

/-- On a 24 MHz clock 500 kbit/s is met exactly, and at the wanted sample point. -/
theorem sample_set :
    canCalcBittiming sampleLimits 24000000 sampleRequest =
      some (.ok ⟨500000, 875, 125, 6, 7, 2, 1, 3⟩) := by decide +kernel

/-- What is set for the sample is legal and not beaten. -/
theorem canCalcBittiming_optimal_sample :
    Legal sampleLimits 24000000 ⟨500000, 875, 125, 6, 7, 2, 1, 3⟩ := by
  have h := canCalcBittiming_optimal sample_calculable (by decide)
  rw [sample_set] at h
  exact h.1

/-- The length of a time quantum in whole units is enough to find the prescaler
again by rounding, as long as the clock is slow enough for its steps. -/
theorem prescaler_recovered {inc m second half : ℕ} (hinc : 0 < inc) (hfreq : 0 < freq)
    (hhalf : 2 * half = second) (hpos : 0 < half) (hclock : freq ≤ (half - 1) * inc + 1) :
    (freq * (m * inc * second / freq) / inc + (half - 1)) / second = m := by
  have hupper : freq * (m * inc * second / freq) ≤ m * inc * second := Nat.mul_div_le _ _
  have hlower : m * inc * second < freq * (m * inc * second / freq) + freq := by
    have := Nat.lt_mul_div_succ (m * inc * second) hfreq
    rwa [Nat.mul_succ] at this
  generalize freq * (m * inc * second / freq) = product at hupper hlower
  have hsplit : m * inc * second = inc * (m * second) := by ring
  have hle : product / inc ≤ m * second := Nat.div_le_of_le_mul (hupper.trans_eq hsplit)
  have hge : m * second ≤ product / inc + (half - 1) := by
    by_contra hlt
    have hprod : product < inc * (product / inc + 1) := Nat.lt_mul_div_succ product hinc
    have hmul : inc * (product / inc + 1 + (half - 1)) ≤ inc * (m * second) :=
      Nat.mul_le_mul_left _ (by omega)
    rw [Nat.mul_add inc (product / inc + 1), Nat.mul_comm inc (half - 1)] at hmul
    omega
  rw [Nat.div_eq_iff (by omega)]
  omega

/-- The quantum of a prescaler in steps the controller has gives that prescaler. -/
theorem practicableBrp_eq {m : ℕ} (hinc : 0 < btc.brpInc) (hfreq : 0 < freq)
    (hclock : freq ≤ 499999999 * btc.brpInc + 1) :
    practicableBrp btc freq (m * btc.brpInc * 1000000000 / freq) = m * btc.brpInc := by
  have hm := prescaler_recovered (m:=m) hinc hfreq
    (by decide : 2 * 500000000 = 1000000000) (by decide) hclock
  unfold practicableBrp
  dsimp only
  by_cases hone : btc.brpInc = 1
  · rw [hone] at hm ⊢
    rw [Nat.div_one] at hm
    rw [if_neg (by decide), if_neg (by decide), hm, Nat.mul_one]
  · rw [if_pos (by omega), if_pos (by omega), hm]

/-- The check of given segment lengths, where none of its numbers wraps. -/
theorem canFixupBittiming_ok {bt : Bittiming} {brp : ℕ}
    (hsjw : (if bt.sjw = 0 then 1 else bt.sjw) ≤ btc.sjwMax)
    (hpos : 0 < brp * (bt.propSeg + bt.phaseSeg1 + bt.phaseSeg2 + 1))
    (hlt : brp * (bt.propSeg + bt.phaseSeg1 + bt.phaseSeg2 + 1) < 2 ^ 31)
    (hsmall : 1000 * (bt.propSeg + bt.phaseSeg1 + bt.phaseSeg2 + 1) < 2 ^ 31)
    (h1min : btc.tseg1Min ≤ bt.propSeg + bt.phaseSeg1)
    (h1max : bt.propSeg + bt.phaseSeg1 ≤ btc.tseg1Max)
    (h2min : btc.tseg2Min ≤ bt.phaseSeg2) (h2max : bt.phaseSeg2 ≤ btc.tseg2Max)
    (hmin : btc.brpMin ≤ brp) (hmax : brp ≤ btc.brpMax)
    (hbrp : u32 (practicableBrp btc freq bt.tq) = brp) :
    canFixupBittiming btc freq bt = some (.ok { bt with
      sjw := if bt.sjw = 0 then 1 else bt.sjw
      brp := brp
      bitrate := freq / (brp * (bt.propSeg + bt.phaseSeg1 + bt.phaseSeg2 + 1))
      samplePoint := pointOf (bt.propSeg + bt.phaseSeg1) bt.phaseSeg2 }) := by
  unfold canFixupBittiming
  dsimp only
  rw [hbrp]
  -- the prescaler is a plain number from here on
  clear hbrp
  generalize (if bt.sjw = 0 then 1 else bt.sjw) = sjw at *
  generalize hseg1 : bt.propSeg + bt.phaseSeg1 = seg1 at *
  generalize hquanta : seg1 + bt.phaseSeg2 + 1 = quanta at *
  have hle : brp ≤ brp * quanta := Nat.le_mul_of_pos_right _ (by omega)
  have hseg1lt : seg1 < 2 ^ 31 := by omega
  have hquantalt : quanta < 2 ^ 31 := by omega
  have hdivisorlt : brp * quanta < 2 ^ 32 := by omega
  have hdivisor : ¬(brp * quanta = 0 ∨ (quanta : ℤ) = 0) := by omega
  have hranges : ¬(sjw > btc.sjwMax ∨ seg1 < btc.tseg1Min ∨ seg1 > btc.tseg1Max ∨
      bt.phaseSeg2 < btc.tseg2Min ∨ bt.phaseSeg2 > btc.tseg2Max) := by omega
  have hsteps : ¬(brp < btc.brpMin ∨ brp > btc.brpMax) := by omega
  have hpoint : u32 ((int32 (((seg1 : ℤ) + 1) * 1000)).tdiv quanta) =
      pointOf seg1 bt.phaseSeg2 := by
    have hcast : int32 (((seg1 : ℤ) + 1) * 1000) = ((1000 * (seg1 + 1) : ℕ) : ℤ) := by
      rw [int32_eq (by omega) (by omega)]
      push_cast
      ring
    rw [hcast, Int.tdiv_eq_ediv_of_nonneg (Int.natCast_nonneg _), ← Int.natCast_div, pointOf,
      hquanta]
    refine u32_natCast (lt_of_le_of_lt (Nat.div_le_self _ _) ?_)
    omega
  rw [int32_natCast hseg1lt, int32_natCast hquantalt, u32_natCast (by omega : seg1 < 2 ^ 32),
    if_neg hranges, if_neg hsteps, u32_natCast (by omega : quanta < 2 ^ 32),
    u32_natCast hdivisorlt, if_neg hdivisor, hpoint]

/-- The practicable prescaler is one the controller has. -/
theorem dvd_practicableBrp (hinc : 0 < btc.brpInc) (tq : ℕ) :
    btc.brpInc ∣ practicableBrp btc freq tq := by
  unfold practicableBrp
  dsimp only
  by_cases hone : btc.brpInc = 1
  · rw [hone]
    exact Nat.one_dvd _
  · rw [if_pos (by omega), if_pos (by omega)]
    exact Nat.dvd_mul_left _ _

/-- Given segment lengths that pass the check are legal, unless the first two are so
long that their sum wraps, or the quantum is so long that its prescaler does. -/
theorem canFixupBittiming_legal {bt set : Bittiming} (hbrp : 0 < btc.brpMin)
    (hinc : 0 < btc.brpInc) (htq : practicableBrp btc freq bt.tq < 2 ^ 32)
    (hquanta : 1000 * btc.quanta < 2 ^ 31) (hdivisor : btc.brpMax * btc.quanta < 2 ^ 31)
    (hsum : bt.propSeg + bt.phaseSeg1 < 2 ^ 31)
    (h : canFixupBittiming btc freq bt = some (.ok set)) : Legal btc freq set := by
  have hchecks := h
  unfold canFixupBittiming at hchecks
  dsimp only at hchecks
  rw [int32_natCast hsum, u32_natCast (by omega)] at hchecks
  generalize hvalue : u32 (practicableBrp btc freq bt.tq) = brp at hchecks
  generalize hsjw : (if bt.sjw = 0 then 1 else bt.sjw) = sjw at hchecks
  split_ifs at hchecks with hranges hsteps
  · cases hchecks
  · cases hchecks
  · have hle : bt.propSeg + bt.phaseSeg1 + bt.phaseSeg2 + 1 ≤ btc.quanta := by
      unfold BittimingConst.quanta
      omega
    have hproduct : brp * (bt.propSeg + bt.phaseSeg1 + bt.phaseSeg2 + 1) ≤
        btc.brpMax * btc.quanta := Nat.mul_le_mul (by omega) hle
    have hsjwMax : (if bt.sjw = 0 then 1 else bt.sjw) ≤ btc.sjwMax := hsjw.trans_le (by omega)
    have hsjwPos : 0 < if bt.sjw = 0 then 1 else bt.sjw := by
      split_ifs
      · exact Nat.one_pos
      · exact Nat.pos_of_ne_zero ‹_›
    have hstep : btc.brpInc ∣ brp := by
      rw [← hvalue, u32_natCast htq]
      exact dvd_practicableBrp hinc _
    have hset := canFixupBittiming_ok hsjwMax
      (Nat.mul_pos (by omega : 0 < brp) (Nat.succ_pos _)) (lt_of_le_of_lt hproduct hdivisor)
      (by omega) (by omega) (by omega) (by omega) (by omega) (by omega) (by omega) hvalue
    rw [hset] at h
    cases h
    exact ⟨by dsimp only; omega, by dsimp only; omega, by dsimp only; omega,
      by dsimp only; omega, by dsimp only; omega, by dsimp only; omega, hstep, hsjwPos,
      hsjwMax, rfl, rfl⟩

/-- Settings as the calculation reports them pass the check of given segment lengths
and come back the same, whatever rate, sample point and prescaler are given with them. -/
theorem canGetBittiming_reported {bt set : Bittiming} (h : Calculable btc freq bt)
    (hsjw : 0 < btc.sjwMax) (hclock : freq ≤ 499999999 * btc.brpInc + 1)
    (hcalc : canCalcBittiming btc freq bt = some (.ok set)) (bitrate samplePoint brp : ℕ) :
    canGetBittiming (some btc) freq
        { set with bitrate := bitrate, samplePoint := samplePoint, brp := brp } =
      some (.ok set) := by
  have hbitrate := h.bitrate_pos
  have hquanta : 1000 * (btc.tseg1Max + btc.tseg2Max + 1) < 2 ^ 31 := h.quanta_lt
  rcases canCalcBittiming_least h with
    ⟨c, hmem, seg1, seg2, -, hclose, hsplit, hset⟩ | ⟨herror, -⟩
  · obtain ⟨tseg, htseg, hc⟩ := mem_allChoices.mp hmem
    obtain ⟨hhalf, hmin, hmax, hstep⟩ := choice_limits hc
    rw [← hhalf] at htseg
    obtain ⟨seg1', seg2', hsplit', htotal, h1min, h1max, h2min, h2max⟩ :=
      canUpdateSpt_split h.tseg1_le h.tseg2_le h.quanta_lt h.point htseg
    rw [hsplit] at hsplit'
    simp only [Prod.mk.injEq, Nat.cast_inj] at hsplit'
    obtain ⟨-, rfl, rfl⟩ := hsplit'
    have hprop : seg1 / 2 + (seg1 - seg1 / 2) = seg1 := by omega
    obtain ⟨hpos, hdivisor⟩ := Choice.divisor_le (by omega) hclose
    have hfreq := h.freq_le
    have hbrppos := h.brp_pos
    have hdivisor31 : c.brp * (c.tseg + 1) < 2 ^ 31 := by omega
    have hsmall : 1000 * (c.tseg + 1) < 2 ^ 31 := by omega
    have hfreqpos : 0 < freq := by omega
    have htq : c.brp * 1000000000 / freq ≠ 0 := by
      have := Nat.div_pos (a:=c.brp * 1000000000) (b:=freq) (by omega) (by omega)
      omega
    have hbrple : c.brp ≤ freq :=
      (Nat.le_mul_of_pos_right _ (Nat.succ_pos _)).trans hdivisor
    have hbrplt : c.brp < 2 ^ 32 := by omega
    have hbrp : u32 (practicableBrp btc freq (c.brp * 1000000000 / freq)) = c.brp := by
      have heq : practicableBrp btc freq (c.brp * 1000000000 / freq) = c.brp := by
        rw [hstep]
        exact practicableBrp_eq h.inc_pos hfreqpos hclock
      rw [heq]
      exact u32_natCast hbrplt
    rw [hset] at hcalc
    cases hcalc
    have hfix := @canFixupBittiming_ok btc freq
      { c.parameters freq seg1 seg2 with
        bitrate := bitrate, samplePoint := samplePoint, brp := brp } c.brp hsjw
    dsimp only [Choice.parameters] at hfix
    rw [hprop, htotal] at hfix
    exact (if_neg htq).trans
      (hfix hpos hdivisor31 hsmall h1min h1max h2min h2max hmin hmax hbrp)
  · rw [herror] at hcalc
    cases hcalc

/-- The 500 kbit/s settings, given back with their quantum. -/
theorem canGetBittiming_reported_sample :
    canGetBittiming (some sampleLimits) 24000000 ⟨0, 0, 125, 6, 7, 2, 1, 0⟩ =
      some (.ok ⟨500000, 875, 125, 6, 7, 2, 1, 3⟩) :=
  canGetBittiming_reported sample_calculable (by decide) (by decide)
    sample_set 0 0 0

end Optimum

end RobotOta.BitTiming
