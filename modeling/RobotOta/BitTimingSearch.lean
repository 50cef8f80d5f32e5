import Mathlib.Data.Prod.Lex
import RobotOta.BitTiming
import RobotOta.LeastSearch

/-!
# The search for a bit timing

Every pass of the calculation stands for a setting of the controller or for none.
The passes keep the setting that costs least, where the bit rate counts before
the sample point, so the loop is a search for a least setting, and what is set in
the end is read off it.
-/

namespace RobotOta.BitTiming

open BlockDevice LeastSearch

/-- A setting the search may keep: the total of both segments and the prescaler. -/
structure Choice where
  /-- Time quanta in both segments. -/
  tseg : ℕ
  /-- The prescaler. -/
  brp : ℕ
  deriving DecidableEq, Repr

section Search

variable (btc : BittimingConst) (freq bitrate : ℕ) (sp : ℤ)

/-- The setting tried in the pass `tseg`, with the prescaler rounded down in even
passes and up in odd ones. -/
def choice (tseg : ℕ) : Option Choice :=
  let brp := (freq / ((tseg / 2 + 1) * bitrate) + tseg % 2) / btc.brpInc * btc.brpInc
  if btc.brpMin ≤ brp ∧ brp ≤ btc.brpMax then some ⟨tseg / 2, brp⟩ else none

/-- The settings of the passes from `low + passes - 1` down to `low`. -/
def choices (low : ℕ) : ℕ → List Choice
  | 0 => []
  | passes + 1 => (choice btc freq bitrate (low + passes)).toList ++ choices low passes

/-- The bit rate a setting gives. -/
def Choice.rate (c : Choice) : ℕ := freq / (c.brp * (c.tseg + 1))

/-- How far that is from the rate asked for. -/
def Choice.rateError (c : Choice) : ℕ := ((bitrate : ℤ) - c.rate freq).natAbs

/-- How far the sample point is from the one asked for. -/
def Choice.pointError (c : Choice) : ℕ := (sp - (canUpdateSpt btc sp c.tseg).1).natAbs

/-- Bit rate first; the sample point counts among exact rates. -/
def Choice.cost (c : Choice) : ℕ ×ₗ ℕ :=
  toLex (c.rateError freq bitrate,
    if c.rateError freq bitrate = 0 then c.pointError btc sp else 0)

/-- A setting with nothing left to improve. -/
def Choice.perfect (c : Choice) : Bool :=
  c.rateError freq bitrate = 0 ∧ c.pointError btc sp = 0

/-- The loop's variables keep the setting, or none yet. -/
def Keeps (best : Best) : Option Choice → Prop
  | none => best = ⟨1000000000, 0, 0, 1000⟩
  | some c => best = ⟨c.rateError freq bitrate, c.tseg, c.brp,
      if c.rateError freq bitrate = 0 then c.pointError btc sp else 1000⟩

variable {btc freq bitrate sp}

theorem Choice.cost_le_iff {c other : Choice} :
    c.cost btc freq bitrate sp ≤ other.cost btc freq bitrate sp ↔
      c.rateError freq bitrate < other.rateError freq bitrate ∨
        c.rateError freq bitrate = other.rateError freq bitrate ∧
          (c.rateError freq bitrate = 0 → c.pointError btc sp ≤ other.pointError btc sp) := by
  rw [Choice.cost, Choice.cost, Prod.Lex.toLex_le_toLex]
  dsimp only
  split_ifs <;> omega

/-- Which of two settings the search goes on with. -/
theorem keep_cost (kept c : Choice) :
    keep (Choice.cost btc freq bitrate sp) (some kept) c =
      if kept.rateError freq bitrate < c.rateError freq bitrate ∨
          kept.rateError freq bitrate = 0 ∧ c.rateError freq bitrate = 0 ∧
            kept.pointError btc sp < c.pointError btc sp then some kept
      else some c := by
  have hiff := @Choice.cost_le_iff btc freq bitrate sp c kept
  rw [keep]
  split_ifs with hle hother hother
  · have := hiff.mp hle
    omega
  · rfl
  · rfl
  · exact absurd (hiff.mpr (by omega)) hle

theorem Choice.perfect_least {c : Choice} (h : c.perfect btc freq bitrate sp = true)
    (other : Choice) :
    c.cost btc freq bitrate sp ≤ other.cost btc freq bitrate sp := by
  obtain ⟨hrate, hpoint⟩ : c.rateError freq bitrate = 0 ∧ c.pointError btc sp = 0 := by
    simpa [Choice.perfect] using h
  rw [Choice.cost_le_iff]
  omega

/-- A chosen prescaler is inside its limits. -/
theorem choice_limits {tseg : ℕ} {c : Choice} (h : choice btc freq bitrate tseg = some c) :
    c.tseg = tseg / 2 ∧ btc.brpMin ≤ c.brp ∧ c.brp ≤ btc.brpMax ∧
      c.brp = (freq / ((tseg / 2 + 1) * bitrate) + tseg % 2) / btc.brpInc * btc.brpInc := by
  unfold choice at h
  dsimp only at h
  split_ifs at h with hlimits
  cases h
  exact ⟨rfl, hlimits.1, hlimits.2, rfl⟩

/-- Rounding to a prescaler step at most doubles the rate, so the error is never
above the rate asked for. -/
theorem choice_rateError_le {tseg : ℕ} {c : Choice} (hbrp : 0 < btc.brpMin) (hinc : 0 < btc.brpInc)
    (hbitrate : 0 < bitrate) (h : choice btc freq bitrate tseg = some c) :
    c.rateError freq bitrate ≤ bitrate := by
  obtain ⟨htseg, hmin, -, hc⟩ := choice_limits h
  have hpos : 0 < c.brp := by omega
  generalize hq : freq / ((tseg / 2 + 1) * bitrate) = q at hc
  -- the step below the unrounded prescaler is above half of it
  have hhalf : q + 1 ≤ 2 * c.brp := by
    have hsteps : 0 < (q + tseg % 2) / btc.brpInc := by
      rw [hc] at hpos
      exact Nat.pos_of_mul_pos_right hpos
    have hlt : q + tseg % 2 < c.brp + btc.brpInc := by
      rw [hc]
      exact Nat.lt_div_mul_add hinc
    have hle : btc.brpInc ≤ c.brp := by
      rw [hc]
      exact Nat.le_mul_of_pos_left _ hsteps
    omega
  have hrate : c.rate freq < 2 * bitrate := by
    rw [Choice.rate, Nat.div_lt_iff_lt_mul (Nat.mul_pos hpos (Nat.succ_pos _)), htseg]
    have hfreq : freq < (q + 1) * ((tseg / 2 + 1) * bitrate) := by
      rw [← hq, Nat.add_mul, Nat.one_mul]
      exact Nat.lt_div_mul_add (Nat.mul_pos (Nat.succ_pos _) hbitrate)
    calc freq < (q + 1) * ((tseg / 2 + 1) * bitrate) := hfreq
      _ ≤ 2 * c.brp * ((tseg / 2 + 1) * bitrate) := Nat.mul_le_mul_right _ hhalf
      _ = 2 * bitrate * (c.brp * (tseg / 2 + 1)) := by ring
  rw [Choice.rateError]
  omega

/-- The divisors of a pass do not wrap. -/
theorem passBrp_eq {tseg : ℕ} (hbitrate : 0 < bitrate) (hinc : 0 < btc.brpInc)
    (hfreq : freq ≤ 1000000000) (hproduct : (tseg / 2 + 1) * bitrate < 2 ^ 32) :
    passBrp btc freq bitrate tseg =
      some ((freq / ((tseg / 2 + 1) * bitrate) + tseg % 2) / btc.brpInc * btc.brpInc) := by
  have hpos : 0 < (tseg / 2 + 1) * bitrate := Nat.mul_pos (Nat.succ_pos _) hbitrate
  have hle : freq / ((tseg / 2 + 1) * bitrate) ≤ freq := Nat.div_le_self _ _
  have hdivisor : u32 (((1 + tseg / 2 : ℕ) : ℤ) * bitrate) = (tseg / 2 + 1) * bitrate := by
    rw [Nat.add_comm 1, ← Nat.cast_mul, u32_natCast hproduct]
  unfold passBrp
  dsimp only
  rw [hdivisor, if_neg (by omega), u32_natCast (by omega)]

theorem choice_pointError_le {bt : Bittiming} (h : Calculable btc freq bt) {c : Choice}
    (htseg : InLimits btc c.tseg) : c.pointError btc (wantedSamplePoint bt) ≤ 1000 := by
  obtain ⟨seg1, seg2, hsplit, -⟩ :=
    canUpdateSpt_split h.tseg1_le h.tseg2_le h.quanta_lt h.point htseg
  have hpoint := pointOf_le seg1 seg2
  have hpos := (h.point.share htseg).1
  have hle := h.point.le
  rw [Choice.pointError, hsplit]
  dsimp only
  omega

/-- A pass with its setting, in plain numbers. -/
theorem tsegPass_choice {bt : Bittiming} (h : Calculable btc freq bt) {tseg : ℕ} {c : Choice}
    (hc : choice btc freq bt.bitrate tseg = some c) (htseg : InLimits btc c.tseg) (best : Best) :
    tsegPass btc freq bt.bitrate (wantedSamplePoint bt) tseg best =
      if (c.rateError freq bt.bitrate : ℤ) > best.bestError then some (best, false)
      else if c.rateError freq bt.bitrate = 0 then
        if (c.pointError btc (wantedSamplePoint bt) : ℤ) > best.sptError then
          some ({ best with bestError := 0 }, false)
        else some (⟨0, c.tseg, c.brp, c.pointError btc (wantedSamplePoint bt)⟩,
          c.pointError btc (wantedSamplePoint bt) = 0)
      else some (⟨c.rateError freq bt.bitrate, c.tseg, c.brp, best.sptError⟩, false) := by
  obtain ⟨hhalf, hmin, hmax, hbrp⟩ := choice_limits hc
  have hbrppos := h.brp_pos
  have hbitrate := h.bitrate_pos
  have hquanta : tseg / 2 + 1 ≤ btc.quanta := by
    rw [← hhalf]
    exact Nat.succ_le_succ htseg.2
  have hproduct : (tseg / 2 + 1) * bt.bitrate < 2 ^ 32 :=
    lt_of_le_of_lt (Nat.mul_le_mul_right _ hquanta) h.product_lt
  have hdivisor : c.brp * (tseg / 2 + 1) < 2 ^ 31 :=
    lt_of_le_of_lt (Nat.mul_le_mul hmax hquanta) h.divisor_lt
  have hpos : 0 < c.brp * (tseg / 2 + 1) := Nat.mul_pos (by omega) (Nat.succ_pos _)
  have hrate : c.rate freq ≤ 1000000000 := (Nat.div_le_self _ _).trans h.freq_le
  have hrateEq : c.rate freq = freq / (c.brp * (tseg / 2 + 1)) := by rw [Choice.rate, hhalf]
  have hlt := h.bitrate_lt
  have hpoint := choice_pointError_le h htseg
  rw [Choice.pointError] at hpoint
  unfold tsegPass
  rw [passBrp_eq (by omega) h.inc_pos h.freq_le hproduct, ← hbrp]
  dsimp only
  rw [if_neg (by omega), Nat.add_comm 1, u32_natCast (by omega), if_neg (by omega), ← hrateEq,
    int32_natCast (by omega), int32_abs (by omega) (by omega), ← hhalf,
    int32_abs (by omega) (by omega)]
  rw [Choice.rateError, Choice.pointError]
  generalize ((bt.bitrate : ℤ) - c.rate freq).natAbs = error
  generalize (wantedSamplePoint bt - (canUpdateSpt btc (wantedSamplePoint bt) c.tseg).1).natAbs =
    sptError
  by_cases hworse : (error : ℤ) > best.bestError
  · rw [if_pos hworse, if_pos hworse]
  rw [if_neg hworse, if_neg hworse]
  by_cases hexact : error = 0
  · subst hexact
    rw [if_pos Nat.cast_zero, if_pos rfl]
    simp only [Nat.cast_eq_zero, Nat.cast_zero]
  · rw [if_neg (by omega), if_neg hexact]

/-- A pass keeps its setting exactly where it costs no more, and breaks at a
perfect one. -/
theorem tsegPass_keeps {bt : Bittiming} (h : Calculable btc freq bt) {tseg : ℕ} {c : Choice}
    (hc : choice btc freq bt.bitrate tseg = some c) (htseg : InLimits btc c.tseg)
    {best : Best} {kept : Option Choice}
    (hkept : Keeps btc freq bt.bitrate (wantedSamplePoint bt) best kept) :
    ∃ next, tsegPass btc freq bt.bitrate (wantedSamplePoint bt) tseg best =
        some (next, c.perfect btc freq bt.bitrate (wantedSamplePoint bt)) ∧
      Keeps btc freq bt.bitrate (wantedSamplePoint bt) next
        (keep (Choice.cost btc freq bt.bitrate (wantedSamplePoint bt)) kept c) := by
  have hrate := choice_rateError_le h.brp_pos h.inc_pos (by have := h.bitrate_pos; omega) hc
  have hpoint := choice_pointError_le h htseg
  have hlt := h.bitrate_lt
  rw [tsegPass_choice h hc htseg]
  cases kept with
  | none =>
    have hbest : best = ⟨1000000000, 0, 0, 1000⟩ := hkept
    subst hbest
    rw [if_neg (by dsimp only; omega), keep]
    by_cases hzero : c.rateError freq bt.bitrate = 0
    · rw [if_pos hzero, if_neg (by dsimp only; omega)]
      refine ⟨_, congrArg some (Prod.ext rfl ?_), ?_⟩
      · simp [Choice.perfect, hzero]
      · simp [Keeps, hzero]
    · rw [if_neg hzero]
      refine ⟨_, congrArg some (Prod.ext rfl ?_), ?_⟩
      · simp [Choice.perfect, hzero]
      · simp [Keeps, hzero]
  | some k =>
    have hbest : best = ⟨k.rateError freq bt.bitrate, k.tseg, k.brp,
      if k.rateError freq bt.bitrate = 0 then k.pointError btc (wantedSamplePoint bt)
        else 1000⟩ := hkept
    rw [keep_cost]
    subst hbest
    dsimp only
    generalize hspt : (if k.rateError freq bt.bitrate = 0 then
      (k.pointError btc (wantedSamplePoint bt) : ℤ) else 1000) = spt
    by_cases hworse : k.rateError freq bt.bitrate < c.rateError freq bt.bitrate
    · rw [if_pos (by omega), if_pos (.inl hworse)]
      refine ⟨_, congrArg some (Prod.ext rfl ?_), ?_⟩
      · simp [Choice.perfect, show c.rateError freq bt.bitrate ≠ 0 by omega]
      · simp only [Keeps, hspt]
    rw [if_neg (by omega)]
    by_cases hzero : c.rateError freq bt.bitrate = 0
    · rw [if_pos hzero]
      by_cases hpoints : (c.pointError btc (wantedSamplePoint bt) : ℤ) > spt
      · have hkzero : k.rateError freq bt.bitrate = 0 := by
          by_contra hne
          rw [if_neg hne] at hspt
          omega
        rw [if_pos hpoints]
        rw [if_pos hkzero] at hspt
        rw [if_pos (by omega)]
        refine ⟨_, congrArg some (Prod.ext rfl ?_), ?_⟩
        · simp [Choice.perfect, show c.pointError btc (wantedSamplePoint bt) ≠ 0 by omega]
        · simp [Keeps, hkzero, hspt]
      · rw [if_neg hpoints, if_neg (by split_ifs at hspt <;> omega)]
        refine ⟨_, congrArg some (Prod.ext rfl ?_), ?_⟩
        · simp [Choice.perfect, hzero]
        · simp [Keeps, hzero]
    · rw [if_neg hzero, if_neg (by omega)]
      rw [if_neg (by omega : ¬ k.rateError freq bt.bitrate = 0)] at hspt
      refine ⟨_, congrArg some (Prod.ext rfl ?_), ?_⟩
      · simp [Choice.perfect, hzero]
      · simp [Keeps, hzero, hspt]

/-- A pass without a setting changes nothing. -/
theorem tsegPass_none {bt : Bittiming} (h : Calculable btc freq bt) {tseg : ℕ}
    (hc : choice btc freq bt.bitrate tseg = none) (htseg : InLimits btc (tseg / 2)) (best : Best) :
    tsegPass btc freq bt.bitrate (wantedSamplePoint bt) tseg best = some (best, false) := by
  have hproduct : (tseg / 2 + 1) * bt.bitrate < 2 ^ 32 :=
    lt_of_le_of_lt (Nat.mul_le_mul_right _ (Nat.succ_le_succ htseg.2)) h.product_lt
  have hbitrate := h.bitrate_pos
  unfold choice at hc
  dsimp only at hc
  split_ifs at hc with hlimits
  unfold tsegPass
  rw [passBrp_eq (by omega) h.inc_pos h.freq_le hproduct]
  dsimp only
  rw [if_pos (by omega)]

/-- The loop ends with the setting the search ends with. -/
theorem tsegLoop_keeps {bt : Bittiming} (h : Calculable btc freq bt) {low : ℕ} (passes : ℕ)
    (hpasses : ∀ tseg, low ≤ tseg → tseg < low + passes → InLimits btc (tseg / 2))
    {best : Best} {kept : Option Choice}
    (hkept : Keeps btc freq bt.bitrate (wantedSamplePoint bt) best kept) :
    ∃ last, tsegLoop btc freq bt.bitrate (wantedSamplePoint bt) low passes best = some last ∧
      Keeps btc freq bt.bitrate (wantedSamplePoint bt) last
        (scan (Choice.cost btc freq bt.bitrate (wantedSamplePoint bt))
          (Choice.perfect btc freq bt.bitrate (wantedSamplePoint bt)) kept
          (choices btc freq bt.bitrate low passes)) := by
  induction passes generalizing best kept with
  | zero => exact ⟨best, rfl, hkept⟩
  | succ passes ih =>
    have htseg := hpasses (low + passes) (by omega) (by omega)
    rw [tsegLoop, choices]
    cases hc : choice btc freq bt.bitrate (low + passes) with
    | none =>
      rw [tsegPass_none h hc htseg]
      exact ih (fun tseg hlow hlt => hpasses tseg hlow (by omega)) hkept
    | some c =>
      obtain ⟨next, hpass, hnext⟩ :=
        tsegPass_keeps h hc (by rwa [(choice_limits hc).1]) hkept
      rw [hpass, Option.toList_some, List.singleton_append, scan]
      cases hperfect : c.perfect btc freq bt.bitrate (wantedSamplePoint bt) with
      | false =>
        rw [if_neg Bool.false_ne_true]
        exact ih (fun tseg hlow hlt => hpasses tseg hlow (by omega)) hnext
      | true =>
        rw [if_pos rfl, ← keep_of_least (Choice.perfect_least hperfect)]
        exact ⟨next, rfl, hnext⟩

/-- All settings the loop tries. -/
def allChoices (btc : BittimingConst) (freq bitrate : ℕ) : List Choice :=
  choices btc freq bitrate ((btc.tseg1Min + btc.tseg2Min) * 2)
    ((btc.tseg1Max + btc.tseg2Max) * 2 + 2 - (btc.tseg1Min + btc.tseg2Min) * 2)

/-- A setting tried belongs to a pass of the loop. -/
theorem mem_choices {c : Choice} {low passes : ℕ} :
    c ∈ choices btc freq bitrate low passes ↔
      ∃ tseg, low ≤ tseg ∧ tseg < low + passes ∧ choice btc freq bitrate tseg = some c := by
  induction passes with
  | zero =>
    refine ⟨fun h => absurd h List.not_mem_nil, fun ⟨tseg, hlow, hlt, _⟩ => ?_⟩
    omega
  | succ passes ih =>
    rw [choices, List.mem_append, Option.mem_toList, ih]
    constructor
    · rintro (h | ⟨tseg, hlow, hlt, h⟩)
      · exact ⟨low + passes, by omega, by omega, h⟩
      · exact ⟨tseg, hlow, by omega, h⟩
    · rintro ⟨tseg, hlow, hlt, h⟩
      rcases Nat.lt_or_ge tseg (low + passes) with hlt' | hge
      · exact .inr ⟨tseg, hlow, hlt', h⟩
      · exact .inl (by rwa [show low + passes = tseg by omega])

theorem mem_allChoices {c : Choice} :
    c ∈ allChoices btc freq bitrate ↔
      ∃ tseg, InLimits btc (tseg / 2) ∧ choice btc freq bitrate tseg = some c := by
  unfold allChoices InLimits
  rw [mem_choices]
  constructor
  · rintro ⟨tseg, hlow, hlt, h⟩
    exact ⟨tseg, by omega, h⟩
  · rintro ⟨tseg, hlimits, h⟩
    exact ⟨tseg, by omega, by omega, h⟩

/-- The loop of a calculation ends with a least setting of all it tries. -/
theorem tsegLoop_least {bt : Bittiming} (h : Calculable btc freq bt) :
    ∃ best kept, tsegLoop btc freq bt.bitrate (wantedSamplePoint bt) (tsegLow btc)
        (tsegHigh btc + 1 - tsegLow btc) ⟨1000000000, 0, 0, 1000⟩ = some best ∧
      Keeps btc freq bt.bitrate (wantedSamplePoint bt) best kept ∧
      Least (Choice.cost btc freq bt.bitrate (wantedSamplePoint bt))
        (allChoices btc freq bt.bitrate) kept := by
  have h1 := h.tseg1_le
  have h2 := h.tseg2_le
  have hsmall := h.quanta_lt
  unfold BittimingConst.quanta at hsmall
  have hlow : tsegLow btc = (btc.tseg1Min + btc.tseg2Min) * 2 := u32_natCast (by omega)
  have hhigh : tsegHigh btc = (btc.tseg1Max + btc.tseg2Max) * 2 + 1 := u32_natCast (by omega)
  have hlimits : ∀ tseg, tsegLow btc ≤ tseg →
      tseg < tsegLow btc + (tsegHigh btc + 1 - tsegLow btc) → InLimits btc (tseg / 2) := by
    intro tseg hl ht
    unfold InLimits
    omega
  have hstart : Keeps btc freq bt.bitrate (wantedSamplePoint bt) ⟨1000000000, 0, 0, 1000⟩ none :=
    rfl
  obtain ⟨best, hloop, hkept⟩ := tsegLoop_keeps h _ hlimits hstart
  refine ⟨best, _, hloop, hkept, ?_⟩
  rw [hlow, hhigh]
  exact scan_none_least (fun c hc other => Choice.perfect_least hc other) _

/-- The parameters set for a choice whose time quanta are split in two. -/
def Choice.parameters (freq : ℕ) (c : Choice) (seg1 seg2 : ℕ) : Bittiming where
  bitrate := c.rate freq
  samplePoint := pointOf seg1 seg2
  tq := c.brp * 1000000000 / freq
  propSeg := seg1 / 2
  phaseSeg1 := seg1 - seg1 / 2
  phaseSeg2 := seg2
  sjw := 1
  brp := c.brp

/-- Up to an error of 50 tenths of a percent the rate is not zero, so the clock reaches
the divisor. -/
theorem Choice.divisor_le {c : Choice} (hbitrate : 0 < bitrate)
    (hclose : 1000 * c.rateError freq bitrate / bitrate ≤ 50) :
    0 < c.brp * (c.tseg + 1) ∧ c.brp * (c.tseg + 1) ≤ freq := by
  have herror : c.rateError freq bitrate < bitrate := by
    have hlt : 1000 * c.rateError freq bitrate < 51 * bitrate :=
      (Nat.div_lt_iff_lt_mul hbitrate).mp (by omega)
    omega
  have hrate : 0 < c.rate freq := by
    rw [Choice.rateError] at herror
    omega
  exact Nat.div_pos_iff.mp hrate

/-- The error of a whole search that tries nothing is far too high. -/
theorem untried_error {bitrate : ℕ} (hpos : 1 < bitrate) (hlt : 1000 * bitrate < 2 ^ 31) :
    int32 (u32 (1000000000 * 1000) / bitrate : ℕ) > CAN_CALC_MAX_ERROR := by
  have hu : u32 (1000000000 * 1000) = 3567587328 := rfl
  have hlow : 1000 ≤ 3567587328 / bitrate := (Nat.le_div_iff_mul_le (by omega)).mpr (by omega)
  have hhigh : 3567587328 / bitrate < 2 ^ 31 := (Nat.div_lt_iff_lt_mul (by omega)).mpr (by omega)
  rw [hu, int32_natCast hhigh, CAN_CALC_MAX_ERROR]
  omega

/-- The error in one-tenth of a percent, in plain numbers. -/
theorem tried_error {bt : Bittiming} {c : Choice} (hpos : 0 < bt.bitrate)
    (hlt : 1000 * bt.bitrate < 2 ^ 31) (hle : c.rateError freq bt.bitrate ≤ bt.bitrate) :
    int32 (u32 ((c.rateError freq bt.bitrate : ℤ) * 1000) / bt.bitrate : ℕ) =
      (1000 * c.rateError freq bt.bitrate / bt.bitrate : ℕ) := by
  have hu : u32 ((c.rateError freq bt.bitrate : ℤ) * 1000) =
      1000 * c.rateError freq bt.bitrate := by
    rw [show (c.rateError freq bt.bitrate : ℤ) * 1000 =
      ((1000 * c.rateError freq bt.bitrate : ℕ) : ℤ) by push_cast; ring]
    exact u32_natCast (by omega)
  rw [hu, int32_natCast]
  exact lt_of_le_of_lt (Nat.div_le_self _ _) (by omega)

section Parameters

variable {brp seg1 seg2 total : ℕ}

theorem quanta_eq (htotal : seg1 + seg2 = total) (hlt : total < 2 ^ 31) :
    u32 ((seg1 : ℤ) + seg2 + 1) = total + 1 := by
  rw [← htotal, ← Nat.cast_add, ← Nat.cast_succ]
  exact u32_natCast (by omega)

theorem tq_eq (hbrp : brp ≤ freq) (hfreq : freq ≤ 1000000000) :
    u32 (u64 (int32 brp * 1000000000) / freq : ℕ) = brp * 1000000000 / freq := by
  have hu : u64 ((brp : ℤ) * 1000000000) = brp * 1000000000 := by
    rw [← Nat.cast_ofNat, ← Nat.cast_mul]
    exact u64_natCast (by omega)
  have hmul : brp * 1000000000 ≤ freq * 1000000000 := by omega
  have hle : brp * 1000000000 / freq ≤ 1000000000 := Nat.div_le_of_le_mul hmul
  have hbrp32 : int32 (brp : ℤ) = brp := int32_natCast (by omega)
  rw [hbrp32, hu]
  exact u32_natCast (lt_of_le_of_lt hle (by decide))

theorem propSeg_eq (hlt : seg1 < 2 ^ 31) : u32 ((seg1 : ℤ).tdiv 2) = seg1 / 2 := by
  have hhalf : (seg1 : ℤ).tdiv 2 = ((seg1 / 2 : ℕ) : ℤ) := by
    rw [Int.tdiv_eq_ediv_of_nonneg (by omega)]
    omega
  rw [hhalf]
  exact u32_natCast (by omega)

theorem phaseSeg1_eq (hlt : seg1 < 2 ^ 31) :
    u32 ((seg1 : ℤ) - (seg1 / 2 : ℕ)) = seg1 - seg1 / 2 := by
  rw [← Nat.cast_sub (by omega)]
  exact u32_natCast (by omega)

end Parameters

/-- The calculation sets a least choice or finds the error of every choice above 50
tenths of a percent. -/
theorem canCalcBittiming_least {bt : Bittiming} (h : Calculable btc freq bt) :
    (∃ c ∈ allChoices btc freq bt.bitrate, ∃ seg1 seg2,
        (∀ other ∈ allChoices btc freq bt.bitrate,
          c.cost btc freq bt.bitrate (wantedSamplePoint bt) ≤
            other.cost btc freq bt.bitrate (wantedSamplePoint bt)) ∧
        1000 * c.rateError freq bt.bitrate / bt.bitrate ≤ 50 ∧
        canUpdateSpt btc (wantedSamplePoint bt) c.tseg =
          ((pointOf seg1 seg2 : ℤ), (seg1 : ℤ), (seg2 : ℤ)) ∧
        canCalcBittiming btc freq bt = some (.ok (c.parameters freq seg1 seg2))) ∨
      canCalcBittiming btc freq bt = some (.error .EDOM) ∧
        ∀ c ∈ allChoices btc freq bt.bitrate,
          50 < 1000 * c.rateError freq bt.bitrate / bt.bitrate := by
  obtain ⟨best, kept, hloop, hkept, hleast⟩ := tsegLoop_least h
  have hbitrate := h.bitrate_pos
  have hlt := h.bitrate_lt
  unfold canCalcBittiming
  dsimp only
  rw [hloop]
  dsimp only
  cases kept with
  | none =>
    have hbest : best = ⟨1000000000, 0, 0, 1000⟩ := hkept
    have hnone : allChoices btc freq bt.bitrate = [] := hleast
    subst hbest
    have herror := untried_error hbitrate hlt
    refine .inr ⟨?_, fun c hc => by rw [hnone] at hc; cases hc⟩
    rw [if_neg (by omega), if_pos ⟨by decide, herror⟩]
  | some c =>
    obtain ⟨hmem, hleast⟩ := hleast
    have hbest : best = ⟨c.rateError freq bt.bitrate, c.tseg, c.brp,
      if c.rateError freq bt.bitrate = 0 then c.pointError btc (wantedSamplePoint bt)
        else 1000⟩ := hkept
    subst hbest
    dsimp only
    obtain ⟨tseg, htseg, hc⟩ := mem_allChoices.mp hmem
    obtain ⟨hhalf, hmin, hmax, -⟩ := choice_limits hc
    rw [← hhalf] at htseg
    have hrate := choice_rateError_le h.brp_pos h.inc_pos (by omega) hc
    rw [tried_error (by omega) hlt hrate, if_neg (by omega), CAN_CALC_MAX_ERROR]
    by_cases hfar : 50 < 1000 * c.rateError freq bt.bitrate / bt.bitrate
    · refine .inr ⟨?_, fun other hother => ?_⟩
      · have hne : c.rateError freq bt.bitrate ≠ 0 := by
          intro hzero
          rw [hzero, Nat.mul_zero, Nat.zero_div] at hfar
          omega
        rw [if_pos ⟨by omega, by omega⟩]
      · have hcost := Choice.cost_le_iff.mp (hleast other hother)
        have hle : c.rateError freq bt.bitrate ≤ other.rateError freq bt.bitrate := by omega
        exact lt_of_lt_of_le hfar (Nat.div_le_div_right (Nat.mul_le_mul_left _ hle))
    · obtain ⟨seg1, seg2, hsplit, htotal, h1min, h1max, h2min, h2max⟩ :=
        canUpdateSpt_split h.tseg1_le h.tseg2_le h.quanta_lt h.point htseg
      refine .inl ⟨c, hmem, seg1, seg2, hleast, by omega, hsplit, ?_⟩
      obtain ⟨hpos, hdivisor⟩ := Choice.divisor_le (by omega) (not_lt.mp hfar)
      rw [if_neg (by omega), hsplit]
      dsimp only
      have hquanta : 1000 * (btc.tseg1Max + btc.tseg2Max + 1) < 2 ^ 31 := h.quanta_lt
      have hfreq := h.freq_le
      have hbrp : c.brp ≤ freq :=
        (Nat.le_mul_of_pos_right _ (Nat.succ_pos _)).trans hdivisor
      have htseg31 : c.tseg < 2 ^ 31 := by omega
      rw [quanta_eq htotal htseg31, u32_natCast (by omega), if_neg (by omega),
        tq_eq hbrp hfreq, propSeg_eq (by omega : seg1 < 2 ^ 31), phaseSeg1_eq (by omega),
        u32_natCast (lt_of_le_of_lt (pointOf_le seg1 seg2) (by decide)), u32_natCast (by omega)]
      rfl

end Search

end RobotOta.BitTiming
