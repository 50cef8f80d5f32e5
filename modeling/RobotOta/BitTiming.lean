import Mathlib.Algebra.Order.Ring.Int
import Mathlib.Tactic.Ring
import Mathlib.Tactic.Linarith
import RobotOta.BlockDevice

/-!
# Bit timing of the CAN interface

The driver core turns a bit rate into prescaler and segment lengths by walking
over all segment totals, and turns given segment lengths back into a prescaler.
Both computations are taken with the 32-bit arithmetic of the source, `long`
included. Where no intermediate value wraps, the split around the sample point
stays inside the limits of both segments.
-/

namespace RobotOta.BitTiming

open BlockDevice

/-- The limits a controller gives for its timing registers, `can_bittiming_const`
without its name. -/
structure BittimingConst where
  /-- Time quanta in front of the sample point at least, without the first. -/
  tseg1Min : ℕ
  /-- The same at most. -/
  tseg1Max : ℕ
  /-- Time quanta behind the sample point at least. -/
  tseg2Min : ℕ
  /-- The same at most. -/
  tseg2Max : ℕ
  /-- The widest synchronisation jump. -/
  sjwMax : ℕ
  /-- The least prescaler. -/
  brpMin : ℕ
  /-- The greatest prescaler. -/
  brpMax : ℕ
  /-- The step between two prescalers. -/
  brpInc : ℕ
  deriving DecidableEq, Repr

/-- `can_bittiming`: what is asked for and what is set. -/
structure Bittiming where
  /-- In bits a second. -/
  bitrate : ℕ
  /-- In one-tenth of a percent of a bit. -/
  samplePoint : ℕ
  /-- The length of a time quantum in nanoseconds. -/
  tq : ℕ
  /-- The propagation segment in time quanta. -/
  propSeg : ℕ
  /-- The first phase buffer in time quanta. -/
  phaseSeg1 : ℕ
  /-- The second phase buffer in time quanta. -/
  phaseSeg2 : ℕ
  /-- The synchronisation jump width in time quanta. -/
  sjw : ℕ
  /-- The prescaler. -/
  brp : ℕ
  deriving DecidableEq, Repr

/-- Error numbers the driver core returns, without their sign. -/
inductive Errno
  | EBUSY
  | EINVAL
  | EDOM
  | ERANGE
  | EOPNOTSUPP
  | ENOTSUPP
  deriving DecidableEq, Repr

/-- Conversion to `u32`, `unsigned long` included. -/
def u32 (x : ℤ) : ℕ := (x % 2 ^ 32).toNat

/-- Conversion to `u64`. -/
def u64 (x : ℤ) : ℕ := (x % 2 ^ 64).toNat

/-- `CAN_CALC_MAX_ERROR`, in one-tenth of a percent. -/
def CAN_CALC_MAX_ERROR : ℤ := 50

/-- `can_update_spt`: split `tseg` time quanta around the wanted sample point.
Gives the sample point reached, `tseg1` and `tseg2`; the limits are unsigned, so
the comparisons with them are. -/
def canUpdateSpt (btc : BittimingConst) (samplPt tseg : ℤ) : ℤ × ℤ × ℤ :=
  let tseg2 := int32 (tseg + 1 - (int32 (samplPt * (tseg + 1))).tdiv 1000)
  let tseg2 := if u32 tseg2 < btc.tseg2Min then int32 btc.tseg2Min else tseg2
  let tseg2 := if u32 tseg2 > btc.tseg2Max then int32 btc.tseg2Max else tseg2
  let tseg1 := int32 (tseg - tseg2)
  let (tseg1, tseg2) :=
    if u32 tseg1 > btc.tseg1Max then
      (int32 btc.tseg1Max, int32 (tseg - int32 btc.tseg1Max))
    else (tseg1, tseg2)
  ((int32 (1000 * (tseg + 1 - tseg2))).tdiv (tseg + 1), tseg1, tseg2)

/-- The sample point asked for, or the recommended one for the bit rate. -/
def wantedSamplePoint (bt : Bittiming) : ℤ :=
  if bt.samplePoint ≠ 0 then int32 bt.samplePoint
  else if bt.bitrate > 800000 then 750
  else if bt.bitrate > 500000 then 800
  else 875

/-- The best setting so far, as the loop of `can_calc_bittiming` keeps it. -/
structure Best where
  /-- The least error of the bit rate. -/
  bestError : ℤ
  /-- The segment total it comes from. -/
  bestTseg : ℕ
  /-- The prescaler it comes from. -/
  bestBrp : ℕ
  /-- The least error of the sample point at an exact bit rate. -/
  sptError : ℤ
  deriving DecidableEq, Repr

/-- `brp` of a pass, rounded to a step the system has: `none` is a division by zero. -/
def passBrp (btc : BittimingConst) (freq bitrate tseg : ℕ) : Option ℕ :=
  let divisor := u32 ((1 + tseg / 2 : ℕ) * bitrate)
  if divisor = 0 ∨ btc.brpInc = 0 then none
  else
    let brp := u32 (freq / divisor + tseg % 2 : ℕ)
    some (brp / btc.brpInc * btc.brpInc)

/-- One pass of the loop: the kept setting and whether the loop breaks. -/
def tsegPass (btc : BittimingConst) (freq bitrate : ℕ) (samplPt : ℤ) (tseg : ℕ) (best : Best) :
    Option (Best × Bool) :=
  match passBrp btc freq bitrate tseg with
  | none => none
  | some brp =>
    if brp < btc.brpMin ∨ brp > btc.brpMax then some (best, false)
    else
      let divisor := u32 (brp * (1 + tseg / 2) : ℕ)
      if divisor = 0 then none
      else
        let rate := int32 (freq / divisor : ℕ)
        let error := int32 (bitrate - rate)
        let error := if error < 0 then int32 (-error) else error
        if error > best.bestError then some (best, false)
        else
          let best := { best with bestError := error }
          if error = 0 then
            let spt := (canUpdateSpt btc samplPt (tseg / 2 : ℕ)).1
            let error := int32 (samplPt - spt)
            let error := if error < 0 then int32 (-error) else error
            if error > best.sptError then some (best, false)
            else
              some ({ best with sptError := error, bestTseg := tseg / 2, bestBrp := brp },
                error = 0)
          else some ({ best with bestTseg := tseg / 2, bestBrp := brp }, false)

/-- The loop over `tseg`, counting down to `low` in `passes` passes. -/
def tsegLoop (btc : BittimingConst) (freq bitrate : ℕ) (samplPt : ℤ) (low : ℕ) :
    (passes : ℕ) → Best → Option Best
  | 0, best => some best
  | passes + 1, best =>
    match tsegPass btc freq bitrate samplPt (low + passes) best with
    | none => none
    | some (best, true) => some best
    | some (best, false) => tsegLoop btc freq bitrate samplPt low passes best

/-- First and last `tseg` of the loop, twice the segment totals. -/
def tsegLow (btc : BittimingConst) : ℕ := u32 ((btc.tseg1Min + btc.tseg2Min) * 2 : ℕ)

def tsegHigh (btc : BittimingConst) : ℕ := u32 ((btc.tseg1Max + btc.tseg2Max) * 2 + 1 : ℕ)

/-- `can_calc_bittiming` for a clock of `freq` Hz; `none` is a division by zero
in the kernel. The limits are there, which the caller has tested. -/
def canCalcBittiming (btc : BittimingConst) (freq : ℕ) (bt : Bittiming) :
    Option (Except Errno Bittiming) :=
  let samplPt := wantedSamplePoint bt
  match tsegLoop btc freq bt.bitrate samplPt (tsegLow btc) (tsegHigh btc + 1 - tsegLow btc)
      ⟨1000000000, 0, 0, 1000⟩ with
  | none => none
  | some best =>
    let error := int32 (u32 (best.bestError * 1000) / bt.bitrate : ℕ)
    if best.bestError ≠ 0 ∧ bt.bitrate = 0 then none
    else if best.bestError ≠ 0 ∧ error > CAN_CALC_MAX_ERROR then some (.error .EDOM)
    else
      let (spt, tseg1, tseg2) := canUpdateSpt btc samplPt best.bestTseg
      let divisor := u32 (best.bestBrp * u32 (tseg1 + tseg2 + 1) : ℕ)
      if freq = 0 ∨ divisor = 0 then none
      else
        let propSeg := u32 (tseg1.tdiv 2)
        some (.ok {
          bitrate := freq / divisor
          samplePoint := u32 spt
          tq := u32 (u64 (int32 best.bestBrp * 1000000000) / freq : ℕ)
          propSeg := propSeg
          phaseSeg1 := u32 (tseg1 - propSeg)
          phaseSeg2 := u32 tseg2
          sjw := 1
          brp := best.bestBrp })

/-- The practicable prescaler for a time quantum of `tq` nanoseconds, in the 64-bit
arithmetic of `can_fixup_bittiming`. -/
def practicableBrp (btc : BittimingConst) (freq tq : ℕ) : ℕ :=
  let brp64 := freq * tq
  let brp64 := if btc.brpInc > 1 then brp64 / btc.brpInc else brp64
  let brp64 := (brp64 + (500000000 - 1)) / 1000000000
  if btc.brpInc > 1 then brp64 * btc.brpInc else brp64

/-- `can_fixup_bittiming`: check the given segment lengths and work out the
prescaler, the bit rate and the sample point. -/
def canFixupBittiming (btc : BittimingConst) (freq : ℕ) (bt : Bittiming) :
    Option (Except Errno Bittiming) :=
  let tseg1 := int32 (bt.propSeg + bt.phaseSeg1 : ℕ)
  let sjw := if bt.sjw = 0 then 1 else bt.sjw
  if sjw > btc.sjwMax ∨ u32 tseg1 < btc.tseg1Min ∨ u32 tseg1 > btc.tseg1Max ∨
      bt.phaseSeg2 < btc.tseg2Min ∨ bt.phaseSeg2 > btc.tseg2Max then some (.error .ERANGE)
  else
    let brp := u32 (practicableBrp btc freq bt.tq)
    if brp < btc.brpMin ∨ brp > btc.brpMax then some (.error .EINVAL)
    else
      let alltseg := int32 (bt.propSeg + bt.phaseSeg1 + bt.phaseSeg2 + 1 : ℕ)
      let divisor := u32 (brp * u32 alltseg : ℕ)
      if divisor = 0 ∨ alltseg = 0 then none
      else
        some (.ok { bt with
          sjw := sjw
          brp := brp
          bitrate := freq / divisor
          samplePoint := u32 ((int32 ((tseg1 + 1) * 1000)).tdiv alltseg) })

/-- `can_get_bittiming`: calculate where no time quantum is given, else check.
An interface without limits takes what it is given. -/
def canGetBittiming (btc : Option BittimingConst) (freq : ℕ) (bt : Bittiming) :
    Option (Except Errno Bittiming) :=
  match btc with
  | none => some (.ok bt)
  | some btc =>
    if bt.tq = 0 then canCalcBittiming btc freq bt else canFixupBittiming btc freq bt

section Widths

variable {n : ℕ} {x : ℤ}

theorem u32_natCast (h : n < 2 ^ 32) : u32 n = n := by
  unfold u32
  omega

theorem u64_natCast (h : n < 2 ^ 64) : u64 n = n := by
  rw [u64, Int.emod_eq_of_lt (Int.natCast_nonneg n) (by exact_mod_cast h), Int.toNat_natCast]

theorem int32_natCast (h : n < 2 ^ 31) : int32 (n : ℤ) = n := int32_eq (by omega) (by omega)

/-- Raising a value to an unsigned limit. -/
theorem raised_eq {m : ℕ} (hn : n < 2 ^ 31) (hm : m < 2 ^ 31) :
    (if u32 n < m then int32 m else (n : ℤ)) = (max m n : ℕ) := by
  rw [u32_natCast (by omega), int32_natCast hm]
  split_ifs <;> omega

/-- Lowering a value to an unsigned limit. -/
theorem lowered_eq {m : ℕ} (hn : n < 2 ^ 31) (hm : m < 2 ^ 31) :
    (if u32 n > m then int32 m else (n : ℤ)) = (min m n : ℕ) := by
  rw [u32_natCast (by omega), int32_natCast hm]
  split_ifs <;> omega

/-- The absolute value as the source takes it. -/
theorem int32_abs (hlo : -2 ^ 31 < x) (hhi : x < 2 ^ 31) :
    (if int32 x < 0 then int32 (-int32 x) else int32 x) = x.natAbs := by
  rw [int32_eq (by omega) hhi]
  split_ifs
  · rw [int32_eq (by omega) (by omega)]
    omega
  · omega

end Widths

section Limits

variable {btc : BittimingConst} {freq : ℕ} {bt : Bittiming} {sp : ℤ} {tseg : ℕ}

/-- The number of time quanta a bit may have at most. -/
def BittimingConst.quanta (btc : BittimingConst) : ℕ := btc.tseg1Max + btc.tseg2Max + 1

/-- The sample point is inside the bit and not before the shortest first segment ends. -/
structure Reachable (btc : BittimingConst) (sp : ℤ) : Prop where
  le : sp ≤ 1000
  late : 1000 * (btc.tseg1Min + 1 : ℤ) ≤ sp * (btc.tseg1Min + btc.tseg2Min + 1)

/-- Limits of a controller with its clock for which the arithmetic on a request
stays in range. -/
structure Calculable (btc : BittimingConst) (freq : ℕ) (bt : Bittiming) : Prop where
  tseg1_le : btc.tseg1Min ≤ btc.tseg1Max
  tseg2_le : btc.tseg2Min ≤ btc.tseg2Max
  tseg_pos : 0 < btc.tseg1Min + btc.tseg2Min
  brp_pos : 0 < btc.brpMin
  inc_pos : 0 < btc.brpInc
  bitrate_pos : 1 < bt.bitrate
  bitrate_lt : 1000 * bt.bitrate < 2 ^ 31
  quanta_lt : 1000 * btc.quanta < 2 ^ 31
  product_lt : btc.quanta * bt.bitrate < 2 ^ 32
  divisor_lt : btc.brpMax * btc.quanta < 2 ^ 31
  freq_le : freq ≤ 1000000000
  point : Reachable btc (wantedSamplePoint bt)

/-- A segment total the loop tries. -/
def InLimits (btc : BittimingConst) (tseg : ℕ) : Prop :=
  btc.tseg1Min + btc.tseg2Min ≤ tseg ∧ tseg ≤ btc.tseg1Max + btc.tseg2Max

/-- The sample point of a bit with the two segments. -/
def pointOf (seg1 seg2 : ℕ) : ℕ := 1000 * (seg1 + 1) / (seg1 + seg2 + 1)

theorem pointOf_le (seg1 seg2 : ℕ) : pointOf seg1 seg2 ≤ 1000 := by
  unfold pointOf
  refine Nat.div_le_of_le_mul ?_
  rw [Nat.mul_comm (seg1 + seg2 + 1)]
  exact Nat.mul_le_mul_left _ (by omega)

/-- The sample point as the source works it out from the total and the second segment. -/
theorem pointOf_eq {seg1 seg2 : ℕ} (htotal : seg1 + seg2 = tseg)
    (hsmall : 1000 * (tseg + 1) < 2 ^ 31) :
    (int32 (1000 * ((tseg : ℤ) + 1 - seg2))).tdiv (tseg + 1) = pointOf seg1 seg2 := by
  rw [int32_eq (by omega) (by omega), Int.tdiv_eq_ediv_of_nonneg (by omega), pointOf, htotal]
  push_cast
  rw [← htotal]
  push_cast
  congr 2
  ring

/-- What the wanted sample point leaves for the second segment, before it is
brought inside its limits. -/
theorem Reachable.share (hsp : Reachable btc sp) (htseg : InLimits btc tseg) :
    0 < sp ∧ (btc.tseg1Min + 1 : ℤ) ≤ sp * (tseg + 1) / 1000 ∧
      sp * (tseg + 1) / 1000 ≤ (tseg : ℤ) + 1 ∧ sp * (tseg + 1) ≤ 1000 * ((tseg : ℤ) + 1) := by
  obtain ⟨hle, hlate⟩ := hsp
  have hpos : 0 < sp := by
    by_contra hneg
    have hnonpos : sp * (btc.tseg1Min + btc.tseg2Min + 1 : ℤ) ≤ 0 :=
      mul_nonpos_of_nonpos_of_nonneg (not_lt.mp hneg) (by positivity)
    omega
  have hup : sp * (tseg + 1) ≤ 1000 * ((tseg : ℤ) + 1) :=
    mul_le_mul_of_nonneg_right hle (by positivity)
  have hmono : sp * (btc.tseg1Min + btc.tseg2Min + 1 : ℤ) ≤ sp * (tseg + 1) := by
    have := htseg.1
    exact mul_le_mul_of_nonneg_left (by omega) hpos.le
  refine ⟨hpos, ?_, ?_, hup⟩ <;> omega

/-- The split keeps the total and stays inside the limits of both segments. -/
theorem canUpdateSpt_split (h1 : btc.tseg1Min ≤ btc.tseg1Max) (h2 : btc.tseg2Min ≤ btc.tseg2Max)
    (hsmall : 1000 * btc.quanta < 2 ^ 31) (hsp : Reachable btc sp) (htseg : InLimits btc tseg) :
    ∃ seg1 seg2 : ℕ, canUpdateSpt btc sp tseg = ((pointOf seg1 seg2 : ℤ), (seg1 : ℤ), (seg2 : ℤ)) ∧
      seg1 + seg2 = tseg ∧ btc.tseg1Min ≤ seg1 ∧ seg1 ≤ btc.tseg1Max ∧
      btc.tseg2Min ≤ seg2 ∧ seg2 ≤ btc.tseg2Max := by
  obtain ⟨hpos, hlow, hhigh, hup⟩ := hsp.share htseg
  obtain ⟨hmin, hmax⟩ := htseg
  unfold BittimingConst.quanta at hsmall
  have hprod : int32 (sp * (tseg + 1)) = sp * (tseg + 1) :=
    int32_eq (by have : 0 ≤ sp * ((tseg : ℤ) + 1) := by positivity
                 omega) (by omega)
  have hdiv : (sp * ((tseg : ℤ) + 1)).tdiv 1000 = sp * (tseg + 1) / 1000 :=
    Int.tdiv_eq_ediv_of_nonneg (by positivity)
  unfold canUpdateSpt
  rw [hprod, hdiv]
  generalize sp * ((tseg : ℤ) + 1) / 1000 = share at hlow hhigh
  -- the second segment before and after it is brought inside its limits
  have hraw : int32 ((tseg : ℤ) + 1 - share) = ((tseg + 1 - share.toNat : ℕ) : ℤ) := by
    rw [int32_eq (by omega) (by omega)]
    omega
  have hfit : tseg + 1 - share.toNat + btc.tseg1Min ≤ tseg := by omega
  dsimp only
  rw [hraw, raised_eq (by omega) (by omega), lowered_eq (by omega) (by omega)]
  generalize hseg2 : min btc.tseg2Max (max btc.tseg2Min (tseg + 1 - share.toNat)) = seg2
  have hseg2max : seg2 ≤ btc.tseg2Max := by omega
  have hseg2min : btc.tseg2Min ≤ seg2 := by omega
  have hseg1min : seg2 + btc.tseg1Min ≤ tseg := by omega
  rw [show int32 ((tseg : ℤ) - seg2) = ((tseg - seg2 : ℕ) : ℤ) by
    rw [int32_eq (by omega) (by omega)]; omega]
  rw [u32_natCast (by omega), int32_natCast (by omega : btc.tseg1Max < 2 ^ 31)]
  by_cases hlong : tseg - seg2 > btc.tseg1Max
  · refine ⟨btc.tseg1Max, tseg - btc.tseg1Max, ?_, by omega, h1, le_rfl, by omega, by omega⟩
    have hrest : int32 ((tseg : ℤ) - btc.tseg1Max) = ((tseg - btc.tseg1Max : ℕ) : ℤ) := by
      rw [int32_eq (by omega) (by omega)]
      omega
    rw [if_pos hlong]
    dsimp only
    rw [hrest, pointOf_eq (by omega : btc.tseg1Max + (tseg - btc.tseg1Max) = tseg) (by omega)]
  · refine ⟨tseg - seg2, seg2, ?_, by omega, by omega, by omega, hseg2min, hseg2max⟩
    rw [if_neg hlong]
    dsimp only
    rw [pointOf_eq (by omega : tseg - seg2 + seg2 = tseg) (by omega)]

end Limits

end RobotOta.BitTiming
