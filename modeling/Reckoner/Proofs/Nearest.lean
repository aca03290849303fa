import Mathlib.Order.Monotone.Basic
import Mathlib.Tactic.Ring
import Reckoner.Decimal.Shortest

/-!
# Rounding to the nearest double

A quotient is rounded on the grid of its binary order of magnitude: `scaleOfRatio` says how wide
that grid is, and the magnitude of the rank that is found lies half a grid step away at most. On
this rest the order of the ranks and the order of their magnitudes.
-/

namespace Reckoner

set_option autoImplicit false

theorem roundDiv_mono {num num' : Nat} (den : Nat) (h : num ≤ num') :
    roundDiv num den ≤ roundDiv num' den := by
  have hdiv : num / den ≤ num' / den := Nat.div_le_div_right h
  rcases Nat.lt_or_eq_of_le hdiv with hlt | heq
  · calc roundDiv num den ≤ num / den + 1 := roundDiv_le num den
      _ ≤ num' / den := hlt
      _ ≤ roundDiv num' den := div_le_roundDiv num' den
  · have hmod : num % den ≤ num' % den := by
      have h1 := Nat.div_add_mod num den
      have h2 := Nat.div_add_mod num' den
      rw [heq] at h1
      omega
    simp only [roundDiv, heq]
    split
    · split
      · exact Nat.le_refl _
      · split <;> omega
    · split
      · rw [if_neg (by omega), if_pos (by omega)]
      · rw [if_neg (by omega)]
        split <;> omega

/-- A rounded quotient is at most a half away from the quotient. -/
theorem roundDiv_near (num : Nat) {den : Nat} (hden : 0 < den) :
    2 * (roundDiv num den * den) ≤ 2 * num + den ∧
      2 * num ≤ 2 * (roundDiv num den * den) + den := by
  have hnum : den * (num / den) + num % den = num := Nat.div_add_mod num den
  have hmod : num % den < den := Nat.mod_lt num hden
  have hfloor : num / den * den = den * (num / den) := Nat.mul_comm _ _
  have hnext : (num / den + 1) * den = den * (num / den) + den := by rw [Nat.succ_mul, hfloor]
  simp only [roundDiv]
  split
  · rw [hfloor]
    omega
  · split
    · rw [hnext]
      omega
    · rcases Nat.mod_two_eq_zero_or_one (num / den) with heven | hodd
      · rw [heven, Nat.add_zero, hfloor]
        omega
      · rw [hodd, hnext]
        omega

/-- What is less than a half away from a quotient is the rounded quotient. -/
theorem roundDiv_eq_of_near {num den m : Nat} (hl : 2 * (m * den) < 2 * num + den)
    (hu : 2 * num < 2 * (m * den) + den) : roundDiv num den = m := by
  have hden : 0 < den := by omega
  obtain ⟨hl', hu'⟩ := roundDiv_near num hden
  rcases Nat.lt_trichotomy (roundDiv num den) m with hlt | heq | hgt
  · have hstep : (roundDiv num den + 1) * den ≤ m * den := Nat.mul_le_mul_right den hlt
    rw [Nat.succ_mul] at hstep
    omega
  · exact heq
  · have hstep : (m + 1) * den ≤ roundDiv num den * den := Nat.mul_le_mul_right den hgt
    rw [Nat.succ_mul] at hstep
    omega

namespace Double

/-- The binary digits by which the grid of a quotient is wider than a quantum. -/
def scaleOfRatio (num den : Nat) : Nat := (num / den).log2 - 52

def stepsOfRatio (num den : Nat) : Nat := roundDiv num (den * 2 ^ scaleOfRatio num den)

theorem rankOfRatio_eq (num den : Nat) :
    rankOfRatio num den = scaleOfRatio num den * 2 ^ (52 : Nat) + stepsOfRatio num den := rfl

theorem div_grid_lt (num den : Nat) :
    num / (den * 2 ^ scaleOfRatio num den) < 2 ^ (53 : Nat) := by
  rw [← Nat.div_div_eq_div_mul, Nat.div_lt_iff_lt_mul (Nat.two_pow_pos _), ← Nat.pow_add]
  have hlog : num / den < 2 ^ ((num / den).log2 + 1) := Nat.lt_log2_self
  refine Nat.lt_of_lt_of_le hlog (Nat.pow_le_pow_right (by decide) ?_)
  unfold scaleOfRatio
  omega

theorem le_div_grid {num den : Nat} (hscale : 0 < scaleOfRatio num den) :
    2 ^ (52 : Nat) ≤ num / (den * 2 ^ scaleOfRatio num den) := by
  have hne : num / den ≠ 0 := by
    intro hzero
    simp [scaleOfRatio, hzero] at hscale
  rw [← Nat.div_div_eq_div_mul, Nat.le_div_iff_mul_le (Nat.two_pow_pos _), ← Nat.pow_add]
  have hlog : 52 + scaleOfRatio num den = (num / den).log2 := by
    unfold scaleOfRatio at hscale ⊢
    omega
  rw [hlog]
  exact Nat.log2_self_le hne

theorem stepsOfRatio_le (num den : Nat) : stepsOfRatio num den ≤ 2 ^ (53 : Nat) :=
  Nat.le_trans (roundDiv_le _ _) (div_grid_lt num den)

theorem le_stepsOfRatio {num den : Nat} (hscale : 0 < scaleOfRatio num den) :
    2 ^ (52 : Nat) ≤ stepsOfRatio num den :=
  Nat.le_trans (le_div_grid hscale) (div_le_roundDiv _ _)

/-- Grids of the ranks: each step of a grid is a rank, from the first magnitude of its order up to
the first of the next. -/
theorem quantaOfRank_grid {scale steps : Nat} (hu : steps ≤ 2 ^ (53 : Nat))
    (hl : 0 < scale → 2 ^ (52 : Nat) ≤ steps) :
    quantaOfRank (scale * 2 ^ (52 : Nat) + steps) = steps * 2 ^ scale := by
  rcases Nat.lt_or_eq_of_le hu with hlt | heq
  · by_cases hscale : scale = 0
    · subst hscale
      rw [Nat.zero_mul, Nat.zero_add, quantaOfRank_of_lt hlt, Nat.pow_zero, Nat.mul_one]
    · have hl' := hl (Nat.pos_of_ne_zero hscale)
      have hdiv : (scale * 2 ^ (52 : Nat) + steps) / 2 ^ (52 : Nat) - 1 = scale := by omega
      have hmod : 2 ^ (52 : Nat) + (scale * 2 ^ (52 : Nat) + steps) % 2 ^ (52 : Nat) = steps := by
        omega
      rw [quantaOfRank_of_le (by omega), hdiv, hmod]
  · have hdiv : (scale * 2 ^ (52 : Nat) + steps) / 2 ^ (52 : Nat) - 1 = scale + 1 := by omega
    have hmod : 2 ^ (52 : Nat) + (scale * 2 ^ (52 : Nat) + steps) % 2 ^ (52 : Nat) =
        2 ^ (52 : Nat) := by omega
    rw [quantaOfRank_of_le (by omega), hdiv, hmod, heq, Nat.pow_succ]
    ring

theorem quantaOfRank_rankOfRatio (num den : Nat) :
    quantaOfRank (rankOfRatio num den) = stepsOfRatio num den * 2 ^ scaleOfRatio num den :=
  quantaOfRank_grid (stepsOfRatio_le num den) le_stepsOfRatio

/-- The magnitude that is found is at most half a grid step away from the quotient. -/
theorem rankOfRatio_near (num : Nat) {den : Nat} (hden : 0 < den) :
    2 * (quantaOfRank (rankOfRatio num den) * den) ≤ 2 * num + den * 2 ^ scaleOfRatio num den ∧
      2 * num ≤
        2 * (quantaOfRank (rankOfRatio num den) * den) + den * 2 ^ scaleOfRatio num den := by
  have hgrid : 0 < den * 2 ^ scaleOfRatio num den := Nat.mul_pos hden (Nat.two_pow_pos _)
  have hnear := roundDiv_near num hgrid
  have hsteps : quantaOfRank (rankOfRatio num den) * den =
      stepsOfRatio num den * (den * 2 ^ scaleOfRatio num den) := by
    rw [quantaOfRank_rankOfRatio]
    ring
  rw [hsteps]
  exact hnear

/-- From `2 ^ 53` quanta on rounding adds one part in `2 ^ 53` at most. -/
theorem quantaOfRank_rankOfRatio_le {num den : Nat} (hden : 0 < den)
    (h : 2 ^ (53 : Nat) * den ≤ num) :
    2 ^ (53 : Nat) * (quantaOfRank (rankOfRatio num den) * den) ≤ (2 ^ (53 : Nat) + 1) * num := by
  have hscale : 0 < scaleOfRatio num den := by
    have hquotient : 2 ^ (53 : Nat) ≤ num / den := (Nat.le_div_iff_mul_le hden).mpr h
    have hlog : 53 ≤ (num / den).log2 := (Nat.le_log2 (by omega)).mpr hquotient
    unfold scaleOfRatio
    omega
  have hgrid : 2 ^ (52 : Nat) * (den * 2 ^ scaleOfRatio num den) ≤ num :=
    (Nat.le_div_iff_mul_le (Nat.mul_pos hden (Nat.two_pow_pos _))).mp (le_div_grid hscale)
  have hnear := (rankOfRatio_near num hden).1
  omega

/-- What lies less than half a step from a magnitude inside an order is rounded to it. The least
magnitude of an order is left out: below it the steps are half as wide. -/
theorem rankOfRatio_eq_of_near {scale steps num den : Nat} (hl : 2 ^ (52 : Nat) < steps)
    (hu : steps < 2 ^ (53 : Nat))
    (hbelow : 2 * (steps * (den * 2 ^ scale)) < 2 * num + den * 2 ^ scale)
    (habove : 2 * num < 2 * (steps * (den * 2 ^ scale)) + den * 2 ^ scale) :
    rankOfRatio num den = scale * 2 ^ (52 : Nat) + steps := by
  have hden : 0 < den := by
    rcases Nat.eq_zero_or_pos den with rfl | hpos
    · simp only [Nat.zero_mul, Nat.mul_zero] at hbelow habove
      omega
    · exact hpos
  have hlow : 2 ^ (52 + scale) ≤ num / den := by
    have hstep := Nat.mul_le_mul_right (den * 2 ^ scale) hl
    rw [Nat.succ_mul] at hstep
    rw [Nat.le_div_iff_mul_le hden]
    calc 2 ^ (52 + scale) * den = 2 ^ (52 : Nat) * (den * 2 ^ scale) := by
          rw [Nat.pow_add]
          ring
      _ ≤ num := by omega
  have hhigh : num / den < 2 ^ (52 + scale + 1) := by
    have hstep := Nat.mul_le_mul_right (den * 2 ^ scale) hu
    rw [Nat.succ_mul] at hstep
    rw [Nat.div_lt_iff_lt_mul hden]
    calc num < 2 ^ (53 : Nat) * (den * 2 ^ scale) := by omega
      _ = 2 ^ (52 + scale + 1) * den := by
          rw [Nat.pow_add, Nat.pow_add]
          ring
  have hscale : scaleOfRatio num den = scale := by
    rw [scaleOfRatio, log2_eq hlow hhigh, Nat.add_sub_cancel_left]
  rw [rankOfRatio_eq, stepsOfRatio, hscale, roundDiv_eq_of_near hbelow habove]

theorem div_le_div_of_cross {num den num' den' : Nat} (hden : 0 < den) (hden' : 0 < den')
    (h : num * den' ≤ num' * den) : num / den ≤ num' / den' := by
  rw [Nat.le_div_iff_mul_le hden']
  refine Nat.le_of_mul_le_mul_right ?_ hden
  calc num / den * den' * den = num / den * den * den' := by ring
    _ ≤ num * den' := Nat.mul_le_mul_right _ (Nat.div_mul_le_self num den)
    _ ≤ num' * den := h

theorem roundDiv_le_of_cross {num den num' den' : Nat} (hden : 0 < den) (hden' : 0 < den')
    (h : num * den' ≤ num' * den) : roundDiv num den ≤ roundDiv num' den' := by
  rw [← roundDiv_mul_right num den hden', ← roundDiv_mul_right num' den' hden,
    Nat.mul_comm den' den]
  exact roundDiv_mono _ h

theorem log2_le_log2 {m n : Nat} (h : m ≤ n) : m.log2 ≤ n.log2 := by
  by_cases hm : m = 0
  · simp [hm]
  · exact (Nat.le_log2 (by omega)).mpr (Nat.le_trans (Nat.log2_self_le hm) h)

/-- A greater quotient has no lesser rank. -/
theorem rankOfRatio_le_of_cross {num den num' den' : Nat} (hden : 0 < den) (hden' : 0 < den')
    (h : num * den' ≤ num' * den) : rankOfRatio num den ≤ rankOfRatio num' den' := by
  have hscale : scaleOfRatio num den ≤ scaleOfRatio num' den' :=
    Nat.sub_le_sub_right (log2_le_log2 (div_le_div_of_cross hden hden' h)) 52
  rw [rankOfRatio_eq, rankOfRatio_eq]
  rcases Nat.lt_or_eq_of_le hscale with hlt | heq
  · have hu := stepsOfRatio_le num den
    have hl := le_stepsOfRatio (Nat.lt_of_le_of_lt (Nat.zero_le _) hlt)
    have hstep : (scaleOfRatio num den + 1) * 2 ^ (52 : Nat) ≤
        scaleOfRatio num' den' * 2 ^ (52 : Nat) := Nat.mul_le_mul_right _ hlt
    omega
  · rw [heq]
    refine Nat.add_le_add_left ?_ _
    unfold stepsOfRatio
    rw [heq]
    refine roundDiv_le_of_cross (Nat.mul_pos hden (Nat.two_pow_pos _))
      (Nat.mul_pos hden' (Nat.two_pow_pos _)) ?_
    calc num * (den' * 2 ^ scaleOfRatio num' den') =
        num * den' * 2 ^ scaleOfRatio num' den' := by ring
      _ ≤ num' * den * 2 ^ scaleOfRatio num' den' := Nat.mul_le_mul_right _ h
      _ = num' * (den * 2 ^ scaleOfRatio num' den') := by ring

theorem quantaOfRank_strictMono : StrictMono quantaOfRank := by
  intro rank rank' hlt
  by_contra hle
  have hcross : quantaOfRank rank' * 1 ≤ quantaOfRank rank * 1 := by omega
  have hrank := rankOfRatio_le_of_cross Nat.one_pos Nat.one_pos hcross
  rw [rankOfRatio_quantaOfRank, rankOfRatio_quantaOfRank] at hrank
  omega

end Double

end Reckoner
