import Reckoner.Double.Nearest
import Reckoner.Proofs.ExactMagnitudes

/-!
# The nearest double to a quotient

The rank that a quotient is rounded to is the nearest of all ranks, and the even one of two that are
equally near: its own order of magnitude is a grid on which it is the nearest step, and what lies
below that order is further away. So the double of that rank is the nearest to the quotient.
-/

namespace Reckoner

set_option autoImplicit false

/-- A quotient right between two numbers is rounded to the even one. -/
theorem roundDiv_even_of_tie {num den : Nat} (hden : 0 < den)
    (htie : |(roundDiv num den : ℚ) - num / den| = 1 / 2) : roundDiv num den % 2 = 0 := by
  have hpos : (0 : ℚ) < den := Nat.cast_pos.mpr hden
  have hnum : num / den * den + num % den = num := Nat.div_add_mod' num den
  rw [sub_div' hpos.ne', abs_div, abs_of_pos hpos, div_eq_iff hpos.ne'] at htie
  have hhalf : 2 * (roundDiv num den * den) = 2 * num + den ∨
      2 * num = 2 * (roundDiv num den * den) + den := by
    rcases abs_cases ((roundDiv num den : ℚ) * den - num) with ⟨habs, _⟩ | ⟨habs, _⟩
    · left
      have hcast : (2 : ℚ) * (roundDiv num den * den) = 2 * num + den := by linarith
      exact_mod_cast hcast
    · right
      have hcast : (2 : ℚ) * num = 2 * (roundDiv num den * den) + den := by linarith
      exact_mod_cast hcast
  unfold roundDiv at hhalf ⊢
  dsimp only at hhalf ⊢
  have hmod := Nat.mod_lt num hden
  split
  · rename_i hbelow
    rw [if_pos hbelow] at hhalf
    omega
  · split
    · rename_i hnot habove
      have hnext : (num / den + 1) * den = num / den * den + den := Nat.succ_mul _ _
      rw [if_neg hnot, if_pos habove] at hhalf
      omega
    · omega

namespace Decimal

/-- An integer at most a half away from a number is nearest to it, and any other that is as near is
a half away too. -/
theorem abs_sub_le_of_near {k : Int} {x : ℚ} (h : |(k : ℚ) - x| ≤ 1 / 2) (j : Int) :
    |(k : ℚ) - x| ≤ |(j : ℚ) - x| ∧
      (j ≠ k → |(k : ℚ) - x| = |(j : ℚ) - x| → |(k : ℚ) - x| = 1 / 2) := by
  by_cases hne : j = k
  · rw [hne]
    exact ⟨le_refl _, fun hother => absurd rfl hother⟩
  · have hgap : (1 : ℚ) ≤ |(j : ℚ) - k| := by exact_mod_cast Int.one_le_abs (sub_ne_zero.mpr hne)
    have htriangle : |(j : ℚ) - k| ≤ |(j : ℚ) - x| + |x - k| := abs_sub_le _ _ _
    rw [abs_sub_comm x] at htriangle
    refine ⟨by linarith, fun _ hequal => ?_⟩
    linarith

end Decimal

namespace Double

/-- A magnitude is a step of the grid of an order, or it is less than the order. -/
theorem quantaOfRank_step_or_below (rank scale : Nat) :
    (∃ steps, quantaOfRank rank = steps * 2 ^ scale) ∨
      0 < scale ∧ quantaOfRank rank < 2 ^ (52 : Nat) * 2 ^ scale := by
  rcases Nat.lt_or_ge (scaleOfRank rank) scale with hbelow | habove
  · exact Or.inr ⟨Nat.zero_lt_of_lt hbelow, quantaOfRank_lt_of_scale hbelow⟩
  · obtain ⟨more, hmore⟩ := Nat.exists_eq_add_of_le' habove
    refine Or.inl ⟨stepsOfRank rank * 2 ^ more, ?_⟩
    rw [quantaOfRank_eq_steps, hmore, Nat.pow_add, Nat.mul_assoc]

/-- Distances of steps are counted in steps. -/
theorem abs_steps_sub (num : Nat) {den : Nat} (hden : 0 < den) (scale steps : Nat) :
    |((steps * 2 ^ scale : Nat) : ℚ) - num / den| =
      |((steps : Int) : ℚ) - num / (den * 2 ^ scale : Nat)| * 2 ^ scale := by
  have hwidth : (0 : ℚ) < 2 ^ scale := by positivity
  have hden' : (den : ℚ) ≠ 0 := Nat.cast_ne_zero.mpr hden.ne'
  have hscaled : ((steps * 2 ^ scale : Nat) : ℚ) - num / den =
      (((steps : Int) : ℚ) - num / (den * 2 ^ scale : Nat)) * 2 ^ scale := by
    push_cast
    field_simp
  rw [hscaled, abs_mul, abs_of_pos hwidth]

theorem abs_stepsOfRatio_sub_le (num : Nat) {den : Nat} (hden : 0 < den) :
    |((stepsOfRatio num den : Int) : ℚ) - num / (den * 2 ^ scaleOfRatio num den : Nat)| ≤
      1 / 2 := by
  exact_mod_cast Decimal.abs_roundDiv_sub_le num (Nat.mul_pos hden (Nat.two_pow_pos _))

/-- No step is nearer to a quotient than its own, and that one is even if another is as near. -/
theorem steps_nearest (num : Nat) {den : Nat} (hden : 0 < den) (steps : Nat) :
    |(quantaOfRank (rankOfRatio num den) : ℚ) - num / den| ≤
        |((steps * 2 ^ scaleOfRatio num den : Nat) : ℚ) - num / den| ∧
      (steps ≠ stepsOfRatio num den →
        |(quantaOfRank (rankOfRatio num den) : ℚ) - num / den| =
          |((steps * 2 ^ scaleOfRatio num den : Nat) : ℚ) - num / den| →
        stepsOfRatio num den % 2 = 0) := by
  have hwidth : (0 : ℚ) < 2 ^ scaleOfRatio num den := by positivity
  obtain ⟨hle, htie⟩ := Decimal.abs_sub_le_of_near (abs_stepsOfRatio_sub_le num hden) steps
  rw [quantaOfRank_rankOfRatio, abs_steps_sub num hden, abs_steps_sub num hden]
  refine ⟨mul_le_mul_of_nonneg_right hle hwidth.le, fun hother hequal => ?_⟩
  refine roundDiv_even_of_tie (Nat.mul_pos hden (Nat.two_pow_pos _)) ?_
  have hdiffer : (steps : Int) ≠ stepsOfRatio num den :=
    fun hsame => hother (Int.ofNat_inj.mp hsame)
  exact_mod_cast htie hdiffer (mul_right_cancel₀ hwidth.ne' hequal)

/-- What is less than the order of a quotient is further away than the order itself. -/
theorem lt_abs_sub_of_below {num den quanta : Nat} (hden : 0 < den)
    (hpos : 0 < scaleOfRatio num den)
    (hbelow : quanta < 2 ^ (52 : Nat) * 2 ^ scaleOfRatio num den) :
    |((2 ^ (52 : Nat) * 2 ^ scaleOfRatio num den : Nat) : ℚ) - num / den| <
      |(quanta : ℚ) - num / den| := by
  have hgrid : 0 < den * 2 ^ scaleOfRatio num den := Nat.mul_pos hden (Nat.two_pow_pos _)
  have horder : ((2 ^ (52 : Nat) * 2 ^ scaleOfRatio num den : Nat) : ℚ) ≤ num / den := by
    have hsteps := (Nat.le_div_iff_mul_le hgrid).mp (le_div_grid hpos)
    rw [le_div_iff₀ (Nat.cast_pos.mpr hden), ← Nat.cast_mul, Nat.cast_le, Nat.mul_assoc,
      Nat.mul_comm _ den]
    exact hsteps
  have hcast := Nat.cast_lt (α := ℚ).mpr hbelow
  generalize ((2 ^ (52 : Nat) * 2 ^ scaleOfRatio num den : Nat) : ℚ) = order at horder hcast ⊢
  rw [abs_of_nonpos (by linarith), abs_of_nonpos (by linarith)]
  linarith

/-- No rank is nearer to a quotient than the one it is rounded to, and that one is even if another
is as near. -/
theorem rankOfRatio_nearest (num : Nat) {den : Nat} (hden : 0 < den) (rank : Nat) :
    |(quantaOfRank (rankOfRatio num den) : ℚ) - num / den| ≤
        |(quantaOfRank rank : ℚ) - num / den| ∧
      (rank ≠ rankOfRatio num den →
        |(quantaOfRank (rankOfRatio num den) : ℚ) - num / den| =
          |(quantaOfRank rank : ℚ) - num / den| → rankOfRatio num den % 2 = 0) := by
  rcases quantaOfRank_step_or_below rank (scaleOfRatio num den) with
    ⟨steps, hsteps⟩ | ⟨hpos, hbelow⟩
  · obtain ⟨hle, htie⟩ := steps_nearest num hden steps
    rw [hsteps]
    refine ⟨hle, fun hother hequal => ?_⟩
    have hdiffer : steps ≠ stepsOfRatio num den := by
      intro hsame
      refine hother (quantaOfRank_strictMono.injective ?_)
      rw [hsteps, quantaOfRank_rankOfRatio, hsame]
    have heven := htie hdiffer hequal
    rw [rankOfRatio_eq]
    omega
  · -- The order itself is a step, and it lies between the two.
    have hfurther := (steps_nearest num hden (2 ^ (52 : Nat))).1.trans_lt
      (lt_abs_sub_of_below hden hpos hbelow)
    exact ⟨hfurther.le, fun _ hequal => absurd hequal hfurther.ne⟩

theorem abs_magnitude_sub (rank num den : Nat) :
    |magnitude rank - (num : ℚ) / den / quantaPerUnit| =
      |(quantaOfRank rank : ℚ) - num / den| / quantaPerUnit := by
  have hunit : (0 : ℚ) < quantaPerUnit := Nat.cast_pos.mpr quantaPerUnit_pos
  rw [magnitude_eq_div, ← sub_div, abs_div, abs_of_pos hunit]

theorem magnitude_rankOfRatio_nearest (num : Nat) {den : Nat} (hden : 0 < den) (rank : Nat) :
    |magnitude (rankOfRatio num den) - num / den / quantaPerUnit| ≤
        |magnitude rank - num / den / quantaPerUnit| ∧
      (rank ≠ rankOfRatio num den →
        |magnitude (rankOfRatio num den) - num / den / quantaPerUnit| =
          |magnitude rank - num / den / quantaPerUnit| → rankOfRatio num den % 2 = 0) := by
  have hunit : (0 : ℚ) < quantaPerUnit := Nat.cast_pos.mpr quantaPerUnit_pos
  obtain ⟨hle, htie⟩ := rankOfRatio_nearest num hden rank
  rw [abs_magnitude_sub, abs_magnitude_sub, div_le_div_iff_of_pos_right hunit,
    div_left_inj' hunit.ne']
  exact ⟨hle, htie⟩

theorem significand_mod_two (negative : Bool) (rank : Fin (2047 * 2 ^ (52 : Nat))) :
    (Double.finite negative rank).significand % 2 = rank % 2 := by
  simp only [significand]
  split <;> omega

/-- A sign only makes the way to a number that has none longer. -/
theorem abs_sub_le_abs_signed_sub {m q : ℚ} (hm : 0 ≤ m) (hq : 0 ≤ q) (negative : Bool) :
    |m - q| ≤ |(if negative then -m else m) - q| := by
  cases negative with
  | false => exact le_refl _
  | true =>
    rw [if_pos rfl, abs_of_nonpos (show -m - q ≤ 0 by linarith), abs_le]
    constructor <;> linarith

theorem abs_sub_lt_abs_neg_sub {m q : ℚ} (hm : 0 < m) (hq : 0 < q) : |m - q| < |-m - q| := by
  rw [abs_of_neg (show -m - q < 0 by linarith), abs_lt]
  constructor <;> linarith

/-- A rank that is the nearest to a number and even in a tie is even also if it ties with a double
of either sign. -/
theorem even_of_signed_tie {rank : Nat} {q : ℚ}
    (hnearest : ∀ other, |magnitude rank - q| ≤ |magnitude other - q| ∧
      (other ≠ rank → |magnitude rank - q| = |magnitude other - q| → rank % 2 = 0))
    (hsized : rank ≠ 0 → 0 < q) {negative : Bool} {other : Nat}
    (hother : (if negative then -magnitude other else magnitude other) ≠ magnitude rank)
    (htie : |magnitude rank - q| = |(if negative then -magnitude other else magnitude other) - q|) :
    rank % 2 = 0 := by
  by_cases hzero : rank = 0
  · rw [hzero]
  · have hq := hsized hzero
    have hsize := magnitude_pos_iff.mpr (Nat.pos_of_ne_zero hzero)
    -- The magnitude of the other double is as near without its sign.
    have hmagnitude : |magnitude rank - q| = |magnitude other - q| :=
      le_antisymm (hnearest other).1
        ((abs_sub_le_abs_signed_sub (magnitude_nonneg other) hq.le negative).trans htie.ge)
    refine (hnearest other).2 (fun hsame => ?_) hmagnitude
    rw [hsame] at hother htie
    cases negative with
    | false => exact hother (if_neg Bool.false_ne_true)
    | true => exact (abs_sub_lt_abs_neg_sub hsize hq).ne htie

/-- The double that a quotient of quanta is rounded to is the nearest of all. -/
theorem isNearest_of_rankOfRatio {num den : Nat} (hden : 0 < den)
    {rank : Fin (2047 * 2 ^ (52 : Nat))} (h : rankOfRatio num den = rank) :
    IsNearest ((num : ℚ) / den / quantaPerUnit) (.finite false rank) := by
  have hnearest := magnitude_rankOfRatio_nearest num hden
  rw [h] at hnearest
  have hnonneg : (0 : ℚ) ≤ num / den / quantaPerUnit := by positivity
  have hsized : rank.val ≠ 0 → (0 : ℚ) < num / den / quantaPerUnit := by
    intro hrank
    have hnum : num ≠ 0 := by
      rintro rfl
      refine hrank ?_
      rw [← h]
      simp [rankOfRatio]
    have hunit := quantaPerUnit_pos
    positivity
  generalize (num : ℚ) / den / quantaPerUnit = q at hnearest hnonneg hsized ⊢
  refine ⟨rfl, ?_, ?_⟩
  · intro y v w hv hw
    rw [value?_finite, Option.some.injEq, if_neg Bool.false_ne_true] at hv
    cases y with
    | nan | infinite _ => cases hw
    | finite negative other =>
      rw [value?_finite, Option.some.injEq] at hw
      rw [← hv, ← hw]
      exact (hnearest other).1.trans
        (abs_sub_le_abs_signed_sub (magnitude_nonneg other) hnonneg negative)
  · intro y v w hv hw hother hequal
    rw [value?_finite, Option.some.injEq, if_neg Bool.false_ne_true] at hv
    rw [significand_mod_two]
    cases y with
    | nan | infinite _ => cases hw
    | finite negative other =>
      rw [value?_finite, Option.some.injEq] at hw
      subst hv hw
      exact even_of_signed_tie hnearest hsized hother hequal

end Double

end Reckoner
