import Mathlib.Algebra.Ring.Int.Parity
import Reckoner.Double.Tolerance
import Reckoner.Proofs.NearestDouble

/-!
# Doubles and the integers near them

The integer nearest to a finite double is a double, and so is the distance between the two: a
number that is no integer lies on a grid finer than a unit, and the distance is on this grid and no
greater than the number. So comparing the rounded distance with the tolerance settles how far the
number really is from an integer, and the only integer that it can be near is the nearest one.
-/

namespace Reckoner

set_option autoImplicit false

namespace Double

def nearestUnits (rank : Nat) : Nat := roundDiv (quantaOfRank rank) quantaPerUnit

/-- A magnitude is a whole number of units, or its grid is finer than a unit. -/
theorem dvd_or_scaleOfRank_lt (rank : Nat) :
    quantaPerUnit ∣ quantaOfRank rank ∨ scaleOfRank rank < binaryPlaces := by
  rcases Nat.lt_or_ge (scaleOfRank rank) binaryPlaces with hlt | hge
  · exact Or.inr hlt
  · have hself := two_pow_scaleOfRank_dvd (Nat.le_refl rank)
    exact Or.inl (Nat.dvd_trans (Nat.pow_dvd_pow 2 hge) hself)

theorem nearestUnits_of_dvd {rank : Nat} (h : quantaPerUnit ∣ quantaOfRank rank) :
    nearestUnits rank * quantaPerUnit = quantaOfRank rank := by
  obtain ⟨units, hunits⟩ := h
  rw [nearestUnits, hunits, Nat.mul_comm quantaPerUnit, roundDiv_mul_self units quantaPerUnit_pos]

/-- Up to `2 ^ 52` a whole number of units is a magnitude. -/
theorem exists_rank_of_units {units : Nat} (h : units ≤ 2 ^ (52 : Nat)) :
    ∃ rank : Fin (2047 * 2 ^ (52 : Nat)), quantaOfRank rank = units * quantaPerUnit := by
  obtain ⟨rank, hrank⟩ := exists_rank_of_steps (show units ≤ 2 ^ (53 : Nat) by omega) binaryPlaces
  have hlimit : quantaOfRank (binaryPlaces * 2 ^ (52 : Nat) + 2 ^ (52 : Nat)) =
      2 ^ (52 : Nat) * 2 ^ binaryPlaces := quantaOfRank_grid (by decide) fun _ => Nat.le_refl _
  have hle : rank ≤ binaryPlaces * 2 ^ (52 : Nat) + 2 ^ (52 : Nat) := by
    rw [← quantaOfRank_strictMono.le_iff_le, hrank, hlimit]
    exact Nat.mul_le_mul_right _ h
  rw [binaryPlaces] at hle
  exact ⟨⟨rank, by omega⟩, hrank⟩

theorem nearestUnits_le {rank : Nat} (h : scaleOfRank rank < binaryPlaces) :
    nearestUnits rank ≤ 2 ^ (52 : Nat) := by
  refine Nat.le_trans (roundDiv_le _ _) ?_
  rw [Nat.add_one_le_iff, Nat.div_lt_iff_lt_mul quantaPerUnit_pos]
  exact quantaOfRank_lt_of_scale h

theorem exists_rank_nearestUnits (rank : Fin (2047 * 2 ^ (52 : Nat))) :
    ∃ whole : Fin (2047 * 2 ^ (52 : Nat)),
      quantaOfRank whole = nearestUnits rank * quantaPerUnit := by
  rcases dvd_or_scaleOfRank_lt rank with hdvd | hfine
  · exact ⟨rank, (nearestUnits_of_dvd hdvd).symm⟩
  · exact exists_rank_of_units (nearestUnits_le hfine)

/-- The distance to the nearest integer is a magnitude. -/
theorem exists_rank_distance (rank : Nat) : ∃ rest, rest ≤ rank ∧
    quantaOfRank rest =
      ((quantaOfRank rank : Int) - (nearestUnits rank * quantaPerUnit : Nat)).natAbs := by
  apply exists_rank_of_dvd
  · rcases dvd_or_scaleOfRank_lt rank with hdvd | hfine
    · rw [nearestUnits_of_dvd hdvd, Int.sub_self]
      exact Nat.dvd_zero _
    · have hunit : 2 ^ scaleOfRank rank ∣ nearestUnits rank * quantaPerUnit :=
        Nat.dvd_mul_left_of_dvd (Nat.pow_dvd_pow 2 hfine.le) _
      have hself := two_pow_scaleOfRank_dvd (Nat.le_refl rank)
      rw [← Int.natCast_dvd]
      exact Int.dvd_sub (Int.natCast_dvd_natCast.mpr hself) (Int.natCast_dvd_natCast.mpr hunit)
  · obtain ⟨hbelow, habove⟩ := roundDiv_near (quantaOfRank rank) quantaPerUnit_pos
    change 2 * (nearestUnits rank * quantaPerUnit) ≤ _ at hbelow
    rcases Nat.eq_zero_or_pos (nearestUnits rank) with hzero | hpos
    · rw [hzero, Nat.zero_mul]
      omega
    · have hunit : quantaPerUnit ≤ nearestUnits rank * quantaPerUnit :=
        Nat.le_mul_of_pos_left _ hpos
      omega

theorem rint_finite (negative : Bool) (rank : Fin (2047 * 2 ^ (52 : Nat))) :
    ∃ whole : Fin (2047 * 2 ^ (52 : Nat)),
      quantaOfRank whole = nearestUnits rank * quantaPerUnit ∧
      (finite negative rank).rint = finite negative whole := by
  obtain ⟨whole, hwhole⟩ := exists_rank_nearestUnits rank
  refine ⟨whole, hwhole, ?_⟩
  rw [rint, toWhole]
  change ofRatio negative (nearestUnits rank * quantaPerUnit) 1 = _
  rw [← hwhole, ofRatio_quantaOfRank]

theorem toInt_rint_finite (negative : Bool) (rank : Fin (2047 * 2 ^ (52 : Nat))) :
    (finite negative rank).rint.toInt =
      if negative then -(nearestUnits rank : Int) else nearestUnits rank := by
  obtain ⟨whole, hwhole, hrint⟩ := rint_finite negative rank
  rw [hrint, toInt, hwhole, Nat.mul_div_cancel _ quantaPerUnit_pos]

theorem natAbs_signedQuanta_sub (negative : Bool) (a b : Nat) :
    (signedQuanta negative a + signedQuanta (!negative) b).natAbs =
      ((quantaOfRank a : Int) - quantaOfRank b).natAbs := by
  cases negative <;> simp only [signedQuanta, Bool.not_false, Bool.not_true, Bool.false_eq_true,
    if_true, if_false] <;> omega

/-- The distance to the nearest integer is not rounded. -/
theorem abs_sub_rint_finite (negative : Bool) (rank : Fin (2047 * 2 ^ (52 : Nat))) :
    ∃ rest : Fin (2047 * 2 ^ (52 : Nat)),
      magnitude rest = |magnitude rank - nearestUnits rank| ∧
      ((finite negative rank).sub (finite negative rank).rint).abs = finite false rest := by
  obtain ⟨whole, hwhole, hrint⟩ := rint_finite negative rank
  obtain ⟨rest, hle, hrest⟩ := exists_rank_distance rank
  have hunit : (0 : ℚ) < quantaPerUnit := Nat.cast_pos.mpr quantaPerUnit_pos
  refine ⟨⟨rest, Nat.lt_of_le_of_lt hle rank.isLt⟩, ?_, ?_⟩
  · have hcast : (quantaOfRank rest : ℚ) =
        |(quantaOfRank rank : ℚ) - nearestUnits rank * quantaPerUnit| := by
      rw [hrest, Nat.cast_natAbs]
      push_cast
      rfl
    rw [magnitude_eq_div, magnitude_eq_div, hcast, div_sub' hunit.ne', abs_div, abs_of_pos hunit,
      mul_comm (quantaPerUnit : ℚ)]
  · rw [hrint, sub, neg, add, ofQuanta, natAbs_signedQuanta_sub, hwhole, ← hrest]
    rw [ofRatio_quantaOfRank _ ⟨rest, Nat.lt_of_le_of_lt hle rank.isLt⟩]
    rfl

def toleranceRank : Fin (2047 * 2 ^ (52 : Nat)) := ⟨0x3e112e0be826d695, by decide⟩

theorem tolerance_eq : tolerance = finite false toleranceRank := by decide +kernel

/-- The tolerance is the double nearest to a thousand-millionth. -/
theorem isNearest_tolerance : tolerance.IsNearest (1 / 10 ^ 9) := by
  have hrank : rankOfRatio quantaPerUnit (10 ^ (9 : Nat)) = toleranceRank := by decide +kernel
  have hvalue : (quantaPerUnit : ℚ) / (10 ^ (9 : Nat) : Nat) / quantaPerUnit = 1 / 10 ^ 9 := by
    have hunit : (quantaPerUnit : ℚ) ≠ 0 := Nat.cast_ne_zero.mpr quantaPerUnit_pos.ne'
    push_cast
    field_simp
    norm_num
  rw [tolerance_eq, ← hvalue]
  exact isNearest_of_rankOfRatio (by decide) hrank

theorem magnitude_toleranceRank_lt : magnitude toleranceRank < 1 / 2 := by decide +kernel

theorem isNear_finite_iff (negative : Bool) (rank : Fin (2047 * 2 ^ (52 : Nat))) (n : Int) :
    (finite negative rank).IsNear n ↔
      |magnitude rank - (if negative then -n else n : Int)| ≤ magnitude toleranceRank := by
  rw [IsNear, tolerance_eq, value?_finite, value?_finite]
  simp only [Option.some.injEq, exists_and_left, exists_eq_left', Bool.false_eq_true, if_false]
  cases negative with
  | false => exact Iff.rfl
  | true =>
    have hflip : |-magnitude rank - n| = |magnitude rank - (-n : Int)| := by
      rw [← abs_neg]
      congr 1
      push_cast
      ring
    rw [if_pos rfl, if_pos rfl, hflip]

/-- What is near a magnitude is its nearest number of units. -/
theorem eq_nearestUnits_of_near {rank : Nat} {n : Int}
    (h : |magnitude rank - n| ≤ magnitude toleranceRank) : n = nearestUnits rank := by
  have hhalf : |(nearestUnits rank : ℚ) - magnitude rank| ≤ 1 / 2 := by
    rw [magnitude_eq_div]
    exact Decimal.abs_roundDiv_sub_le _ quantaPerUnit_pos
  have hless : |((n - nearestUnits rank : Int) : ℚ)| < 1 := by
    have hsum : ((n - nearestUnits rank : Int) : ℚ) =
        -(magnitude rank - n) - (nearestUnits rank - magnitude rank) := by
      push_cast
      ring
    rw [hsum]
    have htolerance := magnitude_toleranceRank_lt
    have hnear := abs_le.mp h
    have hhalf' := abs_le.mp hhalf
    rw [abs_lt]
    constructor <;> linarith
  have hzero : |n - nearestUnits rank| < 1 := by exact_mod_cast hless
  exact sub_eq_zero.mp (Int.abs_lt_one_iff.mp hzero)

theorem isNearInteger_finite_iff (negative : Bool) (rank : Fin (2047 * 2 ^ (52 : Nat))) :
    (finite negative rank).isNearInteger = true ↔
      |magnitude rank - nearestUnits rank| ≤ magnitude toleranceRank := by
  obtain ⟨rest, hrest, hdistance⟩ := abs_sub_rint_finite negative rank
  rw [isNearInteger, hdistance, tolerance_eq, Bool.and_eq_true, le_finite_iff, hrest]
  exact and_iff_right rfl

/-- The only integer that a double can be near is the nearest one. -/
theorem toInt_rint_of_isNear {x : Double} {n : Int} (h : x.IsNear n) : x.rint.toInt = n := by
  cases x with
  | nan | infinite _ =>
    obtain ⟨v, _, hv, _⟩ := h
    cases hv
  | finite negative rank =>
    have hunits := eq_nearestUnits_of_near ((isNear_finite_iff negative rank n).mp h)
    rw [toInt_rint_finite, ← hunits]
    cases negative with
    | false => rfl
    | true => exact Int.neg_neg n

/-- The comparison with the tolerance is right about the exact distance. -/
theorem isNearInteger_iff (x : Double) : x.isNearInteger = true ↔ ∃ n, x.IsNear n := by
  cases x with
  | nan | infinite _ =>
    constructor
    · intro h
      cases h
    · rintro ⟨n, v, _, hv, _⟩
      cases hv
  | finite negative rank =>
    rw [isNearInteger_finite_iff]
    constructor
    · intro h
      refine ⟨if negative then -(nearestUnits rank : Int) else nearestUnits rank, ?_⟩
      rw [isNear_finite_iff]
      cases negative with
      | false => exact h
      | true => simpa using h
    · rintro ⟨n, hn⟩
      rw [isNear_finite_iff] at hn
      have hunits := eq_nearestUnits_of_near hn
      rw [hunits] at hn
      exact hn

theorem isNear_toInt_rint {x : Double} (h : x.isNearInteger = true) : x.IsNear x.rint.toInt := by
  obtain ⟨n, hn⟩ := (isNearInteger_iff x).mp h
  rw [toInt_rint_of_isNear hn]
  exact hn

theorem isNearOdd_iff (x : Double) : x.isNearOdd = true ↔ ∃ n, Odd n ∧ x.IsNear n := by
  rw [isNearOdd, Bool.and_eq_true, beq_iff_eq, ← Int.odd_iff]
  constructor
  · rintro ⟨hnear, hodd⟩
    exact ⟨_, hodd, isNear_toInt_rint hnear⟩
  · rintro ⟨n, hodd, hn⟩
    rw [toInt_rint_of_isNear hn]
    exact ⟨(isNearInteger_iff x).mpr ⟨n, hn⟩, hodd⟩

theorem isBelowZero_iff (x : Double) : x.isBelowZero = true ↔ x.LiesBelowZero := by
  cases x with
  | nan => simp [isBelowZero, LiesBelowZero, lt, place?, value?]
  | infinite negative =>
    cases negative <;> simp [isBelowZero, LiesBelowZero, lt, place?, value?, zero, rankCount]
  | finite negative rank =>
    have hvalue := value?_finite negative rank
    cases negative with
    | false =>
      have hnot : ¬ magnitude rank < 0 := not_lt.mpr (magnitude_nonneg rank)
      simp [isBelowZero, LiesBelowZero, lt, place?, zero, hvalue, hnot]
    | true => simp [isBelowZero, LiesBelowZero, lt, place?, zero, hvalue, magnitude_pos_iff]

theorem isBelowZero_neg {x : Double} (h : x.isBelowZero = true) : x.neg.isBelowZero = false := by
  cases x with
  | nan => cases h
  | infinite negative =>
    cases negative with
    | false => cases h
    | true => rfl
  | finite negative rank =>
    cases negative with
    | false =>
      simp only [isBelowZero, lt, place?, zero, Bool.false_eq_true, if_false,
        decide_eq_true_eq] at h
      omega
    | true => simp [isBelowZero, lt, place?, zero, neg]

end Double

end Reckoner
