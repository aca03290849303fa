import Mathlib.Algebra.Order.AbsoluteValue.Basic
import Mathlib.Tactic.GCongr
import Mathlib.Tactic.Linarith
import Mathlib.Tactic.NormNum
import Reckoner.Proofs.DecimalText
import Reckoner.Proofs.Nearest

/-!
# Decimal grids and doubles

Reading a decimal keeps the order of the numbers, so what reads back on a grid is found next to the
double. Below eight the doubles lie closer together than the decimals with fifteen places, so no two
of these are read alike; from eight on they lie further apart, so one of these is near enough to
every double.
-/

namespace Reckoner

set_option autoImplicit false

namespace Double

def magnitude (rank : Nat) : Rat := mkRat (quantaOfRank rank) quantaPerUnit

theorem magnitude_eq_div (rank : Nat) :
    magnitude rank = (quantaOfRank rank : ℚ) / quantaPerUnit := by
  simp [magnitude, Rat.mkRat_eq_div]

theorem value?_finite (negative : Bool) (rank : Fin (2047 * 2 ^ (52 : Nat))) :
    (finite negative rank).value? =
      some (if negative then -magnitude rank else magnitude rank) := rfl

theorem abs_signed (negative : Bool) (m : ℚ) : |if negative then -m else m| = |m| := by
  cases negative with
  | false => rfl
  | true => exact abs_neg m

theorem quantaPerUnit_mul_two_pow {m n k : Nat} (h : 1074 + m = n + k) :
    quantaPerUnit * 2 ^ m = 2 ^ n * 2 ^ k := by
  have hexp : binaryPlaces + m = n + k := by
    rw [binaryPlaces]
    exact h
  rw [quantaPerUnit, ← Nat.pow_add, hexp, Nat.pow_add]

theorem magnitude_nonneg (rank : Nat) : 0 ≤ magnitude rank := by
  rw [magnitude_eq_div]
  positivity

theorem magnitude_zero : magnitude 0 = 0 := by simp [magnitude]

theorem magnitude_strictMono : StrictMono magnitude := by
  intro rank rank' hlt
  have hunit : (0 : ℚ) < quantaPerUnit := Nat.cast_pos.mpr quantaPerUnit_pos
  rw [magnitude_eq_div, magnitude_eq_div, div_lt_div_iff_of_pos_right hunit]
  exact_mod_cast quantaOfRank_strictMono hlt

/-- The grid of a quotient below a power of two. -/
theorem two_pow_scaleOfRatio_le {num den e : Nat} (hden : 0 < den) (h : num < 2 ^ e * den) :
    2 ^ (53 : Nat) * 2 ^ scaleOfRatio (num * quantaPerUnit) den ≤ quantaPerUnit * 2 ^ e := by
  have hexp : 1074 + e = 53 + (1021 + e) := by omega
  have hpow := quantaPerUnit_mul_two_pow hexp
  rw [hpow]
  refine Nat.mul_le_mul_left _ (Nat.pow_le_pow_right (by decide) ?_)
  have hquotient : num * quantaPerUnit / den < 2 ^ (53 + (1021 + e)) := by
    rw [Nat.div_lt_iff_lt_mul hden]
    have hscaled := Nat.mul_lt_mul_of_pos_right h quantaPerUnit_pos
    calc num * quantaPerUnit < 2 ^ e * den * quantaPerUnit := hscaled
      _ = quantaPerUnit * 2 ^ e * den := by ring
      _ = 2 ^ (53 + (1021 + e)) * den := by rw [hpow, ← Nat.pow_add]
  unfold scaleOfRatio
  by_cases hzero : num * quantaPerUnit / den = 0
  · simp [hzero]
  · have hlog := (Nat.log2_lt hzero).mpr hquotient
    omega

end Double

namespace Decimal

open Double

theorem value_le_magnitude_iff {d : Decimal} {rank : Nat} :
    d.value ≤ magnitude rank ↔
      d.numerator * quantaPerUnit ≤ quantaOfRank rank * d.denominator := by
  have hden : (0 : ℚ) < d.denominator := Nat.cast_pos.mpr (denominator_pos d)
  have hunit : (0 : ℚ) < quantaPerUnit := Nat.cast_pos.mpr quantaPerUnit_pos
  rw [value_eq_div, magnitude_eq_div, div_le_div_iff₀ hden hunit]
  exact_mod_cast Iff.rfl

theorem magnitude_le_value_iff {d : Decimal} {rank : Nat} :
    magnitude rank ≤ d.value ↔
      quantaOfRank rank * d.denominator ≤ d.numerator * quantaPerUnit := by
  have hden : (0 : ℚ) < d.denominator := Nat.cast_pos.mpr (denominator_pos d)
  have hunit : (0 : ℚ) < quantaPerUnit := Nat.cast_pos.mpr quantaPerUnit_pos
  rw [value_eq_div, magnitude_eq_div, div_le_div_iff₀ hunit hden]
  exact_mod_cast Iff.rfl

theorem value_le_of_le {c c' : Nat} {p : Int} (h : c ≤ c') :
    (⟨c, p⟩ : Decimal).value ≤ (⟨c', p⟩ : Decimal).value := by
  rw [value_le_iff]
  simp only [numerator, denominator]
  exact Nat.mul_le_mul_right _ (Nat.mul_le_mul_right _ h)

theorem rank_mono {d e : Decimal} (h : d.value ≤ e.value) : d.rank ≤ e.rank := by
  refine rankOfRatio_le_of_cross (denominator_pos d) (denominator_pos e) ?_
  have hcross := Nat.mul_le_mul_right quantaPerUnit (value_le_iff.mp h)
  calc d.numerator * quantaPerUnit * e.denominator =
      d.numerator * e.denominator * quantaPerUnit := by ring
    _ ≤ e.numerator * d.denominator * quantaPerUnit := hcross
    _ = e.numerator * quantaPerUnit * d.denominator := by ring

theorem rank_eq_of_value_eq {d e : Decimal} (h : d.value = e.value) : d.rank = e.rank :=
  Nat.le_antisymm (rank_mono h.le) (rank_mono h.ge)

theorem rank_le_of_value_le {d : Decimal} {rank : Nat} (h : d.value ≤ magnitude rank) :
    d.rank ≤ rank := by
  have hcross := value_le_magnitude_iff.mp h
  rw [← rankOfRatio_quantaOfRank rank]
  refine rankOfRatio_le_of_cross (denominator_pos d) Nat.one_pos ?_
  rw [Nat.mul_one]
  exact hcross

theorem le_rank_of_le_value {d : Decimal} {rank : Nat} (h : magnitude rank ≤ d.value) :
    rank ≤ d.rank := by
  have hcross := magnitude_le_value_iff.mp h
  rw [← rankOfRatio_quantaOfRank rank]
  refine rankOfRatio_le_of_cross Nat.one_pos (denominator_pos d) ?_
  rw [Nat.mul_one]
  exact hcross

theorem rank_eq_of_value_eq_magnitude {d : Decimal} {rank : Nat} (h : d.value = magnitude rank) :
    d.rank = rank :=
  Nat.le_antisymm (rank_le_of_value_le h.le) (le_rank_of_le_value h.ge)

/-- The binary digits by which the grid a decimal is rounded on is wider than a quantum. -/
def scale (d : Decimal) : Nat := scaleOfRatio (d.numerator * quantaPerUnit) d.denominator

theorem two_pow_scale_le {d : Decimal} {e : Nat} (h : d.value < 2 ^ e) :
    (2 : ℚ) ^ 53 * 2 ^ d.scale ≤ quantaPerUnit * 2 ^ e := by
  have hden : (0 : ℚ) < d.denominator := Nat.cast_pos.mpr (denominator_pos d)
  have hbound : d.numerator < 2 ^ e * d.denominator := by
    rw [value_eq_div, div_lt_iff₀ hden] at h
    exact_mod_cast h
  exact_mod_cast two_pow_scaleOfRatio_le (denominator_pos d) hbound

/-- The double that is read is half a step of the grid away at most. -/
theorem abs_quantaOfRank_sub_le (d : Decimal) :
    |(quantaOfRank d.rank : ℚ) * d.denominator - d.numerator * quantaPerUnit| * 2 ≤
      d.denominator * 2 ^ d.scale := by
  obtain ⟨hbelow, habove⟩ := rankOfRatio_near (d.numerator * quantaPerUnit) (denominator_pos d)
  have hbelow' : (2 : ℚ) * (quantaOfRank d.rank * d.denominator) ≤
      2 * (d.numerator * quantaPerUnit) + d.denominator * 2 ^ d.scale := by
    exact_mod_cast hbelow
  have habove' : (2 : ℚ) * (d.numerator * quantaPerUnit) ≤
      2 * (quantaOfRank d.rank * d.denominator) + d.denominator * 2 ^ d.scale := by
    exact_mod_cast habove
  rcases abs_cases ((quantaOfRank d.rank : ℚ) * d.denominator - d.numerator * quantaPerUnit)
    with ⟨habs, _⟩ | ⟨habs, _⟩
  · rw [habs]
    linarith
  · rw [habs]
    linarith

/-- The double that is read is near. -/
theorem magnitude_rank_near {d : Decimal} {e : Nat} (h : d.value < 2 ^ e) :
    |magnitude d.rank - d.value| ≤ 2 ^ e / 2 ^ (54 : Nat) := by
  have hden : (0 : ℚ) < d.denominator := Nat.cast_pos.mpr (denominator_pos d)
  have hunit : (0 : ℚ) < quantaPerUnit := Nat.cast_pos.mpr quantaPerUnit_pos
  have hsub : magnitude d.rank - d.value =
      (quantaOfRank d.rank * d.denominator - d.numerator * quantaPerUnit) /
        (quantaPerUnit * d.denominator) := by
    rw [magnitude_eq_div, value_eq_div]
    field_simp
  rw [hsub, abs_div, abs_of_pos (mul_pos hunit hden),
    div_le_div_iff₀ (mul_pos hunit hden) (by positivity)]
  calc _ = |(quantaOfRank d.rank : ℚ) * d.denominator - d.numerator * quantaPerUnit| * 2 *
        2 ^ 53 := by ring
    _ ≤ d.denominator * 2 ^ d.scale * 2 ^ 53 :=
      mul_le_mul_of_nonneg_right (abs_quantaOfRank_sub_le d) (by positivity)
    _ = d.denominator * (2 ^ 53 * 2 ^ d.scale) := by ring
    _ ≤ d.denominator * (quantaPerUnit * 2 ^ e) :=
      mul_le_mul_of_nonneg_left (two_pow_scale_le h) hden.le
    _ = 2 ^ e * (quantaPerUnit * d.denominator) := by ring

theorem abs_roundDiv_sub_le (num : Nat) {den : Nat} (hden : 0 < den) :
    |(roundDiv num den : ℚ) - num / den| ≤ 1 / 2 := by
  have hpos : (0 : ℚ) < den := Nat.cast_pos.mpr hden
  obtain ⟨hbelow, habove⟩ := roundDiv_near num hden
  have hbelow' : (2 : ℚ) * (roundDiv num den * den) ≤ 2 * num + den := by exact_mod_cast hbelow
  have habove' : (2 : ℚ) * num ≤ 2 * (roundDiv num den * den) + den := by exact_mod_cast habove
  rw [sub_div' hpos.ne', abs_div, abs_of_pos hpos, div_le_iff₀ hpos, abs_le]
  constructor <;> linarith

theorem abs_div_sub (places : Nat) (v x : ℚ) :
    |x / 10 ^ places - v| = |x - v * 10 ^ places| / 10 ^ places := by
  have hpos : (0 : ℚ) < 10 ^ places := by positivity
  rw [div_sub' hpos.ne', abs_div, abs_of_pos hpos, mul_comm]

theorem magnitude_mul_ten_pow (places rank : Nat) : magnitude rank * 10 ^ places =
    ((quantaOfRank rank * 10 ^ places : Nat) : ℚ) / quantaPerUnit := by
  rw [magnitude_eq_div]
  push_cast
  ring

theorem coefficient_rounded_near (places rank : Nat) :
    |((rounded places rank).coefficient : ℚ) - magnitude rank * 10 ^ places| ≤ 1 / 2 := by
  rw [magnitude_mul_ten_pow]
  exact abs_roundDiv_sub_le _ quantaPerUnit_pos

theorem value_rounded_near (places rank : Nat) :
    |(rounded places rank).value - magnitude rank| ≤ 1 / (2 * 10 ^ places) := by
  have hvalue : (rounded places rank).value = (rounded places rank).coefficient / 10 ^ places :=
    value_natCast _ _
  have hpos : (0 : ℚ) < 10 ^ places := by positivity
  rw [hvalue, abs_div_sub, ← div_div]
  exact div_le_div_of_nonneg_right (coefficient_rounded_near places rank) hpos.le

theorem places_of_hit? {rank : Nat} {places : Int} {d : Decimal} (h : hit? rank places = some d) :
    d.places = places := by
  have hmem := List.mem_of_find?_eq_some h
  simp only [candidates, List.mem_cons, List.not_mem_nil, or_false] at hmem
  rcases hmem with rfl | rfl | rfl <;> rfl

def multipleBelow (rank : Nat) (places : Int) : Decimal :=
  ⟨quantaOfRank rank * 10 ^ places.toNat / (quantaPerUnit * 10 ^ (-places).toNat), places⟩

def multipleAbove (rank : Nat) (places : Int) : Decimal :=
  ⟨(multipleBelow rank places).coefficient + 1, places⟩

theorem value_multipleBelow_le (rank : Nat) (places : Int) :
    (multipleBelow rank places).value ≤ magnitude rank := by
  rw [value_le_magnitude_iff]
  simp only [multipleBelow, numerator, denominator]
  rw [Nat.mul_assoc, Nat.mul_comm (10 ^ (-places).toNat)]
  exact Nat.div_mul_le_self _ _

theorem magnitude_le_value_multipleAbove (rank : Nat) (places : Int) :
    magnitude rank ≤ (multipleAbove rank places).value := by
  rw [magnitude_le_value_iff]
  simp only [multipleAbove, multipleBelow, numerator, denominator]
  rw [Nat.mul_assoc, Nat.mul_comm (10 ^ (-places).toNat)]
  have hunit : 0 < quantaPerUnit * 10 ^ (-places).toNat :=
    Nat.mul_pos quantaPerUnit_pos (Nat.pow_pos (by decide))
  exact (Nat.lt_mul_of_div_lt (Nat.lt_succ_self _) hunit).le

theorem value_le_multipleBelow {rank c : Nat} {places : Int}
    (h : c ≤ (multipleBelow rank places).coefficient) :
    (⟨c, places⟩ : Decimal).value ≤ (multipleBelow rank places).value := value_le_of_le h

theorem value_multipleAbove_le {rank c : Nat} {places : Int}
    (h : (multipleBelow rank places).coefficient < c) :
    (multipleAbove rank places).value ≤ (⟨c, places⟩ : Decimal).value :=
  value_le_of_le (Nat.succ_le_of_lt h)

/-- If anything on a grid reads back, so does one of the two multiples around the double: what reads
back on one side draws the multiple between it and the double along. -/
theorem rank_multiple {rank c : Nat} {places : Int} (h : (⟨c, places⟩ : Decimal).rank = rank) :
    (c ≤ (multipleBelow rank places).coefficient ∧ (multipleBelow rank places).rank = rank) ∨
      ((multipleBelow rank places).coefficient < c ∧ (multipleAbove rank places).rank = rank) := by
  rcases Nat.lt_or_ge (multipleBelow rank places).coefficient c with hlt | hle
  · refine Or.inr ⟨hlt, ?_⟩
    have hread := rank_mono (value_multipleAbove_le hlt)
    rw [h] at hread
    exact Nat.le_antisymm hread (le_rank_of_le_value (magnitude_le_value_multipleAbove rank places))
  · refine Or.inl ⟨hle, ?_⟩
    have hread := rank_mono (value_le_multipleBelow hle)
    rw [h] at hread
    exact Nat.le_antisymm (rank_le_of_value_le (value_multipleBelow_le rank places)) hread

theorem isSome_hit? {rank c : Nat} {places : Int} (h : (⟨c, places⟩ : Decimal).rank = rank) :
    (hit? rank places).isSome = true := by
  rw [hit?, List.find?_isSome]
  rcases rank_multiple h with ⟨_, hbelow⟩ | ⟨_, habove⟩
  · exact ⟨multipleBelow rank places, by simp [candidates, multipleBelow], beq_iff_eq.mpr hbelow⟩
  · exact ⟨multipleAbove rank places, by simp [candidates, multipleAbove, multipleBelow],
      beq_iff_eq.mpr habove⟩

theorem places_search_le {rank c : Nat} {p : Int} (h : (⟨c, p⟩ : Decimal).rank = rank)
    {grids : Nat} {start : Int} (hstart : start ≤ p) (hgrids : start + grids = binaryPlaces) :
    (search rank grids start).places ≤ p := by
  induction grids generalizing start with
  | zero =>
    have hexact : (exact rank).places = binaryPlaces := rfl
    rw [search, hexact]
    omega
  | succ grids ih =>
    rw [search]
    cases hhit : hit? rank start with
    | some d =>
      rw [Option.getD_some, places_of_hit? hhit]
      exact hstart
    | none =>
      have hne : start ≠ p := by
        rintro rfl
        have hsome := isSome_hit? h
        rw [hhit] at hsome
        cases hsome
      rw [Option.getD_none]
      exact ih (by omega) (by omega)

/-- The shortest decimal has no more fraction digits than any other that reads back. -/
theorem places_shortest_le {rank p : Nat} {d : Decimal} (hrank : d.rank = rank)
    (hplaces : d.places ≤ p) : (shortest rank).places ≤ p := by
  obtain ⟨c, hfine⟩ := exists_refine_eq hplaces
  have hread : (⟨c, p⟩ : Decimal).rank = rank := by
    rw [← hfine, rank_eq_of_value_eq (value_refine _ d), hrank]
  unfold shortest
  split
  · exact Int.natCast_nonneg p
  · exact places_search_le hread (by omega) (by omega)

def rankOfEight : Nat := 1026 * 2 ^ (52 : Nat)

/-- From eight on a magnitude has at least 1025 binary zeros behind its leading digits. -/
theorem exists_quantaOfRank_eq {rank : Nat} (hlarge : rankOfEight ≤ rank) :
    ∃ scale, 1025 ≤ scale ∧
      rank = scale * 2 ^ (52 : Nat) + (2 ^ (52 : Nat) + rank % 2 ^ (52 : Nat)) ∧
      quantaOfRank rank = (2 ^ (52 : Nat) + rank % 2 ^ (52 : Nat)) * 2 ^ scale := by
  unfold rankOfEight at hlarge
  refine ⟨rank / 2 ^ (52 : Nat) - 1, by omega, by omega, ?_⟩
  exact quantaOfRank_of_le (by omega)

theorem quantaOfRank_eight : quantaOfRank rankOfEight = 8 * quantaPerUnit := by
  obtain ⟨scale, _, hrank, hquanta⟩ := exists_quantaOfRank_eq (Nat.le_refl rankOfEight)
  have hmod : rankOfEight % 2 ^ (52 : Nat) = 0 := by decide
  have hpow : quantaPerUnit * 2 ^ 3 = 2 ^ (52 : Nat) * 2 ^ scale := by
    refine quantaPerUnit_mul_two_pow ?_
    unfold rankOfEight at hrank
    omega
  rw [hquanta, hmod, Nat.add_zero, ← hpow, Nat.mul_comm]
  rfl

theorem magnitude_eight : magnitude rankOfEight = 8 := by
  have hunit : (quantaPerUnit : ℚ) ≠ 0 := Nat.cast_ne_zero.mpr quantaPerUnit_pos.ne'
  rw [magnitude_eq_div, quantaOfRank_eight]
  push_cast
  exact mul_div_cancel_right₀ 8 hunit

theorem rankOfEight_le {rank : Nat} (h : 8 ≤ magnitude rank) : rankOfEight ≤ rank := by
  rw [← magnitude_eight] at h
  exact magnitude_strictMono.le_iff_le.mp h

/-- A power of two that is not small is a whole number. -/
theorem exists_natCast_value_eq {rank : Nat} (hlarge : rankOfEight ≤ rank)
    (hpower : rank % 2 ^ (52 : Nat) = 0) :
    ∃ c : Nat, (⟨c, (0 : Nat)⟩ : Decimal).value = magnitude rank := by
  obtain ⟨scale, hscale, _, hquanta⟩ := exists_quantaOfRank_eq hlarge
  have hpow : quantaPerUnit * 2 ^ (scale - 1022) = 2 ^ (52 : Nat) * 2 ^ scale :=
    quantaPerUnit_mul_two_pow (by omega)
  have hunit : (quantaPerUnit : ℚ) ≠ 0 := Nat.cast_ne_zero.mpr quantaPerUnit_pos.ne'
  refine ⟨2 ^ (scale - 1022), ?_⟩
  rw [magnitude_eq_div, hquanta, hpower, Nat.add_zero, ← hpow, Nat.cast_mul,
    mul_div_cancel_left₀ _ hunit, value_natCast, pow_zero, div_one]

/-- Any other number that is not small lies on a grid of doubles that is wider than the decimals
with fifteen places. -/
theorem rank_rounded_of_large {rank : Nat} (hlarge : rankOfEight ≤ rank)
    (hinside : rank % 2 ^ (52 : Nat) ≠ 0) : (rounded 15 rank).rank = rank := by
  obtain ⟨scale, hscale, hrank, hquanta⟩ := exists_quantaOfRank_eq hlarge
  have hwide : quantaPerUnit < 10 ^ 15 * 2 ^ scale := by
    have hpow : 2 ^ binaryPlaces ≤ 2 ^ (49 + scale) := by
      refine Nat.pow_le_pow_right (by decide) ?_
      rw [binaryPlaces]
      omega
    calc quantaPerUnit ≤ 2 ^ 49 * 2 ^ scale := by
          rw [← Nat.pow_add]
          exact hpow
      _ < 10 ^ 15 * 2 ^ scale := Nat.mul_lt_mul_of_pos_right (by decide) (Nat.two_pow_pos _)
  -- Rounding to fifteen places is off by half a unit of the grid, and the step of the doubles here
  -- is wider than such a unit.
  obtain ⟨hbelow, habove⟩ := roundDiv_near (quantaOfRank rank * 10 ^ 15) quantaPerUnit_pos
  have hsteps : (2 ^ (52 : Nat) + rank % 2 ^ (52 : Nat)) * (10 ^ 15 * 2 ^ scale) =
      quantaOfRank rank * 10 ^ 15 := by
    rw [hquanta]
    ring
  have hread : rankOfRatio (roundDiv (quantaOfRank rank * 10 ^ 15) quantaPerUnit * quantaPerUnit)
      (10 ^ 15) = scale * 2 ^ (52 : Nat) + (2 ^ (52 : Nat) + rank % 2 ^ (52 : Nat)) := by
    refine rankOfRatio_eq_of_near (by omega) (by omega) ?_ ?_
    · rw [hsteps]
      omega
    · rw [hsteps]
      omega
  rw [← hrank] at hread
  rw [rounded, Decimal.rank, numerator_natCast, denominator_natCast]
  exact hread

/-- From eight on a decimal with fifteen places reads back. -/
theorem places_shortest_le_of_large {rank : Nat} (h : 8 ≤ magnitude rank) :
    (shortest rank).places ≤ (15 : Nat) := by
  have hlarge := rankOfEight_le h
  by_cases hpower : rank % 2 ^ (52 : Nat) = 0
  · obtain ⟨c, hvalue⟩ := exists_natCast_value_eq hlarge hpower
    exact places_shortest_le (rank_eq_of_value_eq_magnitude hvalue) (Int.natCast_nonneg 15)
  · exact places_shortest_le (rank_rounded_of_large hlarge hpower) (Int.le_refl _)

theorem value_eight : (⟨8 * 10 ^ 15, (15 : Nat)⟩ : Decimal).value = magnitude rankOfEight := by
  rw [value_natCast, magnitude_eight]
  norm_num

theorem value_lt_two_pow {k e : Nat} (h : k < 2 ^ e * 10 ^ 15) :
    (⟨k, (15 : Nat)⟩ : Decimal).value < 2 ^ e := by
  rw [value_natCast, div_lt_iff₀ (by positivity)]
  exact_mod_cast h

/-- Up to eight a decimal with fifteen places is read with an error of `2 ^ (-51)` at most. -/
theorem magnitude_rank_near_of_small {k : Nat} (h : k ≤ 8 * 10 ^ 15) :
    |magnitude (⟨k, (15 : Nat)⟩ : Decimal).rank - (⟨k, (15 : Nat)⟩ : Decimal).value| ≤
      1 / 2 ^ 51 := by
  rcases Nat.lt_or_eq_of_le h with hlt | rfl
  · have hvalue : (⟨k, (15 : Nat)⟩ : Decimal).value < 2 ^ 3 := value_lt_two_pow hlt
    refine (magnitude_rank_near hvalue).trans ?_
    norm_num
  · rw [rank_eq_of_value_eq_magnitude value_eight, value_eight, sub_self, abs_zero]
    positivity

theorem value_succ (k : Nat) : (⟨k + 1, (15 : Nat)⟩ : Decimal).value =
    (⟨k, (15 : Nat)⟩ : Decimal).value + 1 / 10 ^ 15 := by
  rw [value_natCast, value_natCast]
  push_cast
  ring

/-- Up to eight two neighbours among the decimals with fifteen places are read apart. -/
theorem rank_ne_rank_succ {k : Nat} (h : k ≤ 8 * 10 ^ 15) :
    (⟨k, (15 : Nat)⟩ : Decimal).rank ≠ (⟨k + 1, (15 : Nat)⟩ : Decimal).rank := by
  intro heq
  have hnear := abs_le.mp (magnitude_rank_near_of_small h)
  have hgap := value_succ k
  rw [heq] at hnear
  rcases Nat.lt_or_eq_of_le h with hlt | rfl
  · have hnear' := abs_le.mp (magnitude_rank_near_of_small (k := k + 1) hlt)
    rw [hgap] at hnear'
    have hfine : (1 : ℚ) / 2 ^ 51 + 1 / 2 ^ 51 < 1 / 10 ^ 15 := by norm_num
    linarith [hnear.2, hnear'.1]
  · -- the number eight is read exactly, which makes up for the wider grid above it
    have hexact := rank_eq_of_value_eq_magnitude value_eight
    have hvalue : (⟨8 * 10 ^ 15 + 1, (15 : Nat)⟩ : Decimal).value < 2 ^ 4 :=
      value_lt_two_pow (by decide)
    have hnear' := abs_le.mp (magnitude_rank_near hvalue)
    rw [← heq, hexact, hgap, value_eight] at hnear'
    have hfine : (2 : ℚ) ^ 4 / 2 ^ (54 : Nat) < 1 / 10 ^ 15 := by norm_num
    linarith [hnear'.1]

theorem rank_lt_rank {k k' : Nat} (h : k ≤ 8 * 10 ^ 15) (hlt : k < k') :
    (⟨k, (15 : Nat)⟩ : Decimal).rank < (⟨k', (15 : Nat)⟩ : Decimal).rank := by
  have hle : (⟨k, (15 : Nat)⟩ : Decimal).rank ≤ (⟨k + 1, (15 : Nat)⟩ : Decimal).rank :=
    rank_mono (value_le_of_le (Nat.le_succ k))
  have hle' : (⟨k + 1, (15 : Nat)⟩ : Decimal).rank ≤ (⟨k', (15 : Nat)⟩ : Decimal).rank :=
    rank_mono (value_le_of_le hlt)
  exact Nat.lt_of_lt_of_le (Nat.lt_of_le_of_ne hle (rank_ne_rank_succ h)) hle'

/-- No two decimals with fifteen places are read alike if one of them is at most eight. -/
theorem eq_of_rank_eq {k k' : Nat} (h : k ≤ 8 * 10 ^ 15)
    (hrank : (⟨k, (15 : Nat)⟩ : Decimal).rank = (⟨k', (15 : Nat)⟩ : Decimal).rank) : k = k' := by
  rcases Nat.lt_trichotomy k k' with hlt | heq | hgt
  · exact absurd hrank (rank_lt_rank h hlt).ne
  · exact heq
  · exact absurd hrank (rank_lt_rank (by omega) hgt).ne'

end Decimal

end Reckoner
