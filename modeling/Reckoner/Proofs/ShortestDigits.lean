import Reckoner.Decimal.Exactness
import Reckoner.Proofs.NearestDouble

/-!
# The shortest decimal is shortest

The search goes from coarse grids to fine ones, so nothing that reads back lies on a coarser grid
than what it finds. A decimal with fewer digits would have a power of ten between itself and what is
found, and that power lies on a coarser grid. A decimal with as many digits lies on the same grid,
where the search takes the nearest, or what is found has one digit only; then the other one is
further away, which takes some care next to the least of all doubles.
-/

namespace Reckoner

set_option autoImplicit false

namespace Decimal

open Double

theorem two_pow_scale_le_add (d : Decimal) :
    (2 : ℚ) ^ d.scale ≤ 1 + d.value * quantaPerUnit / 2 ^ 52 := by
  have hden : (0 : ℚ) < d.denominator := Nat.cast_pos.mpr (denominator_pos d)
  have hvalue : d.value * quantaPerUnit = (d.numerator * quantaPerUnit : ℚ) / d.denominator := by
    rw [value_eq_div]
    ring
  rcases Nat.eq_zero_or_pos d.scale with hzero | hpos
  · rw [hzero, hvalue, pow_zero]
    have hnonneg : (0 : ℚ) ≤ d.numerator * quantaPerUnit / d.denominator / 2 ^ 52 := by positivity
    linarith
  · have hgrid : 0 < d.denominator * 2 ^ d.scale := Nat.mul_pos (denominator_pos d)
      (Nat.two_pow_pos _)
    have hsteps : 2 ^ (52 : Nat) * (d.denominator * 2 ^ d.scale) ≤ d.numerator * quantaPerUnit :=
      (Nat.le_div_iff_mul_le hgrid).mp (le_div_grid hpos)
    have hcast : (2 : ℚ) ^ 52 * (d.denominator * 2 ^ d.scale) ≤ d.numerator * quantaPerUnit := by
      exact_mod_cast hsteps
    have hstep : (2 : ℚ) ^ d.scale ≤ d.numerator * quantaPerUnit / d.denominator / 2 ^ 52 := by
      rw [div_div, le_div_iff₀ (by positivity)]
      linarith
    rw [hvalue]
    linarith

/-- A decimal is read with an error of half a quantum and a tiny part of itself at most. -/
theorem abs_quantaOfRank_sub_value_le (d : Decimal) :
    |(quantaOfRank d.rank : ℚ) - d.value * quantaPerUnit| ≤
      1 / 2 + d.value * quantaPerUnit / 2 ^ 53 := by
  have hden : (0 : ℚ) < d.denominator := Nat.cast_pos.mpr (denominator_pos d)
  have hnear := abs_quantaOfRank_sub_le d
  have hscaled : (quantaOfRank d.rank : ℚ) * d.denominator - d.numerator * quantaPerUnit =
      (quantaOfRank d.rank - d.value * quantaPerUnit) * d.denominator := by
    rw [value_eq_div]
    field_simp
  rw [hscaled, abs_mul, abs_of_pos hden] at hnear
  have hhalf : |(quantaOfRank d.rank : ℚ) - d.value * quantaPerUnit| * 2 ≤ 2 ^ d.scale := by
    refine le_of_mul_le_mul_right ?_ hden
    linarith
  have hscale := two_pow_scale_le_add d
  linarith

theorem magnitude_mul_quantaPerUnit (rank : Nat) :
    magnitude rank * quantaPerUnit = quantaOfRank rank := by
  have hunit : (quantaPerUnit : ℚ) ≠ 0 := Nat.cast_ne_zero.mpr quantaPerUnit_pos.ne'
  rw [magnitude_eq_div, div_mul_cancel₀ _ hunit]

theorem one_le_quantaOfRank {rank : Nat} (h : rank ≠ 0) : (1 : ℚ) ≤ quantaOfRank rank := by
  have hpos := quantaOfRank_strictMono (Nat.pos_of_ne_zero h)
  rw [quantaOfRank_zero] at hpos
  exact_mod_cast hpos

/-- What is not read as zero is at most twice what it is read as. -/
theorem value_le_two_mul_magnitude {d : Decimal} (h : d.rank ≠ 0) :
    d.value ≤ 2 * magnitude d.rank := by
  have hunit : (0 : ℚ) < quantaPerUnit := Nat.cast_pos.mpr quantaPerUnit_pos
  have hnear := (abs_le.mp (abs_quantaOfRank_sub_value_le d)).1
  have hone := one_le_quantaOfRank h
  refine le_of_mul_le_mul_right ?_ hunit
  rw [mul_assoc, magnitude_mul_quantaPerUnit]
  linarith

theorem value_eq_mul_zpow (d : Decimal) : d.value = d.coefficient * (10 : ℚ) ^ (-d.places) := by
  have hexp : -d.places = ((-d.places).toNat : Int) - (d.places.toNat : Int) := by omega
  rw [value_eq_div, hexp, zpow_sub₀ (by norm_num), zpow_natCast, zpow_natCast, numerator,
    denominator]
  push_cast
  exact mul_div_assoc _ _ _

theorem value_one (p : Int) : (⟨1, p⟩ : Decimal).value = (10 : ℚ) ^ (-p) := by
  rw [value_eq_mul_zpow]
  push_cast
  exact one_mul _

theorem coefficient_pos {d : Decimal} (h : d.rank ≠ 0) : 0 < d.coefficient := by
  by_contra hzero
  have hvalue : d.value = magnitude 0 := by
    rw [value_eq_mul_zpow, Nat.eq_zero_of_not_pos hzero, magnitude_zero, Nat.cast_zero, zero_mul]
  exact h (rank_eq_of_value_eq_magnitude hvalue)

theorem magnitude_lt_of_wholeSize (rank : Nat) : magnitude rank < 10 ^ wholeSize rank := by
  have hunit : (0 : ℚ) < quantaPerUnit := Nat.cast_pos.mpr quantaPerUnit_pos
  have hlength : 0 < wholeSize rank := List.length_pos_iff.mpr Nat.toDigits_ne_nil
  have hwhole : quantaOfRank rank / quantaPerUnit < 10 ^ wholeSize rank :=
    (Nat.length_toDigits_le_iff (b := 10) (by decide) hlength).mp (Nat.le_refl _)
  rw [Nat.div_lt_iff_lt_mul quantaPerUnit_pos] at hwhole
  rw [magnitude_eq_div, div_lt_iff₀ hunit]
  exact_mod_cast hwhole

/-- Nothing that reads back lies on a coarser grid than the shortest decimal. -/
theorem places_shortest_le_places {rank : Nat} (hne : rank ≠ 0) {d : Decimal}
    (hread : d.rank = rank) : (shortest rank).places ≤ d.places := by
  unfold shortest
  rw [if_neg hne]
  rcases le_or_gt (-(wholeSize rank : Int)) d.places with hle | hlt
  · exact places_search_le hread hle (by omega)
  · -- A decimal on a grid coarser than all that are searched is ten times too large.
    exfalso
    have hpos : 1 ≤ d.coefficient := coefficient_pos (hread ▸ hne)
    have htwice := value_le_two_mul_magnitude (hread ▸ hne)
    have hsmall := magnitude_lt_of_wholeSize rank
    have hpower : (10 : ℚ) ^ (wholeSize rank + 1) ≤ d.value := by
      rw [value_eq_mul_zpow, ← zpow_natCast]
      have hexp : (10 : ℚ) ^ ((wholeSize rank + 1 : Nat) : Int) ≤ 10 ^ (-d.places) :=
        zpow_le_zpow_right₀ (by norm_num) (by omega)
      have hcoefficient : (1 : ℚ) ≤ d.coefficient := by exact_mod_cast hpos
      exact hexp.trans (le_mul_of_one_le_left (zpow_nonneg (by norm_num) _) hcoefficient)
    have hsize : (0 : ℚ) < 10 ^ wholeSize rank := by positivity
    rw [hread] at htwice
    rw [pow_succ] at hpower
    linarith

theorem coefficient_lt_ten_pow (d : Decimal) : d.coefficient < 10 ^ d.digits.length := by
  have hlength : 0 < d.digits.length := List.length_pos_iff.mpr Nat.toDigits_ne_nil
  exact (Nat.length_toDigits_le_iff (b := 10) (by decide) hlength).mp (Nat.le_refl _)

theorem ten_pow_le_coefficient {d : Decimal} (hpos : 0 < d.coefficient) :
    10 ^ (d.digits.length - 1) ≤ d.coefficient := by
  have hlength : 0 < d.digits.length := List.length_pos_iff.mpr Nat.toDigits_ne_nil
  by_contra hlt
  rcases Nat.eq_zero_or_pos (d.digits.length - 1) with hone | hmore
  · rw [hone, Nat.pow_zero] at hlt
    omega
  · have hshorter : d.digits.length ≤ d.digits.length - 1 :=
      (Nat.length_toDigits_le_iff (b := 10) (by decide) hmore).mpr (Nat.lt_of_not_ge hlt)
    omega

/-- The zeros at the end of a coefficient can be left to the grid. -/
theorem exists_trimmed (d : Decimal) : ∃ (n : Nat) (e : Decimal),
    d = refine n e ∧ d.digits.length = d.significant + n ∧ e.coefficient < 10 ^ d.significant := by
  obtain ⟨n, hsplit⟩ := exists_eq_trimZeros_append d.digits
  have hlength : d.digits.length = d.significant + n := by
    rw [significant, congrArg List.length hsplit, List.length_append, List.length_replicate]
  have hcoefficient : d.coefficient = Nat.ofDigitChars 10 (trimZeros d.digits) 0 * 10 ^ n := by
    have hdigits : Nat.ofDigitChars 10 d.digits 0 = d.coefficient := Nat.ofDigitChars_ten_toDigits
    generalize trimZeros d.digits = trimmed at hsplit
    rw [← hdigits, hsplit, Nat.ofDigitChars_append, Nat.ofDigitChars_replicate_zero, Nat.mul_comm]
  refine ⟨n, ⟨Nat.ofDigitChars 10 (trimZeros d.digits) 0, d.places - n⟩, ?_, hlength, ?_⟩
  · rw [refine, ← hcoefficient, sub_add_cancel]
  · have hbound := coefficient_lt_ten_pow d
    rw [hlength, hcoefficient, Nat.pow_add] at hbound
    exact Nat.lt_of_mul_lt_mul_right hbound

theorem digits_length_shortest {rank : Nat} (hne : rank ≠ 0) :
    (shortest rank).digits.length = (shortest rank).significant := by
  obtain ⟨n, e, hfine, hlength, _⟩ := exists_trimmed (shortest rank)
  have hread : e.rank = rank := by
    rw [← rank_shortest rank, hfine, rank_eq_of_value_eq (value_refine n e)]
  have hplaces := places_shortest_le_places hne hread
  have hgrid := congrArg places hfine
  simp only [refine] at hgrid
  omega

/-- What reads back can be written without zeros at the end of its coefficient, and the grid it then
lies on is no coarser than that of the shortest decimal. -/
theorem exists_trimmed_of_rank {rank : Nat} (hne : rank ≠ 0) {d : Decimal} (hread : d.rank = rank) :
    ∃ e : Decimal, d.value = e.value ∧ e.rank = rank ∧ (shortest rank).places ≤ e.places ∧
      e.coefficient < 10 ^ d.significant := by
  obtain ⟨n, e, hfine, _, hbound⟩ := exists_trimmed d
  have hvalue : d.value = e.value := by rw [hfine, value_refine]
  have hread' : e.rank = rank := by rw [← rank_eq_of_value_eq hvalue, hread]
  exact ⟨e, hvalue, hread', places_shortest_le_places hne hread', hbound⟩

theorem ten_pow_le_value_shortest {rank : Nat} (hne : rank ≠ 0) :
    (10 : ℚ) ^ ((shortest rank).significant - 1 - (shortest rank).places : Int) ≤
      (shortest rank).value := by
  have hpositive : 0 < (shortest rank).coefficient := by
    refine coefficient_pos ?_
    rw [rank_shortest]
    exact hne
  have hleading := ten_pow_le_coefficient hpositive
  have hsome : 0 < (shortest rank).digits.length := List.length_pos_iff.mpr Nat.toDigits_ne_nil
  rw [digits_length_shortest hne] at hleading hsome
  have hexp : ((shortest rank).significant : Int) - 1 =
      ((shortest rank).significant - 1 : Nat) := by
    omega
  rw [value_eq_mul_zpow, sub_eq_add_neg _ (shortest rank).places, zpow_add₀ (by norm_num), hexp,
    zpow_natCast]
  refine mul_le_mul_of_nonneg_right ?_ (zpow_nonneg (by norm_num) _)
  exact_mod_cast hleading

theorem rank_eq_of_between {rank : Nat} {d t e : Decimal} (hd : d.rank = rank) (he : e.rank = rank)
    (hdt : d.value ≤ t.value) (hte : t.value ≤ e.value) : t.rank = rank :=
  Nat.le_antisymm (he ▸ rank_mono hte) (hd ▸ rank_mono hdt)

/-- If something less than the leading power of ten of the shortest decimal reads back, then so does
this power. It lies on a coarser grid, unless the shortest decimal has a single digit. -/
theorem significant_eq_one_of_value_lt {rank : Nat} (hne : rank ≠ 0) {d : Decimal}
    (hread : d.rank = rank)
    (hlt : d.value < 10 ^ ((shortest rank).significant - 1 - (shortest rank).places : Int)) :
    (shortest rank).significant = 1 ∧ (⟨1, (shortest rank).places⟩ : Decimal).rank = rank := by
  have hpower : (⟨1, (shortest rank).places - (shortest rank).significant + 1⟩ : Decimal).value =
      10 ^ ((shortest rank).significant - 1 - (shortest rank).places : Int) := by
    rw [value_one]
    congr 1
    ring
  have hbetween := rank_eq_of_between hread (rank_shortest rank) (hpower ▸ hlt.le)
    (hpower.le.trans (ten_pow_le_value_shortest hne))
  have hcoarse := places_shortest_le_places hne hbetween
  have hsome : 0 < (shortest rank).digits.length := List.length_pos_iff.mpr Nat.toDigits_ne_nil
  rw [digits_length_shortest hne] at hsome
  have hone : (shortest rank).significant = 1 := by
    simp only at hcoarse
    omega
  refine ⟨hone, ?_⟩
  rw [hone] at hbetween
  simpa using hbetween

/-- A decimal is less than the power of ten behind its digits, on its own grid and on any coarser
one. -/
theorem value_lt_of_trimmed {e : Decimal} {k : Nat} {p : Int} (hbound : e.coefficient < 10 ^ k)
    (hplaces : p ≤ e.places) : e.value < 10 ^ (k - p : Int) := by
  rw [value_eq_mul_zpow, sub_eq_add_neg, zpow_add₀ (by norm_num), zpow_natCast]
  have hcoefficient : (e.coefficient : ℚ) < 10 ^ k := by exact_mod_cast hbound
  have hgrid : (10 : ℚ) ^ (-e.places) ≤ 10 ^ (-p) := zpow_le_zpow_right₀ (by norm_num) (by omega)
  calc (e.coefficient : ℚ) * 10 ^ (-e.places) < 10 ^ k * 10 ^ (-e.places) :=
        mul_lt_mul_of_pos_right hcoefficient (zpow_pos (by norm_num) _)
    _ ≤ 10 ^ k * 10 ^ (-p) := mul_le_mul_of_nonneg_left hgrid (by positivity)

/-- Nothing that reads back has fewer digits than the shortest decimal. -/
theorem significant_shortest_le {rank : Nat} {d : Decimal} (hread : d.rank = rank) :
    (shortest rank).significant ≤ d.significant := by
  rcases Nat.eq_zero_or_pos rank with rfl | hpos
  · have hzero : (shortest 0).significant = 0 := by decide
    omega
  · have hne : rank ≠ 0 := hpos.ne'
    by_contra hfewer
    obtain ⟨e, _, hread', hplaces, hbound⟩ := exists_trimmed_of_rank hne hread
    have hlt : e.value < 10 ^ ((shortest rank).significant - 1 - (shortest rank).places : Int) := by
      refine (value_lt_of_trimmed hbound hplaces).trans_le ?_
      exact zpow_le_zpow_right₀ (by norm_num) (by omega)
    obtain ⟨hone, _⟩ := significant_eq_one_of_value_lt hne hread' hlt
    have hnone : d.significant = 0 := by omega
    have hcoefficient := coefficient_pos (hread' ▸ hne)
    rw [hnone, Nat.pow_zero] at hbound
    omega

theorem value_sub_magnitude (c : Nat) (p : Int) (rank : Nat) :
    (⟨c, p⟩ : Decimal).value - magnitude rank =
      (c - (quantaOfRank rank * 10 ^ p.toNat : Nat) / (quantaPerUnit * 10 ^ (-p).toNat : Nat)) *
        10 ^ (-p) := by
  have hunit : (quantaPerUnit : ℚ) ≠ 0 := Nat.cast_ne_zero.mpr quantaPerUnit_pos.ne'
  have hexp : -p = ((-p).toNat : Int) - (p.toNat : Int) := by omega
  rw [value_eq_mul_zpow, magnitude_eq_div, hexp, zpow_sub₀ (by norm_num), zpow_natCast,
    zpow_natCast, ← hexp]
  push_cast
  field_simp

def multipleNearest (rank : Nat) (places : Int) : Decimal :=
  ⟨roundDiv (quantaOfRank rank * 10 ^ places.toNat) (quantaPerUnit * 10 ^ (-places).toNat), places⟩

theorem candidates_eq (rank : Nat) (places : Int) : candidates rank places =
    [multipleNearest rank places, multipleBelow rank places, multipleAbove rank places] := by
  simp only [candidates, multipleNearest, multipleBelow, multipleAbove]

theorem closest_multipleNearest (rank c : Nat) (p : Int) :
    |(multipleNearest rank p).value - magnitude rank| ≤
      |(⟨c, p⟩ : Decimal).value - magnitude rank| := by
  have hden : 0 < quantaPerUnit * 10 ^ (-p).toNat :=
    Nat.mul_pos quantaPerUnit_pos (Nat.pow_pos (by decide))
  have hnear := abs_roundDiv_sub_le (quantaOfRank rank * 10 ^ p.toNat) hden
  have hclosest := (abs_sub_le_of_near (k := (roundDiv (quantaOfRank rank * 10 ^ p.toNat)
    (quantaPerUnit * 10 ^ (-p).toNat) : Nat)) (by exact_mod_cast hnear) c).1
  rw [multipleNearest, value_sub_magnitude, value_sub_magnitude, abs_mul, abs_mul]
  exact mul_le_mul_of_nonneg_right (by exact_mod_cast hclosest) (abs_nonneg _)

theorem multipleNearest_eq (rank : Nat) (places : Int) :
    multipleNearest rank places = multipleBelow rank places ∨
      multipleNearest rank places = multipleAbove rank places := by
  have hlow := div_le_roundDiv (quantaOfRank rank * 10 ^ places.toNat)
    (quantaPerUnit * 10 ^ (-places).toNat)
  have hhigh := roundDiv_le (quantaOfRank rank * 10 ^ places.toNat)
    (quantaPerUnit * 10 ^ (-places).toNat)
  rcases Nat.eq_or_lt_of_le hlow with heq | hlt
  · left
    rw [multipleNearest, multipleBelow, heq]
  · right
    rw [multipleNearest, multipleAbove, multipleBelow,
      Nat.le_antisymm hhigh (Nat.succ_le_of_lt hlt)]

theorem find?_cons_cases {p : Decimal → Bool} {a d : Decimal} {l : List Decimal}
    (h : (a :: l).find? p = some d) : d = a ∨ p a = false ∧ d ∈ l := by
  cases hfirst : p a with
  | true =>
    rw [List.find?_cons, hfirst] at h
    exact Or.inl (Option.some.inj h).symm
  | false =>
    rw [List.find?_cons, hfirst] at h
    exact Or.inr ⟨rfl, List.mem_of_find?_eq_some h⟩

theorem hit?_cases {rank : Nat} {places : Int} {d : Decimal} (hhit : hit? rank places = some d) :
    d = multipleNearest rank places ∨ (multipleNearest rank places).rank ≠ rank ∧
      (d = multipleBelow rank places ∨ d = multipleAbove rank places) := by
  rw [hit?, candidates_eq] at hhit
  rcases find?_cons_cases hhit with hfirst | ⟨hlost, hmem⟩
  · exact Or.inl hfirst
  · rw [List.mem_cons, List.mem_singleton] at hmem
    refine Or.inr ⟨?_, hmem⟩
    intro hread
    rw [hread, beq_self_eq_true] at hlost
    cases hlost

/-- On the grid of a hit nothing that reads back is closer to the double. -/
theorem closest_of_hit? {rank c : Nat} {p : Int} {d : Decimal} (hhit : hit? rank p = some d)
    (hread : (⟨c, p⟩ : Decimal).rank = rank) :
    |d.value - magnitude rank| ≤ |(⟨c, p⟩ : Decimal).value - magnitude rank| := by
  have hbelow := value_multipleBelow_le rank p
  have habove := magnitude_le_value_multipleAbove rank p
  have hrank := rank_of_hit? hhit
  rcases hit?_cases hhit with rfl | ⟨hlost, hside⟩
  · exact closest_multipleNearest rank c p
  · -- The hit is one neighbour and the nearest multiple, which does not read back, is the other
    -- one. So what reads back lies on the side of the hit.
    rcases hside with hd | hd
    · rw [hd] at hrank ⊢
      have hother : multipleNearest rank p = multipleAbove rank p := by
        refine (multipleNearest_eq rank p).resolve_left fun hsame => ?_
        rw [hsame] at hlost
        exact hlost hrank
      rcases rank_multiple hread with ⟨hle, _⟩ | ⟨_, hfound⟩
      · have hvalue := value_le_multipleBelow hle
        rw [abs_of_nonpos (by linarith), abs_of_nonpos (by linarith)]
        linarith
      · rw [hother] at hlost
        exact absurd hfound hlost
    · rw [hd] at hrank ⊢
      have hother : multipleNearest rank p = multipleBelow rank p := by
        refine (multipleNearest_eq rank p).resolve_right fun hsame => ?_
        rw [hsame] at hlost
        exact hlost hrank
      rcases rank_multiple hread with ⟨_, hfound⟩ | ⟨hlt, _⟩
      · rw [hother] at hlost
        exact absurd hfound hlost
      · have hvalue := value_multipleAbove_le hlt
        rw [abs_of_nonneg (by linarith), abs_of_nonneg (by linarith)]
        linarith

theorem value_exact (rank : Nat) : (exact rank).value = magnitude rank := by
  have hpow : (5 : ℚ) ^ binaryPlaces ≠ 0 := by positivity
  rw [exact, value_natCast, magnitude_eq_div, quantaPerUnit]
  push_cast
  rw [show (10 : ℚ) = 2 * 5 by norm_num, mul_pow]
  exact mul_div_mul_right _ _ hpow

theorem closest_search {rank c grids : Nat} {start : Int}
    (hread : (⟨c, (search rank grids start).places⟩ : Decimal).rank = rank) :
    |(search rank grids start).value - magnitude rank| ≤
      |(⟨c, (search rank grids start).places⟩ : Decimal).value - magnitude rank| := by
  induction grids generalizing start with
  | zero =>
    rw [search, value_exact, sub_self, abs_zero]
    exact abs_nonneg _
  | succ grids ih =>
    rw [search] at hread ⊢
    cases hhit : hit? rank start with
    | some d =>
      rw [hhit, Option.getD_some, places_of_hit? hhit] at hread
      rw [Option.getD_some, places_of_hit? hhit]
      exact closest_of_hit? hhit hread
    | none =>
      rw [hhit, Option.getD_none] at hread
      rw [Option.getD_none]
      exact ih hread

theorem closest_shortest {rank c : Nat} (hne : rank ≠ 0)
    (hread : (⟨c, (shortest rank).places⟩ : Decimal).rank = rank) :
    |(shortest rank).value - magnitude rank| ≤
      |(⟨c, (shortest rank).places⟩ : Decimal).value - magnitude rank| := by
  unfold shortest at hread ⊢
  rw [if_neg hne] at hread ⊢
  exact closest_search hread

theorem ten_zpow_natCast (n : Nat) : (10 : ℚ) ^ (n : Int) = ((10 ^ n : Nat) : ℚ) := by
  rw [zpow_natCast, Nat.cast_pow, Nat.cast_ofNat]

theorem exists_quantaPerUnit_eq :
    ∃ q : ℚ, (quantaPerUnit : ℚ) = q * 10 ^ (321 : Int) ∧ 202 < q ∧ q < 203 := by
  have hlow : 202 * 10 ^ (321 : Nat) < 2 ^ (1074 : Nat) := by decide +kernel
  have hhigh : 2 ^ (1074 : Nat) < 203 * 10 ^ (321 : Nat) := by decide +kernel
  have hunit : quantaPerUnit = 2 ^ (1074 : Nat) := by rw [quantaPerUnit, binaryPlaces]
  have hcast : (10 : ℚ) ^ (321 : Int) = ((10 ^ (321 : Nat) : Nat) : ℚ) := ten_zpow_natCast 321
  rw [← hunit] at hlow hhigh
  rw [hcast]
  -- The powers stay variables, for they are too long to be written out.
  generalize 10 ^ (321 : Nat) = power at hlow hhigh
  generalize quantaPerUnit = quanta at hlow hhigh
  have hpower : (0 : ℚ) < power := Nat.cast_pos.mpr (by omega)
  refine ⟨quanta / power, (div_mul_cancel₀ _ hpower.ne').symm, ?_, ?_⟩
  · rw [lt_div_iff₀ hpower]
    exact_mod_cast hlow
  · rw [div_lt_iff₀ hpower]
    exact_mod_cast hhigh

theorem value_nine (p : Int) :
    (⟨9, p + 1⟩ : Decimal).value = 9 / 10 * (⟨1, p⟩ : Decimal).value := by
  rw [value_one, value_eq_mul_zpow, neg_add, zpow_add₀ (by norm_num)]
  push_cast
  ring

/-- A power of ten and nine tenths of it are read alike only as the double of rank two, which lies
closer to the power of ten. -/
theorem power_closer {rank : Nat} (hne : rank ≠ 0) {p : Int}
    (hpower : (⟨1, p⟩ : Decimal).rank = rank) (hnine : (⟨9, p + 1⟩ : Decimal).rank = rank)
    (hlt : magnitude rank < (⟨1, p⟩ : Decimal).value) :
    (⟨1, p⟩ : Decimal).value + (⟨9, p + 1⟩ : Decimal).value < 2 * magnitude rank := by
  have hunit : (0 : ℚ) < quantaPerUnit := Nat.cast_pos.mpr quantaPerUnit_pos
  obtain ⟨q, hq, hlow, hhigh⟩ := exists_quantaPerUnit_eq
  have htenth := value_nine p
  have hquanta : (⟨1, p⟩ : Decimal).value * quantaPerUnit = q * 10 ^ (321 - p) := by
    rw [value_one, hq, sub_eq_neg_add, zpow_add₀ (by norm_num)]
    ring
  have hone := one_le_quantaOfRank hne
  have hless := mul_lt_mul_of_pos_right hlt hunit
  have hnearPower := abs_le.mp (abs_quantaOfRank_sub_value_le (⟨1, p⟩ : Decimal))
  have hnearNine := abs_le.mp (abs_quantaOfRank_sub_value_le (⟨9, p + 1⟩ : Decimal))
  rw [hpower] at hnearPower
  rw [hnine, htenth, mul_assoc] at hnearNine
  rw [magnitude_mul_quantaPerUnit] at hless
  -- In quanta the power lies between one and eleven, so it is the one with 323 places.
  have hplaces : p = 323 := by
    rw [hquanta] at hless hnearPower hnearNine
    rcases lt_trichotomy p 323 with hcoarse | heq | hfine
    · have hpow : (10 : ℚ) ^ (-1 : Int) ≤ 10 ^ (321 - p) :=
        zpow_le_zpow_right₀ (by norm_num) (by omega)
      have hlarge := mul_lt_mul hlow hpow (zpow_pos (by norm_num) _) (by linarith)
      rw [zpow_neg_one] at hlarge
      linarith [hnearPower.1, hnearNine.2]
    · exact heq
    · have hpow : (10 : ℚ) ^ (321 - p) ≤ 10 ^ (-3 : Int) :=
        zpow_le_zpow_right₀ (by norm_num) (by omega)
      have hsmall := mul_le_mul hhigh.le hpow (zpow_nonneg (by norm_num) _) (by norm_num)
      have hthousandth : (10 : ℚ) ^ (-3 : Int) = 1 / 1000 := by norm_num
      rw [hthousandth] at hsmall
      linarith
  have hdigits : (10 : ℚ) ^ (321 - p) = 1 / 100 := by
    rw [hplaces]
    norm_num
  have htwo : quantaOfRank rank = 2 := by
    rw [hquanta, hdigits] at hless hnearPower
    have habove : (1 : ℚ) < quantaOfRank rank := by linarith [hnearPower.1]
    have hbelow : (quantaOfRank rank : ℚ) < 3 := by linarith
    have habove' : 1 < quantaOfRank rank := by exact_mod_cast habove
    have hbelow' : quantaOfRank rank < 3 := by exact_mod_cast hbelow
    omega
  refine lt_of_mul_lt_mul_right ?_ hunit.le
  rw [htenth, mul_assoc, magnitude_mul_quantaPerUnit, htwo, add_mul, mul_assoc, hquanta, hdigits]
  push_cast
  linarith

/-- A decimal that reads back with as many digits as the shortest one lies on the same grid and is
not closer to the double, or it lies on a finer grid and is further away. -/
theorem closer_shortest {rank : Nat} (hne : rank ≠ 0) {d : Decimal} (hread : d.rank = rank)
    (hdigits : d.significant = (shortest rank).significant) :
    (∃ c, d.value = (⟨c, (shortest rank).places⟩ : Decimal).value ∧
      |(shortest rank).value - magnitude rank| ≤ |d.value - magnitude rank|) ∨
    |(shortest rank).value - magnitude rank| < |d.value - magnitude rank| := by
  obtain ⟨e, hvalue, hread', hplaces, hbound⟩ := exists_trimmed_of_rank hne hread
  rw [hvalue]
  rw [hdigits] at hbound
  rcases hplaces.eq_or_lt with hsame | hfiner
  · left
    refine ⟨e.coefficient, ?_, ?_⟩
    · rw [hsame]
    · have hgrid : e = ⟨e.coefficient, (shortest rank).places⟩ := by rw [hsame]
      rw [hgrid] at hread' ⊢
      exact closest_shortest hne hread'
  · right
    have hless := value_lt_of_trimmed hbound (Int.add_one_le_of_lt hfiner)
    rw [← sub_sub, sub_right_comm] at hless
    obtain ⟨hone, hpower⟩ := significant_eq_one_of_value_lt hne hread' hless
    have hclosest := closest_shortest hne hpower
    -- With a single digit in front, the other decimal is at most nine tenths of the power.
    have hnineTenths : e.value ≤ (⟨9, (shortest rank).places + 1⟩ : Decimal).value := by
      rw [value_eq_mul_zpow, value_eq_mul_zpow]
      rw [hone, Nat.pow_one] at hbound
      have hcoefficient : (e.coefficient : ℚ) ≤ (9 : Nat) := by
        exact_mod_cast Nat.le_of_lt_succ hbound
      have hgrid : (10 : ℚ) ^ (-e.places) ≤ 10 ^ (-((shortest rank).places + 1)) :=
        zpow_le_zpow_right₀ (by norm_num) (by omega)
      exact mul_le_mul hcoefficient hgrid (zpow_nonneg (by norm_num) _) (by norm_num)
    have hbelow : e.value < (⟨1, (shortest rank).places⟩ : Decimal).value := by
      rw [value_one]
      rw [hone] at hless
      simpa using hless
    refine hclosest.trans_lt ?_
    rcases le_or_gt (⟨1, (shortest rank).places⟩ : Decimal).value (magnitude rank) with hle | hgt
    · rw [abs_of_nonpos (sub_nonpos.mpr hle), abs_of_neg (sub_neg.mpr (hbelow.trans_le hle))]
      linarith
    · have hnine : (⟨9, (shortest rank).places + 1⟩ : Decimal).rank = rank := by
        refine rank_eq_of_between hread' hpower hnineTenths ?_
        have hpositive : (0 : ℚ) < 10 ^ (-(shortest rank).places) := zpow_pos (by norm_num) _
        rw [value_nine, value_one]
        linarith
      have hcloser := power_closer hne hpower hnine hgt
      rw [abs_of_pos (sub_pos.mpr hgt)]
      refine lt_of_lt_of_le ?_ (neg_le_abs _)
      linarith

theorem length_trimZeros_le (cs : List Char) : (trimZeros cs).length ≤ cs.length := by
  obtain ⟨n, hsplit⟩ := exists_eq_trimZeros_append cs
  have hlength := congrArg List.length hsplit
  rw [List.length_append] at hlength
  omega

theorem fractionSize_le (d : Decimal) : d.fractionSize ≤ d.places.toNat := by
  refine (length_trimZeros_le _).trans ?_
  unfold fractionDigits
  split
  · exact Nat.zero_le _
  · rename_i hplaces
    have hwidth : 0 < d.places.toNat := by omega
    exact (length_padded hwidth (Nat.mod_lt _ (denominator_pos d))).le

theorem places_ofLiteral_plain (d : Decimal) : (ofLiteral d.plain).places = d.fractionSize := by
  have hread : ofLiteral d.plain = ⟨Nat.ofDigitChars 10 (d.wholeDigits ++
      trimZeros d.fractionDigits) 0, (trimZeros d.fractionDigits).length⟩ :=
    ofLiteral_append_withPoint fun _ => isDigit_of_mem_wholeDigits
  rw [hread, fractionSize]

theorem fractionSize_eq_of_value_eq {d e : Decimal} (h : d.value = e.value) :
    d.fractionSize = e.fractionSize := by
  have hplaces := places_ofLiteral_plain d
  rw [plain_eq_of_value_eq h, places_ofLiteral_plain] at hplaces
  exact_mod_cast hplaces.symm

/-- What reads back on the grid of the shortest decimal fills that grid. -/
theorem fractionSize_eq {rank : Nat} (hne : rank ≠ 0) {d : Decimal} (hread : d.rank = rank)
    (hplaces : d.places = (shortest rank).places) :
    d.fractionSize = (shortest rank).places.toNat := by
  have hwritten : (ofLiteral d.plain).rank = rank := by
    rw [rank_eq_of_value_eq d.value_ofLiteral_plain, hread]
  have hcoarse := places_shortest_le_places hne hwritten
  have hsize := fractionSize_le d
  rw [places_ofLiteral_plain] at hcoarse
  rw [hplaces] at hsize
  omega

theorem fractionSize_shortest (rank : Nat) :
    (shortest rank).fractionSize = (shortest rank).places.toNat := by
  by_cases hzero : rank = 0
  · rw [hzero]
    decide
  · exact fractionSize_eq hzero (rank_shortest rank) rfl

theorem toDouble_eq_finite_iff {negative : Bool} {rank : Fin (2047 * 2 ^ (52 : Nat))}
    {d : Decimal} : d.toDouble negative = .finite negative rank ↔ d.rank = rank := by
  constructor
  · intro h
    unfold toDouble ofRank at h
    split at h
    · cases h
      rfl
    · cases h
  · intro h
    rw [toDouble, h, ofRank_val]

theorem abs_signed_sub (negative : Bool) (d : Decimal) (m : ℚ) :
    |d.signed negative - if negative then -m else m| = |d.value - m| := by
  cases negative with
  | false => rfl
  | true =>
    rw [signed, if_pos rfl, if_pos rfl, neg_sub_neg]
    exact abs_sub_comm _ _

theorem value_shortest_zero : (shortest 0).value = magnitude 0 := by
  have hzero : shortest 0 = ⟨0, 0⟩ := if_pos rfl
  rw [hzero, magnitude_zero, value_eq_mul_zpow, Nat.cast_zero, zero_mul]

/-- The decimal that is found by the search is a shortest one. -/
theorem isShortest_shortest (negative : Bool) (rank : Fin (2047 * 2 ^ (52 : Nat))) :
    IsShortest negative (.finite negative rank) (shortest rank) := by
  refine ⟨?_, ?_, ?_⟩
  · exact toDouble_eq_finite_iff.mpr (rank_shortest rank)
  · intro d hread
    exact significant_shortest_le (toDouble_eq_finite_iff.mp hread)
  · intro d v hv hread hdigits
    rw [value?_finite] at hv
    obtain rfl := Option.some.inj hv
    have hrank := toDouble_eq_finite_iff.mp hread
    rw [abs_signed_sub, abs_signed_sub]
    by_cases hzero : (rank : Nat) = 0
    · rw [hzero, value_shortest_zero, sub_self, abs_zero]
      exact abs_nonneg _
    · rcases closer_shortest hzero hrank hdigits with ⟨_, _, hle⟩ | hlt
      · exact hle
      · exact hlt.le

theorem value_eq_zero_of_significant {d : Decimal} (h : d.significant = 0) : d.value = 0 := by
  obtain ⟨n, e, hfine, _, hbound⟩ := exists_trimmed d
  rw [h, Nat.pow_zero, Nat.lt_one_iff] at hbound
  rw [hfine, value_refine, value_eq_mul_zpow, hbound, Nat.cast_zero, zero_mul]

/-- Whichever of the shortest decimals is taken, it has as many fraction digits. -/
theorem fractionSize_of_isShortest {negative : Bool} {rank : Fin (2047 * 2 ^ (52 : Nat))}
    {d : Decimal} (h : IsShortest negative (.finite negative rank) d) :
    d.fractionSize = (shortest rank).fractionSize := by
  have hfound := isShortest_shortest negative rank
  have hrank := toDouble_eq_finite_iff.mp h.reads
  have hdigits : d.significant = (shortest rank).significant :=
    Nat.le_antisymm (h.fewest _ hfound.reads) (hfound.fewest _ h.reads)
  by_cases hzero : (rank : Nat) = 0
  · rw [hzero] at hdigits ⊢
    have hnone : (shortest 0).significant = 0 := by decide
    refine fractionSize_eq_of_value_eq ?_
    rw [value_eq_zero_of_significant (hdigits.trans hnone), value_shortest_zero, magnitude_zero]
  · rcases closer_shortest hzero hrank hdigits with ⟨c, hvalue, _⟩ | hfurther
    · have hread : (⟨c, (shortest rank).places⟩ : Decimal).rank = rank := by
        rw [← rank_eq_of_value_eq hvalue, hrank]
      rw [fractionSize_eq_of_value_eq hvalue, fractionSize_eq hzero hread rfl,
        fractionSize_shortest]
    · have hclosest := h.closest _ _ (value?_finite negative rank) hfound.reads hdigits.symm
      rw [abs_signed_sub, abs_signed_sub] at hclosest
      exact absurd hfurther hclosest.not_gt

end Decimal

end Reckoner
