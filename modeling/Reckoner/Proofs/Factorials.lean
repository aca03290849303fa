import Mathlib.Data.Nat.Factorial.Basic
import Reckoner.Proofs.NearIntegers

/-!
# Factorials

A factorial is refused for NaN, below zero, far from the integers and beyond the greatest integer
that has one. Each of the products that are left is the one before it times the next integer,
rounded once. A rounding adds one part in `2 ^ 53` at most, and with as many parts as there are
roundings the greatest factorial is still below the first power of two that is no double: so all
the products are finite.
-/

namespace Reckoner

set_option autoImplicit false

open Double

theorem factorialProduct_zero : factorialProduct 0 = ofNat 1 := by
  rw [factorialProduct, Nat.zero_sub, List.range'_zero, List.foldl_nil, unit]

theorem factorialProduct_succ (n : Nat) :
    factorialProduct (n + 1) = (factorialProduct n).mul (ofNat (n + 1)) := by
  cases n with
  | zero => decide +kernel
  | succ k =>
    rw [factorialProduct, factorialProduct, Nat.add_sub_cancel, Nat.add_sub_cancel,
      List.range'_1_concat, List.foldl_concat, Nat.add_comm 2 k]

theorem Double.ofNat_eq_finite {n : Nat} (h : n ≤ 2 ^ (52 : Nat)) :
    ∃ rank : Fin (2047 * 2 ^ (52 : Nat)),
      ofNat n = .finite false rank ∧ quantaOfRank rank = n * quantaPerUnit := by
  obtain ⟨rank, hrank⟩ := exists_rank_of_units h
  refine ⟨rank, ?_, hrank⟩
  rw [ofNat, ← hrank, ofRatio_quantaOfRank]

/-- Times a whole number a magnitude is that many times its quanta, rounded. -/
theorem Double.mul_ofNat (a : Fin (2047 * 2 ^ (52 : Nat))) {n : Nat} (hn : n ≤ 2 ^ (52 : Nat)) :
    (Double.finite false a).mul (ofNat n) = ofRatio false (quantaOfRank a * n) 1 := by
  obtain ⟨b, hb, hquanta⟩ := ofNat_eq_finite hn
  have hscaled := Decimal.rankOfRatio_mul_right (quantaOfRank a * n) 1 quantaPerUnit_pos
  rw [Nat.one_mul] at hscaled
  rw [hb, mul, bne_self_eq_false, hquanta, ← Nat.mul_assoc, ofRatio, ofRatio, hscaled]

theorem Double.quantaOfRank_rankCount :
    quantaOfRank rankCount = quantaPerUnit * 2 ^ (1024 : Nat) := by
  have hexp : 1074 + 1024 = 52 + 2046 := by decide
  have hpow := quantaPerUnit_mul_two_pow hexp
  have horder : rankCount / 2 ^ (52 : Nat) - 1 = 2046 := by decide
  have hmod : rankCount % 2 ^ (52 : Nat) = 0 := by decide
  have hlarge : 2 ^ (53 : Nat) ≤ rankCount := by decide
  rw [hpow, quantaOfRank_of_le hlarge, horder, hmod, Nat.add_zero]

/-- A factorial that stays below a bound, with one part in `b` added at each step, does so from the
first step on. -/
theorem pow_mul_factorial_lt {n last b bound : Nat} (h : n ≤ last)
    (hlast : (b + 1) ^ last * last.factorial < b ^ last * bound) :
    (b + 1) ^ n * n.factorial < b ^ n * bound := by
  obtain ⟨more, rfl⟩ := Nat.exists_eq_add_of_le h
  refine Nat.lt_of_mul_lt_mul_right (a := b ^ more) ?_
  calc (b + 1) ^ n * n.factorial * b ^ more ≤
        (b + 1) ^ n * (n + more).factorial * (b + 1) ^ more :=
        Nat.mul_le_mul (Nat.mul_le_mul_left _ (Nat.factorial_le h))
          (Nat.pow_le_pow_left (Nat.le_succ b) more)
    _ = (b + 1) ^ (n + more) * (n + more).factorial := by
        rw [Nat.pow_add, Nat.mul_right_comm]
    _ < b ^ (n + more) * bound := hlast
    _ = b ^ n * bound * b ^ more := by rw [Nat.pow_add, Nat.mul_right_comm]

/-- A magnitude not below one, and above the factorial by one part in `2 ^ 53` at most for each
rounding. -/
structure IsFactorialRank (n rank : Nat) : Prop where
  unit_le : quantaPerUnit ≤ quantaOfRank rank
  bound : (2 ^ (53 : Nat)) ^ n * quantaOfRank rank ≤
    quantaPerUnit * ((2 ^ (53 : Nat) + 1) ^ n * n.factorial)

theorem two_pow_le_quantaPerUnit : 2 ^ (53 : Nat) ≤ quantaPerUnit := by
  refine Nat.pow_le_pow_right (by decide) ?_
  rw [binaryPlaces]
  decide

theorem IsFactorialRank.zero {rank : Nat} (h : quantaOfRank rank = quantaPerUnit) :
    IsFactorialRank 0 rank := by
  refine ⟨h.ge, Nat.le_of_eq ?_⟩
  rw [h, Nat.factorial_zero, Nat.pow_zero, Nat.one_mul, Nat.mul_one]

theorem IsFactorialRank.succ {n rank : Nat} (h : IsFactorialRank n rank) :
    IsFactorialRank (n + 1) (rankOfRatio (quantaOfRank rank * (n + 1)) 1) := by
  have hgrows : quantaOfRank rank ≤ quantaOfRank rank * (n + 1) :=
    Nat.le_mul_of_pos_right _ (Nat.succ_pos n)
  refine ⟨?_, ?_⟩
  · have hrank : rankOfRatio (quantaOfRank rank) 1 ≤
        rankOfRatio (quantaOfRank rank * (n + 1)) 1 := by
      refine rankOfRatio_le_of_cross Nat.one_pos Nat.one_pos ?_
      rw [Nat.mul_one, Nat.mul_one]
      exact hgrows
    rw [rankOfRatio_quantaOfRank] at hrank
    exact Nat.le_trans h.unit_le (quantaOfRank_strictMono.monotone hrank)
  · have hlarge : 2 ^ (53 : Nat) * 1 ≤ quantaOfRank rank * (n + 1) := by
      rw [Nat.mul_one]
      exact Nat.le_trans two_pow_le_quantaPerUnit (Nat.le_trans h.unit_le hgrows)
    have hround := quantaOfRank_rankOfRatio_le Nat.one_pos hlarge
    rw [Nat.mul_one] at hround
    generalize quantaOfRank (rankOfRatio (quantaOfRank rank * (n + 1)) 1) = next at hround
    calc (2 ^ (53 : Nat)) ^ (n + 1) * next
        = (2 ^ (53 : Nat)) ^ n * (2 ^ (53 : Nat) * next) := by rw [Nat.pow_succ, Nat.mul_assoc]
      _ ≤ (2 ^ (53 : Nat)) ^ n * ((2 ^ (53 : Nat) + 1) * (quantaOfRank rank * (n + 1))) :=
          Nat.mul_le_mul_left _ hround
      _ = (2 ^ (53 : Nat)) ^ n * quantaOfRank rank * ((2 ^ (53 : Nat) + 1) * (n + 1)) := by ac_rfl
      _ ≤ quantaPerUnit * ((2 ^ (53 : Nat) + 1) ^ n * n.factorial) *
          ((2 ^ (53 : Nat) + 1) * (n + 1)) := Nat.mul_le_mul_right _ h.bound
      _ = quantaPerUnit * ((2 ^ (53 : Nat) + 1) ^ (n + 1) * (n + 1).factorial) := by
          rw [Nat.pow_succ (2 ^ (53 : Nat) + 1), Nat.factorial_succ]
          generalize 2 ^ (53 : Nat) + 1 = part
          ac_rfl

/-- The greatest factorial leaves room for the parts that rounding adds. -/
theorem IsFactorialRank.lt {n rank : Nat} (h : IsFactorialRank n rank)
    (hn : n ≤ greatestFactorial) : rank < 2047 * 2 ^ (52 : Nat) := by
  have hlast : (2 ^ (53 : Nat) + 1) ^ greatestFactorial * greatestFactorial.factorial <
      (2 ^ (53 : Nat)) ^ greatestFactorial * 2 ^ (1024 : Nat) := by decide +kernel
  have hroom := Nat.mul_lt_mul_of_pos_left (pow_mul_factorial_lt hn hlast) quantaPerUnit_pos
  have hquanta : (2 ^ (53 : Nat)) ^ n * quantaOfRank rank <
      (2 ^ (53 : Nat)) ^ n * quantaOfRank rankCount := by
    rw [quantaOfRank_rankCount]
    exact Nat.lt_of_lt_of_eq (Nat.lt_of_le_of_lt h.bound hroom) (Nat.mul_left_comm _ _ _)
  exact quantaOfRank_strictMono.lt_iff_lt.mp (Nat.lt_of_mul_lt_mul_left hquanta)

/-- The product is a finite number not below one. -/
theorem exists_rank_factorialProduct {n : Nat} (h : n ≤ greatestFactorial) :
    ∃ rank : Fin (2047 * 2 ^ (52 : Nat)), factorialProduct n = .finite false rank ∧
      IsFactorialRank n rank := by
  induction n with
  | zero =>
    obtain ⟨rank, hrank, hquanta⟩ := ofNat_eq_finite (show 1 ≤ 2 ^ (52 : Nat) by decide)
    rw [Nat.one_mul] at hquanta
    exact ⟨rank, factorialProduct_zero.trans hrank, .zero hquanta⟩
  | succ n ih =>
    obtain ⟨a, ha, hsize⟩ := ih (Nat.le_of_succ_le h)
    have hsmall : n + 1 ≤ 2 ^ (52 : Nat) := Nat.le_trans h (by decide)
    have hfits := hsize.succ.lt h
    refine ⟨⟨_, hfits⟩, ?_, hsize.succ⟩
    rw [factorialProduct_succ, ha, mul_ofNat a hsmall, ofRatio, ofRank, dif_pos hfits]

/-- Each product is the one before it times the next integer, rounded to the nearest double. -/
theorem isNearest_factorialProduct_succ {n : Nat} {p : ℚ} (h : n < greatestFactorial)
    (hp : (factorialProduct n).value? = some p) :
    (factorialProduct (n + 1)).IsNearest (p * (n + 1)) := by
  obtain ⟨a, ha, hsize⟩ := exists_rank_factorialProduct h.le
  have hsmall : n + 1 ≤ 2 ^ (52 : Nat) := Nat.le_trans h (by decide)
  have hfits := hsize.succ.lt h
  have hvalue : ((quantaOfRank a * (n + 1) : Nat) : ℚ) / (1 : Nat) / quantaPerUnit =
      p * (n + 1) := by
    rw [ha, value?_finite, Option.some.injEq, if_neg Bool.false_ne_true] at hp
    rw [← hp, magnitude_eq_div]
    push_cast
    ring
  rw [factorialProduct_succ, ha, mul_ofNat a hsmall, ofRatio, ofRank, dif_pos hfits, ← hvalue]
  exact isNearest_of_rankOfRatio Nat.one_pos rfl

theorem factorial_of_liesBelowZero {x : Double} (h : x.LiesBelowZero) :
    factorial x = .error (.outsideDomain .factorialOfNegative) := by
  rw [← isBelowZero_iff] at h
  have hnumber : ¬ x.isNaN = true := by
    cases x with
    | nan => cases h
    | infinite _ | finite _ _ => exact Bool.false_ne_true
  rw [factorial, if_neg hnumber, if_pos h]

theorem factorial_of_nonneg {x : Double} {v : ℚ} (hx : x.value? = some v) (hv : 0 ≤ v) :
    factorial x =
      if x.isNearInteger = true then
        if greatestFactorial < x.rint.toInt.toNat then .error .factorialTooLarge
        else .ok (factorialProduct x.rint.toInt.toNat)
      else .error (.outsideDomain .factorialOfFraction) := by
  have hbelow : ¬ x.isBelowZero = true := by
    rw [isBelowZero_iff]
    rintro (rfl | ⟨w, hw, hneg⟩)
    · cases hx
    · rw [hx, Option.some.injEq] at hw
      exact absurd hneg (not_lt.mpr (hw ▸ hv))
  cases x with
  | nan | infinite _ => cases hx
  | finite negative rank =>
    have hnumber : ¬ (Double.finite negative rank).isNaN = true := Bool.false_ne_true
    have hbounded : ¬ (Double.finite negative rank).isInfinite = true := Bool.false_ne_true
    rw [factorial, if_neg hnumber, if_neg hbelow, if_neg hbounded]
    cases (Double.finite negative rank).isNearInteger with
    | false => simp only [Bool.not_false, Bool.false_eq_true, if_true, if_false]
    | true => simp only [Bool.not_true, Bool.false_eq_true, if_true, if_false]

/-- No integer below zero is near a number that is not below zero. -/
theorem Double.nonneg_of_isNear {x : Double} {v : ℚ} {n : Int} (hx : x.value? = some v)
    (hv : 0 ≤ v) (hn : x.IsNear n) : 0 ≤ n := by
  obtain ⟨w, t, hw, ht, hnear⟩ := hn
  rw [hx, Option.some.injEq] at hw
  rw [tolerance_eq, value?_finite, Option.some.injEq, if_neg Bool.false_ne_true] at ht
  subst hw ht
  have hhalf := magnitude_toleranceRank_lt
  have hclose := (abs_le.mp hnear).2
  have hcast : (-1 : ℚ) < n := by linarith
  have hinteger : -1 < n := by exact_mod_cast hcast
  omega

theorem factorial_of_isNear {x : Double} {v : ℚ} {n : Nat} (hx : x.value? = some v) (hv : 0 ≤ v)
    (hn : x.IsNear n) :
    factorial x =
      if greatestFactorial < n then .error .factorialTooLarge else .ok (factorialProduct n) := by
  rw [factorial_of_nonneg hx hv, if_pos ((isNearInteger_iff x).mpr ⟨n, hn⟩),
    toInt_rint_of_isNear hn, Int.toNat_natCast]

theorem factorial_of_fraction {x : Double} {v : ℚ} (hx : x.value? = some v) (hv : 0 ≤ v)
    (hfar : ¬ ∃ n, x.IsNear n) :
    factorial x = .error (.outsideDomain .factorialOfFraction) := by
  rw [← isNearInteger_iff] at hfar
  rw [factorial_of_nonneg hx hv, if_neg hfar]

/-- The arguments of a factorial: none of its five outcomes is left out. -/
theorem factorial_cases (x : Double) :
    x = .nan ∨ x.LiesBelowZero ∨ x = .infinite false ∨
      (∃ v, x.value? = some v ∧ 0 ≤ v ∧ ¬ ∃ n, x.IsNear n) ∨
      ∃ v, ∃ n : Nat, x.value? = some v ∧ 0 ≤ v ∧ x.IsNear n := by
  cases x with
  | nan => exact Or.inl rfl
  | infinite negative =>
    cases negative with
    | false => exact Or.inr (Or.inr (Or.inl rfl))
    | true => exact Or.inr (Or.inl (Or.inl rfl))
  | finite negative rank =>
    have hvalue := value?_finite negative rank
    generalize (if negative then -magnitude rank else magnitude rank) = v at hvalue
    rcases lt_or_ge v 0 with hneg | hpos
    · exact Or.inr (Or.inl (Or.inr ⟨v, hvalue, hneg⟩))
    · by_cases hnear : ∃ n, (Double.finite negative rank).IsNear n
      · obtain ⟨n, hn⟩ := hnear
        obtain ⟨m, rfl⟩ := Int.eq_ofNat_of_zero_le (nonneg_of_isNear hvalue hpos hn)
        exact Or.inr (Or.inr (Or.inr (Or.inr ⟨v, m, hvalue, hpos, hn⟩)))
      · exact Or.inr (Or.inr (Or.inr (Or.inl ⟨v, hvalue, hpos, hnear⟩)))

theorem factorial_domainError_iff (x : Double) :
    (∃ failure, factorial x = .error failure ∧ failure.kind = .domainError) ↔
      x = .nan ∨ x.LiesBelowZero ∨ ∃ v, x.value? = some v ∧ 0 ≤ v ∧ ¬ ∃ n, x.IsNear n := by
  constructor
  · rintro ⟨failure, hrefused, hkind⟩
    rcases factorial_cases x with rfl | hneg | rfl | hfar | ⟨v, n, hx, hv, hn⟩
    · exact Or.inl rfl
    · exact Or.inr (Or.inl hneg)
    · cases hrefused
      cases hkind
    · exact Or.inr (Or.inr hfar)
    · rw [factorial_of_isNear hx hv hn] at hrefused
      split at hrefused
      · cases hrefused
        cases hkind
      · cases hrefused
  · rintro (rfl | hneg | ⟨v, hx, hv, hfar⟩)
    · exact ⟨_, rfl, rfl⟩
    · exact ⟨_, factorial_of_liesBelowZero hneg, rfl⟩
    · exact ⟨_, factorial_of_fraction hx hv hfar, rfl⟩

theorem factorial_overflow_iff (x : Double) :
    (∃ failure, factorial x = .error failure ∧ failure.kind = .overflow) ↔
      x = .infinite false ∨
        ∃ v, ∃ n : Int, x.value? = some v ∧ 0 ≤ v ∧ x.IsNear n ∧ greatestFactorial < n := by
  constructor
  · rintro ⟨failure, hrefused, hkind⟩
    rcases factorial_cases x with rfl | hneg | rfl | ⟨v, hx, hv, hfar⟩ | ⟨v, n, hx, hv, hn⟩
    · cases hrefused
      cases hkind
    · rw [factorial_of_liesBelowZero hneg] at hrefused
      cases hrefused
      cases hkind
    · exact Or.inl rfl
    · rw [factorial_of_fraction hx hv hfar] at hrefused
      cases hrefused
      cases hkind
    · rw [factorial_of_isNear hx hv hn] at hrefused
      split at hrefused
      · rename_i hlarge
        exact Or.inr ⟨v, n, hx, hv, hn, Int.ofNat_lt.mpr hlarge⟩
      · cases hrefused
  · rintro (rfl | ⟨v, n, hx, hv, hn, hlarge⟩)
    · exact ⟨_, rfl, rfl⟩
    · obtain ⟨m, rfl⟩ := Int.eq_ofNat_of_zero_le (nonneg_of_isNear hx hv hn)
      exact ⟨_, (factorial_of_isNear hx hv hn).trans (if_pos (Int.ofNat_lt.mp hlarge)), rfl⟩

theorem factorial_ok_iff (x y : Double) :
    factorial x = .ok y ↔
      ∃ v, ∃ n : Nat, x.value? = some v ∧ 0 ≤ v ∧ x.IsNear n ∧ n ≤ greatestFactorial ∧
        y = factorialProduct n := by
  constructor
  · intro hvalue
    rcases factorial_cases x with rfl | hneg | rfl | ⟨v, hx, hv, hfar⟩ | ⟨v, n, hx, hv, hn⟩
    · cases hvalue
    · rw [factorial_of_liesBelowZero hneg] at hvalue
      cases hvalue
    · cases hvalue
    · rw [factorial_of_fraction hx hv hfar] at hvalue
      cases hvalue
    · rw [factorial_of_isNear hx hv hn] at hvalue
      split at hvalue
      · cases hvalue
      · rename_i hsmall
        exact ⟨v, n, hx, hv, hn, Nat.not_lt.mp hsmall, (Except.ok.inj hvalue).symm⟩
  · rintro ⟨v, n, hx, hv, hn, hsmall, rfl⟩
    exact (factorial_of_isNear hx hv hn).trans (if_neg (Nat.not_lt.mpr hsmall))

theorem factorial_congr {x x' : Double} {v v' : ℚ} {n : Int} (hx : x.value? = some v) (hv : 0 ≤ v)
    (hx' : x'.value? = some v') (hv' : 0 ≤ v') (hn : x.IsNear n) (hn' : x'.IsNear n) :
    factorial x = factorial x' := by
  obtain ⟨m, rfl⟩ := Int.eq_ofNat_of_zero_le (nonneg_of_isNear hx hv hn)
  exact (factorial_of_isNear hx hv hn).trans (factorial_of_isNear hx' hv' hn').symm

theorem exists_value_factorialProduct {n : Nat} (h : n ≤ greatestFactorial) :
    ∃ p, (factorialProduct n).value? = some p ∧ 1 ≤ p ∧
      (n < greatestFactorial → (factorialProduct (n + 1)).IsNearest (p * (n + 1))) := by
  obtain ⟨rank, hrank, hsize⟩ := exists_rank_factorialProduct h
  have hvalue : (factorialProduct n).value? = some (magnitude rank) := by
    rw [hrank, value?_finite, if_neg Bool.false_ne_true]
  refine ⟨magnitude rank, hvalue, ?_, fun hless => isNearest_factorialProduct_succ hless hvalue⟩
  rw [magnitude_eq_div, one_le_div (Nat.cast_pos.mpr quantaPerUnit_pos)]
  exact Nat.cast_le.mpr hsize.unit_le

/-- The factorial of a double is outside the domain for NaN, below zero, and for a finite number that
is not below zero and far from all integers. It is too large for the positive infinity and near an
integer above 170. Everywhere else it is the product up to the integer that the number is near, so
that numbers near the same integer have the same factorial. These products are finite and at least
one; the first is one, and each is the one before it times the next integer, rounded to the nearest
double. -/
theorem factorial_near_integers (mode : AngleMode) (x : Double) :
    ((∃ failure, UnaryOperation.fact.apply mode x = .error failure ∧
        failure.kind = .domainError) ↔
      x = .nan ∨ x.LiesBelowZero ∨ ∃ v, x.value? = some v ∧ 0 ≤ v ∧ ¬ ∃ n, x.IsNear n) ∧
    ((∃ failure, UnaryOperation.fact.apply mode x = .error failure ∧ failure.kind = .overflow) ↔
      x = .infinite false ∨
        ∃ v, ∃ n : Int, x.value? = some v ∧ 0 ≤ v ∧ x.IsNear n ∧ 170 < n) ∧
    (∀ y, UnaryOperation.fact.apply mode x = .ok y ↔
      ∃ v, ∃ n : Nat, x.value? = some v ∧ 0 ≤ v ∧ x.IsNear n ∧ n ≤ 170 ∧
        y = factorialProduct n) ∧
    (∀ (x' : Double) (v v' : ℚ) (n : Int), x.value? = some v → 0 ≤ v → x'.value? = some v' →
      0 ≤ v' → x.IsNear n → x'.IsNear n →
        UnaryOperation.fact.apply mode x = UnaryOperation.fact.apply mode x') ∧
    factorialProduct 0 = ofNat 1 ∧
    (∀ n, factorialProduct (n + 1) = (factorialProduct n).mul (ofNat (n + 1))) ∧
    (∀ n ≤ 170, ∃ p, (factorialProduct n).value? = some p ∧ 1 ≤ p ∧
      (n < 170 → (factorialProduct (n + 1)).IsNearest (p * (n + 1)))) ∧
    tolerance.IsNearest (1 / 10 ^ 9) := by
  have happly : ∀ x, UnaryOperation.fact.apply mode x = factorial x := fun _ => rfl
  simp only [happly]
  exact ⟨factorial_domainError_iff x, factorial_overflow_iff x, factorial_ok_iff x,
    fun _ _ _ _ hx hv hx' hv' hn hn' => factorial_congr hx hv hx' hv' hn hn',
    factorialProduct_zero, factorialProduct_succ, fun _ hn => exists_value_factorialProduct hn,
    isNearest_tolerance⟩

end Reckoner
