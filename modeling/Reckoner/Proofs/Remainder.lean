import Reckoner.Operation
import Reckoner.Proofs.ExactMagnitudes

/-!
# Remainders

The remainder of two magnitudes is left on the grid of the divisor, or it is the dividend itself.
Either way it is a magnitude, so nothing is rounded, however far the operands are apart.
-/

namespace Reckoner

set_option autoImplicit false

namespace Double

/-- The remainder of two magnitudes is a magnitude. -/
theorem exists_rank_mod (a : Nat) {b : Nat} (hb : b ≠ 0) :
    ∃ rank, rank ≤ a ∧ rank < b ∧ quantaOfRank rank = quantaOfRank a % quantaOfRank b := by
  have hpos : 0 < quantaOfRank b :=
    Nat.pos_of_ne_zero fun hzero => hb (quantaOfRank_eq_zero_iff.mp hzero)
  have hless : quantaOfRank a % quantaOfRank b < quantaOfRank b := Nat.mod_lt _ hpos
  have hdivisor : ∀ rank, quantaOfRank rank = quantaOfRank a % quantaOfRank b → rank < b := by
    intro rank hrank
    rw [← quantaOfRank_strictMono.lt_iff_lt, hrank]
    exact hless
  rcases Nat.lt_or_ge a b with hlt | hge
  · have hself := (Nat.mod_eq_of_lt (quantaOfRank_strictMono hlt)).symm
    exact ⟨a, Nat.le_refl a, hlt, hself⟩
  · have hdvd : 2 ^ scaleOfRank b ∣ quantaOfRank a % quantaOfRank b :=
      (Nat.dvd_mod_iff (two_pow_scaleOfRank_dvd (Nat.le_refl b))).mpr (two_pow_scaleOfRank_dvd hge)
    obtain ⟨rank, hrank, hquanta⟩ := exists_rank_of_dvd hdvd hless.le
    exact ⟨rank, Nat.le_trans hrank hge, hdivisor rank hquanta, hquanta⟩

/-- A remainder of finite doubles is not rounded. -/
theorem remainder_finite (s t : Bool) (a : Fin (2047 * 2 ^ (52 : Nat)))
    {b : Fin (2047 * 2 ^ (52 : Nat))} (hb : b.val ≠ 0) :
    ∃ rank : Fin (2047 * 2 ^ (52 : Nat)), rank ≤ a ∧ rank < b ∧
      quantaOfRank rank = quantaOfRank a % quantaOfRank b ∧
      (finite s a).remainder (finite t b) = finite s rank := by
  obtain ⟨rank, hle, hlt, hquanta⟩ := exists_rank_mod a hb
  refine ⟨⟨rank, Nat.lt_of_le_of_lt hle a.isLt⟩, hle, hlt, hquanta, ?_⟩
  rw [remainder, if_neg hb, ← hquanta]
  exact ofRatio_quantaOfRank s ⟨rank, _⟩

/-- What is taken off by a remainder is a whole number of divisors. -/
theorem magnitude_sub_of_mod {a b rank : Nat}
    (h : quantaOfRank rank = quantaOfRank a % quantaOfRank b) :
    magnitude a - magnitude rank = (quantaOfRank a / quantaOfRank b : Nat) * magnitude b := by
  have hdivision : ((quantaOfRank b * (quantaOfRank a / quantaOfRank b) +
      quantaOfRank a % quantaOfRank b : Nat) : ℚ) = quantaOfRank a :=
    congrArg Nat.cast (Nat.div_add_mod _ _)
  rw [← h] at hdivision
  push_cast at hdivision
  rw [magnitude_eq_div, magnitude_eq_div, magnitude_eq_div, ← hdivision]
  ring

theorem exists_multiple_of_sub {s t : Bool} {a r b : ℚ} {k : Nat} (h : a - r = k * b) :
    ∃ n : Int, (if s then -a else a) - (if s then -r else r) = n * if t then -b else b := by
  refine ⟨if s = t then k else -k, ?_⟩
  cases s <;> cases t <;> simp <;> linarith

theorem signed_mul_signed (s : Bool) (a r : ℚ) :
    ((if s then -a else a) * if s then -r else r) = a * r := by
  cases s with
  | false => rfl
  | true => exact neg_mul_neg a r

end Double

/-- The remainder of finite doubles is refused for a divisor that is a zero and for no other. Else it
is exact: it differs from the dividend by a whole number of divisors, it is smaller than the divisor,
and its sign, also that of a zero, is the sign of the dividend. -/
theorem mod_exact (mode : AngleMode) {x y : Double} {p q : ℚ} (hx : x.value? = some p)
    (hy : y.value? = some q) :
    (BinaryOperation.mod.apply mode x y = .error .moduloByZero ↔
      y = Double.zero ∨ y = Double.zero.neg) ∧
    (¬ (y = Double.zero ∨ y = Double.zero.neg) → ∃ (r : Double) (v : ℚ),
      BinaryOperation.mod.apply mode x y = .ok r ∧ r.value? = some v ∧
      (∃ n : Int, p - v = n * q) ∧ |v| < |q| ∧ (v ≠ 0 → 0 < v * p) ∧
      r.isNegative = x.isNegative) := by
  rw [← y.isZero_iff]
  cases x with
  | nan | infinite _ => cases hx
  | finite s a =>
    cases y with
    | nan | infinite _ => cases hy
    | finite t b =>
      rw [Double.value?_finite, Option.some.injEq] at hx hy
      subst hx hy
      simp only [BinaryOperation.apply]
      refine ⟨⟨fun hrefused => ?_, fun hzero => if_pos hzero⟩, fun hb => ?_⟩
      · by_contra hne
        rw [if_neg hne] at hrefused
        cases hrefused
      rw [Double.finite_isZero_iff] at hb
      obtain ⟨rank, hle, hless, hquanta, hresult⟩ := Double.remainder_finite s t a hb
      refine ⟨.finite s rank, _, ?_, Double.value?_finite s rank, ?_, ?_, ?_, rfl⟩
      · rw [if_neg (mt (Double.finite_isZero_iff t b).mp hb), hresult]
      · exact Double.exists_multiple_of_sub (Double.magnitude_sub_of_mod hquanta)
      · rw [Double.abs_signed, Double.abs_signed, abs_of_nonneg (Double.magnitude_nonneg _),
          abs_of_nonneg (Double.magnitude_nonneg _)]
        exact Double.magnitude_strictMono hless
      · intro hv
        have hrank : 0 < rank.val := by
          refine Nat.pos_of_ne_zero fun hzero => hv ?_
          rw [hzero, Double.magnitude_zero, neg_zero, ite_self]
        rw [Double.signed_mul_signed]
        exact mul_pos (Double.magnitude_pos_iff.mpr hrank)
          (Double.magnitude_pos_iff.mpr (Nat.lt_of_lt_of_le hrank hle))

/-- The remainder of the least number by three times the least positive one, which is two thousand
binary orders smaller. -/
theorem mod_exact_far_apart :
    ∃ p q v : ℚ,
      (Double.finite true ⟨2047 * 2 ^ (52 : Nat) - 1, by decide⟩).value? = some p ∧
      (Double.finite false ⟨3, by decide⟩).value? = some q ∧
      BinaryOperation.mod.apply .degrees (.finite true ⟨2047 * 2 ^ (52 : Nat) - 1, by decide⟩)
        (.finite false ⟨3, by decide⟩) = .ok (.finite true ⟨2, by decide⟩) ∧
      (Double.finite true ⟨2, by decide⟩).value? = some v ∧
      (∃ n : Int, p - v = n * q) ∧ |v| < |q| := by
  have hresult : BinaryOperation.mod.apply .degrees
      (.finite true ⟨2047 * 2 ^ (52 : Nat) - 1, by decide⟩) (.finite false ⟨3, by decide⟩) =
        .ok (.finite true ⟨2, by decide⟩) := by decide +kernel
  have hdivisor : ¬ (Double.finite false ⟨3, by decide⟩ = Double.zero ∨
      Double.finite false ⟨3, by decide⟩ = Double.zero.neg) := by decide
  obtain ⟨r, v, hr, hv, hmultiple, hless, _⟩ := (mod_exact .degrees
    (Double.value?_finite true ⟨2047 * 2 ^ (52 : Nat) - 1, by decide⟩)
    (Double.value?_finite false ⟨3, by decide⟩)).2 hdivisor
  rw [hresult, Except.ok.injEq] at hr
  subst hr
  exact ⟨_, _, v, rfl, rfl, hresult, hv, hmultiple, hless⟩

end Reckoner
