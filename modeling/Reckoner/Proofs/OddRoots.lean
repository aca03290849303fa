import Reckoner.Proofs.NearIntegers

/-!
# Roots of negative numbers

A root with index zero is refused, and so is the root of a number below zero unless its index is
near an odd integer. A root of a negative number that is not refused is the root of the negated
number, negated.
-/

namespace Reckoner

set_option autoImplicit false

open Double

theorem root_of_isBelowZero {x index : Double} (hindex : ¬ index.isZero = true)
    (hx : x.isBelowZero = true) : root x index =
      if index.isNearOdd = true then .ok (x.neg.pow (unit.div index)).neg
      else .error (.outsideDomain .rootOfNegative) := by
  rw [root, if_neg hindex, if_pos hx]

theorem root_of_not_isBelowZero {x index : Double} (hindex : ¬ index.isZero = true)
    (hx : x.isBelowZero = false) : root x index = .ok (x.pow (unit.div index)) := by
  rw [root, if_neg hindex, if_neg (Bool.eq_false_iff.mp hx)]

/-- What makes a root refused. -/
theorem root_error_iff (x index : Double) (failure : Failure) :
    root x index = .error failure ↔
      index.isZero = true ∧ failure = .outsideDomain .rootIndex ∨
      index.isZero = false ∧ x.isBelowZero = true ∧ index.isNearOdd = false ∧
        failure = .outsideDomain .rootOfNegative := by
  cases hindex : index.isZero with
  | true =>
    rw [root, if_pos hindex, Except.error.injEq, eq_comm]
    simp
  | false =>
    have hnot := Bool.eq_false_iff.mp hindex
    cases hx : x.isBelowZero with
    | false =>
      rw [root_of_not_isBelowZero hnot hx]
      simp
    | true =>
      rw [root_of_isBelowZero hnot hx]
      cases index.isNearOdd with
      | true => simp
      | false =>
        simp only [Bool.false_eq_true, if_false, Except.error.injEq, true_and, false_and, false_or]
        exact eq_comm

/-- A root of finite or infinite numbers or of NaN is refused if the index is a zero, or if the
number is below zero and no odd integer is as near to the index as the tolerance allows, which is
the double nearest to `10 ^ (-9)`. For no other reason is it refused. What is not refused below zero
is the root of the negated number, negated. -/
theorem root_odd (mode : AngleMode) (x index : Double) :
    ((∃ failure, BinaryOperation.root.apply mode x index = .error failure ∧
        failure.kind = .domainError) ↔
      (index = Double.zero ∨ index = Double.zero.neg) ∨
        x.LiesBelowZero ∧ ¬ ∃ n : Int, Odd n ∧ index.IsNear n) ∧
    (∀ failure, BinaryOperation.root.apply mode x index = .error failure →
      failure.kind = .domainError) ∧
    (x.LiesBelowZero → ∀ y, BinaryOperation.root.apply mode x index = .ok y →
      ∃ z, BinaryOperation.root.apply mode x.neg index = .ok z ∧ y = z.neg) ∧
    tolerance.IsNearest (1 / 10 ^ 9) := by
  rw [← index.isZero_iff, ← x.isBelowZero_iff, ← index.isNearOdd_iff]
  simp only [BinaryOperation.apply]
  refine ⟨?_, ?_, ?_, isNearest_tolerance⟩
  · simp only [root_error_iff]
    constructor
    · rintro ⟨failure, ⟨hzero, _⟩ | ⟨_, hx, hodd, _⟩, _⟩
      · exact Or.inl hzero
      · exact Or.inr ⟨hx, Bool.eq_false_iff.mp hodd⟩
    · intro hrefused
      by_cases hzero : index.isZero = true
      · exact ⟨_, Or.inl ⟨hzero, rfl⟩, rfl⟩
      · obtain ⟨hx, hodd⟩ := hrefused.resolve_left hzero
        exact ⟨_, Or.inr ⟨Bool.eq_false_iff.mpr hzero, hx, Bool.eq_false_iff.mpr hodd, rfl⟩, rfl⟩
  · intro failure hrefused
    rcases (root_error_iff x index failure).mp hrefused with ⟨_, rfl⟩ | ⟨_, _, _, rfl⟩ <;> rfl
  · intro hx y hy
    have hindex : ¬ index.isZero = true := by
      intro hzero
      rw [root, if_pos hzero] at hy
      cases hy
    rw [root_of_isBelowZero hindex hx] at hy
    split at hy
    · exact ⟨_, root_of_not_isBelowZero hindex (isBelowZero_neg hx), (Except.ok.inj hy).symm⟩
    · cases hy

end Reckoner
