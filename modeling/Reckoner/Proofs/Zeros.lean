import Reckoner.Double.Arithmetic
import Reckoner.Proofs.Nearest

/-!
# Sums and zeros

Adding a zero changes no number but a zero of the other sign, and no sum that starts from another
number comes to the negative zero.
-/

namespace Reckoner

set_option autoImplicit false

namespace Double

theorem quantaOfRank_eq_zero_iff {rank : Nat} : quantaOfRank rank = 0 ↔ rank = 0 := by
  constructor
  · intro hzero
    have hrank := rankOfRatio_quantaOfRank rank
    rw [hzero, rankOfRatio_of_lt (by decide)] at hrank
    exact hrank.symm
  · rintro rfl
    rfl

theorem rankOfRatio_one_eq_zero_iff {quanta : Nat} : rankOfRatio quanta 1 = 0 ↔ quanta = 0 := by
  constructor
  · intro hzero
    by_contra hne
    have hle : rankOfRatio 1 1 ≤ rankOfRatio quanta 1 :=
      rankOfRatio_le_of_cross Nat.one_pos Nat.one_pos (by omega)
    rw [hzero, rankOfRatio_of_lt (by decide)] at hle
    omega
  · rintro rfl
    exact rankOfRatio_of_lt (by decide)

theorem natAbs_signedQuanta (negative : Bool) (rank : Nat) :
    (signedQuanta negative rank).natAbs = quantaOfRank rank := by
  cases negative <;> simp [signedQuanta]

/-- A double's own quanta are not rounded. -/
theorem ofQuanta_signedQuanta {negativeZero negative : Bool} {rank : Fin (2047 * 2 ^ (52 : Nat))}
    (hzero : rank.val = 0 → negativeZero = negative) :
    ofQuanta negativeZero (signedQuanta negative rank) = .finite negative rank := by
  rw [ofQuanta, ofRatio, natAbs_signedQuanta, rankOfRatio_quantaOfRank, ofRank_val]
  by_cases hrank : rank.val = 0
  · have hquanta : signedQuanta negative rank = 0 := by
      rw [← Int.natAbs_eq_zero, natAbs_signedQuanta, hrank, quantaOfRank_zero]
    rw [if_pos hquanta, hzero hrank]
  · have hpos : 0 < quantaOfRank rank :=
      Nat.pos_of_ne_zero fun h => hrank (quantaOfRank_eq_zero_iff.mp h)
    cases negative with
    | false =>
      have hsign : ¬ ((quantaOfRank rank : Int) < 0) := by omega
      rw [signedQuanta, if_neg Bool.false_ne_true, if_neg (by omega), decide_eq_false hsign]
    | true =>
      have hsign : -(quantaOfRank rank : Int) < 0 := by omega
      rw [signedQuanta, if_pos rfl, if_neg (by omega), decide_eq_true hsign]

theorem signedQuanta_zero (negative : Bool) : signedQuanta negative 0 = 0 := by
  cases negative <;> rfl

/-- Adding a zero leaves a number as it is, unless both are zeros and have different signs. -/
theorem add_finite_zero (negative : Bool) {x : Double}
    (hx : negative = false → x ≠ zero.neg) :
    x.add (.finite negative ⟨0, by decide⟩) = x := by
  cases x with
  | nan => rfl
  | infinite s => rfl
  | finite s rank =>
    rw [add, signedQuanta_zero, Int.add_zero]
    refine ofQuanta_signedQuanta fun hrank => ?_
    cases s with
    | false => rfl
    | true =>
      cases negative with
      | true => rfl
      | false =>
        refine absurd ?_ (hx rfl)
        rw [zero, neg, finite.injEq]
        exact ⟨rfl, Fin.ext hrank⟩

theorem of_ofQuanta_eq_neg_zero {negativeZero : Bool} {quanta : Int}
    (h : ofQuanta negativeZero quanta = zero.neg) : negativeZero = true ∧ quanta = 0 := by
  unfold ofQuanta ofRatio ofRank at h
  split at h
  · rw [zero, neg, finite.injEq, Fin.ext_iff] at h
    obtain ⟨hsign, hrank⟩ := h
    have hquanta : quanta = 0 := Int.natAbs_eq_zero.mp (rankOfRatio_one_eq_zero_iff.mp hrank)
    rw [if_pos hquanta] at hsign
    exact ⟨hsign, hquanta⟩
  · cases h

/-- A sum is the negative zero only if its first term is. -/
theorem add_ne_neg_zero {x : Double} (hx : x ≠ zero.neg) (y : Double) : x.add y ≠ zero.neg := by
  intro h
  cases x with
  | nan => cases h
  | infinite s =>
    cases y with
    | nan => cases h
    | infinite t => cases s <;> cases t <;> cases h
    | finite t b => cases h
  | finite s a =>
    cases y with
    | nan => cases h
    | infinite t => cases h
    | finite t b =>
      obtain ⟨hsigns, hquanta⟩ := of_ofQuanta_eq_neg_zero h
      obtain ⟨rfl, rfl⟩ := Bool.and_eq_true_iff.mp hsigns
      rw [signedQuanta, signedQuanta, if_pos rfl, if_pos rfl] at hquanta
      have hrank : a.val = 0 := quantaOfRank_eq_zero_iff.mp (by omega)
      refine hx ?_
      rw [zero, neg, finite.injEq]
      exact ⟨rfl, Fin.ext hrank⟩

theorem foldl_add_ne_neg_zero {x : Double} (hx : x ≠ zero.neg) (terms : List Double) :
    terms.foldl add x ≠ zero.neg := by
  induction terms generalizing x with
  | nil => exact hx
  | cons term rest ih => exact ih (add_ne_neg_zero hx term)

theorem zero_ne_neg_zero : zero ≠ zero.neg := by
  rw [zero, neg, ne_eq, finite.injEq]
  exact fun h => Bool.false_ne_true h.1

end Double

end Reckoner
