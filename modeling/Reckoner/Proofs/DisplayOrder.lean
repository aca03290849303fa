import Reckoner.Proofs.DisplayedExactly

/-!
# The order of displayed numbers

A displayed number is the shortest decimal that reads back, or else the double rounded to the last
place. Each way keeps the order of the doubles. So do both together: a decimal that reads back as
one double lies on its side of every other, and rounding to places never passes a decimal with so
many places.
-/

namespace Reckoner

set_option autoImplicit false

namespace Decimal

open Double

theorem value_nonneg (d : Decimal) : 0 ≤ d.value := by
  rw [value_eq_div]
  positivity

theorem value_lt_of_rank_lt {d e : Decimal} (h : d.rank < e.rank) : d.value < e.value := by
  by_contra hge
  exact absurd (rank_mono (not_lt.mp hge)) (Nat.not_le.mpr h)

/-- What is read as a lesser double lies below a double. -/
theorem value_lt_magnitude {d : Decimal} {rank : Nat} (h : d.rank < rank) :
    d.value < magnitude rank := by
  by_contra hge
  exact absurd (le_rank_of_le_value (not_lt.mp hge)) (Nat.not_le.mpr h)

/-- What is read as a greater double lies above a double. -/
theorem magnitude_lt_value {d : Decimal} {rank : Nat} (h : rank < d.rank) :
    magnitude rank < d.value := by
  by_contra hge
  exact absurd (rank_le_of_value_le (not_lt.mp hge)) (Nat.not_le.mpr h)

theorem value_rounded_mono (places : Nat) {rank rank' : Nat} (h : rank ≤ rank') :
    (rounded places rank).value ≤ (rounded places rank').value := by
  have hquanta : quantaOfRank rank ≤ quantaOfRank rank' := quantaOfRank_strictMono.monotone h
  exact value_le_of_le (roundDiv_mono _ (Nat.mul_le_mul_right _ hquanta))

section Grid

variable {d : Decimal} {places rank : Nat} (hplaces : d.places ≤ places)

include hplaces

/-- A decimal with so many places is a multiple of the last of them. -/
theorem exists_multiple : ∃ c : Nat, d.value = (⟨c, places⟩ : Decimal).value := by
  obtain ⟨c, hfine⟩ := exists_refine_eq hplaces
  exact ⟨c, by rw [← hfine, value_refine]⟩

/-- What is no greater than a double is no greater than what the double is rounded to. -/
theorem value_le_rounded (h : d.value ≤ magnitude rank) :
    d.value ≤ (rounded places rank).value := by
  obtain ⟨c, hvalue⟩ := exists_multiple hplaces
  rw [hvalue, value_le_magnitude_iff, numerator_natCast, denominator_natCast] at h
  rw [hvalue]
  refine value_le_of_le ?_
  calc c = roundDiv (c * quantaPerUnit) quantaPerUnit :=
        (roundDiv_mul_self c quantaPerUnit_pos).symm
    _ ≤ roundDiv (quantaOfRank rank * 10 ^ places) quantaPerUnit := roundDiv_mono _ h

theorem rounded_le_value (h : magnitude rank ≤ d.value) :
    (rounded places rank).value ≤ d.value := by
  obtain ⟨c, hvalue⟩ := exists_multiple hplaces
  rw [hvalue, magnitude_le_value_iff, numerator_natCast, denominator_natCast] at h
  rw [hvalue]
  refine value_le_of_le ?_
  calc roundDiv (quantaOfRank rank * 10 ^ places) quantaPerUnit ≤
        roundDiv (c * quantaPerUnit) quantaPerUnit := roundDiv_mono _ h
    _ = c := roundDiv_mul_self c quantaPerUnit_pos

end Grid

/-- Where one double is shown by its shortest decimal and the other is cut, the decimal is compared
with the other double before that is rounded. -/
theorem value_within_mono (places : Nat) {rank rank' : Nat} (h : rank ≤ rank') :
    (within places rank).value ≤ (within places rank').value := by
  rcases Nat.lt_or_eq_of_le h with hlt | rfl
  · by_cases hfits : (shortest rank).places ≤ places
    · have hbelow : (shortest rank).rank < rank' := by
        rw [rank_shortest]
        exact hlt
      rw [within_eq_shortest hfits]
      by_cases hfits' : (shortest rank').places ≤ places
      · rw [within_eq_shortest hfits']
        refine (value_lt_of_rank_lt ?_).le
        rw [rank_shortest rank']
        exact hbelow
      · rw [within_eq_rounded hfits']
        exact value_le_rounded hfits (value_lt_magnitude hbelow).le
    · rw [within_eq_rounded hfits]
      by_cases hfits' : (shortest rank').places ≤ places
      · have habove : rank < (shortest rank').rank := by
          rw [rank_shortest]
          exact hlt
        rw [within_eq_shortest hfits']
        exact rounded_le_value hfits' (magnitude_lt_value habove).le
      · rw [within_eq_rounded hfits']
        exact value_rounded_mono places h
  · exact le_rfl

theorem value_within_zero (places : Nat) : (within places 0).value = 0 := by
  have hfits : (shortest 0).places ≤ places := Int.natCast_nonneg places
  rw [within_eq_shortest hfits, value_shortest_zero, magnitude_zero]

/-- The sign turns the order around, and only the two zeros meet across it. -/
theorem signed_within_le (places : Nat) {negative negative' : Bool}
    {rank rank' : Fin (2047 * 2 ^ (52 : Nat))}
    (h : (finite negative rank).le (finite negative' rank') = true) :
    (within places rank).signed negative ≤ (within places rank').signed negative' := by
  simp only [le, place?, decide_eq_true_eq] at h
  cases negative with
  | false =>
    rw [if_neg Bool.false_ne_true] at h
    cases negative' with
    | false => exact value_within_mono places (Int.ofNat_le.mp h)
    | true =>
      rw [if_pos rfl] at h
      have hzero : rank.val = 0 ∧ rank'.val = 0 := by omega
      rw [hzero.1, hzero.2, signed, signed, value_within_zero, neg_zero, ite_self, ite_self]
  | true =>
    rw [if_pos rfl] at h
    cases negative' with
    | false => exact (neg_nonpos.mpr (value_nonneg _)).trans (value_nonneg _)
    | true =>
      rw [if_pos rfl] at h
      exact neg_le_neg (value_within_mono places (by omega))

end Decimal

namespace Double

open Decimal

theorem exists_eq_finite {x : Double} (h : x.isFinite = true) :
    ∃ negative rank, x = .finite negative rank := by
  cases x with
  | nan => cases h
  | infinite negative => cases h
  | finite negative rank => exact ⟨negative, rank, rfl⟩

/-- Display keeps order. With any count of fraction digits below the bound two finite doubles are
both displayed, and the lesser one as no greater number, be it with all of its digits or cut. -/
theorem format_mono {v w : Double} (hv : v.isFinite = true) (hw : w.isFinite = true)
    (hle : v.le w = true) {places : Nat} (h : places < placesBound) : ∃ text other : String,
      format places v = .ok text ∧ format places w = .ok other ∧
      denoted text.toList ≤ denoted other.toList := by
  obtain ⟨negative, rank, rfl⟩ := exists_eq_finite hv
  obtain ⟨negative', rank', rfl⟩ := exists_eq_finite hw
  refine ⟨_, _, format_eq h negative rank, format_eq h negative' rank', ?_⟩
  rw [String.toList_ofList, String.toList_ofList, denoted_withSign, denoted_withSign]
  exact signed_within_le places hle

/-- With two places the number `-0.29` has all of its digits, and the one above it is cut. -/
theorem format_mono_neighbours :
    (finite true ⟨4598895795485655695, by decide⟩).le
      (finite true ⟨4598895795485655694, by decide⟩) = true ∧
    2 < placesBound ∧ ∃ text other : String,
      format (2 : Nat) (.finite true ⟨4598895795485655695, by decide⟩) = .ok text ∧
      format (2 : Nat) (.finite true ⟨4598895795485655694, by decide⟩) = .ok other ∧
      (shortest 4598895795485655695).places = 2 ∧
      2 < (shortest 4598895795485655694).places ∧
      denoted text.toList ≤ denoted other.toList := by
  have hle : (finite true ⟨4598895795485655695, by decide⟩).le
      (finite true ⟨4598895795485655694, by decide⟩) = true := by decide +kernel
  have hbound : 2 < placesBound := by decide
  obtain ⟨text, other, hformat, hother, horder⟩ := format_mono rfl rfl hle hbound
  exact ⟨hle, hbound, text, other, hformat, hother, by decide +kernel, by decide +kernel, horder⟩

/-- With `2 ^ 31` fraction digits allowed nothing is displayed, so there are no numbers to
compare. -/
theorem format_mono_refused : (Double.ofNat 1).isFinite = true ∧
    (Double.ofNat 1).le (Double.ofNat 1) = true ∧ (0 : Int) ≤ 2147483648 ∧
    ¬ ∃ text other : String, format 2147483648 (Double.ofNat 1) = .ok text ∧
      format 2147483648 (Double.ofNat 1) = .ok other ∧
      denoted text.toList ≤ denoted other.toList := by
  refine ⟨by decide +kernel, by decide +kernel, by decide, ?_⟩
  rintro ⟨text, other, htext, _⟩
  have hlarge : placesBound ≤ 2147483648 := by decide
  obtain ⟨fault, hfault⟩ := format_refused hlarge (Double.ofNat 1)
  cases htext.symm.trans hfault

end Double

end Reckoner
