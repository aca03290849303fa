import Reckoner.Proofs.DecimalGrid
import Reckoner.Proofs.Zeros

/-!
# Magnitudes that need no rounding

Every magnitude lies on a binary grid of its own, and so do all greater ones. What lies on that grid
and is no greater than the magnitude is a magnitude again, so an operation whose result stays on the
grid of one of its operands and below it is exact.
-/

namespace Reckoner

set_option autoImplicit false

namespace Double

/-- The binary digits by which the grid of a magnitude is wider than a quantum. -/
def scaleOfRank (rank : Nat) : Nat := rank / 2 ^ (52 : Nat) - 1

def stepsOfRank (rank : Nat) : Nat :=
  if rank < 2 ^ (53 : Nat) then rank else 2 ^ (52 : Nat) + rank % 2 ^ (52 : Nat)

theorem stepsOfRank_lt (rank : Nat) : stepsOfRank rank < 2 ^ (53 : Nat) := by
  unfold stepsOfRank
  split <;> omega

theorem quantaOfRank_eq_steps (rank : Nat) :
    quantaOfRank rank = stepsOfRank rank * 2 ^ scaleOfRank rank := by
  unfold stepsOfRank
  split
  · rename_i hsmall
    have hscale : scaleOfRank rank = 0 := by
      unfold scaleOfRank
      omega
    rw [quantaOfRank_of_lt hsmall, hscale, Nat.pow_zero, Nat.mul_one]
  · rename_i hlarge
    exact quantaOfRank_of_le (Nat.not_lt.mp hlarge)

/-- A magnitude with a finer grid lies below the order with the wider one. -/
theorem quantaOfRank_lt_of_scale {rank scale : Nat} (h : scaleOfRank rank < scale) :
    quantaOfRank rank < 2 ^ (52 : Nat) * 2 ^ scale := by
  rw [quantaOfRank_eq_steps]
  calc stepsOfRank rank * 2 ^ scaleOfRank rank < 2 ^ (53 : Nat) * 2 ^ scaleOfRank rank :=
        Nat.mul_lt_mul_of_pos_right (stepsOfRank_lt rank) (Nat.two_pow_pos _)
    _ = 2 ^ (52 : Nat) * 2 ^ (scaleOfRank rank + 1) := by
        rw [Nat.pow_succ]
        ring
    _ ≤ 2 ^ (52 : Nat) * 2 ^ scale :=
        Nat.mul_le_mul_left _ (Nat.pow_le_pow_right (by decide) h)

/-- Greater magnitudes lie on the grids of lesser ones. -/
theorem two_pow_scaleOfRank_dvd {rank greater : Nat} (h : rank ≤ greater) :
    2 ^ scaleOfRank rank ∣ quantaOfRank greater := by
  have hscale : scaleOfRank rank ≤ scaleOfRank greater :=
    Nat.sub_le_sub_right (Nat.div_le_div_right h) 1
  rw [quantaOfRank_eq_steps greater]
  exact Nat.dvd_mul_left_of_dvd (Nat.pow_dvd_pow 2 hscale) _

/-- Up to `2 ^ 53` steps of a binary grid are a magnitude. -/
theorem exists_rank_of_steps {steps : Nat} (h : steps ≤ 2 ^ (53 : Nat)) (scale : Nat) :
    ∃ rank, quantaOfRank rank = steps * 2 ^ scale := by
  induction scale generalizing steps with
  | zero => exact ⟨_, quantaOfRank_grid h fun hpos => absurd hpos (Nat.lt_irrefl 0)⟩
  | succ scale ih =>
    rcases Nat.lt_or_ge steps (2 ^ (52 : Nat)) with hfew | hmany
    · -- the grid below has the same magnitude in twice as many steps
      obtain ⟨rank, hrank⟩ := ih (show 2 * steps ≤ 2 ^ (53 : Nat) by omega)
      refine ⟨rank, ?_⟩
      rw [hrank, Nat.pow_succ]
      ring
    · exact ⟨_, quantaOfRank_grid h fun _ => hmany⟩

/-- What lies on the grid of a magnitude and is no greater is a magnitude. -/
theorem exists_rank_of_dvd {rank quanta : Nat} (hdvd : 2 ^ scaleOfRank rank ∣ quanta)
    (hle : quanta ≤ quantaOfRank rank) :
    ∃ lesser, lesser ≤ rank ∧ quantaOfRank lesser = quanta := by
  obtain ⟨steps, rfl⟩ := hdvd
  rw [quantaOfRank_eq_steps, Nat.mul_comm _ steps] at hle
  have hsteps : steps ≤ stepsOfRank rank := Nat.le_of_mul_le_mul_right hle (Nat.two_pow_pos _)
  obtain ⟨lesser, hlesser⟩ :=
    exists_rank_of_steps (Nat.le_trans hsteps (stepsOfRank_lt rank).le) (scaleOfRank rank)
  refine ⟨lesser, ?_, by rw [hlesser, Nat.mul_comm]⟩
  rw [← quantaOfRank_strictMono.le_iff_le, hlesser, quantaOfRank_eq_steps rank]
  exact hle

theorem ofRatio_quantaOfRank (negative : Bool) (rank : Fin (2047 * 2 ^ (52 : Nat))) :
    ofRatio negative (quantaOfRank rank) 1 = .finite negative rank := by
  rw [ofRatio, rankOfRatio_quantaOfRank, ofRank_val]

theorem magnitude_pos_iff {rank : Nat} : 0 < magnitude rank ↔ 0 < rank := by
  rw [← magnitude_zero]
  exact magnitude_strictMono.lt_iff_lt

theorem le_finite_iff (a b : Fin (2047 * 2 ^ (52 : Nat))) :
    (finite false a).le (finite false b) = true ↔ magnitude a ≤ magnitude b := by
  rw [magnitude_strictMono.le_iff_le]
  simp [le, place?]

theorem finite_isZero_iff (negative : Bool) (rank : Fin (2047 * 2 ^ (52 : Nat))) :
    (finite negative rank).isZero = true ↔ rank.val = 0 := by
  cases negative <;> simp [isZero, same, place?, zero]

theorem isZero_iff (x : Double) : x.isZero = true ↔ x = zero ∨ x = zero.neg := by
  constructor
  · intro h
    cases x with
    | nan => cases h
    | infinite negative => cases negative <;> cases h
    | finite negative rank =>
      have hrank : rank = ⟨0, by decide⟩ := Fin.ext ((finite_isZero_iff negative rank).mp h)
      subst hrank
      cases negative with
      | false => exact Or.inl rfl
      | true => exact Or.inr rfl
  · rintro (rfl | rfl) <;> rfl

end Double

end Reckoner
