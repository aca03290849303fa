import Reckoner.Decimal.Basic

/-!
# The shortest decimal of a double

Of the decimals that read back as a double, `shortest` is the one on the coarsest decimal grid,
and of two on that grid the nearer one. `rounded` is the nearest decimal with a given number of
places, taken from the exact value. `rank_shortest` says that the shortest decimal reads back.
-/

namespace Reckoner.Decimal

/-- The candidates with the given number of places: the multiple nearest to the double of the given
rank, a tie going to the even one, and the two multiples on either side of it. -/
def candidates (rank : Nat) (places : Int) : List Decimal :=
  let num := Double.quantaOfRank rank * 10 ^ places.toNat
  let den := Double.quantaPerUnit * 10 ^ (-places).toNat
  [⟨roundDiv num den, places⟩, ⟨num / den, places⟩, ⟨num / den + 1, places⟩]

/-- The double itself: a number with so many binary places has as many decimal ones. -/
def exact (rank : Nat) : Decimal :=
  ⟨Double.quantaOfRank rank * 5 ^ Double.binaryPlaces, Double.binaryPlaces⟩

def hit? (rank : Nat) (places : Int) : Option Decimal :=
  (candidates rank places).find? fun d => d.rank == rank

/-- The first hit on grids from `places` on, each ten times as fine as the one before. -/
def search (rank : Nat) : Nat → Int → Decimal
  | 0, _ => exact rank
  | grids + 1, places => (hit? rank places).getD (search rank grids (places + 1))

def wholeSize (rank : Nat) : Nat :=
  (Nat.toDigits 10 (Double.quantaOfRank rank / Double.quantaPerUnit)).length

/-- The shortest decimal that reads back as the double of the given rank. -/
def shortest (rank : Nat) : Decimal :=
  if rank = 0 then ⟨0, 0⟩
  else search rank (wholeSize rank + Double.binaryPlaces) (-(wholeSize rank : Int))

/-- The nearest decimal with the given number of places, a tie going to the even one. -/
def rounded (places : Nat) (rank : Nat) : Decimal :=
  ⟨roundDiv (Double.quantaOfRank rank * 10 ^ places) Double.quantaPerUnit, places⟩

theorem rankOfRatio_mul_right (num den : Nat) {k : Nat} (hk : 0 < k) :
    Double.rankOfRatio (num * k) (den * k) = Double.rankOfRatio num den := by
  simp only [Double.rankOfRatio, Nat.mul_div_mul_right _ _ hk]
  rw [Nat.mul_right_comm den k, roundDiv_mul_right _ _ hk]

theorem rankOfRatio_five_pow (quanta places : Nat) :
    Double.rankOfRatio (quanta * 5 ^ places * 10 ^ (-(places : Int)).toNat * 2 ^ places)
      (10 ^ (places : Int).toNat) = Double.rankOfRatio quanta 1 := by
  have hk : 0 < 5 ^ places * 2 ^ places :=
    Nat.mul_pos (Nat.pow_pos (by decide)) (Nat.two_pow_pos _)
  rw [Int.toNat_neg_natCast, Int.toNat_natCast, Nat.pow_zero, Nat.mul_one, Nat.mul_assoc,
    show (10 : Nat) ^ places = 1 * (5 ^ places * 2 ^ places) by rw [Nat.one_mul, ← Nat.mul_pow]]
  exact rankOfRatio_mul_right quanta 1 hk

theorem rank_exact (rank : Nat) : (exact rank).rank = rank := by
  rw [Decimal.rank, numerator, denominator, exact, Double.quantaPerUnit, rankOfRatio_five_pow]
  exact Double.rankOfRatio_quantaOfRank rank

theorem rank_of_hit? {rank : Nat} {places : Int} {d : Decimal} (h : hit? rank places = some d) :
    d.rank = rank := by
  have hd := List.find?_some h
  exact eq_of_beq hd

theorem rank_search (rank grids : Nat) (places : Int) : (search rank grids places).rank = rank := by
  induction grids generalizing places with
  | zero => rw [search, rank_exact]
  | succ grids ih =>
    rw [search]
    cases h : hit? rank places with
    | none => exact ih _
    | some d => exact rank_of_hit? h

/-- The shortest decimal reads back. -/
theorem rank_shortest (rank : Nat) : (shortest rank).rank = rank := by
  unfold shortest
  split
  · next h => simp [h, Decimal.rank, numerator, Double.rankOfRatio]
  · exact rank_search _ _ _

end Reckoner.Decimal
