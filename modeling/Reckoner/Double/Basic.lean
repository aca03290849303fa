import Reckoner.Rounding

/-!
# Doubles

A finite double is a sign and a magnitude, and a magnitude is named by its rank: its place among
the nonnegative finite doubles, counted from zero. Magnitudes are measured in quanta of `2 ^ -1074`,
so that each of them is a natural number and a sum, a product or a quotient can be formed exactly
before it is rounded. There is one NaN.

`rankOfRatio` rounds a quotient of natural numbers to the nearest rank, ties to the even one;
`rankOfRatio_quantaOfRank` says that it leaves a double's own magnitude alone.
-/

namespace Reckoner

/-- A double-precision number. -/
inductive Double where
  | nan
  | infinite (negative : Bool)
  | finite (negative : Bool) (rank : Fin (2047 * 2 ^ (52 : Nat)))
  deriving DecidableEq

namespace Double

/-- The number of finite magnitudes, which is also the rank of an infinite one. -/
def rankCount : Nat := 2047 * 2 ^ (52 : Nat)

/-- The binary places of a quantum: it is `2 ^ (-1074)`. -/
@[irreducible] def binaryPlaces : Nat := 1074

def quantaPerUnit : Nat := 2 ^ binaryPlaces

/-- The quanta of the magnitude with the given rank: up to `2 ^ 53` every natural number is a
magnitude, and each further `2 ^ 52` ranks are spaced twice as wide as those before. -/
def quantaOfRank (rank : Nat) : Nat :=
  if rank < 2 ^ (53 : Nat) then rank
  else (2 ^ (52 : Nat) + rank % 2 ^ (52 : Nat)) * 2 ^ (rank / 2 ^ (52 : Nat) - 1)

/-- The rank nearest to `num / den` quanta, of two equally near ones the even one. Ranks from
`rankCount` on are those of magnitudes too large to be finite. -/
def rankOfRatio (num den : Nat) : Nat :=
  let scale := (num / den).log2 - 52
  scale * 2 ^ (52 : Nat) + roundDiv num (den * 2 ^ scale)

def ofRank (negative : Bool) (rank : Nat) : Double :=
  if h : rank < 2047 * 2 ^ (52 : Nat) then .finite negative ⟨rank, h⟩ else .infinite negative

def ofRatio (negative : Bool) (num den : Nat) : Double := ofRank negative (rankOfRatio num den)

/-- The double nearest to a whole number of quanta. Zero takes the sign given for it. -/
def ofQuanta (negativeZero : Bool) (quanta : Int) : Double :=
  ofRatio (if quanta = 0 then negativeZero else quanta < 0) quanta.natAbs 1

def ofNat (n : Nat) : Double := ofRatio false (n * quantaPerUnit) 1

def zero : Double := .finite false ⟨0, by decide⟩

instance : Inhabited Double := ⟨zero⟩

def isNaN : Double → Bool
  | .nan => true
  | _ => false

def isFinite : Double → Bool
  | .finite _ _ => true
  | _ => false

def isInfinite : Double → Bool
  | .infinite _ => true
  | _ => false

/-- The place of a number on the line of the doubles, on which both zeros share a place. -/
def place? : Double → Option Int
  | .nan => none
  | .infinite negative => some (if negative then -rankCount else rankCount)
  | .finite negative rank => some (if negative then -(rank : Int) else rank)

/-- Strictly less; false when one side is NaN. -/
def lt (x y : Double) : Bool :=
  match x.place?, y.place? with
  | some a, some b => a < b
  | _, _ => false

def le (x y : Double) : Bool :=
  match x.place?, y.place? with
  | some a, some b => a ≤ b
  | _, _ => false

/-- Numerically equal: NaN equals nothing, and the two zeros are equal. -/
def same (x y : Double) : Bool :=
  match x.place?, y.place? with
  | some a, some b => a = b
  | _, _ => false

def isZero (x : Double) : Bool := x.same zero

def isBelowZero (x : Double) : Bool := x.lt zero

/-- The bit pattern: the sign bit above the rank. -/
def toBits : Double → Nat
  | .nan => 4095 * 2 ^ (51 : Nat)
  | .infinite negative => negative.toNat * 2 ^ (63 : Nat) + rankCount
  | .finite negative rank => negative.toNat * 2 ^ (63 : Nat) + rank

def ofBits (bits : Nat) : Double :=
  let negative := bits / 2 ^ (63 : Nat) % 2 == 1
  let rank := bits % 2 ^ (63 : Nat)
  if rankCount < rank then .nan else ofRank negative rank

theorem quantaPerUnit_pos : 0 < quantaPerUnit := Nat.two_pow_pos _

theorem ofRank_val (negative : Bool) (rank : Fin (2047 * 2 ^ (52 : Nat))) :
    ofRank negative rank = .finite negative rank := by
  rw [ofRank, dif_pos rank.isLt]

theorem ofRank_rankCount (negative : Bool) : ofRank negative rankCount = .infinite negative := by
  simp [ofRank, rankCount]

theorem quantaOfRank_of_lt {rank : Nat} (h : rank < 2 ^ (53 : Nat)) : quantaOfRank rank = rank :=
  if_pos h

theorem quantaOfRank_of_le {rank : Nat} (h : 2 ^ (53 : Nat) ≤ rank) :
    quantaOfRank rank =
      (2 ^ (52 : Nat) + rank % 2 ^ (52 : Nat)) * 2 ^ (rank / 2 ^ (52 : Nat) - 1) :=
  if_neg (Nat.not_lt.mpr h)

@[simp] theorem quantaOfRank_zero : quantaOfRank 0 = 0 := rfl

theorem log2_eq {n k : Nat} (hl : 2 ^ k ≤ n) (hu : n < 2 ^ (k + 1)) : n.log2 = k := by
  have hn : n ≠ 0 := by have := Nat.two_pow_pos k; omega
  exact (Nat.log2_eq_iff hn).mpr ⟨hl, hu⟩

/-- A number of quanta with at most 53 leading binary digits keeps its magnitude. -/
theorem rankOfRatio_mul_two_pow {m e : Nat} (hl : 2 ^ (52 : Nat) ≤ m) (hu : m < 2 ^ (53 : Nat)) :
    rankOfRatio (m * 2 ^ e) 1 = e * 2 ^ (52 : Nat) + m := by
  have hlog : (m * 2 ^ e).log2 = 52 + e := by
    apply log2_eq
    · rw [Nat.pow_add]; exact Nat.mul_le_mul_right _ hl
    · rw [show 52 + e + 1 = 53 + e by omega, Nat.pow_add]
      exact Nat.mul_lt_mul_of_pos_right hu (Nat.two_pow_pos e)
  simp only [rankOfRatio, Nat.div_one, hlog, Nat.add_sub_cancel_left, Nat.one_mul]
  rw [roundDiv_mul_self m (Nat.two_pow_pos e)]

theorem rankOfRatio_of_lt {n : Nat} (h : n < 2 ^ (53 : Nat)) : rankOfRatio n 1 = n := by
  have hlog : n.log2 - 52 = 0 := by
    by_cases hn : n = 0
    · simp [hn]
    · have := (Nat.log2_lt hn).mpr h
      omega
  simp [rankOfRatio, Nat.div_one, hlog]

/-- A double's own magnitude is not rounded. -/
theorem rankOfRatio_quantaOfRank (rank : Nat) : rankOfRatio (quantaOfRank rank) 1 = rank := by
  by_cases h : rank < 2 ^ (53 : Nat)
  · rw [quantaOfRank_of_lt h, rankOfRatio_of_lt h]
  · have hl : 2 ^ (53 : Nat) ≤ rank := by omega
    rw [quantaOfRank_of_le hl, rankOfRatio_mul_two_pow (by omega) (by omega)]
    omega

theorem ofBits_toBits (x : Double) : ofBits x.toBits = x := by
  cases x with
  | nan => decide
  | infinite negative => cases negative <;> decide
  | finite negative rank =>
    have hr := rank.isLt
    have hm : (negative.toNat * 2 ^ (63 : Nat) + rank.val) % 2 ^ (63 : Nat) = rank.val := by omega
    have hd : (negative.toNat * 2 ^ (63 : Nat) + rank.val) / 2 ^ (63 : Nat) = negative.toNat := by
      omega
    have hs : (negative.toNat % 2 == 1) = negative := by cases negative <;> rfl
    have hn : ¬ rankCount < rank.val := by simp only [rankCount]; omega
    simp only [ofBits, toBits, hm, hd, hs, hn, if_false, ofRank_val]

end Double

end Reckoner
