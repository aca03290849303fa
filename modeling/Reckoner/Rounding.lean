/-!
# Quotients and roots of natural numbers

`roundDiv` is a quotient rounded to the nearest natural number, a half going to the even
neighbour. `floorSqrt` and `floorCbrt` are the integer parts of the roots; each digit step of the
recursion settles one binary digit of the root. All three are pinned down by the inequalities
that characterise them.
-/

namespace Reckoner

-- Powers of natural numbers are those of the core library, whatever else a module imports.
attribute [scoped instance (1100)] instPowNat

/-- The natural number nearest to `num / den`; of two equally near ones the even one. -/
def roundDiv (num den : Nat) : Nat :=
  let floor := num / den
  let rest := 2 * (num % den)
  if rest < den then floor
  else if den < rest then floor + 1
  else floor + floor % 2

theorem roundDiv_le (num den : Nat) : roundDiv num den ≤ num / den + 1 := by
  unfold roundDiv
  dsimp only
  split
  · omega
  · split <;> omega

theorem div_le_roundDiv (num den : Nat) : num / den ≤ roundDiv num den := by
  unfold roundDiv
  dsimp only
  split
  · omega
  · split <;> omega

/-- A multiple of the divisor is divided exactly. -/
theorem roundDiv_mul_self (n : Nat) {den : Nat} (hden : 0 < den) : roundDiv (n * den) den = n := by
  simp [roundDiv, Nat.mul_div_cancel _ hden, hden]

@[simp] theorem roundDiv_one (n : Nat) : roundDiv n 1 = n := by
  simp [roundDiv, Nat.mod_one]

@[simp] theorem roundDiv_zero_left (den : Nat) : roundDiv 0 den = 0 := by
  simp [roundDiv]

/-- A common factor does not change the quotient. -/
theorem roundDiv_mul_right (num den : Nat) {k : Nat} (hk : 0 < k) :
    roundDiv (num * k) (den * k) = roundDiv num den := by
  simp only [roundDiv, Nat.mul_div_mul_right _ _ hk, Nat.mul_mod_mul_right, ← Nat.mul_assoc,
    Nat.mul_lt_mul_right hk]

/-- The square root's integer part for a number of at most `pairs` pairs of binary digits. -/
def sqrtOfPairs : Nat → Nat → Nat
  | 0, _ => 0
  | pairs + 1, n =>
    let root := 2 * sqrtOfPairs pairs (n / 4)
    if (root + 1) * (root + 1) ≤ n then root + 1 else root

def floorSqrt (n : Nat) : Nat := sqrtOfPairs (n.log2 / 2 + 1) n

theorem sqrtOfPairs_sq_le (pairs n : Nat) : sqrtOfPairs pairs n * sqrtOfPairs pairs n ≤ n := by
  induction pairs generalizing n with
  | zero => simp [sqrtOfPairs]
  | succ pairs ih =>
    simp only [sqrtOfPairs]
    split
    · assumption
    · have h := ih (n / 4)
      generalize sqrtOfPairs pairs (n / 4) = r at h
      have : 2 * r * (2 * r) = 4 * (r * r) := Nat.mul_mul_mul_comm 2 r 2 r
      omega

theorem lt_sqrtOfPairs_succ_sq {pairs n : Nat} (h : n < 4 ^ pairs) :
    n < (sqrtOfPairs pairs n + 1) * (sqrtOfPairs pairs n + 1) := by
  induction pairs generalizing n with
  | zero => simp at h; simp [sqrtOfPairs, h]
  | succ pairs ih =>
    have hd : n / 4 < 4 ^ pairs := by rw [Nat.pow_succ] at h; omega
    have hs := ih hd
    simp only [sqrtOfPairs]
    generalize sqrtOfPairs pairs (n / 4) = r at hs
    split
    · have he : (2 * r + 1 + 1) * (2 * r + 1 + 1) = 4 * ((r + 1) * (r + 1)) := by
        have : 2 * r + 1 + 1 = 2 * (r + 1) := by omega
        rw [this]
        exact Nat.mul_mul_mul_comm 2 (r + 1) 2 (r + 1)
      omega
    · omega

theorem lt_four_pow_pairs (n : Nat) : n < 4 ^ (n.log2 / 2 + 1) := by
  have h : n < 2 ^ (n.log2 + 1) := Nat.lt_log2_self
  have he : (4 : Nat) ^ (n.log2 / 2 + 1) = 2 ^ (2 * (n.log2 / 2 + 1)) := by
    rw [Nat.pow_mul]
  rw [he]
  exact Nat.lt_of_lt_of_le h (Nat.pow_le_pow_right (by decide) (by omega))

theorem floorSqrt_sq_le (n : Nat) : floorSqrt n * floorSqrt n ≤ n := sqrtOfPairs_sq_le _ n

theorem lt_floorSqrt_succ_sq (n : Nat) : n < (floorSqrt n + 1) * (floorSqrt n + 1) :=
  lt_sqrtOfPairs_succ_sq (lt_four_pow_pairs n)

def cbrtOfTriples : Nat → Nat → Nat
  | 0, _ => 0
  | triples + 1, n =>
    let root := 2 * cbrtOfTriples triples (n / 8)
    if (root + 1) * (root + 1) * (root + 1) ≤ n then root + 1 else root

def floorCbrt (n : Nat) : Nat := cbrtOfTriples (n.log2 / 3 + 1) n

theorem cbrtOfTriples_cube_le (triples n : Nat) :
    cbrtOfTriples triples n * cbrtOfTriples triples n * cbrtOfTriples triples n ≤ n := by
  induction triples generalizing n with
  | zero => simp [cbrtOfTriples]
  | succ triples ih =>
    simp only [cbrtOfTriples]
    split
    · assumption
    · have h := ih (n / 8)
      generalize cbrtOfTriples triples (n / 8) = r at h
      have : 2 * r * (2 * r) * (2 * r) = 8 * (r * r * r) := by
        rw [Nat.mul_mul_mul_comm 2 r 2 r, Nat.mul_mul_mul_comm (2 * 2) (r * r) 2 r]
      omega

theorem floorCbrt_cube_le (n : Nat) : floorCbrt n * floorCbrt n * floorCbrt n ≤ n :=
  cbrtOfTriples_cube_le _ n

end Reckoner
