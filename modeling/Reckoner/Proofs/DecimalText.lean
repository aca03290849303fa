import Mathlib.Algebra.Order.Field.Basic
import Mathlib.Algebra.Order.Ring.Rat
import Mathlib.Data.List.TakeWhile
import Mathlib.Data.Rat.Lemmas
import Mathlib.Tactic.FieldSimp
import Mathlib.Tactic.Ring
import Reckoner.Decimal.Value

/-!
# What a decimal's text says

A decimal on a finer grid is the same number, and numbers that are equal are written alike. The
digits that `plain` writes are read back as the number they were written for: the zeros at the end
that are left out do not count.
-/

namespace Reckoner.Decimal

set_option autoImplicit false

theorem denominator_pos (d : Decimal) : 0 < d.denominator := Nat.pow_pos (by decide)

theorem value_eq_div (d : Decimal) : d.value = (d.numerator : ℚ) / d.denominator := by
  simp [value, Rat.mkRat_eq_div]

theorem value_eq_iff {d e : Decimal} :
    d.value = e.value ↔ d.numerator * e.denominator = e.numerator * d.denominator := by
  have hd : (d.denominator : ℚ) ≠ 0 := Nat.cast_ne_zero.mpr (denominator_pos d).ne'
  have he : (e.denominator : ℚ) ≠ 0 := Nat.cast_ne_zero.mpr (denominator_pos e).ne'
  rw [value_eq_div, value_eq_div, div_eq_div_iff hd he]
  exact_mod_cast Iff.rfl

theorem value_le_iff {d e : Decimal} :
    d.value ≤ e.value ↔ d.numerator * e.denominator ≤ e.numerator * d.denominator := by
  have hd : (0 : ℚ) < d.denominator := Nat.cast_pos.mpr (denominator_pos d)
  have he : (0 : ℚ) < e.denominator := Nat.cast_pos.mpr (denominator_pos e)
  rw [value_eq_div, value_eq_div, div_le_div_iff₀ hd he]
  exact_mod_cast Iff.rfl

@[simp] theorem numerator_natCast (c n : Nat) : (⟨c, n⟩ : Decimal).numerator = c := by
  simp [numerator]

@[simp] theorem denominator_natCast (c n : Nat) : (⟨c, n⟩ : Decimal).denominator = 10 ^ n := by
  simp [denominator]

theorem value_natCast (c n : Nat) : (⟨c, n⟩ : Decimal).value = (c : ℚ) / 10 ^ n := by
  simp [value_eq_div]

/-- The same number on a grid that is finer by some places. -/
def refine (n : Nat) (d : Decimal) : Decimal := ⟨d.coefficient * 10 ^ n, d.places + n⟩

theorem refine_zero (d : Decimal) : refine 0 d = d := by simp [refine]

theorem refine_succ (n : Nat) (d : Decimal) : refine (n + 1) d = refine 1 (refine n d) := by
  simp only [refine, Decimal.mk.injEq]
  constructor
  · ring
  · push_cast
    ring

theorem value_refine (n : Nat) (d : Decimal) : (refine n d).value = d.value := by
  rw [value_eq_iff]
  simp only [numerator, denominator, refine]
  have hexp : n + (-(d.places + n)).toNat + d.places.toNat =
      (-d.places).toNat + (d.places + n).toNat := by omega
  calc d.coefficient * 10 ^ n * 10 ^ (-(d.places + n)).toNat * 10 ^ d.places.toNat =
      d.coefficient * 10 ^ (n + (-(d.places + n)).toNat + d.places.toNat) := by ring
    _ = d.coefficient * 10 ^ ((-d.places).toNat + (d.places + n).toNat) := by rw [hexp]
    _ = d.coefficient * 10 ^ (-d.places).toNat * 10 ^ (d.places + n).toNat := by ring

theorem exists_refine_eq {d : Decimal} {p : Int} (hplaces : d.places ≤ p) :
    ∃ c, refine (p - d.places).toNat d = ⟨c, p⟩ := by
  refine ⟨_, Decimal.mk.injEq .. |>.mpr ⟨rfl, ?_⟩⟩
  omega

/-- On one grid a number has one coefficient. -/
theorem eq_of_value_eq {d e : Decimal} (hplaces : d.places = e.places)
    (hvalue : d.value = e.value) : d = e := by
  rcases d with ⟨c, p⟩
  rcases e with ⟨c', p'⟩
  obtain rfl : p = p' := hplaces
  have hcross := value_eq_iff.mp hvalue
  simp only [numerator, denominator] at hcross
  have hc := Nat.eq_of_mul_eq_mul_right (Nat.pow_pos (by decide))
    (Nat.eq_of_mul_eq_mul_right (Nat.pow_pos (by decide)) hcross)
  rw [hc]

theorem eq_refine_of_value_eq {d e : Decimal} (hplaces : d.places ≤ e.places)
    (hvalue : d.value = e.value) : e = refine (e.places - d.places).toNat d := by
  refine eq_of_value_eq ?_ ?_
  · simp only [refine]
    omega
  · rw [value_refine, hvalue]

theorem toDigits_ten_mul {n : Nat} (hn : 0 < n) :
    Nat.toDigits 10 (n * 10) = Nat.toDigits 10 n ++ ['0'] := by
  rw [Nat.toDigits_of_base_le (by decide) (by omega), Nat.mul_div_cancel n (by decide),
    Nat.mul_mod_left]
  rfl

/-- One more place appends a zero. -/
theorem padded_ten_mul {width : Nat} (hwidth : 0 < width) (n : Nat) :
    padded (width + 1) (n * 10) = padded width n ++ ['0'] := by
  rcases Nat.eq_zero_or_pos n with rfl | hn
  · obtain ⟨width, rfl⟩ := Nat.exists_eq_succ_of_ne_zero hwidth.ne'
    simp [padded, Nat.toDigits_zero, List.replicate_succ', List.append_assoc]
  · simp only [padded, toDigits_ten_mul hn, List.length_append, List.length_singleton,
      Nat.add_sub_add_right, List.append_assoc]

theorem length_padded {width n : Nat} (hwidth : 0 < width) (hn : n < 10 ^ width) :
    (padded width n).length = width := by
  have hlength := (Nat.length_toDigits_le_iff (b := 10) (by decide) hwidth).mpr hn
  simp only [padded, List.length_append, List.length_replicate]
  omega

theorem ofDigitChars_padded (width n init : Nat) :
    Nat.ofDigitChars 10 (padded width n) init =
      10 ^ (padded width n).length * init + n := by
  rw [Nat.ofDigitChars_eq_ofDigitChars_zero, padded, Nat.ofDigitChars_append,
    Nat.ofDigitChars_replicate_zero, Nat.mul_zero, Nat.ofDigitChars_ten_toDigits]

theorem trimZeros_append_zero (cs : List Char) : trimZeros (cs ++ ['0']) = trimZeros cs := by
  simp [trimZeros]

/-- Only zeros are trimmed. -/
theorem exists_eq_trimZeros_append (cs : List Char) :
    ∃ n, cs = trimZeros cs ++ List.replicate n '0' := by
  have hsplit := List.takeWhile_append_dropWhile (p := (· == '0')) (l := cs.reverse)
  have hzeros : ∀ c ∈ cs.reverse.takeWhile (· == '0'), c = '0' := by
    intro c hc
    have hzero := List.mem_takeWhile_imp hc
    exact eq_of_beq hzero
  refine ⟨(cs.reverse.takeWhile (· == '0')).length, ?_⟩
  rw [trimZeros, ← List.reverse_replicate, ← List.reverse_append, ← List.eq_replicate_of_mem hzeros,
    hsplit, List.reverse_reverse]

theorem wholeDigits_refine_one (d : Decimal) : (refine 1 d).wholeDigits = d.wholeDigits := by
  have hvalue := value_eq_iff.mp (value_refine 1 d)
  have hdiv : (refine 1 d).numerator / (refine 1 d).denominator = d.numerator / d.denominator := by
    rw [← Nat.mul_div_mul_right _ _ (denominator_pos d), hvalue,
      Nat.mul_comm (refine 1 d).denominator, Nat.mul_div_mul_right _ _ (denominator_pos _)]
  rw [wholeDigits, hdiv, wholeDigits]

theorem fractionDigits_natCast (c : Nat) {n : Nat} (hn : 0 < n) :
    (⟨c, n⟩ : Decimal).fractionDigits = padded n (c % 10 ^ n) := by
  have hplaces : ¬ ((n : Int) ≤ 0) := by omega
  rw [fractionDigits, if_neg hplaces, numerator_natCast, denominator_natCast, Int.toNat_natCast]

theorem trimZeros_fractionDigits_refine_one (d : Decimal) :
    trimZeros (refine 1 d).fractionDigits = trimZeros d.fractionDigits := by
  rcases d with ⟨c, p⟩
  rcases Int.lt_trichotomy p 0 with hneg | rfl | hpos
  · have hfine : p + 1 ≤ 0 := hneg
    simp [fractionDigits, refine, hfine, hneg.le]
  · have hmod : c * 10 % 10 = 0 := Nat.mul_mod_left c 10
    simp [fractionDigits, refine, numerator, denominator, hmod, padded, trimZeros]
  · obtain ⟨n, rfl⟩ := Int.eq_ofNat_of_zero_le hpos.le
    have hn : 0 < n := Int.ofNat_lt.mp hpos
    have hfine : refine 1 ⟨c, n⟩ = ⟨c * 10, (n + 1 : Nat)⟩ := by simp [refine]
    rw [hfine, fractionDigits_natCast _ n.succ_pos, fractionDigits_natCast _ hn, Nat.pow_succ,
      Nat.mul_mod_mul_right, padded_ten_mul hn, trimZeros_append_zero]

theorem plain_refine (n : Nat) (d : Decimal) : (refine n d).plain = d.plain := by
  induction n with
  | zero => rw [refine_zero]
  | succ n ih =>
    rw [refine_succ, plain, wholeDigits_refine_one, trimZeros_fractionDigits_refine_one, ← plain,
      ih]

theorem plain_eq_of_value_eq {d e : Decimal} (hvalue : d.value = e.value) :
    d.plain = e.plain := by
  rcases Int.le_total d.places e.places with hplaces | hplaces
  · rw [eq_refine_of_value_eq hplaces hvalue, plain_refine]
  · rw [eq_refine_of_value_eq hplaces hvalue.symm, plain_refine]

theorem isDigit_of_mem_wholeDigits {d : Decimal} {c : Char} (hc : c ∈ d.wholeDigits) :
    c.isDigit = true :=
  Nat.isDigit_of_mem_toDigits (by decide) (by decide) hc

theorem isDigit_of_mem_padded {width n : Nat} {c : Char} (hc : c ∈ padded width n) :
    c.isDigit = true := by
  rcases List.mem_append.mp hc with hzero | hdigit
  · rw [List.eq_of_mem_replicate hzero]
    rfl
  · exact Nat.isDigit_of_mem_toDigits (by decide) (by decide) hdigit

theorem isDigit_of_mem_trimZeros_fractionDigits {d : Decimal} {c : Char}
    (hc : c ∈ trimZeros d.fractionDigits) : c.isDigit = true := by
  obtain ⟨n, hsplit⟩ := exists_eq_trimZeros_append d.fractionDigits
  have hmem : c ∈ d.fractionDigits := by
    rw [hsplit]
    exact List.mem_append_left _ hc
  unfold fractionDigits at hmem
  split at hmem
  · cases hmem
  · exact isDigit_of_mem_padded hmem

theorem ofLiteral_append_withPoint {whole fraction : List Char}
    (hwhole : ∀ c ∈ whole, c.isDigit = true) :
    ofLiteral (whole ++ withPoint fraction) =
      ⟨Nat.ofDigitChars 10 (whole ++ fraction) 0, fraction.length⟩ := by
  have hnoPoint : ∀ c ∈ whole, (c != '.') = true := by
    intro c hc
    have hdigit := hwhole c hc
    simp only [bne_iff_ne]
    rintro rfl
    cases hdigit
  have htake : (whole ++ withPoint fraction).takeWhile (· != '.') = whole := by
    rw [List.takeWhile_append_of_pos hnoPoint]
    cases fraction <;> simp [withPoint]
  have hdrop : ((whole ++ withPoint fraction).dropWhile (· != '.')).drop 1 = fraction := by
    rw [List.dropWhile_append_of_pos hnoPoint]
    cases fraction <;> simp [withPoint]
  simp only [ofLiteral, htake, hdrop]

theorem value_ofDigitChars_digits (d : Decimal) :
    (⟨Nat.ofDigitChars 10 (d.wholeDigits ++ d.fractionDigits) 0, d.fractionDigits.length⟩ :
      Decimal).value = d.value := by
  rw [value_eq_iff, numerator_natCast, denominator_natCast, Nat.ofDigitChars_append, wholeDigits,
    Nat.ofDigitChars_ten_toDigits]
  rcases le_or_gt d.places 0 with hplaces | hplaces
  · have hden : d.denominator = 1 := by
      rw [denominator, Int.toNat_of_nonpos hplaces, Nat.pow_zero]
    simp [fractionDigits, hplaces, hden]
  · have hwidth : 0 < d.places.toNat := by omega
    have hmod : d.numerator % d.denominator < 10 ^ d.places.toNat :=
      Nat.mod_lt _ (denominator_pos d)
    have hdigits : d.fractionDigits = padded d.places.toNat (d.numerator % d.denominator) :=
      if_neg hplaces.not_ge
    have hpow : (10 : Nat) ^ d.places.toNat = d.denominator := rfl
    rw [hdigits, ofDigitChars_padded, length_padded hwidth hmod, hpow, Nat.div_add_mod]

/-- The digits are read as the number they were written for. -/
theorem value_ofLiteral_plain (d : Decimal) : (ofLiteral d.plain).value = d.value := by
  obtain ⟨n, hsplit⟩ := exists_eq_trimZeros_append d.fractionDigits
  have hread : ofLiteral d.plain = ⟨Nat.ofDigitChars 10 (d.wholeDigits ++
      trimZeros d.fractionDigits) 0, (trimZeros d.fractionDigits).length⟩ :=
    ofLiteral_append_withPoint fun c => isDigit_of_mem_wholeDigits
  have hfine : refine n (ofLiteral d.plain) =
      ⟨Nat.ofDigitChars 10 (d.wholeDigits ++ d.fractionDigits) 0, d.fractionDigits.length⟩ := by
    generalize trimZeros d.fractionDigits = trimmed at hread hsplit
    rw [hread, hsplit, refine, ← List.append_assoc,
      Nat.ofDigitChars_append (l := d.wholeDigits ++ trimmed), Nat.ofDigitChars_replicate_zero,
      Nat.mul_comm, List.length_append, List.length_replicate, Int.natCast_add]
  rw [← value_refine n, hfine, value_ofDigitChars_digits]

end Reckoner.Decimal
