import Reckoner.Decimal.Layout
import Reckoner.Decimal.Scientific
import Reckoner.Proofs.Reentry

/-!
# Exact texts are read back

A double is written by the digits of its shortest decimal, with a point among them or with an
exponent behind them. Either way the text is a numeral of that decimal's value, and the shortest
decimal reads back.
-/

namespace Reckoner

set_option autoImplicit false

namespace Decimal

theorem ne_e_of_isNumber {text : List Char} (h : Token.IsNumber text) :
    ∀ c ∈ text, (c != 'e') = true := by
  intro c hc
  rw [bne_iff_ne]
  rintro rfl
  rcases h.digits_or_point _ hc with hdigit | hpoint
  · cases hdigit
  · cases hpoint

theorem ofNumeral?_of_isNumber {text behind : List Char} (h : Token.IsNumber text)
    (hbehind : behind.head? = none ∨ behind.head? = some 'e') :
    ofNumeral? (text ++ behind) = (exponent? behind).map fun exponent =>
      ⟨(ofLiteral text).coefficient, (ofLiteral text).places - exponent⟩ := by
  have hstop : behind.takeWhile (· != 'e') = [] ∧ behind.dropWhile (· != 'e') = behind := by
    cases behind with
    | nil => exact ⟨rfl, rfl⟩
    | cons c others =>
      obtain rfl : c = 'e' := by simpa using hbehind
      exact ⟨rfl, rfl⟩
  have htake : (text ++ behind).takeWhile (· != 'e') = text := by
    rw [List.takeWhile_append_of_pos (ne_e_of_isNumber h), hstop.1, List.append_nil]
  have hdrop : (text ++ behind).dropWhile (· != 'e') = behind := by
    rw [List.dropWhile_append_of_pos (ne_e_of_isNumber h), hstop.2]
  simp only [ofNumeral?, htake, hdrop, if_pos h]

theorem ofNumeral?_eq_ofLiteral {text : List Char} (h : Token.IsNumber text) :
    ofNumeral? text = some (ofLiteral text) := by
  have hread := @ofNumeral?_of_isNumber text [] h (.inl rfl)
  rw [List.append_nil] at hread
  rw [hread, exponent?, Option.map_some, Int.sub_zero]

/-- A sign is no part of a numeral. -/
theorem ofNumeral?_minus (text : List Char) : ofNumeral? ('-' :: text) = none := by
  have hno : ¬ Token.IsNumber (('-' :: text).takeWhile (· != 'e')) := by
    intro h
    rcases h.digits_or_point '-' List.mem_cons_self with hdigit | hpoint
    · cases hdigit
    · cases hpoint
  rw [ofNumeral?]
  exact if_neg hno

theorem natural?_eq {digits : List Char} (hne : digits ≠ [])
    (hdigits : ∀ c ∈ digits, c.isDigit = true) :
    natural? digits = some (Nat.ofDigitChars 10 digits 0) :=
  if_pos ⟨hne, List.all_eq_true.mpr hdigits⟩

/-- The digits of an exponent: a zero in front of a single one changes nothing. -/
theorem natural?_exponentDigits (n : Nat) :
    natural? (if (Nat.toDigits 10 n).length < 2 then '0' :: Nat.toDigits 10 n
      else Nat.toDigits 10 n) = some n := by
  have hdigits : ∀ c ∈ Nat.toDigits 10 n, c.isDigit = true := fun c hc =>
    Nat.isDigit_of_mem_toDigits (by decide) (by decide) hc
  split
  · rw [natural?_eq (List.cons_ne_nil _ _) (List.forall_mem_cons.mpr ⟨rfl, hdigits⟩)]
    exact congrArg some Nat.ofDigitChars_ten_toDigits
  · rw [natural?_eq Nat.toDigits_ne_nil hdigits, Nat.ofDigitChars_ten_toDigits]

theorem exponent?_eq (exponent : Int) :
    exponent? (['e', if exponent < 0 then '-' else '+'] ++
      (if (Nat.toDigits 10 exponent.natAbs).length < 2 then '0' :: Nat.toDigits 10 exponent.natAbs
        else Nat.toDigits 10 exponent.natAbs)) = some exponent := by
  have hdigits := natural?_exponentDigits exponent.natAbs
  obtain ⟨digits, hsame⟩ : ∃ digits, (if (Nat.toDigits 10 exponent.natAbs).length < 2
      then '0' :: Nat.toDigits 10 exponent.natAbs else Nat.toDigits 10 exponent.natAbs) = digits :=
    ⟨_, rfl⟩
  rw [hsame] at hdigits ⊢
  by_cases hnegative : exponent < 0
  · rw [if_pos hnegative]
    have hread : exponent? ('e' :: '-' :: digits) =
        (natural? digits).map fun n : Nat => -(n : Int) := rfl
    refine hread.trans ?_
    rw [hdigits, Option.map_some]
    exact congrArg some (by omega)
  · rw [if_neg hnegative]
    have hread : exponent? ('e' :: '+' :: digits) =
        (natural? digits).map fun n : Nat => (n : Int) := rfl
    refine hread.trans ?_
    rw [hdigits, Option.map_some]
    exact congrArg some (by omega)

/-- Digits with an exponent are the decimal whose first digit counts that power of ten. -/
theorem ofNumeral?_withExponent {digits : List Char} (hne : digits ≠ [])
    (hdigits : ∀ c ∈ digits, c.isDigit = true) (exponent : Int) :
    ofNumeral? (withExponent digits exponent) =
      some ⟨Nat.ofDigitChars 10 digits 0, digits.length - 1 - exponent⟩ := by
  obtain ⟨first, others, rfl⟩ := List.exists_cons_of_ne_nil hne
  obtain ⟨hfirst, hothers⟩ := List.forall_mem_cons.mp hdigits
  have hwhole : ∀ c ∈ [first], c.isDigit = true := List.forall_mem_singleton.mpr hfirst
  have hnumber : Token.IsNumber ([first] ++ withPoint others) :=
    isNumber_append_withPoint (List.cons_ne_nil _ _) hwhole hothers
  have hliteral : ofLiteral ([first] ++ withPoint others) =
      ⟨Nat.ofDigitChars 10 (first :: others) 0, others.length⟩ :=
    ofLiteral_append_withPoint hwhole
  have hplaces : ((first :: others).length : Int) - 1 = others.length := by
    rw [List.length_cons]
    omega
  have htext : withExponent (first :: others) exponent = ([first] ++ withPoint others) ++
      (['e', if exponent < 0 then '-' else '+'] ++
        (if (Nat.toDigits 10 exponent.natAbs).length < 2
          then '0' :: Nat.toDigits 10 exponent.natAbs else Nat.toDigits 10 exponent.natAbs)) :=
    List.append_assoc _ _ _
  rw [htext, ofNumeral?_of_isNumber hnumber (.inr rfl), exponent?_eq, Option.map_some, hliteral,
    hplaces]

theorem value_ofLiteral_fixed (d : Decimal) : (ofLiteral d.fixed).value = d.value := by
  rw [fixed, ofLiteral_append_withPoint fun c => isDigit_of_mem_wholeDigits]
  exact value_ofDigitChars_digits d

theorem isDigit_of_mem_fractionDigits {d : Decimal} {c : Char} (hc : c ∈ d.fractionDigits) :
    c.isDigit = true := by
  unfold fractionDigits at hc
  split at hc
  · cases hc
  · exact isDigit_of_mem_padded hc

theorem isNumber_fixed (d : Decimal) : Token.IsNumber d.fixed :=
  isNumber_append_withPoint Nat.toDigits_ne_nil (fun _ => isDigit_of_mem_wholeDigits)
    fun _ => isDigit_of_mem_fractionDigits

/-- A whole number with one place more than it needs. -/
theorem value_ofLiteral_whole {d : Decimal} (h : d.places ≤ 0) :
    (ofLiteral (d.wholeDigits ++ ['.', '0'])).value = d.value := by
  have hnone : d.fractionDigits = [] := if_pos h
  have hvalue := value_ofDigitChars_digits d
  rw [hnone, List.append_nil] at hvalue
  have hread : ofLiteral (d.wholeDigits ++ withPoint ['0']) =
      ⟨Nat.ofDigitChars 10 (d.wholeDigits ++ ['0']) 0, 1⟩ :=
    ofLiteral_append_withPoint fun c => isDigit_of_mem_wholeDigits
  have hfine : (⟨Nat.ofDigitChars 10 (d.wholeDigits ++ ['0']) 0, 1⟩ : Decimal) =
      refine 1 ⟨Nat.ofDigitChars 10 d.wholeDigits 0, (0 : Nat)⟩ := by
    have hzero : Nat.ofDigitChars 10 ['0'] (Nat.ofDigitChars 10 d.wholeDigits 0) =
        Nat.ofDigitChars 10 d.wholeDigits 0 * 10 :=
      (Nat.mul_comm 10 _)
    rw [Nat.ofDigitChars_append, hzero, refine]
    rfl
  exact (congrArg value (hread.trans hfine)).trans ((value_refine 1 _).trans hvalue)

theorem isNumber_whole (d : Decimal) : Token.IsNumber (d.wholeDigits ++ ['.', '0']) :=
  isNumber_append_withPoint Nat.toDigits_ne_nil (fun _ => isDigit_of_mem_wholeDigits)
    (List.forall_mem_singleton.mpr rfl)

/-- The exact text is a numeral of a decimal that reads back. -/
theorem exists_ofNumeral?_exactOfRank (rank : Nat) :
    ∃ d, ofNumeral? (exactOfRank rank) = some d ∧ d.rank = rank := by
  unfold exactOfRank
  dsimp only
  split
  · refine ⟨shortest rank, ?_, rank_shortest rank⟩
    have hdigits : ∀ c ∈ (shortest rank).digits, c.isDigit = true := fun c hc =>
      Nat.isDigit_of_mem_toDigits (by decide) (by decide) hc
    have hplaces : ((shortest rank).digits.length : Int) - 1 - (shortest rank).exponent =
        (shortest rank).places := by
      rw [exponent]
      omega
    have hcoefficient : Nat.ofDigitChars 10 (shortest rank).digits 0 =
        (shortest rank).coefficient := Nat.ofDigitChars_ten_toDigits
    have hne : (shortest rank).digits ≠ [] := Nat.toDigits_ne_nil
    rw [ofNumeral?_withExponent hne hdigits, hplaces, hcoefficient]
  · split
    · rename_i hwhole
      refine ⟨_, ofNumeral?_eq_ofLiteral (isNumber_whole _), ?_⟩
      rw [rank_eq_of_value_eq (value_ofLiteral_whole hwhole), rank_shortest]
    · refine ⟨_, ofNumeral?_eq_ofLiteral (isNumber_fixed _), ?_⟩
      rw [rank_eq_of_value_eq (value_ofLiteral_fixed _), rank_shortest]

end Decimal

namespace Double

/-- The exact text of a finite double is read as that double, the sign of a zero included. -/
theorem ofNumeral?_exactText {x : Double} (h : x.isFinite = true) :
    ofNumeral? x.exactText = some x := by
  cases x with
  | nan => cases h
  | infinite negative => cases h
  | finite negative rank =>
    obtain ⟨d, hread, hrank⟩ := Decimal.exists_ofNumeral?_exactOfRank rank
    have hdouble : d.toDouble negative = .finite negative rank := by
      rw [Decimal.toDouble, hrank, ofRank_val]
    cases negative with
    | true =>
      have htext : (exactText (.finite true rank)).toList = '-' :: Decimal.exactOfRank rank :=
        String.toList_ofList
      rw [ofNumeral?, htext, List.head?_cons, if_pos rfl, List.drop_one, List.tail_cons, hread,
        Option.map_some, hdouble]
    | false =>
      have htext : (exactText (.finite false rank)).toList = Decimal.exactOfRank rank :=
        String.toList_ofList
      have hsign : (Decimal.exactOfRank rank).head? ≠ some '-' := by
        intro hminus
        obtain ⟨others, hothers⟩ := List.head?_eq_some_iff.mp hminus
        rw [hothers, Decimal.ofNumeral?_minus] at hread
        cases hread
      rw [ofNumeral?, htext, if_neg hsign, hread, Option.map_some, hdouble]

end Double

end Reckoner
