import Reckoner.Decimal.Positional
import Reckoner.Double.Nearest
import Reckoner.Proofs.DisplayedExactly
import Reckoner.Proofs.Hazard

/-!
# Number literals

A decimal is rounded to a rank or below just if it lies before the middle behind that rank, which
says where doubles end and where they begin. So a numeral, whatever its length, evaluates to the
double nearest to the sum of what its digits count, up to the middle between the greatest double and
the power of two behind it.
-/

namespace Reckoner

set_option autoImplicit false

namespace Double

/-- The number in the middle between a magnitude and the next one. -/
def middle (rank : Nat) : Rat := (magnitude rank + magnitude (rank + 1)) / 2

theorem cast_quantaPerUnit : (quantaPerUnit : ℚ) = 2 ^ binaryPlaces := Nat.cast_pow 2 binaryPlaces

theorem magnitude_of_quanta {rank steps e : Nat}
    (h : quantaOfRank rank = steps * 2 ^ (binaryPlaces + e)) : magnitude rank = steps * 2 ^ e := by
  have hunit : (quantaPerUnit : ℚ) ≠ 0 := Nat.cast_ne_zero.mpr quantaPerUnit_pos.ne'
  rw [magnitude_eq_div, div_eq_iff hunit, h, cast_quantaPerUnit]
  push_cast
  ring

theorem middle_zero : middle 0 = 1 / 2 ^ 1075 := by
  have hplaces : 1075 = binaryPlaces + 1 := by rw [binaryPlaces]
  have hquanta : quantaOfRank 1 = 1 := quantaOfRank_of_lt (by decide)
  rw [middle, magnitude_zero, zero_add, zero_add, magnitude_eq_div, hquanta, Nat.cast_one, hplaces,
    pow_succ, ← cast_quantaPerUnit, div_div]

/-- The middle between the greatest double and the power of two behind it. -/
theorem middle_greatest : middle (2047 * 2 ^ (52 : Nat) - 1) = 2 ^ 1024 - 2 ^ 970 := by
  have hgreatest : magnitude (2047 * 2 ^ (52 : Nat) - 1) =
      (2 ^ (53 : Nat) - 1 : Nat) * 2 ^ 971 := by
    have hsteps : 2 ^ (52 : Nat) + (2047 * 2 ^ (52 : Nat) - 1) % 2 ^ (52 : Nat) =
        2 ^ (53 : Nat) - 1 := by decide
    have hscale : (2047 * 2 ^ (52 : Nat) - 1) / 2 ^ (52 : Nat) - 1 = binaryPlaces + 971 := by
      rw [binaryPlaces]
    refine magnitude_of_quanta ?_
    rw [quantaOfRank_of_le (by decide), hsteps, hscale]
  have hbehind : magnitude (2047 * 2 ^ (52 : Nat) - 1 + 1) = (2 ^ (52 : Nat) : Nat) * 2 ^ 972 := by
    have hsteps : 2 ^ (52 : Nat) + (2047 * 2 ^ (52 : Nat) - 1 + 1) % 2 ^ (52 : Nat) =
        2 ^ (52 : Nat) := by decide
    have hscale : (2047 * 2 ^ (52 : Nat) - 1 + 1) / 2 ^ (52 : Nat) - 1 = binaryPlaces + 972 := by
      rw [binaryPlaces]
    refine magnitude_of_quanta ?_
    rw [quantaOfRank_of_le (by decide), hsteps, hscale]
  have hpower : (2 : ℚ) ^ 1024 = 2 ^ 54 * 2 ^ 970 := by rw [← pow_add]
  have hpower' : (2 : ℚ) ^ 971 = 2 * 2 ^ 970 := pow_succ' 2 970
  have hpower'' : (2 : ℚ) ^ 972 = 2 * 2 ^ 971 := pow_succ' 2 971
  rw [middle, hgreatest, hbehind, hpower'', hpower', hpower]
  generalize (2 : ℚ) ^ 970 = unit
  norm_num
  ring

end Double

namespace Decimal

open Double

theorem value_eq_ratio (d : Decimal) :
    d.value = ((d.numerator * quantaPerUnit : Nat) : ℚ) / d.denominator / quantaPerUnit := by
  have hunit : (quantaPerUnit : ℚ) ≠ 0 := Nat.cast_ne_zero.mpr quantaPerUnit_pos.ne'
  rw [value_eq_div]
  push_cast
  field_simp

theorem rank_nearest (d : Decimal) (rank : Nat) :
    |magnitude d.rank - d.value| ≤ |magnitude rank - d.value| ∧
      (rank ≠ d.rank → |magnitude d.rank - d.value| = |magnitude rank - d.value| →
        d.rank % 2 = 0) := by
  rw [value_eq_ratio]
  exact magnitude_rankOfRatio_nearest _ (denominator_pos d) rank

theorem le_middle_of_near {a b v : ℚ} (hab : a < b) (h : |a - v| ≤ |b - v|) : v ≤ (a + b) / 2 := by
  rcases abs_cases (a - v) with ⟨ha, _⟩ | ⟨ha, _⟩ <;>
    rcases abs_cases (b - v) with ⟨hb, _⟩ | ⟨hb, _⟩ <;> linarith

theorem middle_le_of_near {a b v : ℚ} (hab : a < b) (h : |b - v| ≤ |a - v|) : (a + b) / 2 ≤ v := by
  rcases abs_cases (a - v) with ⟨ha, _⟩ | ⟨ha, _⟩ <;>
    rcases abs_cases (b - v) with ⟨hb, _⟩ | ⟨hb, _⟩ <;> linarith

theorem abs_middle_sub (a b : ℚ) : |a - (a + b) / 2| = |b - (a + b) / 2| := by
  rw [← abs_neg]
  congr 1
  ring

/-- A decimal is rounded to a rank or below just if it lies below the middle behind that rank, or in
that middle and the rank is even. -/
theorem rank_le_iff (d : Decimal) (rank : Nat) :
    d.rank ≤ rank ↔ d.value < middle rank ∨ d.value = middle rank ∧ rank % 2 = 0 := by
  have hstep : magnitude rank < magnitude (rank + 1) := magnitude_strictMono (Nat.lt_succ_self rank)
  constructor
  · intro hle
    have hbelow : magnitude d.rank ≤ magnitude rank := magnitude_strictMono.monotone hle
    obtain ⟨hnear, htie⟩ := rank_nearest d (rank + 1)
    have hvalue := le_middle_of_near (hbelow.trans_lt hstep) hnear
    rcases lt_or_eq_of_le (hvalue.trans (show _ ≤ middle rank by unfold middle; linarith)) with
      hlt | heq
    · exact Or.inl hlt
    · refine Or.inr ⟨heq, ?_⟩
      have hsame : d.rank = rank := by
        refine magnitude_strictMono.injective (le_antisymm hbelow ?_)
        unfold middle at heq
        linarith
      rw [hsame] at htie
      refine htie (Nat.succ_ne_self rank) ?_
      rw [heq]
      exact abs_middle_sub _ _
  · intro hvalue
    by_contra hgt
    have habove : magnitude (rank + 1) ≤ magnitude d.rank :=
      magnitude_strictMono.monotone (Nat.lt_of_not_ge hgt)
    obtain ⟨hnear, htie⟩ := rank_nearest d rank
    have hmiddle := middle_le_of_near (hstep.trans_le habove) hnear
    have hle : middle rank ≤ (magnitude rank + magnitude d.rank) / 2 := by
      unfold middle
      linarith
    rcases hvalue with hlt | ⟨heq, heven⟩
    · linarith
    · have hnext : d.rank = rank + 1 := by
        refine magnitude_strictMono.injective (le_antisymm ?_ habove)
        unfold middle at heq
        linarith
      rw [hnext] at htie
      have hodd := htie (Nat.succ_ne_self rank).symm (by rw [heq]; exact (abs_middle_sub _ _).symm)
      omega

theorem rank_eq_zero_iff (d : Decimal) : d.rank = 0 ↔ d.value ≤ 1 / 2 ^ 1075 := by
  rw [← Nat.le_zero, rank_le_iff, middle_zero, le_iff_lt_or_eq]
  simp only [Nat.zero_mod, and_true]

theorem rank_lt_iff (d : Decimal) :
    d.rank < 2047 * 2 ^ (52 : Nat) ↔ d.value < 2 ^ 1024 - 2 ^ 970 := by
  have hodd : ¬ (2047 * 2 ^ (52 : Nat) - 1) % 2 = 0 := by decide
  have hlt : d.rank < 2047 * 2 ^ (52 : Nat) ↔ d.rank ≤ 2047 * 2 ^ (52 : Nat) - 1 := by omega
  rw [hlt, rank_le_iff, middle_greatest]
  simp only [hodd, and_false, or_false]

/-- The double that a decimal is rounded to is the nearest of all. -/
theorem isNearest_toDouble {d : Decimal} {rank : Fin (2047 * 2 ^ (52 : Nat))} (h : d.rank = rank) :
    IsNearest d.value (.finite false rank) := by
  rw [value_eq_ratio]
  exact isNearest_of_rankOfRatio (denominator_pos d) h

theorem ofDigitChars_cons_zero (c : Char) (cs : List Char) : Nat.ofDigitChars 10 (c :: cs) 0 =
    10 ^ cs.length * (c.toNat - '0'.toNat) + Nat.ofDigitChars 10 cs 0 := by
  rw [Nat.ofDigitChars_cons, Nat.ofDigitChars_eq_ofDigitChars_zero, Nat.mul_zero, Nat.zero_add]

theorem wholePart_eq (cs : List Char) : wholePart cs = Nat.ofDigitChars 10 cs 0 := by
  induction cs with
  | nil => rfl
  | cons c rest ih =>
    rw [wholePart, ih, digit, ofDigitChars_cons_zero]
    push_cast
    ring

theorem fractionPart_eq (cs : List Char) :
    fractionPart cs = Nat.ofDigitChars 10 cs 0 / 10 ^ cs.length := by
  induction cs with
  | nil => simp [fractionPart]
  | cons c rest ih =>
    rw [fractionPart, ih, digit, ofDigitChars_cons_zero, List.length_cons]
    push_cast
    field_simp
    ring

/-- The digits of a numeral add up to the decimal that it is read as. -/
theorem value_ofLiteral (numeral : List Char) : (ofLiteral numeral).value = positional numeral := by
  rw [positional, wholePart_eq, fractionPart_eq, ofLiteral, value_natCast, Nat.ofDigitChars_append,
    Nat.ofDigitChars_eq_ofDigitChars_zero]
  push_cast
  field_simp

end Decimal

namespace Token

theorem segments_of_blanks {cs text rest : List Char} {position : Nat} {pieces : List Piece}
    (hblank : ∀ c ∈ cs, Text.isBlank c = true)
    (hcut : Segments (position + cs.length) text pieces rest) :
    Segments position (cs ++ text) (cs.map .blank ++ pieces) rest := by
  induction cs generalizing position with
  | nil => exact hcut
  | cons c others ih =>
    obtain ⟨hfirst, hothers⟩ := List.forall_mem_cons.mp hblank
    refine .more (.blank hfirst) (ih hothers ?_)
    have hplace : position + 1 + others.length = position + (c :: others).length := by
      rw [List.length_cons]
      omega
    rw [← hplace] at hcut
    exact hcut

theorem tokens_blanks (cs : List Char) : Piece.tokens (cs.map .blank) = [] := by
  rw [Piece.tokens, List.filterMap_map]
  exact List.filterMap_eq_nil_iff.mpr fun _ _ => rfl

/-- A numeral among blanks is scanned as one number. -/
theorem scan_numeral {before numeral after : List Char} (hnumber : IsNumber numeral)
    (hbefore : ∀ c ∈ before, Text.isBlank c = true) (hafter : ∀ c ∈ after, Text.isBlank c = true) :
    scan (String.ofList (before ++ numeral ++ after)) = .ok [number numeral before.length] := by
  have hends : ∀ c, after.head? = some c → EndsNumber numeral c := by
    intro c hc
    have hblank := hafter c (List.mem_of_head? hc)
    refine ⟨?_, ?_⟩
    · by_contra hdigit
      rw [Text.isBlank_eq_false_of_isDigit (Bool.not_eq_false _ ▸ hdigit)] at hblank
      cases hblank
    · rintro rfl
      cases hblank
  have hbehind : Segments (before.length + numeral.length) after (after.map .blank) [] := by
    have hall : Segments (before.length + numeral.length) (after ++ [])
        (after.map .blank ++ []) [] := segments_of_blanks hafter .done
    rwa [List.append_nil, List.append_nil] at hall
  have hcut : Segments 0 (String.ofList (before ++ numeral ++ after)).toList
      (before.map .blank ++ .spanned numeral (number numeral before.length) ::
        after.map .blank) [] := by
    rw [String.toList_ofList, List.append_assoc]
    refine segments_of_blanks hbefore ?_
    rw [Nat.zero_add]
    exact .more (.number hnumber hends) hbehind
  have htokens : Piece.tokens (before.map .blank ++
      .spanned numeral (number numeral before.length) :: after.map .blank) =
        Piece.tokens (before.map .blank) ++ number numeral before.length ::
          Piece.tokens (after.map .blank) := by
    simp [Piece.tokens, Piece.token?]
  rw [scan_of_segments hcut, htokens, tokens_blanks, tokens_blanks, List.nil_append]

end Token

theorem evaluateTokens_number (mode : AngleMode) (name : String) (x : Double)
    (position : Option Int) :
    evaluateTokens mode [{ kind := .number, name, value := some x, position }] =
      if x.isFinite = true then .ok x else .error .nonFiniteResult := rfl

/-- A numeral among blanks is worth the double that it is read as, if that is finite. -/
theorem evaluate_numeral (mode : AngleMode) {before numeral after : List Char}
    (hnumber : Token.IsNumber numeral) (hbefore : ∀ c ∈ before, Text.isBlank c = true)
    (hafter : ∀ c ∈ after, Text.isBlank c = true) :
    evaluate mode (some (String.ofList (before ++ numeral ++ after))) =
      if ((Decimal.ofLiteral numeral).toDouble false).isFinite = true then
        .ok ((Decimal.ofLiteral numeral).toDouble false)
      else .error .nonFiniteResult := by
  have hscan := Token.scan_numeral hnumber hbefore hafter
  have hblank : isEmptyExpression (some (String.ofList (before ++ numeral ++ after))) = false :=
    Token.allBlank_eq_false hscan (List.cons_ne_nil _ _)
  simp only [evaluate, hblank, Bool.false_eq_true, if_false, Option.getD_some, hscan]
  exact evaluateTokens_number mode _ _ _

/-- A numeral of any length, with blanks around it or not, evaluates in either mode to the nearest
of all doubles, and of two that are equally near to the one with the even significand. It has no
sign, and is zero up to half the least double. From the middle between the greatest double and the
power of two behind it on, the result is not finite. -/
theorem evaluate_literal (mode : AngleMode) {before numeral after : List Char}
    (hnumber : Token.IsNumber numeral) (hbefore : ∀ c ∈ before, Text.isBlank c = true)
    (hafter : ∀ c ∈ after, Text.isBlank c = true) :
    (Decimal.positional numeral < 2 ^ 1024 - 2 ^ 970 →
      ∃ rank, evaluate mode (some (String.ofList (before ++ numeral ++ after))) =
          .ok (.finite false rank) ∧
        (Double.finite false rank).IsNearest (Decimal.positional numeral) ∧
        (Double.finite false rank = Double.zero ↔ Decimal.positional numeral ≤ 1 / 2 ^ 1075)) ∧
    (2 ^ 1024 - 2 ^ 970 ≤ Decimal.positional numeral →
      evaluate mode (some (String.ofList (before ++ numeral ++ after))) =
        .error .nonFiniteResult) := by
  rw [evaluate_numeral mode hnumber hbefore hafter, ← Decimal.value_ofLiteral]
  generalize Decimal.ofLiteral numeral = d
  constructor
  · intro hsmall
    have hrank := d.rank_lt_iff.mpr hsmall
    have hdouble : d.toDouble false = .finite false ⟨d.rank, hrank⟩ :=
      Decimal.toDouble_eq_finite_iff.mpr rfl
    refine ⟨⟨d.rank, hrank⟩, ?_, Decimal.isNearest_toDouble rfl, ?_⟩
    · rw [hdouble]
      exact if_pos rfl
    · rw [← d.rank_eq_zero_iff, Double.zero, Double.finite.injEq, Fin.ext_iff]
      exact and_iff_right rfl
  · intro hlarge
    have hrank := mt d.rank_lt_iff.mp (not_lt.mpr hlarge)
    have hdouble : d.toDouble false = .infinite false := by
      rw [Decimal.toDouble, Double.ofRank, dif_neg hrank]
    rw [hdouble]
    exact if_neg Bool.false_ne_true

/-- A numeral halfway between two doubles goes to the even one, and one with too many digits before
its point has no finite value. -/
theorem evaluate_literal_halfway :
    Token.IsNumber "9007199254740993.".toList ∧ Text.isBlank '\t' = true ∧
      Decimal.positional "9007199254740993.".toList = 9007199254740993 ∧
      evaluate .degrees (some "\t9007199254740993. ") = .ok (Double.ofNat 9007199254740992) ∧
      (Double.ofNat 9007199254740992).IsNearest 9007199254740993 ∧
      Token.IsNumber ('1' :: List.replicate 309 '0') ∧
      evaluate .radians (some (String.ofList ('1' :: List.replicate 309 '0'))) =
        .error .nonFiniteResult := by
  have hnumber : Token.IsNumber "9007199254740993.".toList := by decide +kernel
  have hlong : Token.IsNumber ('1' :: List.replicate 309 '0') := by decide +kernel
  have hbefore : ∀ c ∈ ['\t'], Text.isBlank c = true := List.forall_mem_singleton.mpr rfl
  have hafter : ∀ c ∈ [' '], Text.isBlank c = true := List.forall_mem_singleton.mpr rfl
  have hvalue : Decimal.positional "9007199254740993.".toList = 9007199254740993 := by
    decide +kernel
  have hsmall : Decimal.positional "9007199254740993.".toList < 2 ^ 1024 - 2 ^ 970 := by
    decide +kernel
  have hlarge : 2 ^ 1024 - 2 ^ 970 ≤ Decimal.positional ('1' :: List.replicate 309 '0') := by
    decide +kernel
  have htext : String.ofList (['\t'] ++ "9007199254740993.".toList ++ [' ']) =
      "\t9007199254740993. " := by decide +kernel
  have heven : evaluate .degrees (some "\t9007199254740993. ") =
      .ok (Double.ofNat 9007199254740992) := by decide +kernel
  obtain ⟨rank, hevaluate, hnearest, _⟩ :=
    (evaluate_literal .degrees hnumber hbefore hafter).1 hsmall
  have hinfinite := (evaluate_literal .radians hlong (List.forall_mem_nil _)
    (List.forall_mem_nil _)).2 hlarge
  rw [htext, heven, Except.ok.injEq] at hevaluate
  rw [List.nil_append, List.append_nil] at hinfinite
  rw [← hevaluate, hvalue] at hnearest
  exact ⟨hnumber, hbefore _ List.mem_cons_self, hvalue, heven, hnearest, hlong, hinfinite⟩

end Reckoner
