import Reckoner.Decimal.Display
import Reckoner.Proofs.DecimalGrid
import Reckoner.Proofs.LongestMatch
import Reckoner.Proofs.Meaning

/-!
# Displayed numbers as expressions

A displayed number is an expression in its own right. What it evaluates to is displayed in the same
way, and it is the number itself unless fraction digits had to be cut off.
-/

namespace Reckoner

set_option autoImplicit false

namespace Decimal

open Double

theorem within_eq_shortest {places rank : Nat} (h : (shortest rank).places ≤ places) :
    within places rank = shortest rank := if_pos h

theorem within_eq_rounded {places rank : Nat} (h : ¬ (shortest rank).places ≤ places) :
    within places rank = rounded places rank := if_neg h

theorem places_within_le (places rank : Nat) : (within places rank).places ≤ places := by
  by_cases h : (shortest rank).places ≤ places
  · rw [within_eq_shortest h]
    exact h
  · rw [within_eq_rounded h]
    exact Int.le_refl _

/-- What is displayed reads back just if any decimal with at most fifteen places does. -/
theorem rank_within_eq_iff {rank : Nat} :
    (within 15 rank).rank = rank ↔ ∃ d : Decimal, d.rank = rank ∧ d.places ≤ 15 := by
  constructor
  · intro h
    exact ⟨within 15 rank, h, places_within_le 15 rank⟩
  · rintro ⟨d, hrank, hplaces⟩
    rw [within_eq_shortest (places_shortest_le hrank hplaces), rank_shortest]

/-- A number whose digits are cut off is less than eight. -/
theorem magnitude_lt_of_cut {rank : Nat} (h : ¬ (shortest rank).places ≤ (15 : Nat)) :
    magnitude rank < 8 :=
  lt_of_not_ge fun hlarge => h (places_shortest_le_of_large hlarge)

/-- The nearest decimal with fifteen places to a number below eight is at most eight. -/
theorem exists_rounded_eq {rank : Nat} (h : magnitude rank < 8) :
    ∃ k, rounded 15 rank = ⟨k, (15 : Nat)⟩ ∧ k ≤ 8 * 10 ^ 15 := by
  refine ⟨_, rfl, ?_⟩
  have hquanta : quantaOfRank rank < 8 * quantaPerUnit := by
    rw [← quantaOfRank_eight]
    refine quantaOfRank_strictMono (magnitude_strictMono.lt_iff_lt.mp ?_)
    rw [magnitude_eight]
    exact h
  calc roundDiv (quantaOfRank rank * 10 ^ 15) quantaPerUnit ≤
      roundDiv (8 * 10 ^ 15 * quantaPerUnit) quantaPerUnit := roundDiv_mono _ (by omega)
    _ = 8 * 10 ^ 15 := roundDiv_mul_self _ quantaPerUnit_pos

/-- What is displayed is read as a number near by. -/
theorem magnitude_rank_within_near (rank : Nat) :
    |magnitude (within 15 rank).rank - magnitude rank| < 1 / 10 ^ 15 := by
  by_cases hfits : (shortest rank).places ≤ (15 : Nat)
  · rw [within_eq_shortest hfits, rank_shortest, sub_self, abs_zero]
    positivity
  · obtain ⟨k, hrounded, hk⟩ := exists_rounded_eq (magnitude_lt_of_cut hfits)
    have hcut := value_rounded_near 15 rank
    rw [within_eq_rounded hfits]
    rw [hrounded] at hcut ⊢
    have hread := magnitude_rank_near_of_small hk
    have hfine : (1 : ℚ) / 2 ^ 51 + 1 / (2 * 10 ^ 15) < 1 / 10 ^ 15 := by norm_num
    calc |magnitude (⟨k, (15 : Nat)⟩ : Decimal).rank - magnitude rank| ≤
        |magnitude (⟨k, (15 : Nat)⟩ : Decimal).rank - (⟨k, (15 : Nat)⟩ : Decimal).value| +
          |(⟨k, (15 : Nat)⟩ : Decimal).value - magnitude rank| := abs_sub_le _ _ _
      _ < 1 / 10 ^ 15 := by linarith

theorem rank_within_lt {rank : Nat} (h : rank < 2047 * 2 ^ (52 : Nat)) :
    (within 15 rank).rank < 2047 * 2 ^ (52 : Nat) := by
  by_cases hfits : (shortest rank).places ≤ (15 : Nat)
  · rw [within_eq_shortest hfits, rank_shortest]
    exact h
  · obtain ⟨k, hrounded, hk⟩ := exists_rounded_eq (magnitude_lt_of_cut hfits)
    have hle : (⟨k, (15 : Nat)⟩ : Decimal).rank ≤ (⟨8 * 10 ^ 15, (15 : Nat)⟩ : Decimal).rank :=
      rank_mono (value_le_of_le hk)
    rw [rank_eq_of_value_eq_magnitude value_eight] at hle
    rw [within_eq_rounded hfits, hrounded]
    unfold rankOfEight at hle
    omega

/-- What is displayed is displayed again in the same way once it has been read. -/
theorem plain_within_rank_within (rank : Nat) :
    (within 15 (within 15 rank).rank).plain = (within 15 rank).plain := by
  by_cases hfits : (shortest rank).places ≤ (15 : Nat)
  · rw [within_eq_shortest hfits, rank_shortest, within_eq_shortest hfits]
  · obtain ⟨k, hrounded, hk⟩ := exists_rounded_eq (magnitude_lt_of_cut hfits)
    rw [within_eq_rounded hfits, hrounded]
    have hagain : (shortest (⟨k, (15 : Nat)⟩ : Decimal).rank).places ≤ (15 : Nat) :=
      places_shortest_le rfl (Int.le_refl _)
    rw [within_eq_shortest hagain]
    refine plain_eq_of_value_eq ?_
    -- on the grid with fifteen places both have one coefficient, for both are read alike
    obtain ⟨c, hfine⟩ := exists_refine_eq hagain
    have hvalue : (⟨c, (15 : Nat)⟩ : Decimal).value =
        (shortest (⟨k, (15 : Nat)⟩ : Decimal).rank).value := by rw [← hfine, value_refine]
    have hrank := rank_eq_of_value_eq hvalue
    rw [rank_shortest] at hrank
    rw [← hvalue, eq_of_rank_eq hk hrank.symm]

theorem plain_zero : (⟨0, 0⟩ : Decimal).plain = ['0'] := by decide

/-- Only zero is displayed as zero is. -/
theorem plain_eq_zero_iff {d : Decimal} : d.plain = ['0'] ↔ d.value = 0 := by
  have hzero : (⟨0, 0⟩ : Decimal).value = 0 := by simp [value_eq_div, numerator]
  constructor
  · intro h
    have hread : ofLiteral ['0'] = ⟨0, 0⟩ := by decide
    rw [← value_ofLiteral_plain, h, hread, hzero]
  · intro h
    rw [plain_eq_of_value_eq (h.trans hzero.symm), plain_zero]

theorem toDouble_ofLiteral_plain (negative : Bool) {d : Decimal}
    (h : d.rank < 2047 * 2 ^ (52 : Nat)) :
    (ofLiteral d.plain).toDouble negative = .finite negative ⟨d.rank, h⟩ := by
  have hrank : (ofLiteral d.plain).rank = d.rank := rank_eq_of_value_eq d.value_ofLiteral_plain
  rw [toDouble, hrank, ofRank, dif_pos h]

theorem count_point_eq_zero_of_isDigit {cs : List Char} (hcs : ∀ c ∈ cs, c.isDigit = true) :
    cs.count '.' = 0 :=
  List.count_eq_zero.mpr fun hmem => absurd (hcs '.' hmem) (by decide)

theorem isNumber_append_withPoint {whole fraction : List Char} (hne : whole ≠ [])
    (hwhole : ∀ c ∈ whole, c.isDigit = true) (hfraction : ∀ c ∈ fraction, c.isDigit = true) :
    Token.IsNumber (whole ++ withPoint fraction) := by
  obtain ⟨first, rest, rfl⟩ := List.exists_cons_of_ne_nil hne
  refine ⟨?_, ?_, first, List.mem_cons_self, hwhole first List.mem_cons_self⟩
  · intro c hc
    rcases List.mem_append.mp hc with hc | hc
    · exact Or.inl (hwhole c hc)
    · cases fraction with
      | nil => cases hc
      | cons d others =>
        rcases List.mem_cons.mp hc with rfl | hc
        · exact Or.inr rfl
        · exact Or.inl (hfraction c hc)
  · rw [List.count_append, count_point_eq_zero_of_isDigit hwhole, Nat.zero_add]
    cases fraction with
    | nil => exact Nat.zero_le _
    | cons d others =>
      have hcount := count_point_eq_zero_of_isDigit hfraction
      exact (List.count_cons_self.trans (by rw [hcount])).le

theorem isNumber_plain (d : Decimal) : Token.IsNumber d.plain :=
  isNumber_append_withPoint Nat.toDigits_ne_nil (fun _ => isDigit_of_mem_wholeDigits)
    fun _ => isDigit_of_mem_trimZeros_fractionDigits

end Decimal

namespace Token

theorem starts_plain (d : Decimal) (position : Nat) :
    Starts position d.plain (.spanned d.plain (number d.plain position)) [] := by
  have h : Starts position (d.plain ++ []) (.spanned d.plain (number d.plain position)) [] :=
    .number d.isNumber_plain (fun c hc => by cases hc)
  rw [List.append_nil] at h
  exact h

theorem scan_plain (d : Decimal) : scan (String.ofList d.plain) = .ok [number d.plain 0] := by
  have hcut : Segments 0 (String.ofList d.plain).toList
      [.spanned d.plain (number d.plain 0)] [] := by
    rw [String.toList_ofList]
    exact .more (starts_plain d 0) .done
  exact scan_of_segments hcut

theorem scan_minus_plain (d : Decimal) :
    scan (String.ofList ('-' :: d.plain)) =
      .ok [symbol .operator '-' 0, number d.plain 1] := by
  have hcut : Segments 0 (String.ofList ('-' :: d.plain)).toList
      [.spanned ['-'] (symbol .operator '-' 0), .spanned d.plain (number d.plain 1)] [] := by
    rw [String.toList_ofList]
    exact .more (.symbol rfl) (.more (starts_plain d 1) .done)
  exact scan_of_segments hcut

end Token

/-- The value of a text is that of the tree it reads as. -/
theorem evaluate_of_expression {mode : AngleMode} {text : String} {tokens : List Token}
    {tree : Tree} {x : Double} (hscan : Token.scan text = .ok tokens)
    (hderived : Infix.Expression tokens tree) (hwellFormed : tree.WellFormed)
    (hvalue : tree.value mode = .ok x) (hfinite : x.isFinite = true) :
    evaluate mode (some text) = .ok x := by
  have hblank : isEmptyExpression (some text) = false :=
    Token.allBlank_eq_false hscan (ne_nil_of_expression hderived)
  have harrange := Postorder.arrange_of_expression hderived
  have houtcome := Program.evaluate_of_spells ⟨hwellFormed, rfl⟩ mode
  simp only [Tree.outcome, hvalue, hfinite, if_true] at houtcome
  simp only [evaluate, hblank, Bool.false_eq_true, if_false, Option.getD_some, hscan,
    evaluateTokens, harrange]
  cases hresult : Program.evaluate mode tree.postorder with
  | error failure =>
    rw [hresult] at houtcome
    cases houtcome
  | ok y =>
    rw [hresult] at houtcome
    cases houtcome
    rfl

/-- The text of a decimal evaluates to the nearest double, and with a minus in front to the
opposite one. -/
theorem evaluate_plain (mode : AngleMode) (negative : Bool) {d : Decimal}
    (h : d.rank < 2047 * 2 ^ (52 : Nat)) :
    evaluate mode (some (String.ofList (if negative then '-' :: d.plain else d.plain))) =
      .ok (.finite negative ⟨d.rank, h⟩) := by
  have hwellFormed (position : Nat) : Tree.WellFormed (.node (Token.number d.plain position) []) :=
    .node (Token.arity?_number rfl) (List.forall_mem_nil _)
  have hvalue (position : Nat) : Tree.value mode (.node (Token.number d.plain position) []) =
      .ok (.finite false ⟨d.rank, h⟩) := by
    simp only [Tree.value, Tree.values, Token.result, Token.number, Option.getD_some,
      Decimal.toDouble_ofLiteral_plain false h]
  cases negative with
  | false =>
    exact evaluate_of_expression (Token.scan_plain d)
      (.ofProduct (.ofSigned (.ofPower (.ofAtom (.number rfl))))) (hwellFormed 0) (hvalue 0) rfl
  | true =>
    refine evaluate_of_expression (Token.scan_minus_plain d)
      (.ofProduct (.ofSigned (.negative ⟨rfl, by decide⟩ (.ofPower (.ofAtom (.number rfl))))))
      (.node rfl (List.forall_mem_singleton.mpr (hwellFormed 1))) ?_ rfl
    have hminus : operator? prefixedMinus = some ⟨3, .right, .unary .neg⟩ := by decide
    rw [Tree.value, Tree.values, hvalue]
    simp only [Tree.values, Except.map, Token.result, Infix.negation, hminus, Operation.result,
      Operation.apply?, UnaryOperation.apply, Double.neg, Bool.not_false]

namespace Double

/-- What the text of a finite double evaluates to. A zero loses its sign, and so does a number
that is displayed as zero. -/
def reread (negative : Bool) (rank : Fin (2047 * 2 ^ (52 : Nat))) : Double :=
  .finite (negative && (Decimal.within 15 rank).plain != ['0'])
    ⟨(Decimal.within 15 rank).rank, Decimal.rank_within_lt rank.isLt⟩

theorem displayChars_finite (negative : Bool) (rank : Fin (2047 * 2 ^ (52 : Nat))) :
    displayChars defaultPlaces (.finite negative rank) =
      if negative && (Decimal.within 15 rank).plain != ['0'] then
        '-' :: (Decimal.within 15 rank).plain
      else (Decimal.within 15 rank).plain := rfl

theorem display_reread (negative : Bool) (rank : Fin (2047 * 2 ^ (52 : Nat))) :
    (reread negative rank).display = (finite negative rank).display := by
  rw [display, displayWith, reread, displayChars_finite, display, displayWith, displayChars_finite,
    Decimal.plain_within_rank_within, Bool.and_assoc, Bool.and_self]

theorem rank_within_eq_zero {rank : Nat} (h : (Decimal.within 15 rank).plain = ['0']) :
    (Decimal.within 15 rank).rank = 0 := by
  refine Decimal.rank_eq_of_value_eq_magnitude ?_
  rw [Decimal.plain_eq_zero_iff.mp h, magnitude_zero]

/-- The sign is lost only where what is left is zero. -/
theorem sign_reread (negative : Bool) (rank : Nat) :
    (negative && (Decimal.within 15 rank).plain != ['0']) = negative ∨
      (Decimal.within 15 rank).rank = 0 := by
  by_cases h : (Decimal.within 15 rank).plain = ['0']
  · exact Or.inr (rank_within_eq_zero h)
  · left
    rw [bne_iff_ne.mpr h, Bool.and_true]

/-- What is read is near the number that was displayed. -/
theorem reread_near (negative : Bool) (rank : Fin (2047 * 2 ^ (52 : Nat))) :
    ∃ p q : ℚ, (finite negative rank).value? = some p ∧
      (reread negative rank).value? = some q ∧ |q - p| < 1 / 10 ^ 15 := by
  refine ⟨_, _, value?_finite _ _, value?_finite _ _, ?_⟩
  have hnear := Decimal.magnitude_rank_within_near rank
  rcases sign_reread negative rank with hsign | hzero
  · rw [hsign]
    cases negative with
    | false =>
      rw [if_neg Bool.false_ne_true, if_neg Bool.false_ne_true]
      exact hnear
    | true =>
      rw [if_pos rfl, if_pos rfl, neg_sub_neg, abs_sub_comm]
      exact hnear
  · simp only [hzero, magnitude_zero, neg_zero, ite_self, zero_sub, abs_neg] at hnear ⊢
    rw [abs_signed]
    exact hnear

theorem finite_eq_neg_zero_iff (negative : Bool) (rank : Fin (2047 * 2 ^ (52 : Nat))) :
    finite negative rank = zero.neg ↔ negative = true ∧ rank.val = 0 := by
  rw [zero, neg, finite.injEq, Bool.not_false, Fin.ext_iff]

theorem plain_within_zero : (Decimal.within 15 0).plain = ['0'] := by
  have hzero : Decimal.shortest 0 = ⟨0, 0⟩ := if_pos rfl
  have hfits : (Decimal.shortest 0).places ≤ (15 : Nat) := by
    rw [hzero]
    exact Int.natCast_nonneg 15
  rw [Decimal.within_eq_shortest hfits, hzero, Decimal.plain_zero]

theorem reread_eq_iff (negative : Bool) (rank : Fin (2047 * 2 ^ (52 : Nat))) :
    reread negative rank = .finite negative rank ↔
      .finite negative rank ≠ zero.neg ∧ ∃ d : Decimal, d.rank = rank ∧ d.places ≤ 15 := by
  rw [← Decimal.rank_within_eq_iff, ne_eq, finite_eq_neg_zero_iff, reread, finite.injEq,
    Fin.ext_iff]
  constructor
  · rintro ⟨hsign, hrank⟩
    refine ⟨?_, hrank⟩
    rintro ⟨hnegative, hzero⟩
    rw [hnegative, hzero, plain_within_zero] at hsign
    cases hsign
  · rintro ⟨hne, hrank⟩
    refine ⟨?_, hrank⟩
    cases negative with
    | false => rfl
    | true =>
      rw [Bool.true_and, bne_iff_ne]
      intro hplain
      exact hne ⟨rfl, hrank.symm.trans (rank_within_eq_zero hplain)⟩

end Double

/-- A displayed finite double is an expression with a value in either mode, and this is displayed
in the same way. It is the double itself just if that is not the negative zero and a decimal with
at most fifteen fraction digits reads back as it, which from eight on is always so. It is never off
by as much as a unit in the fifteenth place. -/
theorem evaluate_display (mode : AngleMode) (negative : Bool)
    (rank : Fin (2047 * 2 ^ (52 : Nat))) :
    ∃ y, evaluate mode (some (Double.finite negative rank).display) = .ok y ∧
      y.display = (Double.finite negative rank).display ∧
      (y = .finite negative rank ↔ .finite negative rank ≠ Double.zero.neg ∧
        ∃ d : Decimal, d.rank = rank ∧ d.places ≤ 15) ∧
      ∃ p q : ℚ, (Double.finite negative rank).value? = some p ∧ y.value? = some q ∧
        |q - p| < 1 / 10 ^ 15 ∧ (8 ≤ |p| → y = .finite negative rank) := by
  have hvalue : evaluate mode (some (Double.finite negative rank).display) =
      .ok (Double.reread negative rank) := evaluate_plain mode _ (Decimal.rank_within_lt rank.isLt)
  obtain ⟨p, q, hp, hq, hnear⟩ := Double.reread_near negative rank
  refine ⟨_, hvalue, Double.display_reread negative rank, Double.reread_eq_iff negative rank,
    p, q, hp, hq, hnear, ?_⟩
  intro hlarge
  obtain rfl := Option.some.inj ((Double.value?_finite negative rank).symm.trans hp)
  rw [Double.abs_signed, abs_of_nonneg (Double.magnitude_nonneg _)] at hlarge
  refine (Double.reread_eq_iff negative rank).mpr ⟨?_, Decimal.shortest rank,
    Decimal.rank_shortest rank, Decimal.places_shortest_le_of_large hlarge⟩
  rw [ne_eq, Double.finite_eq_neg_zero_iff]
  rintro ⟨_, hzero⟩
  rw [hzero, Double.magnitude_zero] at hlarge
  norm_num at hlarge

end Reckoner
