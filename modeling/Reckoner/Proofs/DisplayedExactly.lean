import Reckoner.Proofs.Reentry
import Reckoner.Proofs.ShortestDigits

/-!
# What a displayed number denotes

A displayed number denotes the shortest decimal if that has few enough fraction digits, and else the
multiple of the last place that is nearest to the exact value. Its text is plain, and only a zero
loses its sign.
-/

namespace Reckoner

set_option autoImplicit false

namespace Decimal

open Double

theorem IsNearestMultiple.neg {places : Nat} {v : ℚ} {k : Int} (h : IsNearestMultiple places v k) :
    IsNearestMultiple places (-v) (-k) := by
  have hflip : ∀ j : Int, |(j : ℚ) / 10 ^ places - -v| = |((-j : Int) : ℚ) / 10 ^ places - v| := by
    intro j
    rw [← abs_neg]
    congr 1
    push_cast
    ring
  refine ⟨?_, ?_⟩
  · intro j
    rw [hflip, hflip, Int.neg_neg]
    exact h.nearest _
  · intro j hne hequal
    rw [hflip, hflip, Int.neg_neg] at hequal
    have heven := h.even (-j) (by omega) hequal
    omega

theorem isNearestMultiple_rounded (places rank : Nat) :
    IsNearestMultiple places (magnitude rank) ((rounded places rank).coefficient : Nat) := by
  have hpos : (0 : ℚ) < 10 ^ places := by positivity
  have hnear := coefficient_rounded_near places rank
  refine ⟨?_, ?_⟩
  · intro j
    rw [abs_div_sub, abs_div_sub]
    refine (div_le_div_iff_of_pos_right hpos).mpr ?_
    exact (abs_sub_le_of_near (by exact_mod_cast hnear) j).1
  · intro j hne hequal
    rw [abs_div_sub, abs_div_sub] at hequal
    have htie := (abs_sub_le_of_near (by exact_mod_cast hnear) j).2 hne
      ((div_left_inj' hpos.ne').mp hequal)
    rw [Int.cast_natCast, magnitude_mul_ten_pow] at htie
    have heven : (rounded places rank).coefficient % 2 = 0 :=
      roundDiv_even_of_tie quantaPerUnit_pos htie
    omega

theorem value_rounded (places rank : Nat) : (rounded places rank).value =
    (((rounded places rank).coefficient : Nat) : Int) / 10 ^ places := by
  rw [Int.cast_natCast]
  exact value_natCast _ _

theorem eq_zero_of_head_toDigits {n : Nat} (h : (Nat.toDigits 10 n).head? = some '0') : n = 0 := by
  induction n using Nat.strongRecOn with
  | ind n ih =>
    rcases Nat.lt_or_ge n 10 with hlt | hge
    · have hdigit : ∀ m < 10, m.digitChar = '0' → m = 0 := by decide
      rw [Nat.toDigits_of_lt_base hlt] at h
      exact hdigit n hlt (Option.some.inj h)
    · rw [Nat.toDigits_of_base_le (by decide) hge,
        List.head?_append_of_ne_nil _ Nat.toDigits_ne_nil] at h
      have hquotient := ih (n / 10) (by omega) h
      omega

theorem getLast?_trimZeros_ne (cs : List Char) : (trimZeros cs).getLast? ≠ some '0' := by
  intro hlast
  rw [trimZeros, List.getLast?_reverse] at hlast
  have hhead := List.head?_dropWhile_not (· == '0') cs.reverse
  rw [hlast] at hhead
  cases hhead

theorem span_plain (d : Decimal) : d.plain.takeWhile Char.isDigit = d.wholeDigits ∧
    d.plain.dropWhile Char.isDigit = withPoint (trimZeros d.fractionDigits) := by
  refine Token.takeWhile_append_eq_left (fun _ => isDigit_of_mem_wholeDigits) ?_
  intro c hc
  cases hfraction : trimZeros d.fractionDigits with
  | nil =>
    rw [hfraction] at hc
    cases hc
  | cons first rest =>
    rw [hfraction] at hc
    cases hc
    rfl

theorem isPlain_plain (d : Decimal) : IsPlain d.plain := by
  obtain ⟨hwhole, hfraction⟩ := span_plain d
  refine ⟨?_, ?_, ?_⟩
  · rw [hwhole]
    exact Nat.toDigits_ne_nil
  · rw [hfraction]
    cases hdigits : trimZeros d.fractionDigits with
    | nil => exact Or.inl rfl
    | cons first rest =>
      refine Or.inr ⟨first :: rest, rfl, List.cons_ne_nil _ _, ?_, ?_⟩
      · intro c hc
        rw [← hdigits] at hc
        exact isDigit_of_mem_trimZeros_fractionDigits hc
      · rw [← hdigits]
        exact getLast?_trimZeros_ne _
  · rw [hwhole, wholeDigits]
    intro hzero
    rw [eq_zero_of_head_toDigits hzero, Nat.toDigits_zero]

theorem length_fraction_plain (d : Decimal) :
    ((d.plain.dropWhile Char.isDigit).drop 1).length = d.fractionSize := by
  rw [(span_plain d).2, fractionSize]
  cases trimZeros d.fractionDigits <;> rfl

theorem head?_plain_ne (d : Decimal) : d.plain.head? ≠ some '-' := by
  intro hminus
  have hwhole : d.wholeDigits ≠ [] := Nat.toDigits_ne_nil
  have hhead : d.wholeDigits.head? = some '-' := by
    rw [plain, List.head?_append_of_ne_nil _ hwhole] at hminus
    exact hminus
  have hdigit := isDigit_of_mem_wholeDigits (List.mem_of_head? hhead)
  cases hdigit

theorem denoted_of_head?_ne {text : List Char} (h : text.head? ≠ some '-') :
    denoted text = (ofLiteral text).value := by
  unfold denoted
  split
  · exact absurd rfl h
  · rfl

theorem readText_of_head?_ne {text : List Char} (h : text.head? ≠ some '-') :
    readText text = (ofLiteral text).toDouble false := if_neg h

theorem readText_minus (digits : List Char) :
    readText ('-' :: digits) = (ofLiteral digits).toDouble true := if_pos rfl

theorem denoted_plain (d : Decimal) : denoted d.plain = d.value := by
  rw [denoted_of_head?_ne d.head?_plain_ne, value_ofLiteral_plain]

theorem denoted_minus_plain (d : Decimal) : denoted ('-' :: d.plain) = -d.value := by
  rw [denoted, value_ofLiteral_plain]

def withSign (negative : Bool) (d : Decimal) : List Char :=
  if negative && d.plain != ['0'] then '-' :: d.plain else d.plain

/-- A sign is shown, or there is none, or it does not matter. -/
theorem withSign_cases (negative : Bool) (d : Decimal) :
    (negative = true ∧ d.plain ≠ ['0'] ∧ d.withSign negative = '-' :: d.plain) ∨
      ((negative = false ∨ d.value = 0) ∧ d.withSign negative = d.plain) := by
  cases negative with
  | false => exact Or.inr ⟨Or.inl rfl, rfl⟩
  | true =>
    by_cases hzero : d.plain = ['0']
    · refine Or.inr ⟨Or.inr (plain_eq_zero_iff.mp hzero), ?_⟩
      rw [withSign, hzero]
      rfl
    · refine Or.inl ⟨rfl, hzero, ?_⟩
      rw [withSign, Bool.true_and, if_pos (bne_iff_ne.mpr hzero)]

theorem isDisplay_withSign {places : Nat} (negative : Bool) {d : Decimal} (h : d.places ≤ places) :
    IsDisplay places (d.withSign negative) := by
  have hlength : ((d.plain.dropWhile Char.isDigit).drop 1).length ≤ places := by
    have hsize := fractionSize_le d
    rw [length_fraction_plain]
    omega
  refine ⟨d.plain, isPlain_plain d, hlength, ?_⟩
  rcases withSign_cases negative d with ⟨_, hzero, htext⟩ | ⟨_, htext⟩
  · exact Or.inr ⟨htext, hzero⟩
  · exact Or.inl htext

theorem denoted_withSign (negative : Bool) (d : Decimal) :
    denoted (d.withSign negative) = d.signed negative := by
  rcases withSign_cases negative d with ⟨rfl, _, htext⟩ | ⟨rfl | hzero, htext⟩
  · rw [htext, denoted_minus_plain]
    rfl
  · rw [htext, denoted_plain]
    rfl
  · rw [htext, denoted_plain, signed, hzero, neg_zero, ite_self]

theorem same_finite {negative negative' : Bool} {rank : Fin (2047 * 2 ^ (52 : Nat))}
    (h : negative = negative' ∨ (rank : Nat) = 0) :
    (finite negative rank).same (finite negative' rank) = true := by
  rcases h with rfl | hzero
  · simp [same, place?]
  · cases negative <;> cases negative' <;> simp [same, place?, hzero]

/-- The text of a decimal that reads back does so too, up to the sign of zero. -/
theorem same_readText_withSign {negative : Bool} {rank : Fin (2047 * 2 ^ (52 : Nat))} {d : Decimal}
    (h : d.rank = rank) :
    (readText (d.withSign negative)).same (.finite negative rank) = true := by
  have hread : ∀ sign, (ofLiteral d.plain).toDouble sign = .finite sign rank := by
    intro sign
    rw [toDouble_eq_finite_iff, rank_eq_of_value_eq d.value_ofLiteral_plain, h]
  rcases withSign_cases negative d with ⟨rfl, _, htext⟩ | ⟨hsign, htext⟩
  · rw [htext, readText_minus, hread]
    exact same_finite (Or.inl rfl)
  · rw [htext, readText_of_head?_ne d.head?_plain_ne, hread]
    refine same_finite (hsign.imp Eq.symm fun hzero => ?_)
    rw [← h, rank_eq_of_value_eq_magnitude (hzero.trans magnitude_zero.symm)]

end Decimal

namespace Double

open Decimal

theorem format_eq {places : Nat} (h : places < placesBound) (negative : Bool)
    (rank : Fin (2047 * 2 ^ (52 : Nat))) :
    format places (.finite negative rank) =
      .ok (String.ofList ((within places rank).withSign negative)) := by
  have hcheck : checkPlaces places = .ok places := by
    unfold checkPlaces
    have hwide : placesBound < wideBound := by decide
    rw [if_neg (by omega), if_neg (by omega), if_neg (by omega), Int.toNat_natCast]
  rw [format, hcheck]
  rfl

/-- A count of fraction digits that is no `int` is refused. -/
theorem format_refused {places : Nat} (h : placesBound ≤ places) (x : Double) :
    ∃ fault, format places x = .error fault := by
  unfold format checkPlaces
  rw [if_neg (by omega)]
  split
  · exact ⟨_, rfl⟩
  · rw [if_pos (by omega)]
    exact ⟨_, rfl⟩

/-- What is shown of a finite double is exact. A count of fraction digits below the bound is
accepted, and the text is plain, has at most as many fraction digits and is not the negative zero.
If a shortest decimal has so few fraction digits, which does not depend on the shortest one that is
taken, the text denotes the one found by the search and reads back as the double up to the sign of
zero. If not, it denotes the nearest multiple of the last place, a tie going to the even one. -/
theorem format_exact (negative : Bool) (rank : Fin (2047 * 2 ^ (52 : Nat))) {places : Nat}
    (h : places < placesBound) : ∃ (text : List Char) (s : Decimal),
      format places (.finite negative rank) = .ok (String.ofList text) ∧
      IsDisplay places text ∧
      IsShortest negative (.finite negative rank) s ∧
      (∀ e, IsShortest negative (.finite negative rank) e → e.fractionSize = s.fractionSize) ∧
      (s.fractionSize ≤ places →
        denoted text = s.signed negative ∧
          (readText text).same (.finite negative rank) = true) ∧
      (places < s.fractionSize → ∃ (v : ℚ) (k : Int), (finite negative rank).value? = some v ∧
        IsNearestMultiple places v k ∧ denoted text = k / 10 ^ places) := by
  refine ⟨_, shortest rank, format_eq h negative rank,
    isDisplay_withSign negative (places_within_le places rank), isShortest_shortest negative rank,
    fun e => fractionSize_of_isShortest, ?_, ?_⟩
  · intro hfits
    rw [fractionSize_shortest] at hfits
    rw [within_eq_shortest (by omega)]
    exact ⟨denoted_withSign negative _, same_readText_withSign (rank_shortest rank)⟩
  · intro hcut
    rw [fractionSize_shortest] at hcut
    have hnearest := isNearestMultiple_rounded places rank
    rw [within_eq_rounded (by omega), denoted_withSign, signed, value_rounded]
    cases negative with
    | false => exact ⟨_, _, value?_finite _ _, hnearest, rfl⟩
    | true =>
      refine ⟨_, _, value?_finite _ _, hnearest.neg, ?_⟩
      rw [if_pos rfl, Int.cast_neg, neg_div]

/-- With one place left of it the number `0.15` is less than halfway between two multiples. -/
theorem format_exact_cut : 1 < placesBound ∧ ∃ (text : List Char) (v : ℚ) (k : Int),
    format 1 (.finite true ⟨4594572339843380019, by decide⟩) = .ok (String.ofList text) ∧
      text = "-0.1".toList ∧ IsDisplay 1 text ∧
      value? (.finite true ⟨4594572339843380019, by decide⟩) = some v ∧
      IsNearestMultiple 1 v k ∧ denoted text = k / 10 ^ 1 := by
  have hbound : 1 < placesBound := by decide
  obtain ⟨text, s, hformat, hdisplay, _, hsize, _, hcut⟩ :=
    format_exact true ⟨4594572339843380019, by decide⟩ hbound
  have hshown : format (1 : Nat) (.finite true ⟨4594572339843380019, by decide⟩) = .ok "-0.1" := by
    decide +kernel
  have hlong : 1 < (shortest 4594572339843380019).fractionSize := by decide +kernel
  rw [hsize _ (isShortest_shortest true ⟨4594572339843380019, by decide⟩)] at hlong
  obtain ⟨v, k, hvalue, hnearest, hdenoted⟩ := hcut hlong
  have htext : String.ofList text = "-0.1" := Except.ok.inj (hformat.symm.trans hshown)
  refine ⟨hbound, text, v, k, hformat, ?_, hdisplay, hvalue, hnearest, hdenoted⟩
  rw [← htext, String.toList_ofList]

/-- The count `2 ^ 31` is refused, even where one digit would be enough. -/
theorem format_one_refused : (Double.ofNat 1).isFinite = true ∧ (0 : Int) ≤ 2147483648 ∧
    ¬ ∃ text, format 2147483648 (Double.ofNat 1) = .ok text := by
  refine ⟨by decide +kernel, by decide, ?_⟩
  rintro ⟨text, htext⟩
  have hlarge : placesBound ≤ 2147483648 := by decide
  obtain ⟨fault, hfault⟩ := format_refused hlarge (Double.ofNat 1)
  cases htext.symm.trans hfault

end Double

end Reckoner
