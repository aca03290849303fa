import Reckoner.Proofs.OuterBlanks

/-!
# Case does not matter

A text is cut into the same tokens whatever the case of its ASCII letters, for a name is put in
lower case as a whole and every other token has no letters. The place and the reason of a failure
are the same too, so two texts alike but for case have the same value.
-/

namespace Reckoner

set_option autoImplicit false

namespace Token

theorem isNameChar_toLower (c : Char) : isNameChar c.toLower = isNameChar c :=
  Text.apply_toLower (by decide +kernel) c

theorem symbolKind?_toLower (c : Char) : symbolKind? c.toLower = symbolKind? c :=
  Text.apply_toLower (by decide +kernel) c

theorem isPoint_toLower (c : Char) : (c.toLower == '.') = (c == '.') :=
  Text.apply_toLower (f := (· == '.')) (by decide +kernel) c

theorem toLower_of_isDigit {c : Char} (hdigit : c.isDigit = true) : c.toLower = c := by
  refine Text.toLower_of_not_isAlpha ?_
  rw [Text.isDigit_iff] at hdigit
  rw [← Bool.not_eq_true, Text.isAlpha_iff]
  omega

theorem toLower_of_not_isLetter {c : Char} (hother : ¬ Text.isLetter c = true) : c.toLower = c := by
  refine Text.toLower_of_not_isAlpha ?_
  rw [← Bool.not_eq_true]
  intro hletter
  rw [Text.isLetter_of_isAlpha (Text.toNat_lt_of_isAlpha hletter)] at hother
  exact hother hletter

theorem map_toLower_takeWhile_isDigit (cs : List Char) :
    (cs.takeWhile Char.isDigit).map Char.toLower = cs.takeWhile Char.isDigit := by
  calc (cs.takeWhile Char.isDigit).map Char.toLower = (cs.takeWhile Char.isDigit).map id :=
        List.map_congr_left fun c hmem => toLower_of_isDigit (List.mem_takeWhile_imp hmem)
    _ = cs.takeWhile Char.isDigit := List.map_id _

theorem numberSpan_map_toLower (cs : List Char) :
    numberSpan (cs.map Char.toLower) = numberSpan cs := by
  have hdigits := Text.span_map_toLower Text.isDigit_toLower
  unfold numberSpan
  rw [(hdigits cs).1, (hdigits cs).2, map_toLower_takeWhile_isDigit]
  cases hbehind : cs.dropWhile Char.isDigit with
  | nil => rfl
  | cons c rest =>
    by_cases hpoint : c = '.'
    · subst hpoint
      have hfraction := (hdigits rest).1
      rw [map_toLower_takeWhile_isDigit] at hfraction
      exact congrArg (fun fraction => cs.takeWhile Char.isDigit ++ '.' :: fraction) hfraction
    · have hnoPoint : c.toLower ≠ '.' := by
        rw [← beq_eq_false_iff_ne, isPoint_toLower, beq_eq_false_iff_ne]
        exact hpoint
      simp [hpoint, hnoPoint]

theorem identifier_map_toLower (name : List Char) (position : Nat) :
    identifier (name.map Char.toLower) position = identifier name position := by
  have hlowered := Text.lowerFrom_map_toLower [] name
  rw [List.map_nil] at hlowered
  simp only [identifier, Text.lower, String.toList_ofList, hlowered]

theorem lexeme_map_toLower (position : Nat) (c : Char) (rest : List Char) :
    lexeme position c.toLower (rest.map Char.toLower) = lexeme position c rest := by
  have hnumber := numberSpan_map_toLower (c :: rest)
  have hname := identifier_map_toLower (c :: rest.takeWhile isNameChar) position
  rw [List.map_cons] at hnumber hname
  simp only [lexeme, Text.isDigit_toLower, isPoint_toLower, hnumber, Text.isLetter_toLower,
    (Text.span_map_toLower isNameChar_toLower rest).1, hname, List.length_map, symbolKind?_toLower]
  split
  · rfl
  · split
    · rfl
    · rename_i hother
      rw [toLower_of_not_isLetter hother]

theorem scanFrom_map_toLower (skip position : Nat) (cs : List Char) :
    scanFrom skip position (cs.map Char.toLower) = scanFrom skip position cs := by
  induction cs generalizing skip position with
  | nil => rfl
  | cons c rest ih =>
    cases skip with
    | succ skip => exact ih skip _
    | zero =>
      rw [List.map_cons, scanFrom, scanFrom, Text.isBlank_toLower, lexeme_map_toLower]
      simp only [ih]

theorem scan_of_alikeButCase {text other : String} (halike : Text.AlikeButCase text other) :
    scan text = scan other := by
  rw [scan, scan, ← scanFrom_map_toLower, Text.map_toLower_of_alikeButCase halike,
    scanFrom_map_toLower]

end Token

theorem Text.allBlank_of_alikeButCase {text other : String} (halike : AlikeButCase text other) :
    allBlank text = allBlank other := by
  have hlowered : isBlank ∘ Char.toLower = isBlank := funext isBlank_toLower
  have hall : ∀ cs : List Char, (cs.map Char.toLower).all isBlank = cs.all isBlank := by
    intro cs
    rw [List.all_map, hlowered]
  rw [allBlank, allBlank, ← hall, map_toLower_of_alikeButCase halike, hall]

/-- Texts alike but for the case of ASCII letters are scanned as the same tokens, names, values and
positions included, or fail at the same character; so they have the same value in either mode, or
fail for the same reason. -/
theorem evaluate_of_alikeButCase {text other : String} (halike : Text.AlikeButCase text other) :
    Token.scan text = Token.scan other ∧
      ∀ mode, evaluate mode (some text) = evaluate mode (some other) := by
  have hscan := Token.scan_of_alikeButCase halike
  refine ⟨hscan, fun mode => ?_⟩
  rw [evaluate_eq_bind, evaluate_eq_bind, Text.allBlank_of_alikeButCase halike, hscan]

/-- Behind a letter a capital sigma is the final one, whatever the case of the letter. -/
theorem evaluate_of_alikeButCase_sigma : Text.AlikeButCase "SQRT(4)+aΣ" "sqrt(4)+AΣ" ∧
    Token.scan "SQRT(4)+aΣ" = Token.scan "sqrt(4)+AΣ" ∧
    (∀ mode, evaluate mode (some "SQRT(4)+aΣ") = evaluate mode (some "sqrt(4)+AΣ")) ∧
    evaluate .degrees (some "SQRT(4)+aΣ") = .error (.unknownIdentifier "aς") := by
  have halike : Text.AlikeButCase "SQRT(4)+aΣ" "sqrt(4)+AΣ" := by
    unfold Text.AlikeButCase
    decide
  obtain ⟨hscan, hvalued⟩ := evaluate_of_alikeButCase halike
  exact ⟨halike, hscan, hvalued, by decide +kernel⟩

end Reckoner
