import Mathlib.Data.List.TakeWhile
import Reckoner.Proofs.LowerCase
import Reckoner.Session

/-!
# The word shown for failures

A text that is the word shown for failures, in any mixture of cases and with any blanks around it,
is scanned as one name. That name is not in the vocabulary, so such a text has no value anyway.
-/

namespace Reckoner

set_option autoImplicit false

namespace Text

theorem exists_stripChars (cs : List Char) :
    ∃ before after, cs = before ++ stripChars cs ++ after ∧
      (∀ c ∈ before, isBlank c = true) ∧ ∀ c ∈ after, isBlank c = true := by
  refine ⟨cs.takeWhile isBlank, ((cs.dropWhile isBlank).reverse.takeWhile isBlank).reverse,
    ?_, fun c hmem => List.mem_takeWhile_imp hmem, ?_⟩
  · rw [stripChars, List.append_assoc, ← List.reverse_append, List.takeWhile_append_dropWhile,
      List.reverse_reverse, List.takeWhile_append_dropWhile]
  · intro c hmem
    exact List.mem_takeWhile_imp (List.mem_reverse.mp hmem)

theorem isNumeral_eq_false_of_isBlank {c : Char} (hblank : isBlank c = true) :
    isNumeral c = false := by
  unfold isNumeral
  split
  · rw [← Bool.not_eq_true]
    intro hdigit
    rw [isBlank_eq_false_of_isDigit hdigit] at hblank
    cases hblank
  · have hapart : disjointRanges blankRanges numeralRanges = true := by decide +kernel
    exact inRanges_eq_false_of_disjoint hapart hblank

end Text

namespace Token

theorem isNameChar_eq_false_of_isBlank {c : Char} (hblank : Text.isBlank c = true) :
    isNameChar c = false := by
  have hnotLetter : Text.isLetter c = false := by
    rw [← Bool.not_eq_true]
    intro hletter
    rw [Text.isBlank_eq_false_of_isLetter hletter] at hblank
    cases hblank
  have hnotUnderscore : (c == '_') = false := by
    rw [beq_eq_false_iff_ne]
    rintro rfl
    cases hblank
  rw [isNameChar, Text.isLetterOrNumeral, hnotLetter, Text.isNumeral_eq_false_of_isBlank hblank,
    hnotUnderscore]
  rfl

theorem segments_blank {blanks : List Char} (hblank : ∀ c ∈ blanks, Text.isBlank c = true)
    (position : Nat) (rest : List Char) :
    Segments position (blanks ++ rest) (blanks.map .blank) rest := by
  induction blanks generalizing position with
  | nil => exact .done
  | cons c others ih =>
    obtain ⟨hfirst, hbehind⟩ := List.forall_mem_cons.mp hblank
    exact .more (.blank hfirst) (ih hbehind _)

/-- A word with blanks before it is scanned as a name, whatever is behind it. -/
theorem scan_leading_word {text : String} {before word after : List Char}
    (hsplit : text.toList = before ++ word ++ after) (hword : IsWord word)
    (hblankBefore : ∀ c ∈ before, Text.isBlank c = true)
    (hends : ∀ c, after.head? = some c → isNameChar c = false) :
    scan text = (scanFrom 0 (before.length + word.length) after).map
      (identifier word before.length :: ·) := by
  have htokens : Piece.tokens (before.map Piece.blank) = [] := by
    simp [Piece.tokens, Piece.token?]
  have hlength : (Piece.text (before.map Piece.blank)).length = before.length := by
    simp [Piece.text, Piece.span, List.flatMap_map]
  have hfirst : scanFrom 0 before.length (word ++ after) =
      (scanFrom 0 (before.length + word.length) after).map
        ([identifier word before.length] ++ ·) :=
    scanFrom_of_starts (.word hword hends)
  rw [scan, hsplit, List.append_assoc, scanFrom_of_segments (segments_blank hblankBefore 0 _),
    hlength, htokens, Nat.zero_add, hfirst]
  cases scanFrom 0 (before.length + word.length) after <;> rfl

/-- A word with blanks around it is scanned as one name. -/
theorem scan_word {text : String} {before word after : List Char}
    (hsplit : text.toList = before ++ word ++ after) (hword : IsWord word)
    (hblankBefore : ∀ c ∈ before, Text.isBlank c = true)
    (hblankAfter : ∀ c ∈ after, Text.isBlank c = true) :
    scan text = .ok [identifier word before.length] := by
  have hends : ∀ c, after.head? = some c → isNameChar c = false :=
    fun c hfirst => isNameChar_eq_false_of_isBlank (hblankAfter c (List.mem_of_head? hfirst))
  rw [scan_leading_word hsplit hword hblankBefore hends, scanFrom_blank hblankAfter]
  rfl

end Token

theorem evaluateTokens_unknown (mode : AngleMode) {token : Token}
    (hkind : token.kind = .identifier) (hunknown : identifier? token.name = none) :
    evaluateTokens mode [token] = .error (.unknownIdentifier token.name) := by
  have harrange : Postorder.arrange [token] = .ok [token] := by
    simp [Postorder.arrange, Postorder.arrangeFrom, Postorder.step, hkind, isConstant, hunknown,
      Postorder.unwind, Token.isParen, Except.map]
  have hrefused : Program.check [token] = .error (.unknownIdentifier token.name) := by
    simp [Program.check, Program.ofTokens, Instruction.ofToken, Token.meaning, hkind, hunknown,
      Except.map]
  simp only [evaluateTokens, harrange, Program.evaluate, hrefused]

theorem lower_failureText : Text.lower failureText = "error" := by decide

theorem Token.isWord_of_isAlpha {word : List Char} (hnotEmpty : word ≠ [])
    (halpha : ∀ c ∈ word, c.toNat < 128 ∧ c.isAlpha = true) : Token.IsWord word := by
  have hletter : ∀ c ∈ word, Text.isLetter c = true := by
    intro c hmem
    rw [Text.isLetter_of_isAlpha (halpha c hmem).1]
    exact (halpha c hmem).2
  obtain ⟨first, others, rfl⟩ := List.exists_cons_of_ne_nil hnotEmpty
  refine ⟨⟨first, rfl, hletter first List.mem_cons_self⟩, ?_⟩
  intro c hmem
  rw [Token.isNameChar, Text.isLetterOrNumeral, hletter c (List.mem_cons_of_mem _ hmem)]
  rfl

/-- A text that is taken for the word shown for failures is that word with blanks around it. -/
theorem exists_word_of_isNoValue {text : String}
    (hnoValue : Session.isNoValue (some text) = true) :
    ∃ before word after, text.toList = before ++ word ++ after ∧
      (∀ c ∈ before, Text.isBlank c = true) ∧ (∀ c ∈ after, Text.isBlank c = true) ∧
      Token.IsWord word ∧ Text.lower (String.ofList word) = "error" := by
  obtain ⟨before, after, hsplit, hblankBefore, hblankAfter⟩ := Text.exists_stripChars text.toList
  rw [Session.isNoValue, beq_iff_eq, lower_failureText, Text.strip] at hnoValue
  obtain ⟨hascii, hletters⟩ := Text.map_toLower_of_lower hnoValue (by decide)
  rw [String.toList_ofList] at hascii hletters
  have halpha' : ∀ c ∈ Text.stripChars text.toList, c.toNat < 128 ∧ c.isAlpha = true := by
    intro c hmem
    have halpha : "error".toList.all Char.isAlpha = true := by decide
    rw [← hletters] at halpha
    have hhere := List.all_eq_true.mp halpha _ (List.mem_map_of_mem hmem)
    rw [Text.isAlpha_toLower] at hhere
    exact ⟨hascii c hmem, hhere⟩
  have hnotEmpty : Text.stripChars text.toList ≠ [] := by
    intro hempty
    rw [hempty] at hletters
    cases hletters
  exact ⟨before, _, after, hsplit, hblankBefore, hblankAfter,
    Token.isWord_of_isAlpha hnotEmpty halpha', hnoValue⟩

/-- The word shown for failures is an unknown name, however it is written. -/
theorem evaluate_of_isNoValue (mode : AngleMode) {text : String}
    (hnoValue : Session.isNoValue (some text) = true) :
    evaluate mode (some text) = .error (.unknownIdentifier "error") := by
  obtain ⟨before, word, after, hsplit, hblankBefore, hblankAfter, hword, hlowered⟩ :=
    exists_word_of_isNoValue hnoValue
  have hscan := Token.scan_word hsplit hword hblankBefore hblankAfter
  have hfilled : isEmptyExpression (some text) = false :=
    Token.allBlank_eq_false hscan (List.cons_ne_nil _ _)
  have hname : (Token.identifier word before.length).name = "error" := hlowered
  rw [evaluate, hfilled, if_neg Bool.false_ne_true, Option.getD_some, hscan, ← hname]
  refine evaluateTokens_unknown mode rfl ?_
  rw [hname]
  decide

/-- A text has the value that is taken for it whether or not it is looked at first. -/
theorem Session.valueOrZero_eq (session : Session) (text : Option String) :
    session.valueOrZero text =
      (tryEvaluate session.mode text).value?.getD Double.zero := by
  unfold valueOrZero
  split
  · rename_i hnoValue
    cases text with
    | none => rfl
    | some text =>
      rw [tryEvaluate, evaluate_of_isNoValue session.mode hnoValue]
      rfl
  · rfl

end Reckoner
