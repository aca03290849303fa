import Reckoner.Token.Scan

/-!
# Segmentations

How a text is cut into blanks and the spans of tokens, said apart from a scan. A span is as long as
it can be: a number cannot go on with a digit, nor with a point where it has none, and a word
cannot go on with a letter, a numeral or an underscore.
-/

namespace Reckoner.Token

/-- Digits with one point among them at most, and at least one digit. -/
structure IsNumber (span : List Char) : Prop where
  digits_or_point : ∀ c ∈ span, c.isDigit = true ∨ c = '.'
  count_point : span.count '.' ≤ 1
  has_digit : ∃ c ∈ span, c.isDigit = true

theorem isNumber_iff (span : List Char) :
    IsNumber span ↔ span.all (fun c => c.isDigit || c == '.') = true ∧ span.count '.' ≤ 1 ∧
      span.any Char.isDigit = true := by
  simp only [List.all_eq_true, List.any_eq_true, Bool.or_eq_true, beq_iff_eq]
  exact ⟨fun h => ⟨h.digits_or_point, h.count_point, h.has_digit⟩, fun h => ⟨h.1, h.2.1, h.2.2⟩⟩

instance (span : List Char) : Decidable (IsNumber span) :=
  decidable_of_iff' _ (isNumber_iff span)

/-- A letter, and behind it letters, numerals and underscores. -/
structure IsWord (span : List Char) : Prop where
  first : ∃ c, span.head? = some c ∧ Text.isLetter c = true
  others : ∀ c ∈ span.drop 1, isNameChar c = true

def EndsNumber (span : List Char) (c : Char) : Prop :=
  c.isDigit = false ∧ (c = '.' → '.' ∈ span)

/-- A piece of a text: a blank, or a token with the characters it spans. -/
inductive Piece where
  | blank (c : Char)
  | spanned (span : List Char) (token : Token)

namespace Piece

def span : Piece → List Char
  | blank c => [c]
  | spanned span _ => span

def token? : Piece → Option Token
  | blank _ => none
  | spanned _ token => some token

def text (pieces : List Piece) : List Char := pieces.flatMap span

def tokens (pieces : List Piece) : List Token := pieces.filterMap token?

end Piece

/-- A text at a position starts with a piece, and the rest of it comes behind. -/
inductive Starts (position : Nat) : List Char → Piece → List Char → Prop where
  | blank {c : Char} {rest : List Char} (hblank : Text.isBlank c = true) :
      Starts position (c :: rest) (.blank c) rest
  | number {span rest : List Char} (hnumber : IsNumber span)
      (hends : ∀ c, rest.head? = some c → EndsNumber span c) :
      Starts position (span ++ rest) (.spanned span (number span position)) rest
  | word {span rest : List Char} (hword : IsWord span)
      (hends : ∀ c, rest.head? = some c → isNameChar c = false) :
      Starts position (span ++ rest) (.spanned span (identifier span position)) rest
  | symbol {c : Char} {kind : Kind} {rest : List Char} (hsymbol : symbolKind? c = some kind) :
      Starts position (c :: rest) (.spanned [c] (symbol kind c position)) rest

/-- A text at a position is cut into pieces up to a rest. -/
inductive Segments : Nat → List Char → List Piece → List Char → Prop where
  | done {position : Nat} {rest : List Char} : Segments position rest [] rest
  | more {position : Nat} {text behind rest : List Char} {piece : Piece} {pieces : List Piece}
      (hfirst : Starts position text piece behind)
      (hothers : Segments (position + piece.span.length) behind pieces rest) :
      Segments position text (piece :: pieces) rest

/-- A character at a position at which no piece starts, and the failure that says why: a point
without a digit behind it, or a character that has no place in an expression. -/
inductive Stuck (position : Nat) : List Char → Failure → Prop where
  | point {rest : List Char} (hnoDigit : ∀ c, rest.head? = some c → c.isDigit = false) :
      Stuck position ('.' :: rest) (.invalidNumber position)
  | stranger {c : Char} {rest : List Char} (hnotBlank : Text.isBlank c = false)
      (hnotDigit : c.isDigit = false) (hnotPoint : c ≠ '.') (hnotLetter : Text.isLetter c = false)
      (hnotSymbol : symbolKind? c = none) :
      Stuck position (c :: rest) (.unexpectedCharacter c position)

end Reckoner.Token
