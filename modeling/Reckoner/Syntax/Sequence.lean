import Reckoner.Syntax.Punctuation

/-!
# Tokens in sequence

What can be said of any list of tokens, whether or not it makes an expression: which token is the
first to blame for something, such as that it cannot stand where it does; as what each token is read
behind the one before it; and whether the names of functions stand before groups.
-/

namespace Reckoner

section

variable (blames : List Token → Token → Failure → Prop)

/-- No token is to blame behind those before it. -/
def Blameless (tokens : List Token) : Prop :=
  ∀ before token after failure, tokens = before ++ token :: after → ¬ blames before token failure

/-- The failure is that of the first token that is to blame. -/
def FirstBlame (tokens : List Token) (failure : Failure) : Prop :=
  ∃ before token after, tokens = before ++ token :: after ∧ Blameless blames before ∧
    blames before token failure

end

section

variable {blames : List Token → Token → Failure → Prop}

theorem blameless_nil : Blameless blames [] := by
  intro before token after failure hcut
  simp at hcut

theorem blameless_cons_iff {token : Token} {rest : List Token} :
    Blameless blames (token :: rest) ↔ (∀ failure, ¬ blames [] token failure) ∧
      Blameless (fun before => blames (token :: before)) rest := by
  constructor
  · intro hclear
    refine ⟨fun failure => hclear [] token rest failure rfl, ?_⟩
    intro before other after failure hcut
    exact hclear (token :: before) other after failure (by rw [hcut]; rfl)
  · rintro ⟨hhere, hlater⟩ before other after failure hcut
    cases before with
    | nil =>
      obtain ⟨rfl, rfl⟩ := List.cons.inj hcut
      exact hhere failure
    | cons first before =>
      obtain ⟨rfl, rfl⟩ := List.cons.inj hcut
      exact hlater before other after failure rfl

theorem not_firstBlame_nil {failure : Failure} : ¬ FirstBlame blames [] failure := by
  rintro ⟨before, token, after, hcut, _⟩
  simp at hcut

theorem firstBlame_cons_iff {token : Token} {rest : List Token} {failure : Failure} :
    FirstBlame blames (token :: rest) failure ↔ blames [] token failure ∨
      (∀ failure, ¬ blames [] token failure) ∧
        FirstBlame (fun before => blames (token :: before)) rest failure := by
  constructor
  · rintro ⟨before, culprit, after, hcut, hclear, hblamed⟩
    cases before with
    | nil =>
      obtain ⟨rfl, rfl⟩ := List.cons.inj hcut
      exact .inl hblamed
    | cons first before =>
      obtain ⟨rfl, rfl⟩ := List.cons.inj hcut
      obtain ⟨hhere, hlater⟩ := blameless_cons_iff.mp hclear
      exact .inr ⟨hhere, before, culprit, after, rfl, hlater, hblamed⟩
  · rintro (hblamed | ⟨hhere, before, culprit, after, rfl, hlater, hblamed⟩)
    · exact ⟨[], token, rest, rfl, blameless_nil, hblamed⟩
    · exact ⟨token :: before, culprit, after, rfl, blameless_cons_iff.mpr ⟨hhere, hlater⟩, hblamed⟩

theorem FirstBlame.not_blameless {tokens : List Token} {failure : Failure}
    (hfirst : FirstBlame blames tokens failure) : ¬ Blameless blames tokens := by
  obtain ⟨before, token, after, hcut, _, hblamed⟩ := hfirst
  exact fun hclear => hclear before token after failure hcut hblamed

/-- A list has no token to blame or a first one. -/
theorem blameless_or_firstBlame (tokens : List Token) :
    Blameless blames tokens ∨ ∃ failure, FirstBlame blames tokens failure := by
  induction tokens generalizing blames with
  | nil => exact .inl blameless_nil
  | cons token rest ih =>
    by_cases hhere : ∃ failure, blames [] token failure
    · obtain ⟨failure, hblamed⟩ := hhere
      exact .inr ⟨failure, firstBlame_cons_iff.mpr (.inl hblamed)⟩
    · have hpasses := not_exists.mp hhere
      rcases @ih (fun before => blames (token :: before)) with hclear | ⟨failure, hfirst⟩
      · exact .inl (blameless_cons_iff.mpr ⟨hpasses, hclear⟩)
      · exact .inr ⟨failure, firstBlame_cons_iff.mpr (.inr ⟨hpasses, hfirst⟩)⟩

end

namespace Infix

/-- The token cannot stand where the given number of parentheses is open before it. -/
inductive Offends (opened : Int) (token : Token) : Failure → Prop where
  | comma (hkind : token.kind = .comma) (houtside : opened = 0) :
      Offends opened token (.misplacedComma token.position)
  | closing (hkind : token.kind = .rightParen) (houtside : opened = 0) :
      Offends opened token (.unmatchedParen token.position)
  | stranger (hkind : token.kind = .operator) (hunknown : operator? token.name = none) :
      Offends opened token (.unknownOperator token.name)

/-- No token offends, the first of them standing where `opened` parentheses are open. -/
def Inoffensive (opened : Int) : List Token → Prop :=
  Blameless fun before => Offends (opened + depth before)

def FirstOffence (opened : Int) : List Token → Failure → Prop :=
  FirstBlame fun before => Offends (opened + depth before)

/-- An operand is due at the start and behind an operator, an opening parenthesis or a comma. -/
def OperandDue (previous : Option Token) : Prop :=
  ∀ before, previous = some before →
    before.kind = .operator ∨ before.kind = .leftParen ∨ before.kind = .comma

instance (previous : Option Token) : Decidable (OperandDue previous) :=
  match previous with
  | none => .isTrue fun _ h => by cases h
  | some before =>
    decidable_of_iff
      (before.kind = .operator ∨ before.kind = .leftParen ∨ before.kind = .comma)
      ⟨fun h _ hsame => Option.some.inj hsame ▸ h, fun h => h before rfl⟩

/-- What a token is read as behind another one, or at the start: a minus where an operand is due is
the prefixed one. -/
def readBehind (previous : Option Token) (token : Token) : Token :=
  if token.kind = .operator ∧ token.name = "-" ∧ OperandDue previous then negation token else token

def readings (tokens : List Token) : List Token :=
  List.zipWith readBehind (none :: tokens.map some) tokens

def isOperand (token : Token) : Bool :=
  token.kind == .number || (token.kind == .identifier && isConstant token.name)

def BeginsGroup (tokens : List Token) : Prop :=
  ∃ opening, tokens.head? = some opening ∧ opening.kind = .leftParen

/-- Each name that stands for no number is right before an opening parenthesis. -/
def NamesApplied (tokens : List Token) : Prop :=
  ∀ before name after, tokens = before ++ name :: after → IsFunction name → BeginsGroup after

end Infix

end Reckoner
