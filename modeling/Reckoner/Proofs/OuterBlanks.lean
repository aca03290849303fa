import Mathlib.Data.List.TakeDrop
import Mathlib.Data.List.TakeWhile
import Reckoner.Proofs.FailureWord

/-!
# Blanks around an expression

Blanks behind an expression change nothing, and blanks in front of it only the positions of its
tokens. Positions are read where a failure is reported and nowhere else, so an expression and the
same expression stripped have the same value or fail for the same kind of reason.
-/

namespace Reckoner

set_option autoImplicit false

section

variable {α β : Type}

def byKind (result : Except Failure α) : Except FailureKind α := result.mapError Failure.kind

@[simp] theorem byKind_ok (value : α) : byKind (.ok value) = .ok value := rfl

@[simp] theorem byKind_error (failure : Failure) :
    byKind (.error failure : Except Failure α) = .error failure.kind := rfl

theorem byKind_bind (result : Except Failure α) (next : α → Except Failure β) :
    byKind (result.bind next) = (byKind result).bind fun value => byKind (next value) := by
  cases result <;> rfl

theorem byKind_map (result : Except Failure α) (f : α → β) :
    byKind (result.map f) = (byKind result).map f := by
  cases result <;> rfl

end

def Token.bare (token : Token) : Token := { token with position := none }

@[simp] theorem Token.kind_bare (token : Token) : token.bare.kind = token.kind := rfl

@[simp] theorem Token.name_bare (token : Token) : token.bare.name = token.name := rfl

namespace Postorder

def State.bare (state : State) : State := ⟨state.stack.map Token.bare, state.operandDue⟩

def bareMove (move : List Token × State) : List Token × State :=
  (move.1.map Token.bare, move.2.bare)

theorem span_bare {p : Token → Bool} (h : ∀ token : Token, p token.bare = p token)
    (tokens : List Token) : (tokens.map Token.bare).span p =
      ((tokens.span p).1.map Token.bare, (tokens.span p).2.map Token.bare) := by
  have hsame : p ∘ Token.bare = p := funext h
  rw [List.span_eq_takeWhile_dropWhile, List.span_eq_takeWhile_dropWhile, List.takeWhile_map,
    List.dropWhile_map, hsame]

theorem splitAtParen_bare (stack : List Token) : splitAtParen (stack.map Token.bare) =
    ((splitAtParen stack).1.map Token.bare, (splitAtParen stack).2.map Token.bare) :=
  span_bare (fun _ => rfl) stack

theorem splitFunction_bare (stack : List Token) : splitFunction (stack.map Token.bare) =
    ((splitFunction stack).1.map Token.bare, (splitFunction stack).2.map Token.bare) := by
  cases stack with
  | nil => rfl
  | cons top below =>
    by_cases hname : top.kind = .identifier
    · simp [splitFunction, hname]
    · simp [splitFunction, hname]

theorem readOperator_bare (due : Bool) (token : Token) :
    readOperator due token.bare = (readOperator due token).bare := by
  by_cases hminus : (token.name == "-" && due) = true
  · rw [readOperator, readOperator, Token.name_bare, if_pos hminus, if_pos hminus]
    rfl
  · rw [readOperator, readOperator, Token.name_bare, if_neg hminus, if_neg hminus]

theorem step_bare (state : State) (token : Token) :
    byKind (step state.bare token.bare) = (byKind (step state token)).map bareMove := by
  cases hkind : token.kind with
  | number => simp [step, hkind, bareMove, State.bare, Except.map]
  | identifier =>
    by_cases hconstant : isConstant token.name = true
    · simp [step, hkind, hconstant, bareMove, State.bare, Except.map]
    · simp [step, hkind, hconstant, bareMove, State.bare, Except.map]
  | leftParen => simp [step, hkind, bareMove, State.bare, Except.map]
  | comma =>
    simp only [step, Token.kind_bare, hkind, State.bare, splitAtParen_bare]
    rcases splitAtParen state.stack with ⟨above, _ | ⟨opening, below⟩⟩ <;>
      simp [bareMove, State.bare, Except.map, Failure.kind]
  | rightParen =>
    simp only [step, Token.kind_bare, hkind, State.bare, splitAtParen_bare]
    rcases splitAtParen state.stack with ⟨above, _ | ⟨opening, below⟩⟩
    · simp [Except.map, Failure.kind]
    · simp [bareMove, State.bare, Except.map, splitFunction_bare]
  | operator =>
    simp only [step, Token.kind_bare, hkind, State.bare, readOperator_bare, Token.name_bare]
    cases operator? (readOperator state.operandDue token).name with
    | none => simp [Except.map]
    | some entry =>
      have hspans := span_bare (fun _ => rfl : ∀ token : Token, yields entry token.bare =
        yields entry token) state.stack
      by_cases hbinary : entry.arity = 2
      · simp only [if_pos hbinary, hspans, byKind_ok, Except.map, bareMove, State.bare,
          List.map_cons]
      · simp [hbinary, bareMove, State.bare, Except.map]

theorem arrangeFrom_eq_bind (state : State) (token : Token) (rest : List Token) :
    arrangeFrom state (token :: rest) =
      (step state token).bind fun move => (arrangeFrom move.2 rest).map (move.1 ++ ·) := by
  rw [arrangeFrom]
  cases step state token <;> rfl

theorem unwind_bare (stack : List Token) :
    byKind (unwind (stack.map Token.bare)) = (byKind (unwind stack)).map (List.map Token.bare) := by
  have hsame : (stack.map Token.bare).any Token.isParen = stack.any Token.isParen := by
    rw [List.any_map]
    rfl
  simp only [unwind, hsame]
  split <;> rfl

theorem arrangeFrom_bare (state : State) (tokens : List Token) :
    byKind (arrangeFrom state.bare (tokens.map Token.bare)) =
      (byKind (arrangeFrom state tokens)).map (List.map Token.bare) := by
  induction tokens generalizing state with
  | nil => exact unwind_bare state.stack
  | cons token rest ih =>
    rw [List.map_cons, arrangeFrom_eq_bind, arrangeFrom_eq_bind, byKind_bind, byKind_bind,
      step_bare]
    cases byKind (step state token) with
    | error kind => rfl
    | ok move =>
      show byKind ((arrangeFrom move.2.bare (rest.map Token.bare)).map
          (move.1.map Token.bare ++ ·)) =
        (byKind ((arrangeFrom move.2 rest).map (move.1 ++ ·))).map (List.map Token.bare)
      rw [byKind_map, byKind_map, ih]
      cases byKind (arrangeFrom move.2 rest) with
      | error kind => rfl
      | ok others => simp [Except.map]

end Postorder

def Instruction.bare (instruction : Instruction) : Instruction :=
  { instruction with token := instruction.token.bare }

theorem Instruction.ofToken_bare (token : Token) :
    byKind (ofToken token.bare) = (byKind (ofToken token)).map Instruction.bare := by
  have hsame : token.bare.meaning = token.meaning := rfl
  simp only [ofToken, Token.kind_bare, hsame]
  cases token.kind <;> cases token.meaning <;> rfl

namespace Program

theorem ofTokens_eq_bind (token : Token) (rest : List Token) :
    ofTokens (token :: rest) = (Instruction.ofToken token).bind fun instruction =>
      (ofTokens rest).map (instruction :: ·) := by
  rw [ofTokens]
  cases Instruction.ofToken token <;> rfl

theorem ofTokens_bare (tokens : List Token) : byKind (ofTokens (tokens.map Token.bare)) =
    (byKind (ofTokens tokens)).map (List.map Instruction.bare) := by
  induction tokens with
  | nil => rfl
  | cons token rest ih =>
    rw [List.map_cons, ofTokens_eq_bind, ofTokens_eq_bind, byKind_bind, byKind_bind,
      Instruction.ofToken_bare]
    cases byKind (Instruction.ofToken token) with
    | error kind => rfl
    | ok instruction =>
      show byKind ((ofTokens (rest.map Token.bare)).map (instruction.bare :: ·)) =
        (byKind ((ofTokens rest).map (instruction :: ·))).map (List.map Instruction.bare)
      rw [byKind_map, byKind_map, ih]
      cases byKind (ofTokens rest) <;> rfl

theorem depthAfter_bare (depth : Nat) (program : List Instruction) :
    depthAfter depth (program.map Instruction.bare) = depthAfter depth program := by
  induction program generalizing depth with
  | nil => rfl
  | cons instruction rest ih =>
    rw [List.map_cons, depthAfter, depthAfter, ih]
    rfl

theorem check_eq_bind (tokens : List Token) :
    check tokens = (ofTokens tokens).bind fun program => (depthAfter 0 program).bind fun depth =>
      if depth = 1 then .ok program else .error (.surplusValues depth) := by
  rw [check]
  cases ofTokens tokens with
  | error failure => rfl
  | ok program =>
    dsimp only [Except.bind]
    cases depthAfter 0 program <;> rfl

theorem check_bare (tokens : List Token) : byKind (check (tokens.map Token.bare)) =
    (byKind (check tokens)).map (List.map Instruction.bare) := by
  rw [check_eq_bind, check_eq_bind, byKind_bind, byKind_bind, ofTokens_bare]
  cases byKind (ofTokens tokens) with
  | error kind => rfl
  | ok program =>
    simp only [Except.map, Except.bind, depthAfter_bare]
    cases depthAfter 0 program with
    | error failure => rfl
    | ok depth =>
      dsimp only
      split <;> rfl

theorem run_bare (mode : AngleMode) (program : List Instruction) (stack : List Double) :
    run mode (program.map Instruction.bare) stack = run mode program stack := by
  induction program generalizing stack with
  | nil => rfl
  | cons instruction rest ih =>
    have hsame : step mode instruction.bare stack = step mode instruction stack := rfl
    rw [List.map_cons, run, run, hsame]
    cases step mode instruction stack with
    | error fault => rfl
    | ok after => exact ih after

theorem evaluate_eq_bind (mode : AngleMode) (tokens : List Token) :
    evaluate mode tokens = (check tokens).bind (value mode) := by
  rw [evaluate]
  cases check tokens <;> rfl

theorem evaluate_bare (mode : AngleMode) (tokens : List Token) :
    byKind (evaluate mode (tokens.map Token.bare)) = byKind (evaluate mode tokens) := by
  rw [evaluate_eq_bind, evaluate_eq_bind, byKind_bind, byKind_bind, check_bare]
  cases byKind (check tokens) with
  | error kind => rfl
  | ok program =>
    show byKind (value mode (program.map Instruction.bare)) = byKind (value mode program)
    simp only [value, run_bare]

end Program

theorem evaluateTokens_eq_bind (mode : AngleMode) (tokens : List Token) :
    evaluateTokens mode tokens = (Postorder.arrange tokens).bind (Program.evaluate mode) := by
  rw [evaluateTokens]
  cases Postorder.arrange tokens <;> rfl

theorem evaluateTokens_bare (mode : AngleMode) (tokens : List Token) :
    byKind (evaluateTokens mode (tokens.map Token.bare)) =
      byKind (evaluateTokens mode tokens) := by
  have harrange : byKind (Postorder.arrange (tokens.map Token.bare)) =
      (byKind (Postorder.arrange tokens)).map (List.map Token.bare) :=
    Postorder.arrangeFrom_bare ⟨[], true⟩ tokens
  rw [evaluateTokens_eq_bind, evaluateTokens_eq_bind, byKind_bind, byKind_bind, harrange]
  cases byKind (Postorder.arrange tokens) with
  | error kind => rfl
  | ok ordered => exact Program.evaluate_bare mode ordered

namespace Token

def bareFound (found : Token × Nat) : Token × Nat := (found.1.bare, found.2)

theorem lexeme_bare (position other : Nat) (c : Char) (rest : List Char) :
    byKind ((lexeme position c rest).map bareFound) =
      byKind ((lexeme other c rest).map bareFound) := by
  unfold lexeme
  dsimp only
  split
  · split <;> rfl
  · split
    · rfl
    · split <;> rfl

theorem scanFrom_bare_cons {c : Char} (hnotBlank : ¬ Text.isBlank c = true) (position : Nat)
    (rest : List Char) : byKind ((scanFrom 0 position (c :: rest)).map (List.map bare)) =
      (byKind ((lexeme position c rest).map bareFound)).bind fun found =>
        (byKind ((scanFrom found.2 (position + 1) rest).map (List.map bare))).map
          (found.1 :: ·) := by
  rw [scanFrom, if_neg hnotBlank]
  cases lexeme position c rest with
  | error failure => rfl
  | ok found =>
    dsimp only [Except.map, byKind_ok, Except.bind, bareFound]
    cases scanFrom found.2 (position + 1) rest <;> rfl

theorem scanFrom_bare (skip position other : Nat) (cs : List Char) :
    byKind ((scanFrom skip position cs).map (List.map bare)) =
      byKind ((scanFrom skip other cs).map (List.map bare)) := by
  induction cs generalizing skip position other with
  | nil => rfl
  | cons c rest ih =>
    cases skip with
    | succ skip => exact ih skip _ _
    | zero =>
      by_cases hblank : Text.isBlank c = true
      · rw [scanFrom, scanFrom, if_pos hblank, if_pos hblank]
        exact ih 0 _ _
      · rw [scanFrom_bare_cons hblank, scanFrom_bare_cons hblank, lexeme_bare position other]
        congr 1
        funext found
        rw [ih found.2 (position + 1) (other + 1)]

theorem scanFrom_blanks_append {blanks : List Char}
    (hblank : ∀ c ∈ blanks, Text.isBlank c = true) (position : Nat) (cs : List Char) :
    scanFrom 0 position (blanks ++ cs) = scanFrom 0 (position + blanks.length) cs := by
  induction blanks generalizing position with
  | nil => rfl
  | cons c rest ih =>
    obtain ⟨hfirst, hothers⟩ := List.forall_mem_cons.mp hblank
    rw [List.cons_append, scanFrom, if_pos hfirst, ih hothers, List.length_cons]
    congr 1
    omega

theorem isDigit_eq_false_of_isBlank {c : Char} (h : Text.isBlank c = true) :
    c.isDigit = false := by
  rw [← Bool.not_eq_true]
  intro hdigit
  rw [Text.isBlank_eq_false_of_isDigit hdigit] at h
  cases h

section

variable {blanks : List Char} (hblank : ∀ c ∈ blanks, Text.isBlank c = true)

include hblank

theorem scanFrom_of_blanks (skip position : Nat) : scanFrom skip position blanks = .ok [] := by
  rw [scanFrom_skip]
  exact scanFrom_blank (fun c hmem => hblank c (List.mem_of_mem_drop hmem)) _

theorem span_append_blanks {p : Char → Bool} (h : ∀ c, Text.isBlank c = true → p c = false)
    (cs : List Char) : (cs ++ blanks).takeWhile p = cs.takeWhile p ∧
      (cs ++ blanks).dropWhile p = cs.dropWhile p ++ blanks := by
  induction cs with
  | nil =>
    cases blanks with
    | nil => exact ⟨rfl, rfl⟩
    | cons c rest =>
      have hstops := h c (hblank c List.mem_cons_self)
      simp [hstops]
  | cons c rest ih =>
    cases hgoesOn : p c with
    | true => simp [hgoesOn, ih]
    | false => simp [hgoesOn]

theorem numberSpan_append_blanks (cs : List Char) :
    numberSpan (cs ++ blanks) = numberSpan cs := by
  have hdigits := fun left => span_append_blanks hblank (p := Char.isDigit)
    (fun _ => isDigit_eq_false_of_isBlank) left
  unfold numberSpan
  rw [(hdigits cs).1, (hdigits cs).2]
  cases hbehind : cs.dropWhile Char.isDigit with
  | nil =>
    cases blanks with
    | nil => rfl
    | cons c rest =>
      have hnotPoint : c ≠ '.' := by
        rintro rfl
        exact absurd (hblank '.' List.mem_cons_self) (by decide)
      simp [hnotPoint]
  | cons c rest =>
    by_cases hpoint : c = '.'
    · simp [hpoint, (hdigits rest).1]
    · simp [hpoint]

theorem lexeme_append_blanks (position : Nat) (c : Char) (rest : List Char) :
    lexeme position c (rest ++ blanks) = lexeme position c rest := by
  have hnumber := numberSpan_append_blanks hblank (c :: rest)
  have hname := (span_append_blanks hblank (fun _ => isNameChar_eq_false_of_isBlank) rest).1
  rw [List.cons_append] at hnumber
  rw [lexeme, lexeme, hnumber, hname]

theorem scanFrom_append_blanks (skip position : Nat) (cs : List Char) :
    scanFrom skip position (cs ++ blanks) = scanFrom skip position cs := by
  induction cs generalizing skip position with
  | nil => rw [List.nil_append, scanFrom_of_blanks hblank, scanFrom]
  | cons c rest ih =>
    cases skip with
    | succ skip => exact ih skip (position + 1)
    | zero =>
      rw [List.cons_append, scanFrom, scanFrom, lexeme_append_blanks hblank]
      split
      · exact ih 0 (position + 1)
      · split
        · rfl
        · rw [ih]

end

theorem scan_strip (text : String) :
    byKind ((scan (Text.strip text)).map (List.map bare)) =
      byKind ((scan text).map (List.map bare)) := by
  obtain ⟨before, after, hcut, hblankBefore, hblankAfter⟩ := Text.exists_stripChars text.toList
  rw [scan, scan, Text.strip, String.toList_ofList]
  conv_rhs => rw [hcut]
  rw [scanFrom_append_blanks hblankAfter, scanFrom_blanks_append hblankBefore]
  exact scanFrom_bare 0 0 _ _

end Token

theorem Text.allBlank_strip (text : String) : allBlank (strip text) = allBlank text := by
  obtain ⟨before, after, hcut, hblankBefore, hblankAfter⟩ := exists_stripChars text.toList
  have hall : ∀ {cs : List Char}, (∀ c ∈ cs, isBlank c = true) → cs.all isBlank = true :=
    List.all_eq_true.mpr
  rw [allBlank, allBlank, strip, String.toList_ofList]
  conv_rhs => rw [hcut]
  rw [List.all_append, List.all_append, hall hblankBefore, hall hblankAfter, Bool.true_and,
    Bool.and_true]

theorem byKind_bind_evaluateTokens (mode : AngleMode) (scanned : Except Failure (List Token)) :
    byKind (scanned.bind (evaluateTokens mode)) =
      (byKind (scanned.map (List.map Token.bare))).bind fun tokens =>
        byKind (evaluateTokens mode tokens) := by
  cases scanned with
  | error failure => rfl
  | ok tokens => exact (evaluateTokens_bare mode tokens).symm

theorem evaluate_eq_bind (mode : AngleMode) (text : String) :
    evaluate mode (some text) =
      if Text.allBlank text = true then .error .emptyExpression
      else (Token.scan text).bind (evaluateTokens mode) := by
  rw [evaluate, isEmptyExpression, Option.getD_some]
  cases Token.scan text <;> rfl

/-- An expression has the value it has without the blanks around it, or fails for a reason of the
same kind. -/
theorem evaluate_strip (mode : AngleMode) (text : String) :
    byKind (evaluate mode (some (Text.strip text))) = byKind (evaluate mode (some text)) := by
  rw [evaluate_eq_bind, evaluate_eq_bind, Text.allBlank_strip]
  split
  · rfl
  · rw [byKind_bind_evaluateTokens, byKind_bind_evaluateTokens, Token.scan_strip]

end Reckoner
