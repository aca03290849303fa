import Mathlib.Data.List.Basic
import Reckoner.Proofs.Hazard
import Reckoner.Proofs.OperatorStack
import Reckoner.Proofs.Scanning
import Reckoner.Proofs.Simulation

/-!
# Every hazard is guarded

Each stage with hazards agrees with the stage without them on what the stage before it hands over.
A scan reads numerals only, the operator stack holds operators of the vocabulary only, a checked
program finds its arguments, and no operation turns an infinite number into an integer or divides
by zero.
-/

namespace Reckoner.Unguarded

open Postorder
set_option autoImplicit false

theorem mapError_map {α β : Type} (result : Except Failure α) (f : α → β) :
    (result.map f).mapError Halt.failure = (result.mapError Halt.failure).map f := by
  cases result <;> rfl

theorem readNumeral_of_isNumber {literal : List Char} (h : Token.IsNumber literal) :
    readNumeral literal = .ok ((Decimal.ofLiteral literal).toDouble false) := if_pos h

theorem lexeme_eq (position : Nat) (c : Char) (rest : List Char) :
    lexeme position c rest = (Token.lexeme position c rest).mapError Halt.failure := by
  by_cases hbegins : (c.isDigit || c == '.') = true
  · by_cases halone : Token.numberSpan (c :: rest) = ['.']
    · simp [lexeme, Token.lexeme, hbegins, halone, Except.mapError]
    · have hnumeral : Token.IsNumber (Token.numberSpan (c :: rest)) :=
        Token.isNumber_numberSpan (by simpa using hbegins) halone
      simp only [lexeme, Token.lexeme, if_pos hbegins, if_neg halone,
        readNumeral_of_isNumber hnumeral]
      rfl
  · simp only [lexeme, if_neg hbegins]

theorem scanFrom_eq (skip position : Nat) (cs : List Char) :
    scanFrom skip position cs = (Token.scanFrom skip position cs).mapError Halt.failure := by
  induction cs generalizing skip position with
  | nil => cases skip <;> rfl
  | cons c rest ih =>
    cases skip with
    | succ skip => exact ih skip (position + 1)
    | zero =>
      rw [scanFrom, Token.scanFrom]
      split
      · exact ih 0 (position + 1)
      · rw [lexeme_eq]
        cases Token.lexeme position c rest with
        | error failure => rfl
        | ok found =>
          simp only [Except.mapError, ih]
          exact (mapError_map _ _).symm

theorem release_eq {stack : List Token} (hwaits : ∀ token ∈ stack, Waits token)
    (incoming : OperatorEntry) :
    release incoming stack = .ok (stack.span (yields incoming)) := by
  induction stack with
  | nil => rfl
  | cons top below ih =>
    obtain ⟨hone, hothers⟩ := List.forall_mem_cons.mp hwaits
    by_cases hkind : top.kind = .operator
    · have hfound : ∃ waiting, operator? top.name = some waiting := by
        rcases hone with hparen | hname | hknown
        · rw [hkind] at hparen
          cases hparen
        · rw [hkind] at hname
          cases hname
        · exact hknown.2
      obtain ⟨waiting, hknown⟩ := hfound
      have hlooked : entryOf top.name = .ok waiting := by simp [entryOf, hknown]
      by_cases hleaves : leavesBefore incoming waiting = true
      · have hyielding : yields incoming top = true := by simp [yields, hkind, hknown, hleaves]
        simp only [release, if_pos hkind, hlooked, if_pos hleaves, ih hothers,
          span_yields_cons hyielding]
        rfl
      · have hstaying : yields incoming top = false := by simp [yields, hkind, hknown, hleaves]
        rw [span_yields_of_head (by simpa using hstaying)]
        simp only [release, if_pos hkind, hlooked, if_neg hleaves]
    · have hstaying : yields incoming top = false := by simp [yields, hkind]
      rw [span_yields_of_head (by simpa using hstaying), release, if_neg hkind]

theorem arrangeStep_eq {state : State} (hwaits : ∀ token ∈ state.stack, Waits token)
    (token : Token) :
    arrangeStep state token = (step state token).mapError Halt.failure := by
  cases hkind : token.kind with
  | number | identifier | leftParen | comma => simp only [arrangeStep, hkind]
  | rightParen =>
    simp only [arrangeStep, step, hkind]
    rcases splitAtParen state.stack with ⟨above, _ | ⟨opening, below⟩⟩ <;> rfl
  | operator =>
    simp only [arrangeStep, step, hkind, release_eq hwaits]
    cases operator? (readOperator state.operandDue token).name with
    | none => rfl
    | some entry =>
      dsimp only
      split <;> rfl

theorem arrangeFrom_eq {state : State} (hwaits : ∀ token ∈ state.stack, Waits token)
    (tokens : List Token) :
    arrangeFrom state tokens = (Postorder.arrangeFrom state tokens).mapError Halt.failure := by
  induction tokens generalizing state with
  | nil => rfl
  | cons token rest ih =>
    rw [arrangeFrom, Postorder.arrangeFrom, arrangeStep_eq hwaits]
    cases hstep : step state token with
    | error failure => rfl
    | ok result =>
      simp only [Except.mapError, ih (step_keeps hstep hwaits).1]
      exact (mapError_map _ _).symm

theorem isFinite_tolerance : Double.tolerance.isFinite = true := by decide +kernel

theorem le_eq_false_of_infinite {y : Double} (hfinite : y.isFinite = true) :
    (Double.infinite false).le y = false := by
  cases y with
  | nan => cases hfinite
  | infinite negative => cases hfinite
  | finite negative rank =>
    have hsmall := rank.isLt
    simp only [Double.le, Double.place?, Double.rankCount, decide_eq_false_iff_not]
    cases negative with
    | false =>
      simp only [Bool.false_eq_true, if_false]
      omega
    | true =>
      simp only [Bool.false_eq_true, if_false, if_true]
      omega

/-- A number near an integer is near a finite one: the nearest integer to a finite number is not
NaN, and were it infinite, so would be its distance. -/
theorem isFinite_rint {x : Double} (hnear : x.isNearInteger = true) : x.rint.isFinite = true := by
  simp only [Double.isNearInteger, Bool.and_eq_true] at hnear
  obtain ⟨hfinite, hclose⟩ := hnear
  cases x with
  | nan => cases hfinite
  | infinite negative => cases hfinite
  | finite negative rank =>
    cases hrounded : (Double.finite negative rank).rint with
    | finite => rfl
    | nan =>
      simp only [Double.rint, Double.toWhole, Double.ofRatio, Double.ofRank] at hrounded
      split at hrounded <;> cases hrounded
    | infinite t =>
      have hdistance : ((Double.finite negative rank).sub (.infinite t)).abs = .infinite false := by
        simp only [Double.sub, Double.neg, Double.add, Double.abs]
      rw [hrounded, hdistance, le_eq_false_of_infinite isFinite_tolerance] at hclose
      cases hclose

theorem toInteger_rint {x : Double} (hnear : x.isNearInteger = true) :
    toInteger x.rint = .ok x.rint.toInt := if_pos (isFinite_rint hnear)

theorem isNearOdd_eq (x : Double) : isNearOdd x = .ok x.isNearOdd := by
  unfold isNearOdd Double.isNearOdd
  by_cases hnear : x.isNearInteger = true
  · rw [if_pos hnear, toInteger_rint hnear, hnear]
    rfl
  · simp [hnear]

theorem root_eq (x index : Double) :
    root x index = (Reckoner.root x index).mapError Halt.failure := by
  unfold root Reckoner.root
  by_cases hzero : index.isZero = true
  · rw [if_pos hzero, if_pos hzero]
    rfl
  · have hdivided : reciprocal index = .ok (Double.unit.div index) := if_neg hzero
    rw [if_neg hzero, if_neg hzero, isNearOdd_eq, hdivided]
    split
    · cases index.isNearOdd <;> rfl
    · rfl

theorem factorial_eq (x : Double) :
    factorial x = (Reckoner.factorial x).mapError Halt.failure := by
  unfold factorial Reckoner.factorial
  split
  · rfl
  split
  · rfl
  split
  · rfl
  by_cases hnear : x.isNearInteger = true
  · have hnotFar : ¬ (!x.isNearInteger) = true := by simp [hnear]
    rw [if_neg hnotFar, if_neg hnotFar, toInteger_rint hnear]
    dsimp only
    split
    · rfl
    · rfl
  · have hfar : (!x.isNearInteger) = true := by simp [hnear]
    rw [if_pos hfar, if_pos hfar]
    rfl

theorem apply_eq {mode : AngleMode} {operation : Operation} {arguments : List Double}
    {result : Except Failure Double} (h : operation.apply? mode arguments = some result) :
    apply mode operation arguments = result.mapError Halt.failure := by
  unfold apply
  split
  · cases h
    exact factorial_eq _
  · cases h
    exact root_eq _ _
  · rw [h]

theorem ofLabel?_label (operation : Operation) :
    Operation.ofLabel? operation.label = some operation := by
  cases operation with
  | unary operation => cases operation <;> rfl
  | binary operation => cases operation <;> rfl

def haltOf : Fault → Halt
  | .underflow => .hazard .tooFewValues
  | .failure failure => .failure failure

theorem takeLast_append {arguments : List Double} {count : Nat}
    (hlength : arguments.length = count) (below : List Double) :
    takeLast count (below ++ arguments) = .ok (arguments, below) := by
  subst hlength
  simp [takeLast]

theorem applyTo_eq (mode : AngleMode) (operation : Operation) (stack : List Double) :
    applyTo mode operation.arity operation.label stack.reverse =
      ((Program.applyTo mode operation stack).map List.reverse).mapError haltOf := by
  by_cases henough : operation.arity ≤ stack.length
  · have hlength : (stack.take operation.arity).reverse.length = operation.arity := by
      simp [henough]
    have hsplit : stack.reverse =
        (stack.drop operation.arity).reverse ++ (stack.take operation.arity).reverse := by
      rw [← List.reverse_append, List.take_append_drop]
    obtain ⟨result, happlied, hpushed⟩ := Operation.apply?_of_arity hlength mode
    have hmodel := hpushed (stack.drop operation.arity)
    rw [List.reverse_reverse, List.take_append_drop] at hmodel
    rw [hsplit, applyTo, takeLast_append hlength]
    simp only [operationOf, ofLabel?_label, apply_eq happlied, hmodel]
    cases result with
    | error failure => rfl
    | ok value => simp [Program.push, Except.map, Except.mapError]
  · have hshort : takeLast operation.arity stack.reverse = .error (.hazard .tooFewValues) :=
      if_pos (by simpa using henough)
    have hunderflow := Program.applyTo_eq_underflow (Nat.not_le.mp henough) mode
    rw [applyTo, hshort, hunderflow]
    rfl

def Valued (instruction : Instruction) : Prop :=
  instruction.entry = none → ∃ value, instruction.token.value = some value

theorem runStep_eq {instruction : Instruction} (hvalued : Valued instruction) (mode : AngleMode)
    (stack : List Double) :
    runStep mode instruction stack.reverse =
      ((Program.step mode instruction stack).map List.reverse).mapError haltOf := by
  obtain ⟨token, entry⟩ := instruction
  match entry, hvalued with
  | none, hvalued =>
    obtain ⟨value, hfound⟩ := hvalued rfl
    simp only at hfound
    simp [runStep, Program.step, hfound, Except.map, Except.mapError]
  | some (.identifier (.constant value)), _ =>
    simp [runStep, Program.step, Except.map, Except.mapError]
  | some (.identifier (.function operation)), _ => exact applyTo_eq mode operation stack
  | some (.operator entry), _ => exact applyTo_eq mode entry.operation stack

theorem run_eq {program : List Instruction}
    (hvalued : ∀ instruction ∈ program, Valued instruction) (mode : AngleMode)
    (stack : List Double) :
    run mode program stack.reverse =
      ((Program.run mode program stack).map List.reverse).mapError haltOf := by
  induction program generalizing stack with
  | nil => rfl
  | cons instruction rest ih =>
    obtain ⟨hone, hothers⟩ := List.forall_mem_cons.mp hvalued
    rw [run, Program.run, runStep_eq hone]
    cases Program.step mode instruction stack with
    | error fault => rfl
    | ok after => exact ih hothers after

theorem valued_of_ofTokens {tokens : List Token} {program : List Instruction}
    (h : Program.ofTokens tokens = .ok program)
    (hvalued : ∀ token ∈ tokens, token.kind = .number → ∃ value, token.value = some value) :
    ∀ instruction ∈ program, Valued instruction := by
  induction tokens generalizing program with
  | nil =>
    cases h
    exact List.forall_mem_nil _
  | cons token rest ih =>
    obtain ⟨hone, hothers⟩ := List.forall_mem_cons.mp hvalued
    obtain ⟨instruction, behind, hfound, hknown, rfl⟩ := Program.ofTokens_cons_eq_ok h
    refine List.forall_mem_cons.mpr ⟨fun hnoEntry => ?_, ih hknown hothers⟩
    rcases Instruction.ofToken_cases hfound with ⟨hkind, rfl⟩ | ⟨entry, _, _, rfl⟩ |
      ⟨entry, _, _, rfl⟩
    · exact hone hkind
    · cases hnoEntry
    · cases hnoEntry

theorem evaluateProgram_eq {tokens : List Token} (mode : AngleMode)
    (hvalued : ∀ token ∈ tokens, token.kind = .number → ∃ value, token.value = some value) :
    evaluateProgram mode tokens = (Program.evaluate mode tokens).mapError Halt.failure := by
  cases hcheck : Program.check tokens with
  | error failure => simp [evaluateProgram, Program.evaluate, hcheck, Except.mapError]
  | ok program =>
    obtain ⟨hknown, hreached⟩ := Program.check_eq_ok_iff.mp hcheck
    have hstart : Program.depthAfter ([] : List Double).length program = .ok 1 := hreached
    have hnoUnderflow := Program.run_ne_underflow hstart mode
    have hsimulated := run_eq (valued_of_ofTokens hknown hvalued) mode []
    simp only [evaluateProgram, Program.evaluate, hcheck, Program.value]
    rw [List.reverse_nil] at hsimulated
    rw [hsimulated]
    cases hran : Program.run mode program [] with
    | error fault =>
      cases fault with
      | underflow => exact absurd hran hnoUnderflow
      | failure failure => rfl
    | ok stack =>
      have hlength := Program.depthAfter_of_run hran
      rw [hstart, Except.ok.injEq] at hlength
      obtain ⟨value, rfl⟩ := List.length_eq_one_iff.mp hlength.symm
      simp only [Except.map, Except.mapError, List.reverse_singleton, result]
      split <;> rfl

/-- An evaluation that stops at hazards meets none: its results are those of `evaluate`. -/
theorem evaluate_eq (mode : AngleMode) (expression : Option String) :
    evaluate mode expression = (Reckoner.evaluate mode expression).mapError Halt.failure := by
  unfold evaluate Reckoner.evaluate
  split
  · rfl
  rw [scanFrom_eq]
  cases hscan : Token.scanFrom 0 0 (expression.getD "").toList with
  | error failure => simp [Token.scan, hscan, Except.mapError]
  | ok tokens =>
    have hmeant : ∀ token ∈ tokens, token.Meant := fun token hmem =>
      Token.meant_of_mem_scan hscan hmem
    simp only [Token.scan, hscan, Except.mapError, evaluateTokens, arrange]
    rw [arrangeFrom_eq waits_initial]
    cases harrange : Postorder.arrangeFrom ⟨[], true⟩ tokens with
    | error failure => rfl
    | ok ordered =>
      have hleaves := leaves_of_arrangeFrom harrange waits_initial
      refine evaluateProgram_eq mode fun token hmem hnumber => ?_
      rcases hleaves token hmem with ⟨hmem, _⟩ | hname | hknown
      · exact (hmeant token hmem).value hnumber
      · rw [hnumber] at hname
        cases hname
      · rw [hknown.1] at hnumber
        cases hnumber

end Reckoner.Unguarded
