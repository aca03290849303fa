import Reckoner.Proofs.Guards

/-!
# The failures of texts

Which failures the stages of an evaluation come to. Two causes are out of reach of a text: an
operator outside of the vocabulary, since each symbol that is an operator has an entry, and a
parenthesis or a comma in postorder, since the arrangement puts none out.
-/

namespace Reckoner

open Postorder
set_option autoImplicit false

namespace Failure

def Attainable : Failure → Prop
  | unknownOperator _ | unexpectedToken _ => False
  | _ => True

theorem attainable_iff (failure : Failure) :
    failure.Attainable ↔
      (∀ name, failure ≠ .unknownOperator name) ∧ ∀ token, failure ≠ .unexpectedToken token := by
  cases failure <;> simp [Attainable]

def IsRefusal : Failure → Prop
  | divisionByZero | reciprocalOfZero | moduloByZero | outsideDomain _ | factorialTooLarge => True
  | _ => False

theorem IsRefusal.attainable {failure : Failure} (h : failure.IsRefusal) : failure.Attainable := by
  cases failure <;> trivial

theorem IsRefusal.stage {failure : Failure} (h : failure.IsRefusal) :
    failure.kind.stage? = some .evaluation := by
  cases failure <;> first | rfl | cases h

end Failure

theorem Token.attainable_of_scan_error {text : String} {failure : Failure}
    (h : Token.scan text = .error failure) : failure.Attainable := by
  obtain ⟨place, c, rest, hfound⟩ := exists_lexeme_of_scanFrom_error h
  rcases lexeme_error hfound with rfl | rfl
  · trivial
  · trivial

theorem Postorder.attainable_of_arrange_error {tokens : List Token} {failure : Failure}
    (hmeant : ∀ token ∈ tokens, token.Meant) (h : arrange tokens = .error failure) :
    failure.Attainable := by
  rcases arrangeFrom_error h with rfl | ⟨token, hmem, before, hrefused⟩
  · trivial
  · cases hrefused with
    | comma | closing => trivial
    | stranger hoperator hunknown =>
      obtain ⟨entry, hknown⟩ := (hmeant token hmem).entry hoperator
      rw [hknown] at hunknown
      cases hunknown

theorem Instruction.attainable_of_ofToken_error {tokens : List Token} {token : Token}
    {failure : Failure} (hleaves : Leaves tokens token)
    (h : Instruction.ofToken token = .error failure) : failure.Attainable := by
  rcases hleaves with ⟨_, hnumber⟩ | hname | ⟨hoperator, entry, hknown⟩
  · simp [Instruction.ofToken, Token.meaning, hnumber, Except.map] at h
  · cases hfound : identifier? token.name with
    | some entry => simp [Instruction.ofToken, Token.meaning, hname, hfound, Except.map] at h
    | none =>
      simp only [Instruction.ofToken, Token.meaning, hname, hfound, Except.map,
        Except.error.injEq] at h
      subst h
      trivial
  · simp [Instruction.ofToken, Token.meaning, hoperator, hknown, Except.map] at h

theorem Instruction.attainable_lacking (instruction : Instruction) :
    instruction.lacking.Attainable := by
  unfold Instruction.lacking
  split <;> trivial

namespace Program

theorem exists_ofToken_error {tokens : List Token} {failure : Failure}
    (h : ofTokens tokens = .error failure) :
    ∃ token ∈ tokens, Instruction.ofToken token = .error failure := by
  induction tokens with
  | nil => cases h
  | cons token rest ih =>
    cases hfirst : Instruction.ofToken token with
    | error other =>
      simp only [ofTokens, hfirst, Except.error.injEq] at h
      exact ⟨token, List.mem_cons_self, by rw [hfirst, h]⟩
    | ok instruction =>
      cases hothers : ofTokens rest with
      | ok behind => simp [ofTokens, hfirst, hothers, Except.map] at h
      | error other =>
        simp only [ofTokens, hfirst, hothers, Except.map, Except.error.injEq] at h
        subst h
        obtain ⟨culprit, hmem, hfault⟩ := ih hothers
        exact ⟨culprit, List.mem_cons_of_mem token hmem, hfault⟩

theorem exists_lacking_of_depthAfter_error {depth : Nat} {program : List Instruction}
    {failure : Failure} (h : depthAfter depth program = .error failure) :
    ∃ instruction ∈ program, failure = instruction.lacking := by
  induction program generalizing depth with
  | nil => cases h
  | cons instruction rest ih =>
    rw [depthAfter] at h
    split at h
    · cases h
      exact ⟨instruction, List.mem_cons_self, rfl⟩
    · obtain ⟨culprit, hmem, hlacking⟩ := ih h
      exact ⟨culprit, List.mem_cons_of_mem instruction hmem, hlacking⟩

theorem attainable_of_check_error {tokens ordered : List Token} {failure : Failure}
    (hleaves : ∀ token ∈ ordered, Leaves tokens token) (h : check ordered = .error failure) :
    failure.Attainable := by
  cases hknown : ofTokens ordered with
  | error other =>
    simp only [check, hknown, Except.error.injEq] at h
    subst h
    obtain ⟨token, hmem, hfault⟩ := exists_ofToken_error hknown
    exact Instruction.attainable_of_ofToken_error (hleaves token hmem) hfault
  | ok program =>
    cases hreached : depthAfter 0 program with
    | error other =>
      simp only [check, hknown, hreached, Except.error.injEq] at h
      subst h
      obtain ⟨instruction, _, rfl⟩ := exists_lacking_of_depthAfter_error hreached
      exact instruction.attainable_lacking
    | ok depth =>
      simp only [check, hknown, hreached] at h
      split at h
      · cases h
      · cases h
        trivial

end Program

theorem isRefusal_of_factorial_error {x : Double} {failure : Failure}
    (h : factorial x = .error failure) : failure.IsRefusal := by
  simp only [factorial] at h
  split at h
  · cases h
    trivial
  split at h
  · cases h
    trivial
  split at h
  · cases h
    trivial
  split at h
  · cases h
    trivial
  split at h
  · cases h
    trivial
  · cases h

theorem isRefusal_of_root_error {x index : Double} {failure : Failure}
    (h : root x index = .error failure) : failure.IsRefusal := by
  unfold root at h
  split at h
  · cases h
    trivial
  split at h
  · split at h
    · cases h
    · cases h
      trivial
  · cases h

theorem UnaryOperation.isRefusal_of_apply_error {mode : AngleMode} {operation : UnaryOperation}
    {x : Double} {failure : Failure} (h : operation.apply mode x = .error failure) :
    failure.IsRefusal := by
  cases operation with
  | log | ln | sqrt | inv =>
    simp only [UnaryOperation.apply] at h
    split at h
    · cases h
      trivial
    · cases h
  | fact => exact isRefusal_of_factorial_error h
  | _ => cases h

theorem BinaryOperation.isRefusal_of_apply_error {mode : AngleMode}
    {operation : BinaryOperation} {x y : Double} {failure : Failure}
    (h : operation.apply mode x y = .error failure) : failure.IsRefusal := by
  cases operation with
  | div | mod =>
    simp only [BinaryOperation.apply] at h
    split at h
    · cases h
      trivial
    · cases h
  | root => exact isRefusal_of_root_error h
  | _ => cases h

namespace Program

theorem isRefusal_of_push_error {stack : List Double} {result : Except Failure Double}
    {failure : Failure} (hrefused : ∀ other, result = .error other → other.IsRefusal)
    (h : push stack result = .error (.failure failure)) : failure.IsRefusal := by
  cases result with
  | ok value => cases h
  | error other =>
    cases h
    exact hrefused failure rfl

theorem isRefusal_of_applyTo_error {mode : AngleMode} {operation : Operation}
    {stack : List Double} {failure : Failure}
    (h : applyTo mode operation stack = .error (.failure failure)) : failure.IsRefusal := by
  match operation, stack, h with
  | .unary _, _ :: _, h =>
    exact isRefusal_of_push_error (fun _ => UnaryOperation.isRefusal_of_apply_error) h
  | .binary _, _ :: _ :: _, h =>
    exact isRefusal_of_push_error (fun _ => BinaryOperation.isRefusal_of_apply_error) h

theorem isRefusal_of_step_error {mode : AngleMode} {instruction : Instruction}
    {stack : List Double} {failure : Failure}
    (h : step mode instruction stack = .error (.failure failure)) : failure.IsRefusal := by
  obtain ⟨token, entry⟩ := instruction
  match entry, h with
  | some (.identifier (.function _)), h => exact isRefusal_of_applyTo_error h
  | some (.operator _), h => exact isRefusal_of_applyTo_error h

theorem isRefusal_of_run_error {mode : AngleMode} {program : List Instruction}
    {stack : List Double} {failure : Failure}
    (h : run mode program stack = .error (.failure failure)) : failure.IsRefusal := by
  induction program generalizing stack with
  | nil => cases h
  | cons instruction rest ih =>
    cases hstep : step mode instruction stack with
    | error fault =>
      simp only [run, hstep, Except.error.injEq] at h
      subst h
      exact isRefusal_of_step_error hstep
    | ok after =>
      simp only [run, hstep] at h
      exact ih h

theorem attainable_of_value_error {mode : AngleMode} {program : List Instruction}
    {failure : Failure} (h : value mode program = .error failure) : failure.Attainable := by
  unfold value at h
  split at h
  · split at h
    · cases h
    · cases h
      trivial
  · cases h
    trivial
  · rename_i hran
    cases h
    exact (isRefusal_of_run_error hran).attainable
  · cases h
    trivial

theorem isFinite_of_value {mode : AngleMode} {program : List Instruction} {x : Double}
    (h : value mode program = .ok x) : x.isFinite = true := by
  unfold value at h
  split at h
  · split at h
    · rename_i hfinite
      cases h
      exact hfinite
    · cases h
  all_goals cases h

theorem attainable_of_evaluate_error {mode : AngleMode} {tokens ordered : List Token}
    {failure : Failure} (hleaves : ∀ token ∈ ordered, Leaves tokens token)
    (h : evaluate mode ordered = .error failure) : failure.Attainable := by
  cases hcheck : check ordered with
  | error other =>
    simp only [evaluate, hcheck, Except.error.injEq] at h
    exact h ▸ attainable_of_check_error hleaves hcheck
  | ok program =>
    simp only [evaluate, hcheck] at h
    exact attainable_of_value_error h

end Program

theorem attainable_of_evaluate_error {mode : AngleMode} {expression : Option String}
    {failure : Failure} (h : evaluate mode expression = .error failure) : failure.Attainable := by
  unfold evaluate at h
  split at h
  · cases h
    trivial
  cases hscan : Token.scan (expression.getD "") with
  | error other =>
    simp only [hscan, Except.error.injEq] at h
    exact h ▸ Token.attainable_of_scan_error hscan
  | ok tokens =>
    have hmeant : ∀ token ∈ tokens, token.Meant := fun token => Token.meant_of_mem_scan hscan
    cases harrange : arrange tokens with
    | error other =>
      simp only [hscan, evaluateTokens, harrange, Except.error.injEq] at h
      exact h ▸ Postorder.attainable_of_arrange_error hmeant harrange
    | ok ordered =>
      simp only [hscan, evaluateTokens, harrange] at h
      exact Program.attainable_of_evaluate_error (leaves_of_arrangeFrom harrange waits_initial) h

theorem isFinite_of_evaluate {mode : AngleMode} {expression : Option String} {x : Double}
    (h : evaluate mode expression = .ok x) : x.isFinite = true := by
  obtain ⟨_, tokens, _, hevaluate⟩ := exists_scan_of_evaluate h
  obtain ⟨ordered, _, hvalued⟩ := exists_arrange_of_evaluateTokens hevaluate
  obtain ⟨program, _, hresult⟩ := Program.exists_check_of_evaluate hvalued
  exact Program.isFinite_of_value hresult

theorem Unguarded.tryEvaluate_eq (mode : AngleMode) (expression : Option String) :
    Unguarded.tryEvaluate mode expression = .ok (Reckoner.tryEvaluate mode expression) := by
  rw [Unguarded.tryEvaluate, Unguarded.evaluate_eq, Reckoner.tryEvaluate]
  cases Reckoner.evaluate mode expression <;> rfl

/-- Stopping at hazards changes nothing: an expression, or none, has a finite value or comes to a
failure that is in reach of a text, and the outcome of the expression tells which. -/
theorem evaluate_closed (mode : AngleMode) (expression : Option String) :
    Unguarded.evaluate mode expression = (evaluate mode expression).mapError .failure ∧
    Unguarded.tryEvaluate mode expression = .ok (tryEvaluate mode expression) ∧
    (∀ x, evaluate mode expression = .ok x →
      x.isFinite = true ∧ (tryEvaluate mode expression).isOk = true ∧
        (tryEvaluate mode expression).value? = some x) ∧
    ∀ failure, evaluate mode expression = .error failure →
      (∀ name, failure ≠ .unknownOperator name) ∧ (∀ token, failure ≠ .unexpectedToken token) ∧
        (tryEvaluate mode expression).isOk = false ∧
        (tryEvaluate mode expression).failure? = some failure := by
  refine ⟨Unguarded.evaluate_eq mode expression, Unguarded.tryEvaluate_eq mode expression, ?_, ?_⟩
  · intro x hevaluate
    refine ⟨isFinite_of_evaluate hevaluate, ?_, ?_⟩
    · simp [Outcome.isOk, Outcome.failure?, tryEvaluate, hevaluate]
    · simp [Outcome.value?, tryEvaluate, hevaluate, Except.toOption]
  · intro failure hevaluate
    have hattainable := attainable_of_evaluate_error hevaluate
    obtain ⟨hnoOperator, hnoToken⟩ := failure.attainable_iff.mp hattainable
    refine ⟨hnoOperator, hnoToken, ?_, ?_⟩
    · simp [Outcome.isOk, Outcome.failure?, tryEvaluate, hevaluate]
    · simp [Outcome.failure?, tryEvaluate, hevaluate]

end Reckoner
