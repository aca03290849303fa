import Reckoner.Angle.Conversion
import Reckoner.Proofs.OperatorStack
import Reckoner.Proofs.Simulation

/-!
# Degrees are radians written out

A program run in degrees does what its conversion does in radians. One instruction is matched by
the instructions that stand for it on any stack, also on one that is too short, so the two runs
never part; the check foresees the same number of values for both.
-/

namespace Reckoner

set_option autoImplicit false

namespace Operation

def takesAngle : Operation → Bool
  | unary .sin | unary .cos | unary .tan => true
  | _ => false

def givesAngle : Operation → Bool
  | unary .asin | unary .acos | unary .atan | binary .atan2 => true
  | _ => false

end Operation

theorem UnaryOperation.apply_of_takesAngle {operation : UnaryOperation}
    (htakes : (Operation.unary operation).takesAngle = true) (x : Double) :
    operation.apply .degrees x = operation.apply .radians (x.mul Double.degree) := by
  cases operation <;> first | rfl | cases htakes

theorem UnaryOperation.apply_of_givesAngle {operation : UnaryOperation}
    (hgives : (Operation.unary operation).givesAngle = true) (x : Double) :
    operation.apply .degrees x =
      (operation.apply .radians x).map fun angle => angle.mul Double.radian := by
  cases operation <;> first | rfl | cases hgives

theorem BinaryOperation.apply_of_givesAngle {operation : BinaryOperation}
    (hgives : (Operation.binary operation).givesAngle = true) (x y : Double) :
    operation.apply .degrees x y =
      (operation.apply .radians x y).map fun angle => angle.mul Double.radian := by
  cases operation <;> first | rfl | cases hgives

theorem UnaryOperation.apply_of_noAngle {operation : UnaryOperation}
    (htakes : (Operation.unary operation).takesAngle = false)
    (hgives : (Operation.unary operation).givesAngle = false) (x : Double) :
    operation.apply .degrees x = operation.apply .radians x := by
  cases operation <;> first | rfl | (cases htakes; done) | cases hgives

theorem BinaryOperation.apply_of_noAngle {operation : BinaryOperation}
    (hgives : (Operation.binary operation).givesAngle = false) (x y : Double) :
    operation.apply .degrees x y = operation.apply .radians x y := by
  cases operation <;> first | rfl | cases hgives

theorem Program.applyTo_of_noAngle {operation : Operation}
    (htakes : operation.takesAngle = false) (hgives : operation.givesAngle = false)
    (stack : List Double) :
    Program.applyTo .degrees operation stack = Program.applyTo .radians operation stack := by
  cases operation with
  | unary operation =>
    rcases stack with _ | ⟨x, stack⟩
    · rfl
    · rw [Program.applyTo, Program.applyTo, UnaryOperation.apply_of_noAngle htakes hgives]
  | binary operation =>
    rcases stack with _ | ⟨y, _ | ⟨x, stack⟩⟩
    · rfl
    · rfl
    · rw [Program.applyTo, Program.applyTo, BinaryOperation.apply_of_noAngle hgives]

theorem mem_of_lookup {α : Type} {entries : List (String × α)} {name : String} {entry : α}
    (hfound : entries.lookup name = some entry) : (name, entry) ∈ entries := by
  obtain ⟨before, behind, hsplit, _⟩ := List.lookup_eq_some_iff.mp hfound
  rw [hsplit]
  exact List.mem_append_right before List.mem_cons_self

/-- No operator measures angles. -/
theorem noAngle_of_operator? {name : String} {entry : OperatorEntry}
    (hknown : operator? name = some entry) :
    entry.operation.takesAngle = false ∧ entry.operation.givesAngle = false := by
  have hall : operators.all (fun pair =>
      !pair.2.operation.takesAngle && !pair.2.operation.givesAngle) = true := by decide
  simpa using List.all_eq_true.mp hall _ (mem_of_lookup hknown)

/-- The functions that take angles and those that give them are known by their names. -/
theorem angle_of_identifier? {name : String} {operation : Operation}
    (hknown : identifier? name = some (.function operation)) :
    operation.takesAngle = AngleMode.circular.contains name ∧
      operation.givesAngle = AngleMode.inverse.contains name := by
  have hall : identifiers.all (fun pair => pair.2.operation?.all fun operation =>
      operation.takesAngle == AngleMode.circular.contains pair.1 &&
        operation.givesAngle == AngleMode.inverse.contains pair.1) = true := by decide +kernel
  simpa [IdentifierEntry.operation?] using List.all_eq_true.mp hall _ (mem_of_lookup hknown)

theorem noAngle_of_constant {name : String} {value : Double}
    (hknown : identifier? name = some (.constant value)) :
    name ∉ AngleMode.circular ∧ name ∉ AngleMode.inverse := by
  have hall : identifiers.all (fun pair => pair.2.operation?.isSome ||
      !AngleMode.circular.contains pair.1 && !AngleMode.inverse.contains pair.1) = true := by
    decide +kernel
  simpa [IdentifierEntry.operation?] using List.all_eq_true.mp hall _ (mem_of_lookup hknown)

theorem Program.depthAfter_cons {depth : Nat} {instruction : Instruction}
    (henough : instruction.arity ≤ depth) (rest : List Instruction) :
    Program.depthAfter depth (instruction :: rest) =
      Program.depthAfter (depth - instruction.arity + 1) rest := by
  rw [Program.depthAfter, if_neg (Nat.not_lt.mpr henough)]

namespace AngleMode

def degreeProgram : List Instruction :=
  [⟨pi, some (.identifier (.constant Double.pi))⟩, ⟨halfTurn, none⟩,
   ⟨divide, some (.operator ⟨2, .left, .binary .div⟩)⟩,
   ⟨times, some (.operator ⟨2, .left, .binary .mul⟩)⟩]

def radianProgram : List Instruction :=
  [⟨halfTurn, none⟩, ⟨pi, some (.identifier (.constant Double.pi))⟩,
   ⟨divide, some (.operator ⟨2, .left, .binary .div⟩)⟩,
   ⟨times, some (.operator ⟨2, .left, .binary .mul⟩)⟩]

theorem ofTokens_degreesToRadians : Program.ofTokens degreesToRadians = .ok degreeProgram := by
  decide +kernel

theorem ofTokens_radiansToDegrees : Program.ofTokens radiansToDegrees = .ok radianProgram := by
  decide +kernel

theorem run_degreeProgram (x : Double) (stack : List Double) :
    Program.run .radians degreeProgram (x :: stack) = .ok (x.mul Double.degree :: stack) := by
  have hdivisor : (Double.ofNat 180).isZero = false := by decide +kernel
  simp [degreeProgram, Program.run, Program.step, Program.applyTo, Program.push,
    BinaryOperation.apply, halfTurn, hdivisor, Double.degree]

theorem run_radianProgram (x : Double) (stack : List Double) :
    Program.run .radians radianProgram (x :: stack) = .ok (x.mul Double.radian :: stack) := by
  have hdivisor : Double.pi.isZero = false := by decide +kernel
  simp [radianProgram, Program.run, Program.step, Program.applyTo, Program.push,
    BinaryOperation.apply, halfTurn, hdivisor, Double.radian]

theorem run_degreeProgram_nil :
    Program.run .radians degreeProgram [] = .error .underflow := by
  have hdivisor : (Double.ofNat 180).isZero = false := by decide +kernel
  simp [degreeProgram, Program.run, Program.step, Program.applyTo, Program.push,
    BinaryOperation.apply, halfTurn, hdivisor]

theorem depthAfter_degreeProgram (depth : Nat) :
    Program.depthAfter (depth + 1) degreeProgram = .ok (depth + 1) := by
  have htwo (below : Nat) : 2 ≤ below + 2 := Nat.le_add_left 2 below
  rw [degreeProgram, Program.depthAfter_cons (Nat.zero_le _),
    Program.depthAfter_cons (Nat.zero_le _), Program.depthAfter_cons (htwo (depth + 1)), Program.depthAfter_cons (htwo depth)]
  rfl

theorem depthAfter_radianProgram (depth : Nat) :
    Program.depthAfter (depth + 1) radianProgram = .ok (depth + 1) := by
  have htwo (below : Nat) : 2 ≤ below + 2 := Nat.le_add_left 2 below
  rw [radianProgram, Program.depthAfter_cons (Nat.zero_le _),
    Program.depthAfter_cons (Nat.zero_le _), Program.depthAfter_cons (htwo (depth + 1)), Program.depthAfter_cons (htwo depth)]
  rfl

end AngleMode

namespace Program

/-- In radians the program does what the instruction does in degrees, whatever the stack holds, and
the check foresees what it foresees for the instruction. -/
structure Matches (instruction : Instruction) (program : List Instruction) : Prop where
  run : ∀ stack, run .radians program stack = step .degrees instruction stack
  depth : ∀ depth, instruction.arity ≤ depth →
    depthAfter depth program = .ok (depth - instruction.arity + 1)

theorem run_singleton (mode : AngleMode) (instruction : Instruction) (stack : List Double) :
    Program.run mode [instruction] stack = step mode instruction stack := by
  rw [Program.run]
  cases step mode instruction stack <;> rfl

theorem matches_self {instruction : Instruction}
    (hsame : ∀ stack, step .degrees instruction stack = step .radians instruction stack) :
    Matches instruction [instruction] := by
  refine ⟨fun stack => ?_, fun depth henough => ?_⟩
  · rw [run_singleton, hsame]
  · rw [depthAfter_cons henough, depthAfter]

theorem matches_takesAngle {token : Token} {operation : Operation}
    (htakes : operation.takesAngle = true) :
    Matches ⟨token, some (.identifier (.function operation))⟩
      (AngleMode.degreeProgram ++ [⟨token, some (.identifier (.function operation))⟩]) := by
  obtain ⟨operation, rfl⟩ : ∃ unary, operation = .unary unary := by
    cases operation with
    | unary operation => exact ⟨operation, rfl⟩
    | binary operation => cases htakes
  refine ⟨fun stack => ?_, fun depth henough => ?_⟩
  · rw [run_append]
    cases stack with
    | nil =>
      -- The factor is there but nothing to multiply: the same underflow, one instruction earlier.
      rw [AngleMode.run_degreeProgram_nil]
      rfl
    | cons x stack =>
      rw [AngleMode.run_degreeProgram, Except.bind, run_singleton]
      simp only [step, applyTo, UnaryOperation.apply_of_takesAngle htakes]
  · obtain ⟨depth, rfl⟩ : ∃ below, depth = below + 1 := Nat.exists_eq_add_of_le' henough
    rw [depthAfter_append (AngleMode.depthAfter_degreeProgram depth), depthAfter_cons henough,
      depthAfter]

/-- Multiplying what is put on the stack is multiplying the result. -/
theorem bind_push_radianProgram (stack : List Double) (result : Except Failure Double) :
    (push stack result).bind (Program.run .radians AngleMode.radianProgram) =
      push stack (result.map fun angle => angle.mul Double.radian) := by
  cases result with
  | error failure => rfl
  | ok angle => exact AngleMode.run_radianProgram angle stack

theorem matches_givesAngle {token : Token} {operation : Operation}
    (hgives : operation.givesAngle = true) :
    Matches ⟨token, some (.identifier (.function operation))⟩
      (⟨token, some (.identifier (.function operation))⟩ :: AngleMode.radianProgram) := by
  refine ⟨fun stack => ?_, fun depth henough => ?_⟩
  · rw [← List.singleton_append, run_append, run_singleton]
    simp only [step]
    cases operation with
    | unary operation =>
      rcases stack with _ | ⟨x, stack⟩
      · rfl
      · rw [applyTo, applyTo, bind_push_radianProgram, UnaryOperation.apply_of_givesAngle hgives]
    | binary operation =>
      rcases stack with _ | ⟨y, _ | ⟨x, stack⟩⟩
      · rfl
      · rfl
      · rw [applyTo, applyTo, bind_push_radianProgram, BinaryOperation.apply_of_givesAngle hgives]
  · rw [depthAfter_cons henough]
    exact AngleMode.depthAfter_radianProgram _

/-- The conversion of a token is a program that matches the token. -/
theorem exists_matches {token : Token} {instruction : Instruction}
    (hfound : Instruction.ofToken token = .ok instruction) :
    ∃ program, ofTokens (AngleMode.convertToken token) = .ok program ∧
      Matches instruction program := by
  have hsingle : ofTokens [token] = .ok [instruction] := by
    simp [ofTokens, hfound, Except.map]
  rcases Instruction.ofToken_cases hfound with ⟨hkind, rfl⟩ | ⟨entry, hkind, hknown, rfl⟩ |
    ⟨entry, hkind, hknown, rfl⟩
  · refine ⟨[⟨token, none⟩], ?_, matches_self fun stack => rfl⟩
    simpa [AngleMode.convertToken, hkind] using hsingle
  · obtain ⟨htakes, hgives⟩ := noAngle_of_operator? hknown
    refine ⟨[⟨token, some (.operator entry)⟩], ?_, matches_self fun stack => ?_⟩
    · simpa [AngleMode.convertToken, hkind] using hsingle
    · exact applyTo_of_noAngle htakes hgives stack
  · cases entry with
    | constant value =>
      obtain ⟨hnotCircular, hnotInverse⟩ := noAngle_of_constant hknown
      refine ⟨[⟨token, some (.identifier (.constant value))⟩], ?_, matches_self fun stack => rfl⟩
      simpa [AngleMode.convertToken, hnotCircular, hnotInverse] using hsingle
    | function operation =>
      obtain ⟨htakes, hgives⟩ := angle_of_identifier? hknown
      by_cases hcircular : token.name ∈ AngleMode.circular
      · refine ⟨_, ?_, matches_takesAngle (by simpa [hcircular] using htakes)⟩
        rw [AngleMode.convertToken, if_pos ⟨hkind, hcircular⟩]
        exact ofTokens_append AngleMode.ofTokens_degreesToRadians hsingle
      by_cases hinverse : token.name ∈ AngleMode.inverse
      · refine ⟨_, ?_, matches_givesAngle (by simpa [hinverse] using hgives)⟩
        rw [AngleMode.convertToken, if_neg (by simp [hcircular]), if_pos ⟨hkind, hinverse⟩]
        exact ofTokens_append hsingle AngleMode.ofTokens_radiansToDegrees
      · refine ⟨_, ?_, matches_self fun stack => ?_⟩
        · simpa [AngleMode.convertToken, hcircular, hinverse] using hsingle
        · exact applyTo_of_noAngle (by simpa [hcircular] using htakes)
            (by simpa [hinverse] using hgives) stack

/-- A program in degrees and its conversion in radians do the same on any stack. -/
theorem exists_run_convert {tokens : List Token} {program : List Instruction}
    (hknown : ofTokens tokens = .ok program) :
    ∃ converted, ofTokens (AngleMode.convert tokens) = .ok converted ∧
      (∀ stack, run .radians converted stack = run .degrees program stack) ∧
      ∀ depth reached, depthAfter depth program = .ok reached →
        depthAfter depth converted = .ok reached := by
  induction tokens generalizing program with
  | nil =>
    cases hknown
    exact ⟨[], rfl, fun _ => rfl, fun _ _ => id⟩
  | cons token rest ih =>
    obtain ⟨instruction, behind, hfound, hothers, rfl⟩ := ofTokens_cons_eq_ok hknown
    obtain ⟨first, hknownFirst, hmatching⟩ := exists_matches hfound
    obtain ⟨second, hknownSecond, hruns, hdepths⟩ := ih hothers
    refine ⟨first ++ second, ?_, fun stack => ?_, fun depth reached h => ?_⟩
    · rw [AngleMode.convert, List.flatMap_cons]
      exact ofTokens_append hknownFirst hknownSecond
    · rw [run_append, hmatching.run, run]
      cases step .degrees instruction stack with
      | error fault => rfl
      | ok after => exact hruns after
    · rw [depthAfter] at h
      split at h
      · cases h
      · rename_i henough
        rw [depthAfter_append (hmatching.depth depth (Nat.not_lt.mp henough))]
        exact hdepths _ _ h

theorem value_eq_of_run {mode other : AngleMode} {program converted : List Instruction}
    (hruns : run other converted [] = run mode program []) :
    value other converted = value mode program := by
  rw [value, value, hruns]

theorem evaluate_eq_convert {tokens : List Token} {program : List Instruction}
    (hcheck : check tokens = .ok program) :
    evaluate .degrees tokens = evaluate .radians (AngleMode.convert tokens) := by
  obtain ⟨hknown, hreached⟩ := check_eq_ok_iff.mp hcheck
  obtain ⟨converted, hknownConverted, hruns, hdepths⟩ := exists_run_convert hknown
  have hcheckedConverted : check (AngleMode.convert tokens) = .ok converted :=
    check_eq_ok_iff.mpr ⟨hknownConverted, hdepths 0 1 hreached⟩
  rw [evaluate, hcheck, evaluate, hcheckedConverted]
  exact (value_eq_of_run (hruns [])).symm

end Program

def Token.MeasuresAngle (token : Token) : Prop :=
  token.kind = .identifier ∧
    (token.name ∈ AngleMode.circular ∨ token.name ∈ AngleMode.inverse)

theorem AngleMode.convertToken_of_not_measuresAngle {token : Token} (h : ¬ token.MeasuresAngle) :
    convertToken token = [token] := by
  rw [convertToken, if_neg, if_neg]
  · exact fun ⟨hkind, hinverse⟩ => h ⟨hkind, .inr hinverse⟩
  · exact fun ⟨hkind, hcircular⟩ => h ⟨hkind, .inl hcircular⟩

theorem AngleMode.convert_of_not_measuresAngle {tokens : List Token}
    (h : ∀ token ∈ tokens, ¬ token.MeasuresAngle) : convert tokens = tokens := by
  induction tokens with
  | nil => rfl
  | cons token rest ih =>
    obtain ⟨hfirst, hothers⟩ := List.forall_mem_cons.mp h
    rw [convert, List.flatMap_cons, convertToken_of_not_measuresAngle hfirst,
      List.singleton_append]
    exact congrArg (token :: ·) (ih hothers)

theorem Program.evaluate_of_not_measuresAngle {tokens : List Token}
    (h : ∀ token ∈ tokens, ¬ token.MeasuresAngle) :
    evaluate .degrees tokens = evaluate .radians tokens := by
  cases hcheck : check tokens with
  | error failure => simp only [evaluate, hcheck]
  | ok program => rw [evaluate_eq_convert hcheck, AngleMode.convert_of_not_measuresAngle h]

theorem evaluateTokens_of_not_measuresAngle {tokens : List Token}
    (h : ∀ token ∈ tokens, ¬ token.MeasuresAngle) :
    evaluateTokens .degrees tokens = evaluateTokens .radians tokens := by
  have hoperator (token : Token) (hkind : token.kind = .operator) : ¬ token.MeasuresAngle := by
    rintro ⟨hidentifier, _⟩
    rw [hkind] at hidentifier
    cases hidentifier
  cases harrange : Postorder.arrange tokens with
  | error failure => simp only [evaluateTokens, harrange]
  | ok ordered =>
    have hkept := Postorder.forall_of_arrangeFrom hoperator harrange (List.forall_mem_nil _) h
    simp only [evaluateTokens, harrange]
    exact Program.evaluate_of_not_measuresAngle hkept

/-- A program that passes the check has the same outcome in degrees as its conversion has in
radians: the same number to the bit, or the same failure. The mode makes no difference to tokens,
nor to an expression, without a function that takes an angle or gives one. -/
theorem evaluate_degrees_eq_radians :
    (∀ tokens program, Program.check tokens = .ok program →
      Program.evaluate .degrees tokens = Program.evaluate .radians (AngleMode.convert tokens)) ∧
    (∀ tokens, (∀ token ∈ tokens, ¬ Token.MeasuresAngle token) →
      Program.evaluate .degrees tokens = Program.evaluate .radians tokens) ∧
    ∀ expression : Option String,
      (∀ tokens, Token.scan (expression.getD "") = .ok tokens →
        ∀ token ∈ tokens, ¬ token.MeasuresAngle) →
      evaluate .degrees expression = evaluate .radians expression := by
  refine ⟨fun _ _ => Program.evaluate_eq_convert, fun _ => Program.evaluate_of_not_measuresAngle,
    fun expression hnoAngle => ?_⟩
  unfold evaluate
  split
  · rfl
  · cases hscan : Token.scan (expression.getD "") with
    | error failure => rfl
    | ok tokens => exact evaluateTokens_of_not_measuresAngle (hnoAngle tokens hscan)

theorem evaluate_degrees_asin_sin :
    Program.check [AngleMode.halfTurn, ⟨.identifier, "sin", none, none⟩,
        ⟨.identifier, "asin", none, none⟩] =
      .ok [⟨AngleMode.halfTurn, none⟩,
        ⟨⟨.identifier, "sin", none, none⟩, some (.identifier (.function (.unary .sin)))⟩,
        ⟨⟨.identifier, "asin", none, none⟩, some (.identifier (.function (.unary .asin)))⟩] ∧
    Program.evaluate .degrees [AngleMode.halfTurn, ⟨.identifier, "sin", none, none⟩,
        ⟨.identifier, "asin", none, none⟩] =
      Program.evaluate .radians ([AngleMode.halfTurn] ++ AngleMode.degreesToRadians ++
        [⟨.identifier, "sin", none, none⟩, ⟨.identifier, "asin", none, none⟩] ++
        AngleMode.radiansToDegrees) := by
  have hcheck : Program.check [AngleMode.halfTurn, ⟨.identifier, "sin", none, none⟩,
      ⟨.identifier, "asin", none, none⟩] =
      .ok [⟨AngleMode.halfTurn, none⟩,
        ⟨⟨.identifier, "sin", none, none⟩, some (.identifier (.function (.unary .sin)))⟩,
        ⟨⟨.identifier, "asin", none, none⟩, some (.identifier (.function (.unary .asin)))⟩] := by
    decide +kernel
  exact ⟨hcheck, evaluate_degrees_eq_radians.1 _ _ hcheck⟩

end Reckoner
