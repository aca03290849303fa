import Reckoner.Proofs.Simulation
import Reckoner.Proofs.Taxonomy
import Reckoner.Proofs.Zeros

/-!
# Undefined values

Nothing stops a run at an operation that gives NaN: the NaN is passed on from operation to
operation, and a value that is NaN at the end is refused. Two operations do not pass it on. A power
is one if its exponent is zero or its base one, whatever the other operand is, and a root is such a
power.
-/

namespace Reckoner

set_option autoImplicit false

namespace Double

theorem unit_eq : unit = .finite false ⟨1023 * 2 ^ (52 : Nat), by decide⟩ := by decide +kernel

theorem quantaOfRank_unit : quantaOfRank (1023 * 2 ^ (52 : Nat)) = quantaPerUnit := by
  decide +kernel

theorem quantaOfRank_lt_square (rank : Fin (2047 * 2 ^ (52 : Nat))) :
    quantaOfRank rank < quantaPerUnit * quantaPerUnit := by
  have hinfinite : quantaOfRank (2047 * 2 ^ (52 : Nat)) < quantaPerUnit * quantaPerUnit := by
    decide +kernel
  exact Nat.lt_trans (quantaOfRank_strictMono rank.isLt) hinfinite

theorem isZero_ofRank {negative : Bool} {rank : Nat} (hpositive : 0 < rank) :
    (ofRank negative rank).isZero = false := by
  unfold ofRank
  split
  · cases negative <;> simp [isZero, same, place?, zero] <;> omega
  · cases negative <;> rfl

/-- The reciprocal of the greatest finite number is still far above the quantum. -/
theorem isZero_reciprocal (x : Double) : (unit.div x).isZero = x.isInfinite := by
  rw [unit_eq]
  cases x with
  | nan => rfl
  | infinite negative => cases negative <;> rfl
  | finite negative rank =>
    simp only [div, isInfinite]
    split
    · cases negative <;> rfl
    · rename_i hnotZero
      have hpositive : 0 < quantaOfRank rank := by
        refine Nat.pos_of_ne_zero ?_
        rw [Ne, quantaOfRank_eq_zero_iff]
        exact hnotZero
      rw [ofRatio, quantaOfRank_unit]
      apply isZero_ofRank
      have hleast : rankOfRatio 1 1 = 1 := rankOfRatio_of_lt (by decide)
      have hbelow := quantaOfRank_lt_square rank
      have hle : rankOfRatio 1 1 ≤
          rankOfRatio (quantaPerUnit * quantaPerUnit) (quantaOfRank rank) :=
        rankOfRatio_le_of_cross Nat.one_pos hpositive (by omega)
      omega

/-- What passes a NaN on from either side passes it on. -/
theorem apply_eq_nan {f : Double → Double → Double} (hleft : ∀ y, f .nan y = .nan)
    (hright : ∀ x, f x .nan = .nan) {x y : Double} (hundefined : x = .nan ∨ y = .nan) :
    f x y = .nan := by
  rcases hundefined with rfl | rfl
  · exact hleft y
  · exact hright x

theorem pow_nan {base exponent : Double} (hundefined : base = .nan ∨ exponent = .nan) :
    base.pow exponent =
      if exponent.isZero = true ∨ base.same unit = true then unit else .nan := by
  have hone : ofRatio false quantaPerUnit 1 = unit := by rw [unit, ofNat, Nat.one_mul]
  unfold pow
  simp only [hone, Bool.or_eq_true]
  split
  · rfl
  · rcases hundefined with rfl | rfl
    · rfl
    · cases base <;> rfl

theorem toRadians_nan (mode : AngleMode) : mode.toRadians .nan = .nan := by cases mode <;> rfl

theorem ofRadians_nan (mode : AngleMode) : mode.ofRadians .nan = .nan := by cases mode <;> rfl

theorem atan2_nan {y x : Double} (hundefined : y = .nan ∨ x = .nan) : y.atan2 x = .nan := by
  rw [atan2, if_pos]
  rcases hundefined with rfl | rfl
  · rfl
  · exact Bool.or_true _

end Double

/-- An operation of one argument passes a NaN on or refuses it. -/
theorem UnaryOperation.apply_nan (mode : AngleMode) (operation : UnaryOperation) {y : Double}
    (h : operation.apply mode .nan = .ok y) : y = .nan := by
  cases operation with
  | sin | cos | tan =>
    simp only [apply, Double.toRadians_nan] at h
    cases h
    rfl
  | asin | acos | atan =>
    cases h
    exact Double.ofRadians_nan mode
  | fact => cases h
  | inv =>
    simp only [apply, Double.div_nan] at h
    split at h
    · cases h
    · exact (Except.ok.inj h).symm
  | _ =>
    cases h
    rfl

/-- One of the arguments settles the result by itself. -/
def BinaryOperation.Absorbs : BinaryOperation → Double → Double → Prop
  | .pow, base, exponent => exponent.isZero = true ∨ base.same Double.unit = true
  | .root, x, index => index.isInfinite = true ∨ x.same Double.unit = true
  | _, _, _ => False

theorem root_nan {x index : Double} (hundefined : x = .nan ∨ index = .nan) {y : Double}
    (h : root x index = .ok y) :
    y = if index.isInfinite = true ∨ x.same Double.unit = true then Double.unit else .nan := by
  have hexponent : x = .nan ∨ Double.unit.div index = .nan := by
    refine hundefined.imp_right ?_
    rintro rfl
    exact Double.div_nan _
  rw [← Double.isZero_reciprocal, ← Double.pow_nan hexponent]
  unfold root at h
  split at h
  · cases h
  · split at h
    · rename_i hbelow
      rcases hundefined with rfl | rfl
      · cases hbelow
      · have heven : Double.nan.isNearOdd = false := rfl
        rw [heven] at h
        cases h
    · exact (Except.ok.inj h).symm

/-- An operation of two arguments passes a NaN on or refuses it, unless the other argument settles
the result, which then is one. -/
theorem BinaryOperation.apply_nan (mode : AngleMode) (operation : BinaryOperation)
    {x y : Double} (hundefined : x = .nan ∨ y = .nan) {z : Double}
    (h : operation.apply mode x y = .ok z) :
    operation.Absorbs x y ∧ z = Double.unit ∨ ¬ operation.Absorbs x y ∧ z = .nan := by
  cases operation with
  | add =>
    cases h
    exact .inr ⟨id, Double.apply_eq_nan Double.nan_add Double.add_nan hundefined⟩
  | sub =>
    cases h
    have hopposite : x = .nan ∨ y.neg = .nan := hundefined.imp_right (congrArg Double.neg)
    exact .inr ⟨id, Double.apply_eq_nan Double.nan_add Double.add_nan hopposite⟩
  | mul =>
    cases h
    exact .inr ⟨id, Double.apply_eq_nan Double.nan_mul Double.mul_nan hundefined⟩
  | div =>
    simp only [apply] at h
    split at h
    · cases h
    · cases h
      exact .inr ⟨id, Double.apply_eq_nan Double.nan_div Double.div_nan hundefined⟩
  | mod =>
    simp only [apply] at h
    split at h
    · cases h
    · cases h
      exact .inr ⟨id, Double.apply_eq_nan Double.nan_remainder Double.remainder_nan hundefined⟩
  | atan2 =>
    simp only [apply, Double.atan2_nan hundefined, Double.ofRadians_nan] at h
    exact .inr ⟨id, (Except.ok.inj h).symm⟩
  | pow =>
    simp only [apply, Double.pow_nan hundefined] at h
    split at h
    · rename_i habsorbs
      exact .inl ⟨habsorbs, (Except.ok.inj h).symm⟩
    · rename_i hpasses
      exact .inr ⟨hpasses, (Except.ok.inj h).symm⟩
  | root =>
    have hresult := root_nan hundefined h
    split at hresult
    · rename_i habsorbs
      exact .inl ⟨habsorbs, hresult⟩
    · rename_i hpasses
      exact .inr ⟨hpasses, hresult⟩

def Instruction.operation? (instruction : Instruction) : Option Operation :=
  match instruction.entry with
  | none => none
  | some (.operator entry) => some entry.operation
  | some (.identifier entry) => entry.operation?

/-- Applied to the stack, the operation is given a NaN and does not pass it on. -/
def Operation.AbsorbsNaN : Operation → List Double → Prop
  | .binary operation, y :: x :: _ => (x = .nan ∨ y = .nan) ∧ operation.Absorbs x y
  | _, _ => False

theorem Operation.pow_or_root_of_absorbsNaN {operation : Operation} {stack : List Double}
    (h : operation.AbsorbsNaN stack) :
    operation = .binary .pow ∨ operation = .binary .root := by
  unfold Operation.AbsorbsNaN at h
  split at h
  · rename_i operation _ _ _
    cases operation with
    | pow => exact .inl rfl
    | root => exact .inr rfl
    | _ => exact absurd h.2 id
  · cases h

namespace Program

theorem step_cases (instruction : Instruction) :
    (instruction.operation? = none ∧ ∃ value, ∀ mode stack,
      step mode instruction stack = .ok (value :: stack)) ∨
    ∃ operation, instruction.operation? = some operation ∧ ∀ mode stack,
      step mode instruction stack = applyTo mode operation stack := by
  obtain ⟨token, entry⟩ := instruction
  match entry with
  | none => exact .inl ⟨rfl, _, fun _ _ => rfl⟩
  | some (.identifier (.constant value)) => exact .inl ⟨rfl, value, fun _ _ => rfl⟩
  | some (.identifier (.function operation)) => exact .inr ⟨operation, rfl, fun _ _ => rfl⟩
  | some (.operator entry) => exact .inr ⟨entry.operation, rfl, fun _ _ => rfl⟩

theorem exists_of_push {stack after : List Double} {result : Except Failure Double}
    (h : push stack result = .ok after) : ∃ value, result = .ok value ∧ after = value :: stack := by
  cases result with
  | error failure => cases h
  | ok value =>
    cases h
    exact ⟨value, rfl, rfl⟩

theorem nan_mem_of_applyTo {mode : AngleMode} {operation : Operation}
    {stack after : List Double} (h : applyTo mode operation stack = .ok after)
    (hundefined : .nan ∈ stack) (hpasses : ¬ operation.AbsorbsNaN stack) : .nan ∈ after := by
  match operation, stack, h with
  | .unary operation, x :: below, h =>
    obtain ⟨value, happlied, rfl⟩ := exists_of_push h
    rcases List.mem_cons.mp hundefined with rfl | hinside
    · rw [UnaryOperation.apply_nan mode operation happlied]
      exact List.mem_cons_self
    · exact List.mem_cons_of_mem value hinside
  | .binary operation, y :: x :: below, h =>
    obtain ⟨value, happlied, rfl⟩ := exists_of_push h
    by_cases hgiven : x = .nan ∨ y = .nan
    · rcases operation.apply_nan mode hgiven happlied with ⟨habsorbs, _⟩ | ⟨_, rfl⟩
      · exact absurd ⟨hgiven, habsorbs⟩ hpasses
      · exact List.mem_cons_self
    · rw [not_or] at hgiven
      simp only [List.mem_cons] at hundefined
      rcases hundefined with htop | hsecond | hinside
      · exact absurd htop.symm hgiven.2
      · exact absurd hsecond.symm hgiven.1
      · exact List.mem_cons_of_mem value hinside

/-- Some instruction of the program is given a NaN and does not pass it on. -/
def LosesNaN (mode : AngleMode) (program : List Instruction) (stack : List Double) : Prop :=
  ∃ before instruction after reached operation, program = before ++ instruction :: after ∧
    run mode before stack = .ok reached ∧ instruction.operation? = some operation ∧
      operation.AbsorbsNaN reached

theorem nan_mem_of_step {mode : AngleMode} {instruction : Instruction} {rest : List Instruction}
    {stack after : List Double} (h : step mode instruction stack = .ok after)
    (hundefined : .nan ∈ stack) (hpasses : ¬ LosesNaN mode (instruction :: rest) stack) :
    .nan ∈ after := by
  rcases step_cases instruction with ⟨_, value, hsteps⟩ | ⟨operation, hknown, hsteps⟩
  · rw [hsteps] at h
    cases h
    exact List.mem_cons_of_mem value hundefined
  · rw [hsteps] at h
    refine nan_mem_of_applyTo h hundefined fun habsorbs => hpasses ?_
    exact ⟨[], instruction, rest, stack, operation, rfl, rfl, hknown, habsorbs⟩

/-- A NaN on the stack stays there, or another takes its place, until some instruction loses it. -/
theorem nan_mem_of_run {mode : AngleMode} {program : List Instruction}
    {stack after : List Double} (h : run mode program stack = .ok after)
    (hundefined : .nan ∈ stack) (hpasses : ¬ LosesNaN mode program stack) : .nan ∈ after := by
  induction program generalizing stack with
  | nil =>
    cases h
    exact hundefined
  | cons instruction rest ih =>
    cases hstep : step mode instruction stack with
    | error fault => simp [run, hstep] at h
    | ok middle =>
      simp only [run, hstep] at h
      refine ih h (nan_mem_of_step hstep hundefined hpasses) ?_
      rintro ⟨before, later, after, reached, operation, rfl, hran, hknown, habsorbs⟩
      refine hpasses ⟨instruction :: before, later, after, reached, operation, rfl, ?_, hknown,
        habsorbs⟩
      simp only [run, hstep]
      exact hran

/-- Where an instruction of a checked program leaves a NaN, evaluation fails, unless a later power
or root is given a NaN and an exponent of zero, a base of one or an infinite index: the result of
these is one. -/
theorem evaluate_of_nan {mode : AngleMode} {tokens : List Token}
    {program done rest : List Instruction} {instruction : Instruction} {stack below : List Double}
    (hcheck : check tokens = .ok program) (hsplit : program = done ++ instruction :: rest)
    (hran : run mode done [] = .ok stack)
    (hundefined : step mode instruction stack = .ok (.nan :: below)) :
    ((∃ failure, evaluate mode tokens = .error failure ∧
      failure.kind.stage? = some .evaluation) ∨ LosesNaN mode rest (.nan :: below)) ∧
    ∀ (operation : BinaryOperation) (x y z : Double), x = .nan ∨ y = .nan →
      operation.apply mode x y = .ok z → operation.Absorbs x y → z = Double.unit := by
  constructor
  · by_cases hloses : LosesNaN mode rest (.nan :: below)
    · exact .inr hloses
    left
    have hwhole : run mode program [] = run mode rest (.nan :: below) := by
      rw [hsplit, run_append, hran]
      simp only [Except.bind, run, hundefined]
    simp only [evaluate, hcheck, value, hwhole]
    have hreached : depthAfter ([] : List Double).length program = .ok 1 :=
      (check_eq_ok_iff.mp hcheck).2
    cases hended : run mode rest (.nan :: below) with
    | error fault =>
      cases fault with
      | underflow => exact absurd (hwhole.trans hended) (run_ne_underflow hreached mode)
      | failure failure => exact ⟨failure, rfl, (isRefusal_of_run_error hended).stage⟩
    | ok after =>
      have hmem := nan_mem_of_run hended List.mem_cons_self hloses
      have hsingle : after.length = 1 := by
        have hlength := depthAfter_of_run (hwhole.trans hended)
        rw [hreached, Except.ok.injEq] at hlength
        exact hlength.symm
      obtain ⟨value, rfl⟩ := List.length_eq_one_iff.mp hsingle
      rw [← List.mem_singleton.mp hmem]
      exact ⟨.nonFiniteResult, rfl, rfl⟩
  · intro operation x y z hgiven happlied habsorbs
    rcases operation.apply_nan mode hgiven happlied with ⟨_, hresult⟩ | ⟨hpasses, _⟩
    · exact hresult
    · exact absurd habsorbs hpasses

theorem not_losesNaN {program : List Instruction}
    (hothers : ∀ instruction ∈ program, instruction.operation? ≠ some (.binary .pow) ∧
      instruction.operation? ≠ some (.binary .root)) (mode : AngleMode) (stack : List Double) :
    ¬ LosesNaN mode program stack := by
  rintro ⟨before, instruction, after, reached, operation, rfl, _, hknown, habsorbs⟩
  obtain ⟨hnoPower, hnoRoot⟩ := hothers instruction (by simp)
  rcases operation.pow_or_root_of_absorbsNaN habsorbs with rfl | rfl
  · exact hnoPower hknown
  · exact hnoRoot hknown

/-- The arc sine of two is undefined, and adding one to it does not help. -/
theorem evaluate_arc_sine_plus_one : ∃ failure,
    evaluate .degrees [⟨.number, "2", some (.ofNat 2), none⟩, ⟨.identifier, "asin", none, none⟩,
      ⟨.number, "1", some .unit, none⟩, ⟨.operator, "+", none, none⟩] = .error failure ∧
        failure.kind.stage? = some .evaluation := by
  have hcheck : check [⟨.number, "2", some (.ofNat 2), none⟩, ⟨.identifier, "asin", none, none⟩,
      ⟨.number, "1", some .unit, none⟩, ⟨.operator, "+", none, none⟩] =
      .ok ([⟨⟨.number, "2", some (.ofNat 2), none⟩, none⟩] ++
        ⟨⟨.identifier, "asin", none, none⟩, some (.identifier (.function (.unary .asin)))⟩ ::
        [⟨⟨.number, "1", some .unit, none⟩, none⟩,
          ⟨⟨.operator, "+", none, none⟩, some (.operator ⟨1, .left, .binary .add⟩)⟩]) := rfl
  have hfirst : run .degrees [⟨⟨.number, "2", some (.ofNat 2), none⟩, none⟩] [] =
      .ok [.ofNat 2] := by decide +kernel
  have hundefined : step .degrees ⟨⟨.identifier, "asin", none, none⟩,
      some (.identifier (.function (.unary .asin)))⟩ [.ofNat 2] = .ok [.nan] := by decide +kernel
  refine (evaluate_of_nan hcheck rfl hfirst hundefined).1.resolve_right (not_losesNaN ?_ _ _)
  decide

/-- The arc sine of two is undefined, but its power with exponent zero is one. -/
theorem evaluate_arc_sine_to_zero :
    ∃ program, check [⟨.number, "2", some (.ofNat 2), none⟩, ⟨.identifier, "asin", none, none⟩,
        ⟨.number, "0", some .zero, none⟩, ⟨.operator, "^", none, none⟩] = .ok program ∧
      run .radians (program.take 2) [] = .ok [.nan] ∧
      evaluate .radians [⟨.number, "2", some (.ofNat 2), none⟩,
        ⟨.identifier, "asin", none, none⟩, ⟨.number, "0", some .zero, none⟩,
        ⟨.operator, "^", none, none⟩] = .ok Double.unit :=
  ⟨_, rfl, by decide +kernel, by decide +kernel⟩

end Program

end Reckoner
