import Mathlib.Data.List.Basic
import Reckoner.Proofs.Forest

/-!
# The stack machine computes trees

The program of a well-formed tree puts the value of the tree on top of whatever the stack holds,
or fails where the tree fails. With the forest of a list this settles what a checked program does:
it is the postorder of exactly one well-formed tree, each of its instructions finds its arguments,
and its result is that of the tree.
-/

namespace Reckoner

set_option autoImplicit false

namespace Operation

theorem apply?_of_arity {operation : Operation} {values : List Double}
    (harity : values.length = operation.arity) (mode : AngleMode) :
    ∃ result, operation.apply? mode values = some result ∧
      ∀ stack, Program.applyTo mode operation (values.reverse ++ stack) =
        Program.push stack result := by
  cases operation with
  | unary operation =>
    obtain ⟨x, rfl⟩ := List.length_eq_one_iff.mp harity
    exact ⟨operation.apply mode x, rfl, fun _ => rfl⟩
  | binary operation =>
    obtain ⟨x, y, rfl⟩ := List.length_eq_two.mp harity
    exact ⟨operation.apply mode x y, rfl, fun _ => rfl⟩

theorem applyTo_reverse {operation : Operation} {values : List Double}
    (harity : values.length = operation.arity) (mode : AngleMode) (stack : List Double) :
    Program.applyTo mode operation (values.reverse ++ stack) =
      (operation.result mode values).map (· :: stack) := by
  obtain ⟨result, happlied, hpushed⟩ := apply?_of_arity harity mode
  rw [hpushed, Operation.result, happlied]
  cases result <;> rfl

end Operation

namespace Program

theorem step_reverse {token : Token} {instruction : Instruction} {values : List Double}
    (hfound : Instruction.ofToken token = .ok instruction)
    (harity : values.length = instruction.arity) (mode : AngleMode) (stack : List Double) :
    step mode instruction (values.reverse ++ stack) =
      (token.result mode values).map (· :: stack) := by
  rcases Instruction.ofToken_cases hfound with ⟨hkind, rfl⟩ | ⟨entry, hkind, hknown, rfl⟩ |
    ⟨entry, hkind, hknown, rfl⟩
  · rw [List.eq_nil_of_length_eq_zero harity]
    simp [step, Token.result, hkind, Except.map]
  · simp only [step, Token.result, hkind, hknown]
    exact Operation.applyTo_reverse harity mode stack
  · cases entry with
    | constant value =>
      rw [List.eq_nil_of_length_eq_zero harity]
      simp [step, Token.result, hkind, hknown, Except.map]
    | function operation =>
      simp only [step, Token.result, hkind, hknown]
      exact Operation.applyTo_reverse harity mode stack

theorem length_of_push {stack after : List Double} {result : Except Failure Double}
    (h : push stack result = .ok after) : after.length = stack.length + 1 := by
  cases result with
  | error failure => cases h
  | ok value =>
    cases h
    rfl

theorem length_of_applyTo {mode : AngleMode} {operation : Operation} {stack after : List Double}
    (h : applyTo mode operation stack = .ok after) :
    operation.arity ≤ stack.length ∧ after.length = stack.length - operation.arity + 1 := by
  match operation, stack, h with
  | .unary _, _ :: stack, h =>
    have hlength := length_of_push h
    simp only [Operation.arity, List.length_cons]
    omega
  | .binary _, _ :: _ :: stack, h =>
    have hlength := length_of_push h
    simp only [Operation.arity, List.length_cons]
    omega

theorem length_of_step {mode : AngleMode} {instruction : Instruction} {stack after : List Double}
    (h : step mode instruction stack = .ok after) :
    instruction.arity ≤ stack.length ∧ after.length = stack.length - instruction.arity + 1 := by
  obtain ⟨token, entry⟩ := instruction
  match entry, h with
  | none, h =>
    cases h
    simp [Instruction.arity]
  | some (.identifier (.constant value)), h =>
    cases h
    simp [Instruction.arity, Entry.arity, IdentifierEntry.arity]
  | some (.identifier (.function operation)), h => exact length_of_applyTo h
  | some (.operator entry), h => exact length_of_applyTo h

theorem push_ne_underflow (stack : List Double) (result : Except Failure Double) :
    push stack result ≠ .error .underflow := by
  cases result <;> simp [push]

theorem applyTo_ne_underflow {operation : Operation} {stack : List Double}
    (henough : operation.arity ≤ stack.length) (mode : AngleMode) :
    applyTo mode operation stack ≠ .error .underflow := by
  match operation, stack, henough with
  | .unary _, _ :: stack, _ => exact push_ne_underflow stack _
  | .binary _, _ :: _ :: stack, _ => exact push_ne_underflow stack _

theorem applyTo_eq_underflow {operation : Operation} {stack : List Double}
    (hshort : stack.length < operation.arity) (mode : AngleMode) :
    applyTo mode operation stack = .error .underflow := by
  cases operation with
  | unary operation =>
    have hempty : stack = [] := List.length_eq_zero_iff.mp (Nat.lt_one_iff.mp hshort)
    rw [hempty]
    rfl
  | binary operation =>
    rcases stack with _ | ⟨x, _ | ⟨y, below⟩⟩
    · rfl
    · rfl
    · simp only [Operation.arity, List.length_cons] at hshort
      omega

theorem step_ne_underflow {instruction : Instruction} {stack : List Double}
    (henough : instruction.arity ≤ stack.length) (mode : AngleMode) :
    step mode instruction stack ≠ .error .underflow := by
  obtain ⟨token, entry⟩ := instruction
  match entry, henough with
  | none, _ => simp [step]
  | some (.identifier (.constant _)), _ => simp [step]
  | some (.identifier (.function _)), henough => exact applyTo_ne_underflow henough mode
  | some (.operator _), henough => exact applyTo_ne_underflow henough mode

theorem run_append (mode : AngleMode) (first second : List Instruction) (stack : List Double) :
    run mode (first ++ second) stack = (run mode first stack).bind (run mode second) := by
  induction first generalizing stack with
  | nil => rfl
  | cons instruction rest ih =>
    simp only [List.cons_append, run]
    cases step mode instruction stack with
    | error fault => rfl
    | ok after => exact ih after

/-- A run that comes to its end leaves as many values as the check foresees. -/
theorem depthAfter_of_run {mode : AngleMode} {program : List Instruction}
    {stack after : List Double} (h : run mode program stack = .ok after) :
    depthAfter stack.length program = .ok after.length := by
  induction program generalizing stack with
  | nil =>
    cases h
    rfl
  | cons instruction rest ih =>
    cases hstep : step mode instruction stack with
    | error fault => simp [run, hstep] at h
    | ok middle =>
      simp only [run, hstep] at h
      obtain ⟨henough, hlength⟩ := length_of_step hstep
      rw [depthAfter, if_neg (Nat.not_lt.mpr henough), ← hlength]
      exact ih h

/-- A run that the check foresees to its end is never short of values. -/
theorem run_ne_underflow {program : List Instruction} {stack : List Double} {depth : Nat}
    (hreached : depthAfter stack.length program = .ok depth) (mode : AngleMode) :
    run mode program stack ≠ .error .underflow := by
  induction program generalizing stack with
  | nil => simp [run]
  | cons instruction rest ih =>
    rw [depthAfter] at hreached
    split at hreached
    · cases hreached
    · rename_i henough
      have hnoUnderflow := step_ne_underflow (Nat.not_lt.mp henough) mode
      cases hstep : step mode instruction stack with
      | error fault =>
        rw [hstep] at hnoUnderflow
        simpa [run, hstep] using hnoUnderflow
      | ok after =>
        simp only [run, hstep]
        apply ih
        rw [(length_of_step hstep).2]
        exact hreached

def FindsArguments (mode : AngleMode) (program : List Instruction) : Prop :=
  ∀ done instruction rest stack, program = done ++ instruction :: rest →
    run mode done [] = .ok stack → instruction.arity ≤ stack.length

theorem findsArguments_of_check {tokens : List Token} {program : List Instruction}
    (h : check tokens = .ok program) (mode : AngleMode) : FindsArguments mode program := by
  rintro done instruction rest stack rfl hreached
  have hcheck := (check_eq_ok_iff.mp h).2
  have hsoFar : depthAfter 0 done = .ok stack.length := depthAfter_of_run hreached
  rw [depthAfter_append hsoFar, depthAfter] at hcheck
  split at hcheck
  · cases hcheck
  · rename_i henough
    exact Nat.not_lt.mp henough

/-- The tokens are a program that adds values to any stack, the last of them on top, or fails. -/
structure Computes (tokens : List Token) (count : Nat)
    (values : AngleMode → Except Fault (List Double)) (program : List Instruction) : Prop where
  known : ofTokens tokens = .ok program
  depth : ∀ depth, depthAfter depth program = .ok (depth + count)
  run : ∀ mode stack, run mode program stack = (values mode).map (·.reverse ++ stack)

theorem length_of_values {mode : AngleMode} {trees : List Tree} {values : List Double}
    (h : Tree.values mode trees = .ok values) : values.length = trees.length := by
  induction trees generalizing values with
  | nil =>
    cases h
    rfl
  | cons tree rest ih =>
    cases hfirst : tree.value mode with
    | error fault => simp [Tree.values, hfirst] at h
    | ok value =>
      cases hothers : Tree.values mode rest with
      | error fault => simp [Tree.values, hfirst, hothers, Except.map] at h
      | ok behind =>
        simp only [Tree.values, hfirst, hothers, Except.map, Except.ok.injEq] at h
        subst h
        simp [ih hothers]

theorem Computes.node {token : Token} {arguments : List Tree} {program : List Instruction}
    (harity : token.arity? = some arguments.length)
    (hinner : Computes (Tree.postorders arguments) arguments.length
      (fun mode => Tree.values mode arguments) program) :
    ∃ whole, Computes (Tree.node token arguments).postorder 1
      (fun mode => ((Tree.node token arguments).value mode).map ([·])) whole := by
  obtain ⟨instruction, hfound, htakes⟩ := Instruction.exists_ofToken harity
  have hsingle : ofTokens [token] = .ok [instruction] := by simp [ofTokens, hfound, Except.map]
  refine ⟨program ++ [instruction], ?_, ?_, ?_⟩
  · rw [Tree.postorder]
    exact ofTokens_append hinner.known hsingle
  · intro depth
    rw [depthAfter_append (hinner.depth depth), depthAfter, htakes, if_neg (by omega), depthAfter]
    congr 1
    omega
  · intro mode stack
    rw [run_append, hinner.run]
    cases hevaluate : Tree.values mode arguments with
    | error fault => simp [Tree.value, hevaluate, Except.map, Except.bind]
    | ok values =>
      have hlength : values.length = instruction.arity := by
        rw [length_of_values hevaluate, htakes]
      simp only [Except.map, Except.bind, Program.run, step_reverse hfound hlength, Tree.value,
        hevaluate]
      cases token.result mode values <;> rfl

theorem Computes.nil : Computes (Tree.postorders []) 0 (fun mode => Tree.values mode []) [] :=
  ⟨rfl, fun _ => rfl, fun _ _ => rfl⟩

theorem Computes.cons {tree : Tree} {rest : List Tree} {first second : List Instruction}
    (hone : Computes tree.postorder 1 (fun mode => (tree.value mode).map ([·])) first)
    (hothers : Computes (Tree.postorders rest) rest.length
      (fun mode => Tree.values mode rest) second) :
    Computes (Tree.postorders (tree :: rest)) (tree :: rest).length
      (fun mode => Tree.values mode (tree :: rest)) (first ++ second) := by
  refine ⟨ofTokens_append hone.known hothers.known, ?_, ?_⟩
  · intro depth
    rw [depthAfter_append (hone.depth depth), hothers.depth, List.length_cons]
    congr 1
    omega
  · intro mode stack
    rw [run_append, hone.run]
    cases hevaluate : tree.value mode with
    | error fault => simp [Tree.values, hevaluate, Except.map, Except.bind]
    | ok value =>
      simp only [Except.map, Except.bind, hothers.run, Tree.values, hevaluate]
      cases Tree.values mode rest <;> simp

mutual

/-- A well-formed tree has a program, which computes its value. -/
theorem exists_computes : (tree : Tree) → tree.WellFormed →
    ∃ program, Computes tree.postorder 1 (fun mode => (tree.value mode).map ([·])) program
  | .node token arguments, hwellFormed => by
    obtain ⟨harity, hinner⟩ := Tree.wellFormed_node_iff.mp hwellFormed
    obtain ⟨program, hcomputes⟩ := exists_computes_forest arguments hinner
    exact hcomputes.node harity

theorem exists_computes_forest : (trees : List Tree) → (∀ tree ∈ trees, tree.WellFormed) →
    ∃ program, Computes (Tree.postorders trees) trees.length
      (fun mode => Tree.values mode trees) program
  | [], _ => ⟨[], .nil⟩
  | tree :: rest, hwellFormed => by
    obtain ⟨hone, hothers⟩ := Tree.forall_wellFormed_cons.mp hwellFormed
    obtain ⟨first, hcomputes⟩ := exists_computes tree hone
    obtain ⟨second, hcomputesRest⟩ := exists_computes_forest rest hothers
    exact ⟨first ++ second, hcomputes.cons hcomputesRest⟩

end

theorem check_of_spells {tree : Tree} {tokens : List Token} (hspells : tree.Spells tokens) :
    ∃ program, check tokens = .ok program := by
  obtain ⟨program, hcomputes⟩ := exists_computes tree hspells.wellFormed
  exact ⟨program, check_eq_ok_iff.mpr ⟨hspells.postorder ▸ hcomputes.known, hcomputes.depth 0⟩⟩

theorem run_of_spells {tree : Tree} {tokens : List Token} {program : List Instruction}
    (hcheck : check tokens = .ok program) (hspells : tree.Spells tokens) (mode : AngleMode) :
    run mode program [] = (tree.value mode).map ([·]) := by
  obtain ⟨other, hcomputes⟩ := exists_computes tree hspells.wellFormed
  have hsame : ofTokens tokens = .ok other := hspells.postorder ▸ hcomputes.known
  rw [(check_eq_ok_iff.mp hcheck).1, Except.ok.injEq] at hsame
  rw [hsame, hcomputes.run]
  cases tree.value mode <;> rfl

theorem value_ne_underflow {tree : Tree} (hwellFormed : tree.WellFormed) (mode : AngleMode) :
    tree.value mode ≠ .error .underflow := by
  obtain ⟨program, hcomputes⟩ := exists_computes tree hwellFormed
  have hreached : depthAfter ([] : List Double).length program = .ok 1 := hcomputes.depth 0
  have hnoUnderflow := run_ne_underflow hreached mode
  rw [hcomputes.run] at hnoUnderflow
  intro hunderflow
  simp [hunderflow, Except.map] at hnoUnderflow

theorem evaluate_of_spells {tree : Tree} {tokens : List Token} (hspells : tree.Spells tokens)
    (mode : AngleMode) :
    (evaluate mode tokens).mapError Fault.failure = tree.outcome mode := by
  obtain ⟨program, hcheck⟩ := check_of_spells hspells
  have hnoUnderflow := value_ne_underflow hspells.wellFormed mode
  simp only [evaluate, hcheck, value, run_of_spells hcheck hspells, Tree.outcome]
  cases hresult : tree.value mode with
  | ok value =>
    simp only [Except.map]
    split <;> rfl
  | error fault =>
    cases fault with
    | underflow => exact absurd hresult hnoUnderflow
    | failure failure => rfl

/-- A list of tokens passes the check exactly if it is the postorder of a well-formed tree, and
then of one such tree only. Run on an empty stack, its program always finds its arguments, leaves
the value of the tree and nothing else, and has the outcome of the tree. -/
theorem check_iff_spells (tokens : List Token) :
    ((∃ program, check tokens = .ok program) ↔ ∃ tree : Tree, tree.Spells tokens) ∧
    (∀ tree other : Tree, tree.Spells tokens → other.Spells tokens → tree = other) ∧
    ∀ (program : List Instruction) (tree : Tree) (mode : AngleMode),
      check tokens = .ok program → tree.Spells tokens →
        FindsArguments mode program ∧ run mode program [] ≠ .error .underflow ∧
        run mode program [] = (tree.value mode).map ([·]) ∧
        (evaluate mode tokens).mapError Fault.failure = tree.outcome mode := by
  refine ⟨⟨?_, ?_⟩, ?_, ?_⟩
  · rintro ⟨program, hcheck⟩
    exact exists_spells_of_check hcheck
  · rintro ⟨tree, hspells⟩
    exact check_of_spells hspells
  · intro tree other hspells hspells'
    exact hspells.unique hspells'
  · intro program tree mode hcheck hspells
    have hreached : depthAfter ([] : List Double).length program = .ok 1 :=
      (check_eq_ok_iff.mp hcheck).2
    exact ⟨findsArguments_of_check hcheck mode, run_ne_underflow hreached mode,
      run_of_spells hcheck hspells mode, evaluate_of_spells hspells mode⟩

end Program

end Reckoner
