import Reckoner.Proofs.Conservation
import Reckoner.Syntax.Sequence

/-!
# What comes out of an arrangement

Whatever list of tokens can be arranged, each of its tokens with a place in postorder comes out
once, as it is read behind the one before it. No operand ever waits on the stack, so the operands
come out in the order they were read in.
-/

namespace Reckoner.Postorder

open Infix
set_option autoImplicit false

theorem opens_iff (token : Token) : opens token = true ↔ OperandDue (some token) := by
  simp only [opens, Bool.or_eq_true, beq_iff_eq, or_assoc]
  constructor
  · intro h before hsame
    obtain rfl := Option.some.inj hsame
    exact h
  · intro h
    exact h token rfl

theorem readToken_eq {due : Bool} {previous : Option Token}
    (hsame : due = true ↔ OperandDue previous) (token : Token) :
    readToken due token = readBehind previous token := by
  unfold readToken readBehind readOperator
  by_cases hkind : token.kind = .operator
  · rw [if_pos hkind]
    by_cases hminus : token.name = "-"
    · by_cases hdue : due = true
      · rw [if_pos (by simp [hminus, hdue]), if_pos ⟨hkind, hminus, hsame.mp hdue⟩]
        rfl
      · rw [if_neg (by simp [hdue]), if_neg fun h => hdue (hsame.mpr h.2.2)]
    · rw [if_neg (by simp [hminus]), if_neg fun h => hminus h.2.1]
  · rw [if_neg hkind, if_neg fun h => hkind h.1]

theorem readFrom_eq {due : Bool} {previous : Option Token}
    (hsame : due = true ↔ OperandDue previous) (tokens : List Token) :
    readFrom due tokens = List.zipWith readBehind (previous :: tokens.map some) tokens := by
  induction tokens generalizing due previous with
  | nil => rfl
  | cons token rest ih =>
    rw [readFrom, readToken_eq hsame, ih (opens_iff token)]
    rfl

theorem readFrom_eq_readings (tokens : List Token) : readFrom true tokens = readings tokens :=
  readFrom_eq (iff_of_true rfl fun _ h => by cases h) tokens

theorem perm_readings_of_arrange {tokens out : List Token} (h : arrange tokens = .ok out) :
    out.Perm ((readings tokens).filter hasPlace) := by
  rw [← readFrom_eq_readings]
  exact (perm_of_arrange h).symm

theorem isOperand_eq_false_of_operator {token : Token} (hkind : token.kind = .operator) :
    isOperand token = false := by
  simp [isOperand, hkind]

theorem step_operand {token : Token} (hoperand : isOperand token = true) (state : State) :
    step state token = .ok ([token], ⟨state.stack, false⟩) := by
  simp only [isOperand, Bool.or_eq_true, Bool.and_eq_true, beq_iff_eq] at hoperand
  rcases hoperand with hkind | ⟨hkind, hconstant⟩
  · simp only [step, hkind]
  · simp only [step, hkind, hconstant, if_true]

/-- An operand is put out where it is read, and no other token brings one along. -/
theorem operands_of_step {state after : State} {token : Token} {done : List Token}
    (h : step state token = .ok (done, after))
    (hwaiting : ∀ other ∈ state.stack, isOperand other = false) :
    done.filter isOperand = [token].filter isOperand ∧
      ∀ other ∈ after.stack, isOperand other = false := by
  cases hoperand : isOperand token with
  | true =>
    rw [step_operand hoperand state] at h
    cases h
    exact ⟨rfl, hwaiting⟩
  | false =>
    obtain ⟨hstay, hputs⟩ :=
      step_forall (fun _ => isOperand_eq_false_of_operator) h hwaiting hoperand
    refine ⟨?_, hstay⟩
    rw [List.filter_eq_nil_iff.mpr (by simpa using hputs)]
    simp [hoperand]

theorem operands_of_arrangeFrom {state : State} {tokens out : List Token}
    (h : arrangeFrom state tokens = .ok out)
    (hwaiting : ∀ other ∈ state.stack, isOperand other = false) :
    out.filter isOperand = tokens.filter isOperand := by
  induction tokens generalizing state out with
  | nil =>
    obtain ⟨rfl, _⟩ := eq_of_unwind h
    rw [List.filter_eq_nil_iff.mpr (by simpa using hwaiting)]
    rfl
  | cons token rest ih =>
    obtain ⟨done, after, others, hstep, hbehind, rfl⟩ := exists_step_of_arrangeFrom h
    obtain ⟨hnow, hstay⟩ := operands_of_step hstep hwaiting
    rw [List.filter_append, hnow, ih hbehind hstay, ← List.filter_append]
    rfl

/-- An arrangement, of whatever tokens, is a permutation of those that are neither parentheses nor
commas, each minus where an operand is due read as the prefixed one and every other token as it is.
Numbers and constants stay in order. -/
theorem conserves_of_arrange {tokens out : List Token} (h : arrange tokens = .ok out) :
    out.Perm ((readings tokens).filter hasPlace) ∧
      out.filter isOperand = tokens.filter isOperand ∧
      ∀ token ∈ out, token.isParen = false ∧ token.kind ≠ .comma := by
  have hperm := perm_readings_of_arrange h
  refine ⟨hperm, operands_of_arrangeFrom h (List.forall_mem_nil _), ?_⟩
  intro token hmem
  obtain ⟨_, hplace⟩ := List.mem_filter.mp (hperm.mem_iff.mp hmem)
  simpa [hasPlace] using hplace

theorem conserves_operands_side_by_side :
    ∃ tokens out, tokens = [⟨.operator, "-", none, some 0⟩, ⟨.leftParen, "(", none, some 1⟩,
        ⟨.number, "1", none, some 2⟩, ⟨.number, "2", none, some 4⟩, ⟨.comma, ",", none, some 5⟩,
        ⟨.operator, "-", none, some 6⟩, ⟨.identifier, "pi", none, some 7⟩,
        ⟨.rightParen, ")", none, some 9⟩, ⟨.identifier, "sin", none, some 11⟩] ∧
      arrange tokens = .ok out ∧
      out.Perm [⟨.operator, "u-", none, some 0⟩, ⟨.number, "1", none, some 2⟩,
        ⟨.number, "2", none, some 4⟩, ⟨.operator, "u-", none, some 6⟩,
        ⟨.identifier, "pi", none, some 7⟩, ⟨.identifier, "sin", none, some 11⟩] ∧
      out.filter isOperand = [⟨.number, "1", none, some 2⟩, ⟨.number, "2", none, some 4⟩,
        ⟨.identifier, "pi", none, some 7⟩] := by
  obtain ⟨out, harrange⟩ : ∃ out, arrange [⟨.operator, "-", none, some 0⟩,
      ⟨.leftParen, "(", none, some 1⟩, ⟨.number, "1", none, some 2⟩,
      ⟨.number, "2", none, some 4⟩, ⟨.comma, ",", none, some 5⟩, ⟨.operator, "-", none, some 6⟩,
      ⟨.identifier, "pi", none, some 7⟩, ⟨.rightParen, ")", none, some 9⟩,
      ⟨.identifier, "sin", none, some 11⟩] = .ok out := ⟨_, rfl⟩
  obtain ⟨hperm, horder, _⟩ := conserves_of_arrange harrange
  exact ⟨_, out, rfl, harrange, hperm, horder⟩

end Reckoner.Postorder
