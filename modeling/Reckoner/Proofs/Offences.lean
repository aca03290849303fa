import Reckoner.Proofs.Conservation
import Reckoner.Proofs.Guards
import Reckoner.Syntax.Sequence

/-!
# Where an arrangement stops

An arrangement fails at the first token that offends, and at the end if a parenthesis is still open
there. What else waits on the stack neither makes a failure nor hides one: only the number of
opening parentheses on it counts, and that is the depth of the tokens read so far.
-/

namespace Reckoner

set_option autoImplicit false

namespace Infix

open Postorder

theorem offends_cons (opened : Int) (token : Token) :
    (fun before : List Token => Offends (opened + depth (token :: before))) =
      fun before => Offends (opened + depth [token] + depth before) := by
  funext before
  rw [depth_cons, ← Int.add_assoc]

theorem offends_start (opened : Int) (token : Token) :
    Offends (opened + depth []) token = Offends opened token := by
  rw [show depth [] = 0 from rfl, Int.add_zero]

theorem inoffensive_cons_iff {opened : Int} {token : Token} {rest : List Token} :
    Inoffensive opened (token :: rest) ↔
      (∀ failure, ¬ Offends opened token failure) ∧ Inoffensive (opened + depth [token]) rest := by
  have hparts : Inoffensive opened (token :: rest) ↔ _ := blameless_cons_iff
  rwa [offends_cons, offends_start] at hparts

theorem firstOffence_cons_iff {opened : Int} {token : Token} {rest : List Token}
    {failure : Failure} : FirstOffence opened (token :: rest) failure ↔
      Offends opened token failure ∨
        (∀ failure, ¬ Offends opened token failure) ∧
          FirstOffence (opened + depth [token]) rest failure := by
  have hparts : FirstOffence opened (token :: rest) failure ↔ _ := firstBlame_cons_iff
  rwa [offends_cons, offends_start] at hparts

/-- A list has no offending token or a first one. -/
theorem inoffensive_or_firstOffence (opened : Int) (tokens : List Token) :
    Inoffensive opened tokens ∨ ∃ failure, FirstOffence opened tokens failure :=
  blameless_or_firstBlame tokens

end Infix

namespace Postorder

open Infix

theorem opened_eq_zero_iff {stack : List Token} :
    opened stack = 0 ↔ (splitAtParen stack).2 = [] := by
  rw [opened, List.countP_eq_zero, splitAtParen_eq, List.dropWhile_eq_nil_iff]
  simp

/-- The stack matters to a refusal by the number of opening parentheses on it. -/
theorem refuses_iff_offends {state : State} {token : Token} {failure : Failure} :
    Refuses state token failure ↔ Offends (opened state.stack) token failure := by
  have hopened : (opened state.stack : Int) = 0 ↔ (splitAtParen state.stack).2 = [] := by
    rw [← opened_eq_zero_iff, Int.ofNat_eq_zero]
  constructor
  · intro hrefuses
    cases hrefuses with
    | comma hkind houtside => exact .comma hkind (hopened.mpr houtside)
    | closing hkind houtside => exact .closing hkind (hopened.mpr houtside)
    | stranger hkind hunknown => exact .stranger hkind hunknown
  · intro hoffends
    cases hoffends with
    | comma hkind houtside => exact .comma hkind (hopened.mp houtside)
    | closing hkind houtside => exact .closing hkind (hopened.mp houtside)
    | stranger hkind hunknown => exact .stranger hkind hunknown

/-- A step fails exactly at a token that offends at the depth that the stack stands for. -/
theorem step_error_iff {state : State} {token : Token} {failure : Failure} :
    step state token = .error failure ↔ Offends (opened state.stack) token failure := by
  rw [← refuses_iff_offends]
  exact ⟨refuses_of_step, step_of_refuses⟩

/-- A token that does not offend is taken, and the depth is followed on the stack. -/
theorem exists_step_of_not_offends {state : State} {token : Token}
    (hpasses : ∀ failure, ¬ Offends (opened state.stack) token failure) :
    ∃ done after, step state token = .ok (done, after) ∧
      (opened after.stack : Int) = opened state.stack + depth [token] := by
  cases hstep : step state token with
  | error failure => exact absurd (step_error_iff.mp hstep) (hpasses failure)
  | ok result => exact ⟨result.1, result.2, rfl, (opened_of_step hstep).1⟩

theorem arrangeFrom_of_firstOffence {state : State} {tokens : List Token} {failure : Failure}
    (hfirst : FirstOffence (opened state.stack) tokens failure) :
    arrangeFrom state tokens = .error failure := by
  induction tokens generalizing state with
  | nil => exact absurd hfirst not_firstBlame_nil
  | cons token rest ih =>
    rcases firstOffence_cons_iff.mp hfirst with hoffends | ⟨hpasses, hlater⟩
    · rw [arrangeFrom, step_error_iff.mpr hoffends]
    · obtain ⟨done, after, hstep, hmoved⟩ := exists_step_of_not_offends hpasses
      rw [← hmoved] at hlater
      rw [arrangeFrom_cons hstep, ih hlater]
      rfl

/-- At the end nothing but opening parentheses can be in the way. -/
theorem unwind_eq {stack : List Token} (hwaits : ∀ token ∈ stack, Waits token) :
    unwind stack = if 0 < opened stack then .error .unclosedParen else .ok stack := by
  have hparens : stack.any Token.isParen = true ↔ 0 < opened stack := by
    rw [opened, List.countP_pos_iff, List.any_eq_true]
    constructor
    · rintro ⟨token, hmem, hparen⟩
      refine ⟨token, hmem, ?_⟩
      rcases hwaits token hmem with hkind | hkind | hknown
      · simp [Token.isLeftParen, hkind]
      · simp [Token.isParen, hkind] at hparen
      · simp [Token.isParen, hknown.1] at hparen
    · rintro ⟨token, hmem, hopening⟩
      refine ⟨token, hmem, ?_⟩
      rw [Token.isLeftParen, beq_iff_eq] at hopening
      simp [Token.isParen, hopening]
  unfold unwind
  by_cases hopen : 0 < opened stack
  · rw [if_pos hopen, if_pos (hparens.mpr hopen)]
  · rw [if_neg hopen, if_neg (mt hparens.mp hopen)]

theorem arrangeFrom_of_inoffensive {state : State} {tokens : List Token}
    (hwaits : ∀ token ∈ state.stack, Waits token)
    (hclear : Inoffensive (opened state.stack) tokens) :
    (0 < opened state.stack + depth tokens →
      arrangeFrom state tokens = .error .unclosedParen) ∧
    (¬ 0 < opened state.stack + depth tokens → ∃ out, arrangeFrom state tokens = .ok out) := by
  induction tokens generalizing state with
  | nil =>
    have htotal : (opened state.stack : Int) + depth [] = opened state.stack := Int.add_zero _
    rw [arrangeFrom, unwind_eq hwaits, htotal]
    constructor
    · intro hopen
      rw [if_pos (by omega)]
    · intro hclosed
      exact ⟨state.stack, if_neg (by omega)⟩
  | cons token rest ih =>
    obtain ⟨hpasses, hlater⟩ := inoffensive_cons_iff.mp hclear
    obtain ⟨done, after, hstep, hmoved⟩ := exists_step_of_not_offends hpasses
    rw [← hmoved] at hlater
    obtain ⟨hunclosed, hclosed⟩ := ih (step_keeps hstep hwaits).1 hlater
    rw [arrangeFrom_cons hstep, depth_cons, ← Int.add_assoc, ← hmoved]
    constructor
    · intro hopen
      rw [hunclosed hopen]
      rfl
    · intro hclosed_now
      obtain ⟨out, hbehind⟩ := hclosed hclosed_now
      exact ⟨done ++ out, by rw [hbehind, emit_ok]⟩

theorem arrange_of_firstOffence {tokens : List Token} {failure : Failure}
    (hfirst : FirstOffence 0 tokens failure) : arrange tokens = .error failure :=
  arrangeFrom_of_firstOffence hfirst

theorem arrange_of_inoffensive {tokens : List Token} (hclear : Inoffensive 0 tokens) :
    (0 < depth tokens → arrange tokens = .error .unclosedParen) ∧
      (¬ 0 < depth tokens → ∃ out, arrange tokens = .ok out) := by
  have hfinal := arrangeFrom_of_inoffensive waits_initial hclear
  have hstart : ((opened (State.mk [] true).stack : Nat) : Int) + depth tokens = depth tokens :=
    Int.zero_add _
  rwa [hstart] at hfinal

/-- An arrangement fails with the failure of the first token that offends; where none does it fails
exactly if a parenthesis is open at the end; and it succeeds on all other lists of tokens. It meets
no hazard on any: each operator on the stack is found in the vocabulary. -/
theorem arrange_error_iff (tokens : List Token) :
    (∀ failure, arrange tokens = .error failure ↔
      FirstOffence 0 tokens failure ∨
        Inoffensive 0 tokens ∧ 0 < depth tokens ∧ failure = .unclosedParen) ∧
    ((∃ out, arrange tokens = .ok out) ↔ Inoffensive 0 tokens ∧ ¬ 0 < depth tokens) ∧
    Unguarded.arrangeFrom ⟨[], true⟩ tokens = (arrange tokens).mapError Halt.failure := by
  refine ⟨fun failure => ⟨fun hfailed => ?_, ?_⟩, ⟨?_, ?_⟩,
    Unguarded.arrangeFrom_eq waits_initial tokens⟩
  · rcases inoffensive_or_firstOffence 0 tokens with hclear | ⟨other, hfirst⟩
    · obtain ⟨hunclosed, hclosed⟩ := arrange_of_inoffensive hclear
      by_cases hopen : 0 < depth tokens
      · rw [hunclosed hopen, Except.error.injEq] at hfailed
        exact .inr ⟨hclear, hopen, hfailed.symm⟩
      · obtain ⟨out, harrange⟩ := hclosed hopen
        rw [harrange] at hfailed
        cases hfailed
    · rw [arrange_of_firstOffence hfirst, Except.error.injEq] at hfailed
      exact .inl (hfailed ▸ hfirst)
  · rintro (hfirst | ⟨hclear, hopen, rfl⟩)
    · exact arrange_of_firstOffence hfirst
    · exact (arrange_of_inoffensive hclear).1 hopen
  · rintro ⟨out, harrange⟩
    rcases inoffensive_or_firstOffence 0 tokens with hclear | ⟨failure, hfirst⟩
    · refine ⟨hclear, fun hopen => ?_⟩
      rw [(arrange_of_inoffensive hclear).1 hopen] at harrange
      cases harrange
    · rw [arrange_of_firstOffence hfirst] at harrange
      cases harrange
  · rintro ⟨hclear, hclosed⟩
    exact (arrange_of_inoffensive hclear).2 hclosed

end Postorder

end Reckoner
