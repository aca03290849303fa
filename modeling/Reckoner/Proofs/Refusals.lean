import Reckoner.Proofs.Conservation
import Reckoner.Proofs.Taxonomy
import Reckoner.Syntax.Supply

/-!
# Tokens that are refused

The check looks up every name before it counts, and counts every token before anything is run. What
it finds depends on the kinds and names of the tokens alone. A program that passes it can fail only
where an operation refuses its arguments, or with a result that is not finite.
-/

namespace Reckoner

set_option autoImplicit false

open Infix

theorem Instruction.ofToken_error_iff {token : Token} {failure : Failure} :
    ofToken token = .error failure ↔ Program.Strange token failure := by
  constructor
  · intro h
    cases hkind : token.kind with
    | number => simp [ofToken, Token.meaning, hkind, Except.map] at h
    | operator =>
      cases hknown : operator? token.name with
      | some entry => simp [ofToken, Token.meaning, hkind, hknown, Except.map] at h
      | none =>
        simp only [ofToken, Token.meaning, hkind, hknown, Except.map, Except.error.injEq] at h
        exact h ▸ .operator hkind hknown
    | identifier =>
      cases hknown : identifier? token.name with
      | some entry => simp [ofToken, Token.meaning, hkind, hknown, Except.map] at h
      | none =>
        simp only [ofToken, Token.meaning, hkind, hknown, Except.map, Except.error.injEq] at h
        exact h ▸ .identifier hkind hknown
    | leftParen | rightParen | comma =>
      simp only [ofToken, hkind, Except.error.injEq] at h
      exact h ▸ .punctuation (by simp [hkind])
  · intro hstrange
    cases hstrange with
    | punctuation hkind => rcases hkind with hkind | hkind | hkind <;> simp [ofToken, hkind]
    | operator hkind hunknown => simp [ofToken, Token.meaning, hkind, hunknown, Except.map]
    | identifier hkind hunknown => simp [ofToken, Token.meaning, hkind, hunknown, Except.map]

namespace Program

theorem ofTokens_error_iff {tokens : List Token} {failure : Failure} :
    ofTokens tokens = .error failure ↔ FirstBlame (fun _ => Strange) tokens failure := by
  induction tokens with
  | nil => exact ⟨nofun, fun hfirst => absurd hfirst not_firstBlame_nil⟩
  | cons token rest ih =>
    rw [firstBlame_cons_iff, ← ih, ← Instruction.ofToken_error_iff]
    cases hfound : Instruction.ofToken token with
    | error other =>
      have hstrange := Instruction.ofToken_error_iff.mp hfound
      constructor
      · intro h
        exact .inl (by simpa [ofTokens, hfound] using h)
      · rintro (h | ⟨hpasses, _⟩)
        · simpa [ofTokens, hfound] using h
        · exact absurd hstrange (hpasses other)
    | ok instruction =>
      have hpasses (failure : Failure) : ¬ Strange token failure := by
        rw [← Instruction.ofToken_error_iff, hfound]
        nofun
      cases hbehind : ofTokens rest <;> simp [ofTokens, hfound, hbehind, Except.map, hpasses]

theorem exists_ofTokens_of_familiar {tokens : List Token} (hfamiliar : Familiar tokens) :
    ∃ program, ofTokens tokens = .ok program := by
  cases hknown : ofTokens tokens with
  | error failure => exact absurd hfamiliar (ofTokens_error_iff.mp hknown).not_blameless
  | ok program => exact ⟨program, rfl⟩

theorem familiar_of_ofTokens {tokens : List Token} {program : List Instruction}
    (hknown : ofTokens tokens = .ok program) : Familiar tokens := by
  rcases blameless_or_firstBlame tokens with hfamiliar | ⟨failure, hfirst⟩
  · exact hfamiliar
  · rw [ofTokens_error_iff.mpr hfirst] at hknown
    cases hknown

theorem available_cons {token : Token} {arity : Nat} (htakes : token.arity? = some arity)
    (rest : List Token) : available (token :: rest) = 1 - arity + available rest := by
  unfold available
  cases hoperand : isOperand token with
  | true =>
    have hnothing : arity = 0 := by
      simp only [isOperand, Bool.or_eq_true, Bool.and_eq_true, beq_iff_eq] at hoperand
      rcases hoperand with hkind | ⟨hkind, hconstant⟩
      · simpa [Token.arity?, hkind] using htakes.symm
      · rw [Token.arity?, hkind] at htakes
        unfold isConstant at hconstant
        split at hconstant
        · rename_i hknown
          simpa [hknown, IdentifierEntry.arity] using htakes.symm
        · cases hconstant
    rw [List.countP_cons_of_pos hoperand, List.filter_cons_of_neg (by simp [hoperand]), hnothing]
    push_cast
    omega
  | false =>
    rw [List.countP_cons_of_neg (by simp [hoperand]), List.filter_cons_of_pos (by simp [hoperand]),
      List.map_cons, List.sum_cons, furtherArity, htakes, Option.getD_some]
    omega

theorem lacks_iff {token : Token} {instruction : Instruction}
    (hfound : Instruction.ofToken token = .ok instruction) (values : Nat) (failure : Failure) :
    Lacks values token failure ↔ values < instruction.arity ∧ instruction.lacking = failure := by
  have htakes := Instruction.arity_ofToken hfound
  constructor
  · intro hlacks
    cases hlacks with
    | operator hkind hshort | function hkind hshort =>
      rw [htakes, Option.getD_some, Int.ofNat_lt] at hshort
      refine ⟨hshort, ?_⟩
      rcases Instruction.ofToken_cases hfound with ⟨_, rfl⟩ | ⟨_, _, _, rfl⟩ | ⟨_, _, _, rfl⟩ <;>
        simp [Instruction.lacking, hkind]
  · rintro ⟨hshort, rfl⟩
    have hlessThan : (values : Int) < token.arity?.getD 0 := by
      rw [htakes, Option.getD_some]
      exact Int.ofNat_lt.mpr hshort
    rcases Instruction.ofToken_cases hfound with ⟨_, rfl⟩ | ⟨_, hkind, _, rfl⟩ | ⟨_, hkind, _, rfl⟩
    · exact absurd hshort (Nat.not_lt_zero values)
    · simpa [Instruction.lacking, hkind] using Lacks.operator hkind hlessThan
    · simpa [Instruction.lacking, hkind] using Lacks.function hkind hlessThan

theorem lacks_start (start : Nat) : Lacks (start + available []) = Lacks start := by
  rw [show available [] = 0 from rfl, Int.add_zero]

theorem lacks_cons {token : Token} {arity start : Nat} (htakes : token.arity? = some arity)
    (henough : arity ≤ start) : (fun before => Lacks (start + available (token :: before))) =
      fun before => Lacks ((start - arity + 1 : Nat) + available before) := by
  funext before
  rw [available_cons htakes]
  congr 1
  omega

/-- The check stops at the first token that finds too few values on top of those it starts with. -/
theorem depthAfter_error_iff {tokens : List Token} {program : List Instruction}
    (hknown : ofTokens tokens = .ok program) (start : Nat) (failure : Failure) :
    depthAfter start program = .error failure ↔
      FirstBlame (fun before => Lacks (start + available before)) tokens failure := by
  induction tokens generalizing program start with
  | nil =>
    cases hknown
    exact ⟨nofun, fun hfirst => absurd hfirst not_firstBlame_nil⟩
  | cons token rest ih =>
    obtain ⟨instruction, behind, hfound, hothers, rfl⟩ := ofTokens_cons_eq_ok hknown
    rw [firstBlame_cons_iff, lacks_start, lacks_iff hfound, depthAfter]
    by_cases hshort : start < instruction.arity
    · rw [if_pos hshort, Except.error.injEq]
      have hblamed : Lacks start token instruction.lacking :=
        (lacks_iff hfound _ _).mpr ⟨hshort, rfl⟩
      constructor
      · exact fun hsame => .inl ⟨hshort, hsame⟩
      · rintro (⟨_, hsame⟩ | ⟨hpasses, _⟩)
        · exact hsame
        · exact absurd hblamed (hpasses instruction.lacking)
    · have hpasses (failure : Failure) : ¬ Lacks start token failure := by
        rw [lacks_iff hfound]
        exact fun hlacks => hshort hlacks.1
      rw [if_neg hshort, ih hothers,
        lacks_cons (Instruction.arity_ofToken hfound) (Nat.not_lt.mp hshort)]
      constructor
      · exact fun hlater => .inr ⟨hpasses, hlater⟩
      · rintro (⟨hhere, _⟩ | ⟨_, hlater⟩)
        · exact absurd hhere hshort
        · exact hlater

theorem available_eq_sum_gain {tokens : List Token} {program : List Instruction}
    (hknown : ofTokens tokens = .ok program) : available tokens = (tokens.map Token.gain).sum := by
  induction tokens generalizing program with
  | nil => rfl
  | cons token rest ih =>
    obtain ⟨instruction, behind, hfound, hothers, rfl⟩ := ofTokens_cons_eq_ok hknown
    have htakes := Instruction.arity_ofToken hfound
    rw [available_cons htakes, ih hothers, List.map_cons, List.sum_cons, Token.gain_of_arity htakes]

theorem available_of_depthAfter {tokens : List Token} {program : List Instruction}
    (hknown : ofTokens tokens = .ok program) {reached : Nat}
    (hcounted : depthAfter 0 program = .ok reached) : (reached : Int) = available tokens := by
  rw [sum_gain_of_depthAfter hknown hcounted, available_eq_sum_gain hknown]
  exact Int.zero_add _

theorem depthAfter_zero_error_iff {tokens : List Token} {program : List Instruction}
    (hknown : ofTokens tokens = .ok program) (failure : Failure) :
    depthAfter 0 program = .error failure ↔
      FirstBlame (fun before => Lacks (available before)) tokens failure := by
  simpa using depthAfter_error_iff hknown 0 failure

theorem fed_of_depthAfter {tokens : List Token} {program : List Instruction}
    (hknown : ofTokens tokens = .ok program) {reached : Nat}
    (hcounted : depthAfter 0 program = .ok reached) : Fed tokens := by
  rcases blameless_or_firstBlame tokens with hfed | ⟨failure, hfirst⟩
  · exact hfed
  · rw [(depthAfter_zero_error_iff hknown failure).mpr hfirst] at hcounted
    cases hcounted

theorem refused_of_check_error {tokens : List Token} {failure : Failure}
    (h : check tokens = .error failure) : Refused tokens failure := by
  cases hknown : ofTokens tokens with
  | error other =>
    simp only [check, hknown, Except.error.injEq] at h
    exact h ▸ .strange (ofTokens_error_iff.mp hknown)
  | ok program =>
    have hfamiliar := familiar_of_ofTokens hknown
    cases hcounted : depthAfter 0 program with
    | error other =>
      simp only [check, hknown, hcounted, Except.error.injEq] at h
      exact h ▸ .lack hfamiliar ((depthAfter_zero_error_iff hknown other).mp hcounted)
    | ok reached =>
      simp only [check, hknown, hcounted] at h
      split at h
      · cases h
      · rename_i hseveral
        cases h
        exact .surplus hfamiliar (fed_of_depthAfter hknown hcounted)
          (available_of_depthAfter hknown hcounted) hseveral

theorem check_error_of_refused {tokens : List Token} {failure : Failure}
    (hrefused : Refused tokens failure) : check tokens = .error failure := by
  cases hrefused with
  | strange hfirst => simp only [check, ofTokens_error_iff.mpr hfirst]
  | lack hfamiliar hfirst =>
    obtain ⟨program, hknown⟩ := exists_ofTokens_of_familiar hfamiliar
    simp only [check, hknown, (depthAfter_zero_error_iff hknown failure).mpr hfirst]
  | @surplus count hfamiliar hfed hleft hseveral =>
    obtain ⟨program, hknown⟩ := exists_ofTokens_of_familiar hfamiliar
    cases hcounted : depthAfter 0 program with
    | error other =>
      exact absurd hfed ((depthAfter_zero_error_iff hknown other).mp hcounted).not_blameless
    | ok reached =>
      have hsame := available_of_depthAfter hknown hcounted
      obtain rfl : reached = count := by omega
      simp only [check, hknown, hcounted, if_neg hseveral]

theorem available_of_check {tokens : List Token} {program : List Instruction}
    (h : check tokens = .ok program) : Familiar tokens ∧ Fed tokens ∧ available tokens = 1 := by
  obtain ⟨hknown, hcounted⟩ := check_eq_ok_iff.mp h
  have htotal := available_of_depthAfter hknown hcounted
  exact ⟨familiar_of_ofTokens hknown, fed_of_depthAfter hknown hcounted, by omega⟩

theorem ofToken_revalued {token other : Token} (h : token.Revalued other) :
    (∃ failure, Instruction.ofToken token = .error failure ∧
      Instruction.ofToken other = .error failure) ∨
    ∃ first second, Instruction.ofToken token = .ok first ∧ Instruction.ofToken other = .ok second ∧
      second.arity = first.arity ∧ second.lacking = first.lacking := by
  rcases h with rfl | ⟨hnumber, value, rfl⟩
  · cases hfound : Instruction.ofToken other with
    | error failure => exact .inl ⟨failure, rfl, rfl⟩
    | ok instruction => exact .inr ⟨instruction, instruction, rfl, rfl, rfl, rfl⟩
  · refine .inr ⟨⟨token, none⟩, ⟨{ token with value }, none⟩, ?_, ?_, rfl, rfl⟩
    · simp [Instruction.ofToken, Token.meaning, hnumber, Except.map]
    · simp [Instruction.ofToken, Token.meaning, hnumber, Except.map]

theorem ofTokens_revalued {tokens others : List Token}
    (h : List.Forall₂ Token.Revalued tokens others) :
    (∃ failure, ofTokens tokens = .error failure ∧ ofTokens others = .error failure) ∨
    ∃ program other, ofTokens tokens = .ok program ∧ ofTokens others = .ok other ∧
      ∀ depth, depthAfter depth other = depthAfter depth program := by
  induction h with
  | nil => exact .inr ⟨[], [], rfl, rfl, fun _ => rfl⟩
  | cons hhere _ ih =>
    rcases ofToken_revalued hhere with ⟨failure, h, h'⟩ | ⟨first, second, h, h', harity, hlacking⟩
    · exact .inl ⟨failure, by simp [ofTokens, h], by simp [ofTokens, h']⟩
    · rcases ih with ⟨failure, hbehind, hbehind'⟩ | ⟨program, other, hbehind, hbehind', hcounts⟩
      · refine .inl ⟨failure, ?_, ?_⟩
        · simp [ofTokens, h, hbehind, Except.map]
        · simp [ofTokens, h', hbehind', Except.map]
      · refine .inr ⟨first :: program, second :: other, ?_, ?_, fun depth => ?_⟩
        · simp [ofTokens, h, hbehind, Except.map]
        · simp [ofTokens, h', hbehind', Except.map]
        · simp only [depthAfter, harity, hlacking, hcounts]

theorem check_revalued {tokens others : List Token}
    (h : List.Forall₂ Token.Revalued tokens others) :
    (∃ failure, check tokens = .error failure ∧ check others = .error failure) ∨
    ∃ program other, check tokens = .ok program ∧ check others = .ok other := by
  rcases ofTokens_revalued h with ⟨failure, hknown, hknown'⟩ |
    ⟨program, other, hknown, hknown', hcounts⟩
  · exact .inl ⟨failure, by simp only [check, hknown], by simp only [check, hknown']⟩
  · simp only [check, hknown, hknown', hcounts]
    cases depthAfter 0 program with
    | error failure => exact .inl ⟨failure, rfl, rfl⟩
    | ok depth =>
      by_cases hone : depth = 1
      · exact .inr ⟨program, other, by simp [hone], by simp [hone]⟩
      · exact .inl ⟨.surplusValues depth, by simp [hone], by simp [hone]⟩

/-- A program that passes the check fails only where it is run, or with what it leaves. -/
theorem refusal_of_value_error {mode : AngleMode} {program : List Instruction}
    (hcounted : depthAfter 0 program = .ok 1) {failure : Failure}
    (h : value mode program = .error failure) :
    failure.IsRefusal ∨ failure = .nonFiniteResult := by
  have hstart : depthAfter ([] : List Double).length program = .ok 1 := hcounted
  cases hran : run mode program [] with
  | error fault =>
    cases fault with
    | underflow => exact absurd hran (run_ne_underflow hstart mode)
    | failure other =>
      simp only [value, hran, Except.error.injEq] at h
      exact .inl (h ▸ isRefusal_of_run_error hran)
  | ok stack =>
    have hlength := depthAfter_of_run hran
    rw [hstart, Except.ok.injEq] at hlength
    obtain ⟨result, rfl⟩ := List.length_eq_one_iff.mp hlength.symm
    simp only [value, hran] at h
    split at h
    · cases h
    · exact .inr (Except.error.inj h).symm

/-- Tokens are refused by the check with what `Refused` says, and then they are refused alike in
both modes and with any values of their numbers. Where they are not refused, no values make them
fail but by an operation that refuses its arguments or a result that is not finite. -/
theorem evaluate_refused (tokens : List Token) :
    (∀ failure, check tokens = .error failure ↔ Refused tokens failure) ∧
    (∀ failure, Refused tokens failure → ∀ others, List.Forall₂ Token.Revalued tokens others →
      ∀ mode, evaluate mode others = .error failure) ∧
    ((∀ failure, ¬ Refused tokens failure) ↔
      Familiar tokens ∧ Fed tokens ∧ available tokens = 1) ∧
    ((∀ failure, ¬ Refused tokens failure) → ∀ others, List.Forall₂ Token.Revalued tokens others →
      ∀ mode failure, evaluate mode others = .error failure →
        failure.IsRefusal ∨ failure = .nonFiniteResult) := by
  have hchecks (failure : Failure) : check tokens = .error failure ↔ Refused tokens failure :=
    ⟨refused_of_check_error, check_error_of_refused⟩
  have hpasses (hclear : ∀ failure, ¬ Refused tokens failure) :
      ∃ program, check tokens = .ok program := by
    cases hcheck : check tokens with
    | error failure => exact absurd ((hchecks failure).mp hcheck) (hclear failure)
    | ok program => exact ⟨program, rfl⟩
  refine ⟨hchecks, ?_, ⟨?_, ?_⟩, ?_⟩
  · intro failure hrefused others hrevalued mode
    have hcheck := check_error_of_refused hrefused
    rcases check_revalued hrevalued with ⟨other, h, h'⟩ | ⟨program, _, h, _⟩
    · rw [hcheck, Except.error.injEq] at h
      simp only [evaluate, h', h]
    · rw [hcheck] at h
      cases h
  · intro hclear
    obtain ⟨program, hcheck⟩ := hpasses hclear
    exact available_of_check hcheck
  · rintro ⟨hfamiliar, hfed, hone⟩ failure hrefused
    cases hrefused with
    | strange hfirst => exact hfirst.not_blameless hfamiliar
    | lack _ hfirst => exact hfirst.not_blameless hfed
    | surplus _ _ hleft hseveral => omega
  · intro hclear others hrevalued mode failure h
    obtain ⟨program, hcheck⟩ := hpasses hclear
    rcases check_revalued hrevalued with ⟨other, hfails, _⟩ | ⟨_, other, _, hpassed⟩
    · rw [hcheck] at hfails
      cases hfails
    · simp only [evaluate, hpassed] at h
      exact refusal_of_value_error (check_eq_ok_iff.mp hpassed).2 h

/-- A division by zero does not come before an operator that lacks an operand. -/
theorem evaluate_refused_division :
    Refused [⟨.number, "1", some (Double.ofNat 1), none⟩,
      ⟨.number, "0", some (Double.ofNat 0), none⟩, ⟨.operator, "/", none, none⟩,
      ⟨.operator, "+", none, none⟩] (.insufficientOperands "+") ∧
    ∀ x y mode, evaluate mode [⟨.number, "1", some x, none⟩, ⟨.number, "0", some y, none⟩,
      ⟨.operator, "/", none, none⟩, ⟨.operator, "+", none, none⟩] =
        .error (.insufficientOperands "+") := by
  have hrefused := ((evaluate_refused _).1 _).mp
    (by decide +kernel : check [⟨.number, "1", some (Double.ofNat 1), none⟩,
      ⟨.number, "0", some (Double.ofNat 0), none⟩, ⟨.operator, "/", none, none⟩,
      ⟨.operator, "+", none, none⟩] = .error (.insufficientOperands "+"))
  refine ⟨hrefused, fun x y mode => (evaluate_refused _).2.1 _ hrefused _ ?_ mode⟩
  exact .cons (.inr ⟨rfl, some x, rfl⟩) (.cons (.inr ⟨rfl, some y, rfl⟩)
    (.cons (.inl rfl) (.cons (.inl rfl) .nil)))

end Program

end Reckoner
