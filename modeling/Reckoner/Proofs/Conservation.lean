import Mathlib.Algebra.BigOperators.Group.List.Basic
import Mathlib.Algebra.Ring.Int.Defs
import Reckoner.Proofs.Arrangement
import Reckoner.Proofs.Simulation
import Reckoner.Syntax.Punctuation

/-!
# What an arrangement conserves

Every token that is read with a place in postorder waits or is put out, once, so that an
arrangement is a permutation of what was read. The opening parentheses on the stack are those still
open. The values that a program leaves are counted token by token, in any order.
-/

namespace Reckoner

set_option autoImplicit false

namespace Postorder

open Infix

def readToken (due : Bool) (token : Token) : Token :=
  if token.kind = .operator then readOperator due token else token

/-- The tokens as they are read. Only the token before decides whether an operand is due. -/
def readFrom : Bool → List Token → List Token
  | _, [] => []
  | due, token :: rest => readToken due token :: readFrom (opens token) rest

theorem readToken_of_ne {token : Token} (hkind : token.kind ≠ .operator) (due : Bool) :
    readToken due token = token := if_neg hkind

theorem readToken_of_operator {token : Token} (hkind : token.kind = .operator) (due : Bool) :
    readToken due token = readOperator due token := if_pos hkind

theorem operandDue_of_step {state after : State} {token : Token} {done : List Token}
    (h : step state token = .ok (done, after)) : after.operandDue = opens token := by
  cases moves_of_step h with
  | operand hkind => rcases hkind with hkind | ⟨hkind, _⟩ <;> simp [opens, hkind]
  | function hkind _ => simp [opens, hkind]
  | opening hkind => simp [opens, hkind]
  | comma hkind _ => simp [opens, hkind]
  | closing hkind _ => simp [opens, hkind]
  | binary hkind _ _ => simp [opens, hkind]
  | prefixed hkind _ _ => simp [opens, hkind]

theorem hasPlace_of_waits {token : Token} (hwaits : Waits token)
    (hnoParen : token.kind ≠ .leftParen) : hasPlace token = true := by
  rcases hwaits with hparen | hname | hoperator
  · exact absurd hparen hnoParen
  · exact hasPlace_of_kind (.inr (.inl hname))
  · exact hasPlace_of_kind (.inr (.inr hoperator.1))

theorem filter_hasPlace_eq_self {tokens : List Token} (hwaits : ∀ token ∈ tokens, Waits token)
    (hnoParen : ∀ token ∈ tokens, token.kind ≠ .leftParen) : tokens.filter hasPlace = tokens := by
  rw [List.filter_eq_self]
  intro token hmem
  exact hasPlace_of_waits (hwaits token hmem) (hnoParen token hmem)

/-- What is above the last opening parenthesis is no parenthesis. -/
theorem parts_of_splitAtParen {stack above below : List Token} {opening : Token}
    (hsplit : splitAtParen stack = (above, opening :: below)) :
    stack = above ++ opening :: below ∧ (∀ token ∈ above, token.kind ≠ .leftParen) ∧
      opening.kind = .leftParen := by
  rw [splitAtParen_eq, Prod.mk.injEq] at hsplit
  obtain ⟨htaken, hdropped⟩ := hsplit
  refine ⟨?_, ?_, ?_⟩
  · rw [← htaken, ← hdropped, List.takeWhile_append_dropWhile]
  · intro token hmem
    rw [← htaken] at hmem
    simpa [Token.isLeftParen] using List.mem_takeWhile_imp hmem
  · have hfirst := List.head?_dropWhile_not (fun token => !token.isLeftParen) stack
    rw [hdropped] at hfirst
    simpa [Token.isLeftParen] using hfirst

theorem splitFunction_append (stack : List Token) :
    (splitFunction stack).1 ++ (splitFunction stack).2 = stack := by
  cases stack with
  | nil => rfl
  | cons top below =>
    rw [splitFunction]
    split <;> rfl

theorem kind_of_mem_splitFunction {stack : List Token} {token : Token}
    (hmem : token ∈ (splitFunction stack).1) : token.kind = .identifier := by
  cases stack with
  | nil => cases hmem
  | cons top below =>
    rw [splitFunction] at hmem
    split at hmem
    · rename_i hname
      exact List.mem_singleton.mp hmem ▸ hname
    · cases hmem

theorem span_yields_append (entry : OperatorEntry) (stack : List Token) :
    (stack.span (yields entry)).1 ++ (stack.span (yields entry)).2 = stack := by
  rw [List.span_eq_takeWhile_dropWhile, List.takeWhile_append_dropWhile]

theorem kind_of_mem_span_yields {entry : OperatorEntry} {stack : List Token} {token : Token}
    (hmem : token ∈ (stack.span (yields entry)).1) : token.kind = .operator := by
  rw [List.span_eq_takeWhile_dropWhile] at hmem
  have hleaves := List.mem_takeWhile_imp hmem
  rw [yields, Bool.and_eq_true, beq_iff_eq] at hleaves
  exact hleaves.1

section

variable {token : Token} (due : Bool)

theorem filter_readToken_of_noPlace (hkind : token.kind = .leftParen ∨ token.kind = .rightParen ∨
    token.kind = .comma) : [readToken due token].filter hasPlace = [] := by
  have hother : token.kind ≠ .operator := by
    rcases hkind with hkind | hkind | hkind <;> simp [hkind]
  rw [readToken_of_ne hother]
  simp [not_hasPlace_of_kind hkind]

theorem filter_readToken_of_operand (hkind : token.kind = .number ∨ token.kind = .identifier) :
    [readToken due token].filter hasPlace = [token] := by
  have hother : token.kind ≠ .operator := by rcases hkind with hkind | hkind <;> simp [hkind]
  have hplace : hasPlace token = true := by
    rcases hkind with hkind | hkind
    · exact hasPlace_of_kind (.inl hkind)
    · exact hasPlace_of_kind (.inr (.inl hkind))
  rw [readToken_of_ne hother]
  simp [hplace]

theorem hasPlace_readOperator (hkind : token.kind = .operator) :
    hasPlace (readOperator due token) = true :=
  hasPlace_of_kind (.inr (.inr (kind_readOperator due token hkind)))

theorem filter_readToken_of_operator (hkind : token.kind = .operator) :
    [readToken due token].filter hasPlace = [readOperator due token] := by
  rw [readToken_of_operator hkind]
  simp [hasPlace_readOperator due hkind]

end

theorem filter_splitFunction (stack : List Token) : stack.filter hasPlace =
    (splitFunction stack).1 ++ (splitFunction stack).2.filter hasPlace := by
  have hnames : (splitFunction stack).1.filter hasPlace = (splitFunction stack).1 := by
    rw [List.filter_eq_self]
    intro token hmem
    exact hasPlace_of_kind (.inr (.inl (kind_of_mem_splitFunction hmem)))
  conv_lhs => rw [← splitFunction_append stack]
  rw [List.filter_append, hnames]

theorem filter_span_yields (entry : OperatorEntry) (stack : List Token) : stack.filter hasPlace =
    (stack.span (yields entry)).1 ++ (stack.span (yields entry)).2.filter hasPlace := by
  have hoperators : (stack.span (yields entry)).1.filter hasPlace =
      (stack.span (yields entry)).1 := by
    rw [List.filter_eq_self]
    intro token hmem
    exact hasPlace_of_kind (.inr (.inr (kind_of_mem_span_yields hmem)))
  conv_lhs => rw [← span_yields_append entry stack]
  rw [List.filter_append, hoperators]

/-- A step keeps what waits and adds what is read. -/
theorem perm_of_step {state after : State} {token : Token} {done : List Token}
    (h : step state token = .ok (done, after)) (hwaits : ∀ other ∈ state.stack, Waits other) :
    (done ++ after.stack.filter hasPlace).Perm
      ([readToken state.operandDue token].filter hasPlace ++ state.stack.filter hasPlace) := by
  -- What leaves from above a parenthesis has a place.
  have habove {left right : List Token} (hcut : state.stack = left ++ right)
      (hnoParen : ∀ other ∈ left, other.kind ≠ .leftParen) : left.filter hasPlace = left := by
    apply filter_hasPlace_eq_self _ hnoParen
    intro other hmem
    apply hwaits
    rw [hcut]
    exact List.mem_append_left right hmem
  cases moves_of_step h with
  | operand hkind => rw [filter_readToken_of_operand _ (hkind.imp_right And.left)]
  | function hkind _ =>
    rw [filter_readToken_of_operand _ (.inr hkind),
      List.filter_cons_of_pos (hasPlace_of_kind (.inr (.inl hkind)))]
    exact .refl _
  | opening hkind =>
    rw [filter_readToken_of_noPlace _ (.inl hkind),
      List.filter_cons_of_neg (by simp [not_hasPlace_of_kind (.inl hkind)])]
  | comma hkind hsplit =>
    obtain ⟨hcut, hnoParen, _⟩ := parts_of_splitAtParen hsplit
    rw [filter_readToken_of_noPlace _ (.inr (.inr hkind)), hcut, List.filter_append,
      habove hcut hnoParen]
    exact .refl _
  | @closing left below opening hkind hsplit =>
    obtain ⟨hcut, hnoParen, hopens⟩ := parts_of_splitAtParen hsplit
    rw [filter_readToken_of_noPlace _ (.inr (.inl hkind)), hcut, List.filter_append,
      habove hcut hnoParen, List.filter_cons_of_neg (by simp [not_hasPlace_of_kind (.inl hopens)]),
      filter_splitFunction below, List.append_assoc]
    exact .refl _
  | @binary entry hkind _ _ =>
    rw [filter_readToken_of_operator _ hkind, filter_span_yields entry state.stack,
      List.filter_cons_of_pos (hasPlace_readOperator _ hkind)]
    exact List.perm_middle
  | prefixed hkind _ _ =>
    rw [filter_readToken_of_operator _ hkind,
      List.filter_cons_of_pos (hasPlace_readOperator _ hkind)]
    exact .refl _

theorem filter_of_unwind {stack out : List Token} (h : unwind stack = .ok out)
    (hwaits : ∀ token ∈ stack, Waits token) : stack.filter hasPlace = out := by
  obtain ⟨rfl, hnoParen⟩ := eq_of_unwind h
  apply filter_hasPlace_eq_self hwaits
  intro token hmem hparen
  simpa [Token.isParen, hparen] using hnoParen token hmem

/-- What is put out is what waited and what is read, in another order. -/
theorem perm_of_arrangeFrom {state : State} {tokens out : List Token}
    (h : arrangeFrom state tokens = .ok out) (hwaits : ∀ token ∈ state.stack, Waits token) :
    ((readFrom state.operandDue tokens).filter hasPlace ++ state.stack.filter hasPlace).Perm
      out := by
  induction tokens generalizing state out with
  | nil =>
    rw [filter_of_unwind h hwaits]
    exact .refl _
  | cons token rest ih =>
    obtain ⟨done, after, others, hstep, hbehind, rfl⟩ := exists_step_of_arrangeFrom h
    have hlater := ih hbehind (step_keeps hstep hwaits).1
    rw [operandDue_of_step hstep] at hlater
    have hnow := perm_of_step hstep hwaits
    have hfirst : (readFrom state.operandDue (token :: rest)).filter hasPlace =
        [readToken state.operandDue token].filter hasPlace ++
          (readFrom (opens token) rest).filter hasPlace := by
      rw [← List.filter_append]
      rfl
    rw [hfirst, List.append_assoc]
    calc List.Perm _ _ := List.perm_append_comm.append_left _
      _ = _ := (List.append_assoc ..).symm
      List.Perm _ _ := hnow.symm.append_right _
      _ = _ := List.append_assoc ..
      List.Perm _ _ := (List.perm_append_comm.trans hlater).append_left done

theorem perm_of_arrange {tokens out : List Token} (h : arrange tokens = .ok out) :
    ((readFrom true tokens).filter hasPlace).Perm out := by
  simpa using perm_of_arrangeFrom h waits_initial

def opened (stack : List Token) : Nat := stack.countP Token.isLeftParen

theorem opened_eq_zero {stack : List Token} (hnoParen : ∀ token ∈ stack, token.kind ≠ .leftParen) :
    opened stack = 0 := by
  rw [opened, List.countP_eq_zero]
  intro token hmem
  simp [Token.isLeftParen, hnoParen token hmem]

theorem opened_append (left right : List Token) : opened (left ++ right) = opened left +
    opened right := List.countP_append

theorem opened_cons_of_ne {token : Token} (hother : token.kind ≠ .leftParen) (stack : List Token) :
    opened (token :: stack) = opened stack :=
  List.countP_cons_of_neg (by simp [Token.isLeftParen, hother])

theorem opened_cons_opening {token : Token} (hopens : token.kind = .leftParen)
    (stack : List Token) : opened (token :: stack) = opened stack + 1 :=
  List.countP_cons_of_pos (by simp [Token.isLeftParen, hopens])

theorem opened_splitFunction (stack : List Token) :
    opened (splitFunction stack).2 = opened stack := by
  have hnames : opened (splitFunction stack).1 = 0 := by
    apply opened_eq_zero
    intro token hmem
    simp [kind_of_mem_splitFunction hmem]
  conv_rhs => rw [← splitFunction_append stack]
  rw [opened_append, hnames, Nat.zero_add]

theorem opened_span_yields (entry : OperatorEntry) (stack : List Token) :
    opened (stack.span (yields entry)).2 = opened stack := by
  have hoperators : opened (stack.span (yields entry)).1 = 0 := by
    apply opened_eq_zero
    intro token hmem
    simp [kind_of_mem_span_yields hmem]
  conv_rhs => rw [← span_yields_append entry stack]
  rw [opened_append, hoperators, Nat.zero_add]

theorem depth_cons (token : Token) (rest : List Token) :
    depth (token :: rest) = depth [token] + depth rest := by
  simp only [depth, List.countP_cons, List.countP_nil]
  omega

theorem depth_singleton {token : Token} (h : token.isParen = false) : depth [token] = 0 := by
  simp only [Token.isParen, Bool.or_eq_false_iff] at h
  simp [depth, Token.isLeftParen, isRightParen, h.1, h.2]

/-- A step opens and closes on the stack what its token opens and closes, and a comma or a closing
parenthesis finds something open. -/
theorem opened_of_step {state after : State} {token : Token} {done : List Token}
    (h : step state token = .ok (done, after)) :
    (opened after.stack : Int) = opened state.stack + depth [token] ∧
      (token.kind = .comma ∨ token.kind = .rightParen → 0 < opened state.stack) := by
  have hnoParen (hkind : token.kind ≠ .leftParen ∧ token.kind ≠ .rightParen) :
      depth [token] = 0 := depth_singleton (by simp [Token.isParen, hkind.1, hkind.2])
  cases moves_of_step h with
  | operand hkind =>
    have hother : token.kind ≠ .leftParen ∧ token.kind ≠ .rightParen ∧ token.kind ≠ .comma := by
      rcases hkind with hkind | ⟨hkind, _⟩ <;> simp [hkind]
    refine ⟨by rw [hnoParen ⟨hother.1, hother.2.1⟩, Int.add_zero], ?_⟩
    intro hcloses
    rcases hcloses with hkind | hkind
    · exact absurd hkind hother.2.2
    · exact absurd hkind hother.2.1
  | function hkind _ =>
    rw [hnoParen (by simp [hkind]), opened_cons_of_ne (by simp [hkind])]
    exact ⟨(Int.add_zero _).symm, by simp [hkind]⟩
  | opening hkind =>
    rw [opened_cons_opening hkind]
    refine ⟨?_, by simp [hkind]⟩
    simp [depth, Token.isLeftParen, isRightParen, hkind]
  | comma hkind hsplit =>
    obtain ⟨hcut, habove, hopens⟩ := parts_of_splitAtParen hsplit
    rw [hnoParen (by simp [hkind]), hcut, opened_append, opened_eq_zero habove,
      opened_cons_opening hopens]
    exact ⟨by omega, fun _ => by omega⟩
  | @closing left below opening hkind hsplit =>
    obtain ⟨hcut, habove, hopens⟩ := parts_of_splitAtParen hsplit
    have hcloses : depth [token] = -1 := by
      simp [depth, Token.isLeftParen, isRightParen, hkind]
    rw [hcloses, hcut, opened_append, opened_eq_zero habove, opened_cons_opening hopens,
      opened_splitFunction]
    exact ⟨by omega, fun _ => by omega⟩
  | @binary entry hkind _ _ =>
    have hoperator := kind_readOperator state.operandDue token hkind
    rw [hnoParen (by simp [hkind]), opened_cons_of_ne (by simp [hoperator]), opened_span_yields]
    exact ⟨(Int.add_zero _).symm, by simp [hkind]⟩
  | prefixed hkind _ _ =>
    have hoperator := kind_readOperator state.operandDue token hkind
    rw [hnoParen (by simp [hkind]), opened_cons_of_ne (by simp [hoperator])]
    exact ⟨(Int.add_zero _).symm, by simp [hkind]⟩

theorem opened_of_unwind {stack out : List Token} (h : unwind stack = .ok out) :
    opened stack = 0 := by
  obtain ⟨_, hnoParen⟩ := eq_of_unwind h
  apply opened_eq_zero
  intro token hmem hparen
  simpa [Token.isParen, hparen] using hnoParen token hmem

theorem enclosed_of_arrangeFrom {state : State} {tokens out : List Token}
    (h : arrangeFrom state tokens = .ok out) :
    (∀ before token after, tokens = before ++ token :: after →
      token.kind = .comma ∨ token.kind = .rightParen → 0 < opened state.stack + depth before) ∧
    opened state.stack + depth tokens = 0 := by
  induction tokens generalizing state out with
  | nil =>
    rw [arrangeFrom] at h
    rw [opened_of_unwind h]
    exact ⟨fun before token after hcut => by simp at hcut, rfl⟩
  | cons first rest ih =>
    obtain ⟨done, after, others, hstep, hbehind, _⟩ := exists_step_of_arrangeFrom h
    obtain ⟨hinside, hmatched⟩ := ih hbehind
    obtain ⟨hmoved, hfound⟩ := opened_of_step hstep
    rw [depth_cons]
    refine ⟨?_, by omega⟩
    intro before token rest' hcut hcloses
    cases before with
    | nil =>
      obtain ⟨rfl, rfl⟩ := List.cons.inj hcut
      have hopen := hfound hcloses
      simp only [depth, List.countP_nil]
      omega
    | cons head before =>
      obtain ⟨rfl, rfl⟩ := List.cons.inj hcut
      have hopenLater := hinside before token rest' rfl hcloses
      rw [depth_cons]
      omega

theorem enclosed_of_arrange {tokens out : List Token} (h : arrange tokens = .ok out) :
    Enclosed tokens := by
  obtain ⟨hinside, hmatched⟩ := enclosed_of_arrangeFrom h
  have hempty : opened (State.mk [] true).stack = 0 := rfl
  rw [hempty] at hinside hmatched
  exact ⟨by simpa using hinside, by simpa using hmatched⟩

end Postorder

/-- The values that a token leaves on the stack, less those it takes. -/
def Token.gain (token : Token) : Int :=
  match token.arity? with
  | some arity => 1 - arity
  | none => 0

theorem Token.gain_of_arity {token : Token} {arity : Nat} (h : token.arity? = some arity) :
    token.gain = 1 - arity := by rw [gain, h]

theorem Token.gain_of_none {token : Token} (h : token.arity? = none) : token.gain = 0 := by
  rw [gain, h]

theorem Program.sum_gain_of_depthAfter {tokens : List Token} {program : List Instruction}
    {before after : Nat} (hknown : ofTokens tokens = .ok program)
    (hreached : depthAfter before program = .ok after) :
    (after : Int) = before + (tokens.map Token.gain).sum := by
  induction tokens generalizing program before with
  | nil =>
    cases hknown
    cases hreached
    simp
  | cons token rest ih =>
    obtain ⟨instruction, behind, hfound, hothers, rfl⟩ := ofTokens_cons_eq_ok hknown
    rw [depthAfter] at hreached
    split at hreached
    · cases hreached
    · rename_i henough
      have hlater := ih hothers hreached
      rw [List.map_cons, List.sum_cons, Token.gain_of_arity (Instruction.arity_ofToken hfound)]
      omega

theorem Program.sum_gain_of_check {tokens : List Token} {program : List Instruction}
    (h : check tokens = .ok program) : (tokens.map Token.gain).sum = 1 := by
  obtain ⟨hknown, hreached⟩ := check_eq_ok_iff.mp h
  have htotal := sum_gain_of_depthAfter hknown hreached
  omega

/-- Parentheses and commas leave nothing. -/
theorem sum_gain_filter (tokens : List Token) :
    ((tokens.filter Postorder.hasPlace).map Token.gain).sum = (tokens.map Token.gain).sum := by
  induction tokens with
  | nil => rfl
  | cons token rest ih =>
    cases hplace : Postorder.hasPlace token with
    | true => simp [hplace, ih]
    | false =>
      have hnothing : token.gain = 0 := by
        refine Token.gain_of_none ?_
        unfold Token.arity?
        split <;> simp_all [Postorder.hasPlace, Token.isParen]
      simp [hplace, ih, hnothing]

theorem Postorder.sum_gain_of_arrange {tokens out : List Token} (h : arrange tokens = .ok out) :
    ((readFrom true tokens).map Token.gain).sum = (out.map Token.gain).sum := by
  rw [← sum_gain_filter, ((perm_of_arrange h).map Token.gain).sum_eq]

end Reckoner
