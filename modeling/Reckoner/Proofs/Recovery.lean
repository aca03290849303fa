import Reckoner.Proofs.Conservation
import Reckoner.Proofs.Formed
import Reckoner.Proofs.Meaning
import Reckoner.Proofs.OperandOrder

/-!
# The expression behind punctuated tokens

Parentheses and commas do not come through to postorder, so a program that passes its check need
not come from an expression. What they leave undone is a matter of counting: each comma is charged
with one value and each function with its further arguments, after which a part between parentheses
leaves one value at most, and leaves one exactly if it is derived.
-/

namespace Reckoner

set_option autoImplicit false

namespace Infix

open Postorder

/-- What a token leaves if each comma takes a value and each function takes one only. -/
def charge (due : Bool) (token : Token) : Int :=
  (readToken due token).gain - (if isComma token = true then 1 else 0) + furtherArguments token

def balance : Bool → List Token → Int
  | _, [] => 0
  | due, token :: rest => charge due token + balance (opens token) rest

theorem balance_eq (due : Bool) (tokens : List Token) :
    balance due tokens = ((readFrom due tokens).map Token.gain).sum - tokens.countP isComma +
      (tokens.map furtherArguments).sum := by
  induction tokens generalizing due with
  | nil => rfl
  | cons token rest ih =>
    rw [balance, ih, readFrom, charge, List.countP_cons]
    simp only [List.map_cons, List.sum_cons]
    split <;> omega

theorem furtherArguments_of_ne {token : Token} (hkind : token.kind ≠ .identifier) :
    furtherArguments token = 0 := if_neg hkind

theorem charge_number {token : Token} (hnumber : token.kind = .number) (due : Bool) :
    charge due token = 1 := by
  have hread : readToken due token = token := readToken_of_ne (by simp [hnumber]) due
  have hgain := Token.gain_of_arity (Token.arity?_number hnumber)
  simp [charge, hread, hgain, isComma, hnumber, furtherArguments_of_ne]

theorem charge_constant {token : Token} (hconstant : IsConstant token) (due : Bool) :
    charge due token = 1 := by
  have hread : readToken due token = token := readToken_of_ne (by simp [hconstant.1]) due
  have harity := Token.arity?_constant hconstant
  simp [charge, hread, Token.gain_of_arity harity, isComma, hconstant.1, furtherArguments, harity]

theorem charge_function {token : Token} (hfunction : IsFunction token) (due : Bool) :
    charge due token = 0 := by
  have hread : readToken due token = token := readToken_of_ne (by simp [hfunction.1]) due
  rw [charge, hread, furtherArguments, if_pos hfunction.1]
  cases hknown : identifier? token.name with
  | none =>
    have harity : token.arity? = none := by simp [Token.arity?, hfunction.1, hknown]
    simp [Token.gain_of_none harity, harity, isComma, hfunction.1]
  | some entry =>
    cases entry with
    | constant value =>
      have hconstant := hfunction.2
      simp [Reckoner.isConstant, hknown] at hconstant
    | function operation =>
      have harity := Token.arity?_function hfunction hknown
      have hpositive : 0 < operation.arity := by
        cases operation
        · exact Nat.one_pos
        · exact Nat.two_pos
      simp only [Token.gain_of_arity harity, harity, isComma, hfunction.1, Option.getD_some]
      simp
      omega

theorem charge_paren {token : Token} (hparen : token.isParen = true) (due : Bool) :
    charge due token = 0 := by
  have hkind : token.kind = .leftParen ∨ token.kind = .rightParen := by
    simpa [Token.isParen] using hparen
  have harity : token.arity? = none := by
    rcases hkind with hkind | hkind <;> simp [Token.arity?, hkind]
  have hother : token.kind ≠ .operator ∧ token.kind ≠ .comma ∧ token.kind ≠ .identifier := by
    rcases hkind with hkind | hkind <;> simp [hkind]
  rw [charge, readToken_of_ne hother.1, Token.gain_of_none harity,
    furtherArguments_of_ne hother.2.2]
  simp [isComma, hother.2.1]

theorem charge_comma {token : Token} (hcomma : token.kind = .comma) (due : Bool) :
    charge due token = -1 := by
  have harity : token.arity? = none := by simp [Token.arity?, hcomma]
  rw [charge, readToken_of_ne (by simp [hcomma]), Token.gain_of_none harity,
    furtherArguments_of_ne (by simp [hcomma])]
  simp [isComma, hcomma]

theorem charge_minus {token : Token} (hminus : IsOperator ["-"] token) :
    charge true token = 0 := by
  obtain ⟨hkind, hname⟩ := hminus
  have hread : readToken true token = negation token := by
    rw [readToken_of_operator hkind]
    simp [readOperator, List.mem_singleton.mp hname, negation]
  rw [charge, hread, Token.gain_of_arity (Token.arity?_negation token),
    furtherArguments_of_ne (by simp [hkind])]
  simp [isComma, hkind]

theorem arity?_written {token : Token} (hoperator : IsOperator written token) :
    token.arity? = some 2 := by
  obtain ⟨hkind, hname⟩ := hoperator
  simp only [written, List.mem_cons, List.not_mem_nil, or_false] at hname
  rcases hname with hname | hname | hname | hname | hname | hname <;>
    simp only [Token.arity?, hkind, hname] <;> rfl

theorem charge_binary {token : Token} {due : Bool} (hoperator : IsOperator written token)
    (hbinary : due = false ∨ token.name ≠ "-") : charge due token = -1 := by
  have hkind := hoperator.1
  have hread : readToken due token = token := by
    rw [readToken_of_operator hkind]
    rcases hbinary with hdue | hname
    · simp [readOperator, hdue]
    · simp [readOperator, hname]
  rw [charge, hread, Token.gain_of_arity (arity?_written hoperator),
    furtherArguments_of_ne (by simp [hkind])]
  simp [isComma, hkind]

theorem opens_eq_false_of_identifier {token : Token} (hkind : token.kind = .identifier) :
    opens token = false := by
  simp [opens, hkind]

theorem balance_closing {closing : Token} (hcloses : closing.kind = .rightParen) (due : Bool)
    (inner rest : List Token) :
    balance due (inner ++ closing :: rest) = balance due inner + balance false rest := by
  induction inner generalizing due with
  | nil =>
    have hparen : closing.isParen = true := by simp [Token.isParen, hcloses]
    have hbehind : opens closing = false := by simp [opens, hcloses]
    rw [List.nil_append, balance, balance, charge_paren hparen, hbehind]
  | cons token inner ih =>
    rw [List.cons_append, balance, ih, balance]
    omega

theorem balance_group {opening closing : Token} (hopening : opening.kind = .leftParen)
    (hcloses : closing.kind = .rightParen) (due : Bool) (inner rest : List Token) :
    balance due (opening :: (inner ++ closing :: rest)) =
      balance true inner + balance false rest := by
  have hinside : opens opening = true := by simp [opens, hopening]
  rw [balance, charge_paren (by simp [Token.isParen, hopening]), hinside,
    balance_closing hcloses]
  omega

theorem balance_call {name opening closing : Token} (hfunction : IsFunction name)
    (hopening : opening.kind = .leftParen) (hcloses : closing.kind = .rightParen) (due : Bool)
    (inner rest : List Token) : balance due (name :: opening :: (inner ++ closing :: rest)) =
      balance true inner + balance false rest := by
  rw [balance, charge_function hfunction, balance_group hopening hcloses]
  omega

/-- Where an operand is due, the tokens leave one value at most, and are derived if they do. -/
def Opens (inCall : Bool) (tokens : List Token) : Prop :=
  balance true tokens ≤ 1 ∧ (balance true tokens = 1 → Filled inCall tokens)

/-- Behind an operand the tokens leave nothing, and go on with it if they take nothing either. -/
def Continues (inCall : Bool) (tokens : List Token) : Prop :=
  balance false tokens ≤ 0 ∧
    (balance false tokens = 0 → ∀ base, Formed .atom base → Filled inCall (base ++ tokens))

theorem continues_nil (inCall : Bool) : Continues inCall [] := by
  refine ⟨Int.le_refl 0, ?_⟩
  intro _ base hatom
  rw [List.append_nil]
  exact hatom.filled inCall

theorem opens_operand {token : Token} {rest : List Token} {inCall : Bool}
    (hoperand : token.kind = .number ∨ IsConstant token) (hcontinues : Continues inCall rest) :
    Opens inCall (token :: rest) := by
  obtain ⟨hatom, hone, hbehind⟩ : Formed .atom [token] ∧ charge true token = 1 ∧
      opens token = false := by
    rcases hoperand with hnumber | hconstant
    · exact ⟨formed_number hnumber, charge_number hnumber true, by simp [Postorder.opens, hnumber]⟩
    · exact ⟨formed_constant hconstant, charge_constant hconstant true,
        opens_eq_false_of_identifier hconstant.1⟩
  obtain ⟨hmost, hwhole⟩ := hcontinues
  have htotal : balance true (token :: rest) = 1 + balance false rest := by
    rw [balance, hone, hbehind]
  refine ⟨by omega, ?_⟩
  intro hleft
  exact hwhole (by omega) [token] hatom

theorem opens_operator {operator : Token} {rest : List Token} {inCall : Bool}
    (hoperator : IsOperator written operator) (hothers : Opens inCall rest) :
    Opens inCall (operator :: rest) := by
  obtain ⟨hmost, hwhole⟩ := hothers
  have hbehind : opens operator = true := by simp [Postorder.opens, hoperator.1]
  by_cases hname : operator.name = "-"
  · have hminus : IsOperator ["-"] operator := ⟨hoperator.1, List.mem_singleton.mpr hname⟩
    have htotal : balance true (operator :: rest) = 0 + balance true rest := by
      rw [balance, charge_minus hminus, hbehind]
    refine ⟨by omega, ?_⟩
    intro hleft
    exact (hwhole (by omega)).lead fun tokens => lead_minus hminus
  · -- A binary operator without a left operand takes a value that nothing makes up for.
    have htotal : balance true (operator :: rest) = -1 + balance true rest := by
      rw [balance, charge_binary hoperator (.inr hname), hbehind]
    refine ⟨by omega, ?_⟩
    intro hleft
    omega

theorem continues_operator {operator : Token} {rest : List Token} {inCall : Bool}
    (hoperator : IsOperator written operator) (hothers : Opens inCall rest) :
    Continues inCall (operator :: rest) := by
  obtain ⟨hmost, hwhole⟩ := hothers
  have hbehind : opens operator = true := by simp [Postorder.opens, hoperator.1]
  have htotal : balance false (operator :: rest) = -1 + balance true rest := by
    rw [balance, charge_binary hoperator (.inl rfl), hbehind]
  refine ⟨by omega, ?_⟩
  intro hleft base hatom
  have hled := (hwhole (by omega)).lead fun tokens => lead_operand hoperator hatom
  rwa [List.append_assoc] at hled

theorem balance_comma {comma : Token} (hcomma : comma.kind = .comma) (due : Bool)
    (rest : List Token) : balance due (comma :: rest) = -1 + balance true rest := by
  have hbehind : opens comma = true := by simp [Postorder.opens, hcomma]
  rw [balance, charge_comma hcomma, hbehind]

theorem opens_comma {comma : Token} {rest : List Token} (hcomma : comma.kind = .comma)
    (hothers : Opens true rest) : Opens true (comma :: rest) := by
  obtain ⟨hmost, _⟩ := hothers
  have htotal := balance_comma hcomma true rest
  refine ⟨by omega, ?_⟩
  intro hleft
  omega

theorem continues_comma {comma : Token} {rest : List Token} (hcomma : comma.kind = .comma)
    (hothers : Opens true rest) : Continues true (comma :: rest) := by
  obtain ⟨hmost, hwhole⟩ := hothers
  have htotal := balance_comma hcomma false rest
  refine ⟨by omega, ?_⟩
  intro hleft base hatom
  exact formedArguments_more hcomma hatom.sum (hwhole (by omega))

theorem opens_group {opening closing : Token} {inner rest : List Token} {inCall : Bool}
    (hopening : opening.kind = .leftParen) (hcloses : closing.kind = .rightParen)
    (hinside : Opens false inner) (hcontinues : Continues inCall rest) :
    Opens inCall (opening :: (inner ++ closing :: rest)) := by
  obtain ⟨hmostInside, hwholeInside⟩ := hinside
  obtain ⟨hmost, hwhole⟩ := hcontinues
  have htotal := balance_group hopening hcloses true inner rest
  refine ⟨by omega, ?_⟩
  intro hleft
  have hgroup := formed_group hopening hcloses (hwholeInside (by omega))
  simpa using hwhole (by omega) _ hgroup

theorem opens_call {name opening closing : Token} {inner rest : List Token} {inCall : Bool}
    (hfunction : IsFunction name) (hopening : opening.kind = .leftParen)
    (hcloses : closing.kind = .rightParen) (hinside : Opens true inner)
    (hcontinues : Continues inCall rest) :
    Opens inCall (name :: opening :: (inner ++ closing :: rest)) := by
  obtain ⟨hmostInside, hwholeInside⟩ := hinside
  obtain ⟨hmost, hwhole⟩ := hcontinues
  have htotal := balance_call hfunction hopening hcloses true inner rest
  refine ⟨by omega, ?_⟩
  intro hleft
  have hcall := formed_call hfunction hopening hcloses (hwholeInside (by omega))
  simpa using hwhole (by omega) _ hcall

def StartsNoOperand (tokens : List Token) : Prop :=
  ∀ next, tokens.head? = some next → beginsOperand next = false

theorem startsNoOperand_of_isChain {token : Token} {rest : List Token}
    (hends : endsOperand token = true) (hapart : (token :: rest).IsChain Apart) :
    StartsNoOperand rest := by
  intro next hhead
  cases rest with
  | nil => cases hhead
  | cons first others =>
    cases hhead
    have hseparate := (List.isChain_cons_cons.mp hapart).1
    simpa [Apart, hends] using hseparate

theorem isChain_parts {closing : Token} {inner rest : List Token}
    (hcloses : closing.kind = .rightParen) (hapart : (inner ++ closing :: rest).IsChain Apart) :
    inner.IsChain Apart ∧ rest.IsChain Apart ∧ StartsNoOperand rest := by
  have hbehind := hapart.right_of_append
  have hends : endsOperand closing = true := by simp [endsOperand, hcloses]
  exact ⟨hapart.left_of_append, hbehind.tail, startsNoOperand_of_isChain hends hbehind⟩

/-- The induction over the brackets carries both readings of the tokens, where an operand is due
and behind one. -/
theorem opens_of_bracketed {inCall : Bool} {tokens : List Token} (h : Bracketed inCall tokens)
    (hapart : tokens.IsChain Apart)
    (hoperators : ∀ token ∈ tokens, token.kind = .operator → token.name ∈ written) :
    Opens inCall tokens ∧ (StartsNoOperand tokens → Continues inCall tokens) := by
  induction h with
  | @nil inCall =>
    refine ⟨⟨by decide, ?_⟩, fun _ => continues_nil inCall⟩
    intro hleft
    exact absurd hleft (by decide)
  | @plain inCall token rest hnoParen hnoComma hnoFunction hothers ih =>
    obtain ⟨hown, hknown⟩ := List.forall_mem_cons.mp hoperators
    obtain ⟨hopens, hcontinues⟩ := ih hapart.tail hknown
    cases hkind : token.kind with
    | operator =>
      have hoperator : IsOperator written token := ⟨hkind, hown hkind⟩
      exact ⟨opens_operator hoperator hopens, fun _ => continues_operator hoperator hopens⟩
    | number =>
      have hends : endsOperand token = true := by simp [endsOperand, hkind]
      refine ⟨opens_operand (.inl hkind) (hcontinues (startsNoOperand_of_isChain hends hapart)), ?_⟩
      intro hstarts
      exact absurd (hstarts token rfl) (by simp [beginsOperand, hkind])
    | identifier =>
      have hconstant : IsConstant token := by
        refine ⟨hkind, ?_⟩
        by_contra hother
        exact hnoFunction ⟨hkind, Bool.eq_false_iff.mpr hother⟩
      have hends : endsOperand token = true := by simp [endsOperand, hkind, hconstant.2]
      refine ⟨opens_operand (.inr hconstant)
        (hcontinues (startsNoOperand_of_isChain hends hapart)), ?_⟩
      intro hstarts
      exact absurd (hstarts token rfl) (by simp [beginsOperand, hkind])
    | comma => exact absurd hkind hnoComma
    | leftParen | rightParen => simp [Token.isParen, hkind] at hnoParen
  | comma hcomma hothers ih =>
    obtain ⟨_, hknown⟩ := List.forall_mem_cons.mp hoperators
    obtain ⟨hopens, _⟩ := ih hapart.tail hknown
    exact ⟨opens_comma hcomma hopens, fun _ => continues_comma hcomma hopens⟩
  | @group inCall opening closing inner rest hopening hcloses hinside hothers ihInside ih =>
    obtain ⟨_, hknown⟩ := List.forall_mem_cons.mp hoperators
    obtain ⟨hknownInside, hknownBehind⟩ := List.forall_mem_append.mp hknown
    obtain ⟨hapartInside, hapartBehind, hstarts⟩ := isChain_parts hcloses hapart.tail
    obtain ⟨hinner, _⟩ := ihInside hapartInside hknownInside
    obtain ⟨_, hcontinues⟩ := ih hapartBehind (List.forall_mem_cons.mp hknownBehind).2
    refine ⟨opens_group hopening hcloses hinner (hcontinues hstarts), ?_⟩
    intro hstarts
    exact absurd (hstarts opening rfl) (by simp [beginsOperand, hopening])
  | @call inCall name opening closing inner rest hfunction hopening hcloses hinside hothers
      ihInside ih =>
    obtain ⟨_, hknown⟩ := List.forall_mem_cons.mp hoperators
    obtain ⟨hknownInside, hknownBehind⟩ :=
      List.forall_mem_append.mp (List.forall_mem_cons.mp hknown).2
    obtain ⟨hapartInside, hapartBehind, hstarts⟩ := isChain_parts hcloses hapart.tail.tail
    obtain ⟨hinner, _⟩ := ihInside hapartInside hknownInside
    obtain ⟨_, hcontinues⟩ := ih hapartBehind (List.forall_mem_cons.mp hknownBehind).2
    refine ⟨opens_call hfunction hopening hcloses hinner (hcontinues hstarts), ?_⟩
    intro hstarts
    exact absurd (hstarts name rfl) (by simp [beginsOperand, hfunction.1])

theorem Bracketed.inside_call {inCall : Bool} {tokens : List Token} (h : Bracketed inCall tokens) :
    Bracketed true tokens := by
  induction h with
  | nil => exact .nil
  | plain hnoParen hnoComma hnoFunction _ ih => exact .plain hnoParen hnoComma hnoFunction ih
  | comma hcomma hothers _ => exact .comma hcomma hothers
  | group hopens hcloses hinside _ _ ih => exact .group hopens hcloses hinside ih
  | call hfunction hopens hcloses hinside _ _ ih => exact .call hfunction hopens hcloses hinside ih

theorem Bracketed.append {inCall : Bool} {left right : List Token} (h : Bracketed inCall left)
    (h' : Bracketed inCall right) : Bracketed inCall (left ++ right) := by
  induction h with
  | nil => exact h'
  | plain hnoParen hnoComma hnoFunction _ ih => exact .plain hnoParen hnoComma hnoFunction (ih h')
  | comma hcomma _ ih => exact .comma hcomma (ih h')
  | group hopens hcloses hinside _ _ ih =>
    rw [List.cons_append, List.append_assoc, List.cons_append]
    exact .group hopens hcloses hinside (ih h')
  | call hfunction hopens hcloses hinside _ _ ih =>
    rw [List.cons_append, List.cons_append, List.append_assoc, List.cons_append]
    exact .call hfunction hopens hcloses hinside (ih h')

structure Laid (inCall : Bool) (tokens : List Token) : Prop where
  apart : tokens.IsChain Apart
  bracketed : Bracketed inCall tokens
  leaves : ∀ rest, balance true (tokens ++ rest) = 1 + balance false rest

theorem apart_of_begins {left right : Token} (h : beginsOperand right = false) :
    Apart left right := by
  simp [Apart, h]

theorem apart_of_ends {left right : Token} (h : endsOperand left = false) : Apart left right := by
  simp [Apart, h]

theorem isChain_cons_of_ends {token : Token} {rest : List Token}
    (hends : endsOperand token = false) (h : rest.IsChain Apart) :
    (token :: rest).IsChain Apart :=
  h.cons fun _ _ => apart_of_ends hends

theorem isChain_append_of_begins {token : Token} {left rest : List Token}
    (hbegins : beginsOperand token = false) (hfirst : left.IsChain Apart)
    (hsecond : (token :: rest).IsChain Apart) : (left ++ token :: rest).IsChain Apart := by
  refine hfirst.append hsecond ?_
  intro _ _ next hhead
  cases hhead
  exact apart_of_begins hbegins

theorem laid_operand {token : Token} (hoperand : token.kind = .number ∨ IsConstant token)
    (inCall : Bool) : Laid inCall [token] := by
  have hnoFunction : ¬ IsFunction token := by
    rcases hoperand with hnumber | hconstant
    · intro hfunction
      rw [hfunction.1] at hnumber
      cases hnumber
    · exact not_isFunction_of_constant hconstant
  have hkind : token.kind = .number ∨ token.kind = .identifier := hoperand.imp_right And.left
  refine ⟨List.isChain_singleton token, .plain ?_ ?_ hnoFunction .nil, ?_⟩
  · rcases hkind with hkind | hkind <;> simp [Token.isParen, hkind]
  · rcases hkind with hkind | hkind <;> simp [hkind]
  · intro rest
    have hbehind : opens token = false := by rcases hkind with hkind | hkind <;> simp [opens, hkind]
    rw [List.singleton_append, balance, hbehind]
    rcases hoperand with hnumber | hconstant
    · rw [charge_number hnumber]
    · rw [charge_constant hconstant]

theorem laid_separated {separator : Token} {left right : List Token} {first inCall : Bool}
    (hbegins : beginsOperand separator = false) (hends : endsOperand separator = false)
    (htakes : charge false separator = -1) (hbehind : opens separator = true)
    (hone : Laid first left) (hbracketed : Bracketed inCall (left ++ separator :: right))
    (hapart : right.IsChain Apart)
    (hleaves : ∀ rest, balance true (right ++ rest) = 1 + balance false rest) :
    Laid inCall (left ++ separator :: right) := by
  refine ⟨isChain_append_of_begins hbegins hone.apart (isChain_cons_of_ends hends hapart),
    hbracketed, ?_⟩
  intro rest
  rw [List.append_assoc, hone.leaves, List.cons_append, balance, htakes, hbehind, hleaves]
  omega

theorem bracketed_operator {operator : Token} {tokens : List Token} {inCall : Bool}
    (hkind : operator.kind = .operator) (h : Bracketed inCall tokens) :
    Bracketed inCall (operator :: tokens) :=
  .plain (by simp [Token.isParen, hkind]) (by simp [hkind]) (not_isFunction_of_operator hkind) h

theorem laid_binary {operator : Token} {left right : List Token} {inCall : Bool}
    (hoperator : IsOperator written operator) (hfirst : Laid inCall left)
    (hsecond : Laid inCall right) : Laid inCall (left ++ operator :: right) := by
  have hkind := hoperator.1
  refine laid_separated ?_ ?_ (charge_binary hoperator (.inl rfl)) ?_ hfirst
    (hfirst.bracketed.append (bracketed_operator hkind hsecond.bracketed))
    hsecond.apart hsecond.leaves
  · simp [beginsOperand, hkind]
  · simp [endsOperand, hkind]
  · simp [opens, hkind]

theorem laid_comma {comma : Token} {left right : List Token} (hkind : comma.kind = .comma)
    (hfirst : Laid false left) (hsecond : Laid true right) :
    Laid true (left ++ comma :: right) := by
  refine laid_separated ?_ ?_ (charge_comma hkind false) ?_ hfirst
    (hfirst.bracketed.inside_call.append (.comma hkind hsecond.bracketed))
    hsecond.apart hsecond.leaves
  · simp [beginsOperand, hkind]
  · simp [endsOperand, hkind]
  · simp [opens, hkind]

theorem laid_negative {minus : Token} {tokens : List Token} {inCall : Bool}
    (hminus : IsOperator ["-"] minus) (hoperand : Laid inCall tokens) :
    Laid inCall (minus :: tokens) := by
  have hkind := hminus.1
  refine ⟨isChain_cons_of_ends ?_ hoperand.apart, bracketed_operator hkind hoperand.bracketed, ?_⟩
  · simp [endsOperand, hkind]
  · intro rest
    have hbehind : opens minus = true := by simp [opens, hkind]
    rw [List.cons_append, balance, charge_minus hminus, hbehind, hoperand.leaves, Int.zero_add]

theorem isChain_enclosed {opening closing : Token} {tokens : List Token}
    (hopens : opening.kind = .leftParen) (hcloses : closing.kind = .rightParen)
    (hinner : tokens.IsChain Apart) : (opening :: tokens ++ [closing]).IsChain Apart := by
  rw [List.cons_append]
  refine isChain_cons_of_ends ?_ (isChain_append_of_begins ?_ hinner ?_)
  · simp [endsOperand, hopens]
  · simp [beginsOperand, hcloses]
  · exact List.isChain_singleton closing

theorem laid_group {opening closing : Token} {tokens : List Token}
    (hopens : opening.kind = .leftParen) (hcloses : closing.kind = .rightParen)
    (hinner : Laid false tokens) : Laid false (opening :: tokens ++ [closing]) := by
  refine ⟨isChain_enclosed hopens hcloses hinner.apart,
    .group hopens hcloses hinner.bracketed .nil, ?_⟩
  intro rest
  have hinside := hinner.leaves []
  rw [List.append_nil] at hinside
  rw [List.append_assoc, List.cons_append, List.singleton_append, balance_group hopens hcloses,
    hinside]
  rfl

theorem laid_call {name opening closing : Token} {tokens : List Token}
    (hfunction : IsFunction name) (hopens : opening.kind = .leftParen)
    (hcloses : closing.kind = .rightParen) (hinner : Laid true tokens) :
    Laid false (name :: opening :: tokens ++ [closing]) := by
  refine ⟨isChain_cons_of_ends ?_ (isChain_enclosed hopens hcloses hinner.apart),
    .call hfunction hopens hcloses hinner.bracketed .nil, ?_⟩
  · simp [endsOperand, hfunction.1, hfunction.2]
  · intro rest
    have hinside := hinner.leaves []
    rw [List.append_nil] at hinside
    rw [List.append_assoc, List.cons_append, List.cons_append, List.singleton_append,
      balance_call hfunction hopens hcloses, hinside]
    rfl

theorem isOperator_written {names : List String} {token : Token} (h : IsOperator names token)
    (hsubset : names ⊆ written) : IsOperator written token := ⟨h.1, hsubset h.2⟩

mutual

theorem laid_of_derives {level : Level} {tokens : List Token} {tree : Tree} :
    Derives level tokens tree → tree.Supplied → Laid false tokens
  | .sum hop hfirst hsecond, hsupplied =>
    laid_binary (isOperator_written hop (by simp [written]))
      (laid_of_derives hfirst (supplied_of_pair hsupplied).1)
      (laid_of_derives hsecond (supplied_of_pair hsupplied).2)
  | .ofProduct hproduct, hsupplied => laid_of_derives hproduct hsupplied
  | .product hop hfirst hsecond, hsupplied =>
    laid_binary (isOperator_written hop (by simp [written]))
      (laid_of_derives hfirst (supplied_of_pair hsupplied).1)
      (laid_of_derives hsecond (supplied_of_pair hsupplied).2)
  | .ofSigned hsigned, hsupplied => laid_of_derives hsigned hsupplied
  | .negative hminus hoperand, hsupplied =>
    laid_negative hminus (laid_of_derives hoperand
      ((Tree.everyNode_node_iff.mp hsupplied).2 _ (List.mem_singleton_self _)))
  | .ofPower hpower, hsupplied => laid_of_derives hpower hsupplied
  | .power hop hfirst hsecond, hsupplied =>
    laid_binary (isOperator_written hop (by simp [written]))
      (laid_of_derives hfirst (supplied_of_pair hsupplied).1)
      (laid_of_derives hsecond (supplied_of_pair hsupplied).2)
  | .ofAtom hatom, hsupplied => laid_of_derives hatom hsupplied
  | .number hnumber, _ => laid_operand (.inl hnumber) false
  | .constant hconstant, _ => laid_operand (.inr hconstant) false
  | .group hopens hcloses hinner, hsupplied =>
    laid_group hopens hcloses (laid_of_derives hinner hsupplied)
  | .emptyCall hfunction _ _, hsupplied =>
    absurd rfl ((Tree.everyNode_node_iff.mp hsupplied).1 hfunction)
  | .call hfunction hopens hcloses hinner, hsupplied =>
    laid_call hfunction hopens hcloses
      (laid_of_derivesArguments hinner (Tree.everyNode_node_iff.mp hsupplied).2)

theorem laid_of_derivesArguments {tokens : List Token} {trees : List Tree} :
    DerivesArguments tokens trees → (∀ tree ∈ trees, tree.Supplied) → Laid true tokens
  | .last hargument, hsupplied =>
    have hlaid := laid_of_derives hargument (hsupplied _ (List.mem_singleton_self _))
    ⟨hlaid.apart, hlaid.bracketed.inside_call, hlaid.leaves⟩
  | .more hcomma hargument hothers, hsupplied =>
    have hboth := List.forall_mem_cons.mp hsupplied
    laid_comma hcomma (laid_of_derives hargument hboth.1) (laid_of_derivesArguments hothers hboth.2)

end

theorem mem_written_of_symbolKind? {c : Char} (h : Token.symbolKind? c = some .operator) :
    c.toString ∈ written := by
  unfold Token.symbolKind? at h
  split at h
  all_goals first | cases h; done | simp [written]

theorem mem_written_of_lexeme {position others : Nat} {c : Char} {rest : List Char}
    {token : Token} (h : Token.lexeme position c rest = .ok (token, others))
    (hoperator : token.kind = .operator) : token.name ∈ written := by
  unfold Token.lexeme at h
  dsimp only at h
  split at h
  · split at h
    · cases h
    · cases h
      cases hoperator
  · split at h
    · cases h
      cases hoperator
    · split at h
      · rename_i kind hknown
        cases h
        cases hoperator
        exact mem_written_of_symbolKind? hknown
      · cases h

theorem mem_written_of_scan {text : String} {tokens : List Token}
    (h : Token.scan text = .ok tokens) {token : Token} (hmem : token ∈ tokens)
    (hoperator : token.kind = .operator) : token.name ∈ written := by
  obtain ⟨place, c, rest, others, hfound⟩ := Token.exists_lexeme_of_mem_scanFrom h hmem
  exact mem_written_of_lexeme hfound hoperator

/-- Tokens whose arrangement passes its check are an expression exactly if they are punctuated as
one. -/
theorem isExpression_iff_punctuated {tokens ordered : List Token} {program : List Instruction}
    (hoperators : ∀ token ∈ tokens, token.kind = .operator → token.name ∈ written)
    (harrange : arrange tokens = .ok ordered) (hcheck : Program.check ordered = .ok program) :
    IsExpression tokens ↔ Punctuated tokens := by
  have hcount := balance_eq true tokens
  rw [sum_gain_of_arrange harrange, Program.sum_gain_of_check hcheck] at hcount
  constructor
  · rintro ⟨tree, hderived, hsupplied⟩
    have hlaid := laid_of_derives hderived hsupplied
    have hone := hlaid.leaves []
    rw [List.append_nil] at hone
    refine ⟨hlaid.apart, hlaid.bracketed, ?_⟩
    have hnothing : balance false [] = 0 := rfl
    omega
  · rintro ⟨hapart, hbracketed, hcommas⟩
    obtain ⟨hmost, hwhole⟩ := (opens_of_bracketed hbracketed hapart hoperators).1
    exact hwhole (by omega)

end Infix

open Infix Postorder

theorem exists_program_of_evaluate {mode : AngleMode} {text : String} {value : Double}
    (h : evaluate mode (some text) = .ok value) : ∃ tokens ordered program,
      Token.scan text = .ok tokens ∧ arrange tokens = .ok ordered ∧
        Program.check ordered = .ok program ∧ Program.value mode program = .ok value := by
  obtain ⟨_, tokens, hscan, hevaluate⟩ := exists_scan_of_evaluate h
  obtain ⟨ordered, harrange, hvalued⟩ := exists_arrange_of_evaluateTokens hevaluate
  obtain ⟨program, hcheck, hcomputed⟩ := Program.exists_check_of_evaluate hvalued
  exact ⟨tokens, ordered, program, hscan, harrange, hcheck, hcomputed⟩

/-- A text that has a value has the value of a tree that holds its tokens, each over as many
arguments as it takes and a minus where an operand is due as the prefixed one, and commas and
parentheses in it are enclosed. Among these texts the infix expressions are those that are
punctuated as such, so that all others so punctuated fail. -/
theorem evaluate_reads_tree (mode : AngleMode) (text : String) :
    (∃ failure, evaluate mode (some text) = .error failure) ∨
    ∃ (value : Double) (tokens : List Token) (tree : Tree),
      evaluate mode (some text) = .ok value ∧ Token.scan text = .ok tokens ∧
      Enclosed tokens ∧ tree.WellFormed ∧
      tree.postorder.Perm ((readings tokens).filter hasPlace) ∧
      tree.outcome mode = .ok value ∧
      (IsExpression tokens ↔ Punctuated tokens) := by
  cases hevaluate : evaluate mode (some text) with
  | error failure => exact .inl ⟨failure, rfl⟩
  | ok value =>
    obtain ⟨tokens, ordered, program, hscan, harrange, hcheck, hcomputed⟩ :=
      exists_program_of_evaluate hevaluate
    obtain ⟨tree, hspells⟩ := Program.exists_spells_of_check hcheck
    refine .inr ⟨value, tokens, tree, rfl, hscan, enclosed_of_arrange harrange,
      hspells.wellFormed, ?_, ?_, ?_⟩
    · rw [hspells.postorder]
      exact perm_readings_of_arrange harrange
    · rw [← Program.evaluate_of_spells hspells mode]
      simp only [Program.evaluate, hcheck, hcomputed]
      rfl
    · exact isExpression_iff_punctuated (fun _ => mem_written_of_scan hscan) harrange hcheck

/-- Two operands side by side in front of their operator have a value and are no expression. -/
theorem evaluate_operands_side_by_side :
    evaluate .radians (some "2 3 +") = .ok (Double.ofNat 5) ∧
    ∃ tokens, Token.scan "2 3 +" = .ok tokens ∧ ¬ IsExpression tokens := by
  refine ⟨by decide +kernel, _, rfl, ?_⟩
  rintro ⟨tree, hderived, hsupplied⟩
  have hneighbours := (List.isChain_cons_cons.mp (laid_of_derives hderived hsupplied).apart).1
  exact hneighbours ⟨rfl, rfl⟩

end Reckoner
