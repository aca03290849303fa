import Mathlib.Tactic.Tauto
import Reckoner.Proofs.Arrangement
import Reckoner.Syntax.Punctuation

/-!
# Formed tokens

Tokens that are derived without an empty call, and what can be put in front of them. The grammar
takes sums and products apart on the right, but tokens are read from the left: an operand and an
operator in front of a sum go into its leftmost factor.
-/

namespace Reckoner.Infix

open Postorder
set_option autoImplicit false

def Formed (level : Level) (tokens : List Token) : Prop :=
  ∃ tree, Derives level tokens tree ∧ tree.Supplied

def FormedArguments (tokens : List Token) : Prop :=
  ∃ trees, DerivesArguments tokens trees ∧ ∀ tree ∈ trees, tree.Supplied

theorem not_isFunction_of_operator {token : Token} (hkind : token.kind = .operator) :
    ¬ IsFunction token := by
  intro hfunction
  rw [hfunction.1] at hkind
  cases hkind

theorem not_isFunction_of_constant {token : Token} (hconstant : IsConstant token) :
    ¬ IsFunction token := by
  intro hfunction
  exact Bool.noConfusion (hconstant.2.symm.trans hfunction.2)

theorem supplied_node {token : Token} {arguments : List Tree} (hnotFunction : ¬ IsFunction token)
    (hothers : ∀ argument ∈ arguments, argument.Supplied) :
    (Tree.node token arguments).Supplied :=
  .node (fun hfunction => absurd hfunction hnotFunction) hothers

theorem supplied_pair {token : Token} {a b : Tree} (hkind : token.kind = .operator)
    (hfirst : a.Supplied) (hsecond : b.Supplied) : (Tree.node token [a, b]).Supplied := by
  refine supplied_node (not_isFunction_of_operator hkind) ?_
  intro argument hmem
  rcases List.mem_pair.mp hmem with rfl | rfl
  · exact hfirst
  · exact hsecond

theorem supplied_of_pair {token : Token} {a b : Tree} (h : (Tree.node token [a, b]).Supplied) :
    a.Supplied ∧ b.Supplied := by
  have hinner := (Tree.everyNode_node_iff.mp h).2
  exact ⟨hinner a (by simp), hinner b (by simp)⟩

theorem Formed.product {tokens : List Token} (h : Formed .signed tokens) :
    Formed .product tokens := by
  obtain ⟨tree, hderived, hsupplied⟩ := h
  exact ⟨tree, .ofSigned hderived, hsupplied⟩

theorem Formed.sum {level : Level} {tokens : List Token} (h : Formed level tokens) :
    Formed .sum tokens := by
  obtain ⟨tree, hderived, hsupplied⟩ := h
  exact ⟨tree, expression_of_derives hderived, hsupplied⟩

theorem Formed.signed {tokens : List Token} (h : Formed .atom tokens) :
    Formed .signed tokens := by
  obtain ⟨tree, hderived, hsupplied⟩ := h
  exact ⟨tree, .ofPower (.ofAtom hderived), hsupplied⟩

theorem formed_number {token : Token} (hnumber : token.kind = .number) : Formed .atom [token] := by
  refine ⟨_, .number hnumber, supplied_node ?_ (List.forall_mem_nil _)⟩
  intro hfunction
  rw [hfunction.1] at hnumber
  cases hnumber

theorem formed_constant {token : Token} (hconstant : IsConstant token) : Formed .atom [token] :=
  ⟨_, .constant hconstant, supplied_node (not_isFunction_of_constant hconstant)
    (List.forall_mem_nil _)⟩

theorem formed_group {opening closing : Token} {tokens : List Token}
    (hopens : opening.kind = .leftParen) (hcloses : closing.kind = .rightParen)
    (hinner : Formed .sum tokens) : Formed .atom (opening :: tokens ++ [closing]) := by
  obtain ⟨tree, hderived, hsupplied⟩ := hinner
  exact ⟨tree, .group hopens hcloses hderived, hsupplied⟩

theorem ne_nil_of_derivesArguments {tokens : List Token} {trees : List Tree}
    (h : DerivesArguments tokens trees) : trees ≠ [] := by
  cases h <;> exact List.cons_ne_nil _ _

theorem formed_call {name opening closing : Token} {tokens : List Token}
    (hfunction : IsFunction name) (hopens : opening.kind = .leftParen)
    (hcloses : closing.kind = .rightParen) (hinner : FormedArguments tokens) :
    Formed .atom (name :: opening :: tokens ++ [closing]) := by
  obtain ⟨trees, hderived, hsupplied⟩ := hinner
  refine ⟨_, .call hfunction hopens hcloses hderived, .node ?_ hsupplied⟩
  intro _
  exact mt List.eq_nil_of_length_eq_zero (ne_nil_of_derivesArguments hderived)

theorem formed_sum {left right : List Token} {operator : Token}
    (hop : IsOperator ["+", "-"] operator) (hfirst : Formed .sum left)
    (hsecond : Formed .product right) : Formed .sum (left ++ operator :: right) := by
  obtain ⟨a, hderived, hsupplied⟩ := hfirst
  obtain ⟨b, hderived', hsupplied'⟩ := hsecond
  exact ⟨_, .sum hop hderived hderived', supplied_pair hop.1 hsupplied hsupplied'⟩

theorem formed_product {left right : List Token} {operator : Token}
    (hop : IsOperator ["*", "/", "%"] operator) (hfirst : Formed .product left)
    (hsecond : Formed .signed right) : Formed .product (left ++ operator :: right) := by
  obtain ⟨a, hderived, hsupplied⟩ := hfirst
  obtain ⟨b, hderived', hsupplied'⟩ := hsecond
  exact ⟨_, .product hop hderived hderived', supplied_pair hop.1 hsupplied hsupplied'⟩

theorem formed_power {base exponent : List Token} {operator : Token}
    (hop : IsOperator ["^"] operator) (hfirst : Formed .atom base)
    (hsecond : Formed .signed exponent) : Formed .signed (base ++ operator :: exponent) := by
  obtain ⟨a, hderived, hsupplied⟩ := hfirst
  obtain ⟨b, hderived', hsupplied'⟩ := hsecond
  exact ⟨_, .ofPower (.power hop hderived hderived'),
    supplied_pair hop.1 hsupplied hsupplied'⟩

theorem formed_negative {minus : Token} {tokens : List Token} (hminus : IsOperator ["-"] minus)
    (hoperand : Formed .signed tokens) : Formed .signed (minus :: tokens) := by
  obtain ⟨a, hderived, hsupplied⟩ := hoperand
  refine ⟨_, .negative hminus hderived, supplied_node (not_isFunction_of_operator rfl) ?_⟩
  exact List.forall_mem_singleton.mpr hsupplied

theorem formed_sum_cases {tokens : List Token} (h : Formed .sum tokens) :
    Formed .product tokens ∨ ∃ left operator right, tokens = left ++ operator :: right ∧
      IsOperator ["+", "-"] operator ∧ Formed .sum left ∧ Formed .product right := by
  obtain ⟨tree, hderived, hsupplied⟩ := h
  cases hderived with
  | sum hop hfirst hsecond =>
    obtain ⟨hsupplied, hsupplied'⟩ := supplied_of_pair hsupplied
    exact .inr ⟨_, _, _, rfl, hop, ⟨_, hfirst, hsupplied⟩, ⟨_, hsecond, hsupplied'⟩⟩
  | ofProduct hproduct => exact .inl ⟨tree, hproduct, hsupplied⟩

theorem formed_product_cases {tokens : List Token} (h : Formed .product tokens) :
    Formed .signed tokens ∨ ∃ left operator right, tokens = left ++ operator :: right ∧
      IsOperator ["*", "/", "%"] operator ∧ Formed .product left ∧ Formed .signed right := by
  obtain ⟨tree, hderived, hsupplied⟩ := h
  cases hderived with
  | product hop hfirst hsecond =>
    obtain ⟨hsupplied, hsupplied'⟩ := supplied_of_pair hsupplied
    exact .inr ⟨_, _, _, rfl, hop, ⟨_, hfirst, hsupplied⟩, ⟨_, hsecond, hsupplied'⟩⟩
  | ofSigned hsigned => exact .inl ⟨tree, hsigned, hsupplied⟩

/-- What is put in front of a sum goes into its first operand, since sums associate to the left. -/
theorem lead_sum {front tokens : List Token}
    (hproduct : ∀ tokens, Formed .product tokens → Formed .sum (front ++ tokens))
    (h : Formed .sum tokens) : Formed .sum (front ++ tokens) := by
  induction length : tokens.length using Nat.strong_induction_on generalizing tokens with
  | _ n ih =>
    rcases formed_sum_cases h with hwhole | ⟨left, operator, right, rfl, hop, hfirst, hsecond⟩
    · exact hproduct tokens hwhole
    · have hshorter : left.length < n := by
        rw [← length, List.length_append, List.length_cons]
        omega
      rw [← List.append_assoc]
      exact formed_sum hop (ih left.length hshorter hfirst rfl) hsecond

theorem lead_product {front tokens : List Token}
    (hsigned : ∀ tokens, Formed .signed tokens → Formed .product (front ++ tokens))
    (h : Formed .product tokens) : Formed .product (front ++ tokens) := by
  induction length : tokens.length using Nat.strong_induction_on generalizing tokens with
  | _ n ih =>
    rcases formed_product_cases h with hwhole | ⟨left, operator, right, rfl, hop, hfirst, hsecond⟩
    · exact hsigned tokens hwhole
    · have hshorter : left.length < n := by
        rw [← length, List.length_append, List.length_cons]
        omega
      rw [← List.append_assoc]
      exact formed_product hop (ih left.length hshorter hfirst rfl) hsecond

theorem lead_of_signed {front tokens : List Token}
    (hsigned : ∀ tokens, Formed .signed tokens → Formed .product (front ++ tokens))
    (h : Formed .sum tokens) : Formed .sum (front ++ tokens) :=
  lead_sum (fun _ hproduct => (lead_product hsigned hproduct).sum) h

def written : List String := ["+", "-", "*", "/", "%", "^"]

theorem lead_minus {minus : Token} {tokens : List Token} (hminus : IsOperator ["-"] minus)
    (h : Formed .sum tokens) : Formed .sum ([minus] ++ tokens) :=
  lead_of_signed (fun _ hsigned => (formed_negative hminus hsigned).product) h

theorem lead_operand {base tokens : List Token} {operator : Token}
    (hoperator : IsOperator written operator) (hatom : Formed .atom base)
    (h : Formed .sum tokens) : Formed .sum (base ++ [operator] ++ tokens) := by
  obtain ⟨hkind, hname⟩ := hoperator
  have hsplit : operator.name ∈ ["+", "-"] ∨ operator.name ∈ ["*", "/", "%"] ∨
      operator.name ∈ ["^"] := by
    simp only [written, List.mem_cons, List.not_mem_nil, or_false] at hname ⊢
    tauto
  rcases hsplit with hop | hop | hop
  · refine lead_sum (fun tokens hproduct => ?_) h
    rw [List.append_assoc]
    exact formed_sum ⟨hkind, hop⟩ hatom.sum hproduct
  · refine lead_of_signed (fun tokens hsigned => ?_) h
    rw [List.append_assoc]
    exact formed_product ⟨hkind, hop⟩ hatom.signed.product hsigned
  · refine lead_of_signed (fun tokens hsigned => ?_) h
    rw [List.append_assoc]
    exact (formed_power ⟨hkind, hop⟩ hatom hsigned).product

/-- The tokens are what call parentheses hold, or what other parentheses hold. -/
def Filled (inCall : Bool) (tokens : List Token) : Prop :=
  if inCall = true then FormedArguments tokens else Formed .sum tokens

theorem Formed.filled {level : Level} {tokens : List Token} (h : Formed level tokens)
    (inCall : Bool) : Filled inCall tokens := by
  cases inCall with
  | false => exact h.sum
  | true =>
    obtain ⟨tree, hderived, hsupplied⟩ := h.sum
    exact ⟨[tree], .last hderived, List.forall_mem_singleton.mpr hsupplied⟩

theorem formedArguments_more {comma : Token} {first rest : List Token}
    (hcomma : comma.kind = .comma) (hargument : Formed .sum first)
    (hothers : FormedArguments rest) :
    FormedArguments (first ++ comma :: rest) := by
  obtain ⟨tree, hderived, hsupplied⟩ := hargument
  obtain ⟨trees, hderives, hsupplies⟩ := hothers
  exact ⟨tree :: trees, .more hcomma hderived hderives,
    List.forall_mem_cons.mpr ⟨hsupplied, hsupplies⟩⟩

theorem formedArguments_cases {tokens : List Token} (h : FormedArguments tokens) :
    Formed .sum tokens ∨ ∃ first comma rest, tokens = first ++ comma :: rest ∧
      comma.kind = .comma ∧ Formed .sum first ∧ FormedArguments rest := by
  obtain ⟨trees, hderived, hsupplied⟩ := h
  cases hderived with
  | last hargument => exact .inl ⟨_, hargument, hsupplied _ (by simp)⟩
  | more hcomma hargument hothers =>
    obtain ⟨hone, hall⟩ := List.forall_mem_cons.mp hsupplied
    exact .inr ⟨_, _, _, rfl, hcomma, ⟨_, hargument, hone⟩, ⟨_, hothers, hall⟩⟩

theorem Filled.lead {front tokens : List Token} {inCall : Bool}
    (hleads : ∀ tokens, Formed .sum tokens → Formed .sum (front ++ tokens))
    (h : Filled inCall tokens) : Filled inCall (front ++ tokens) := by
  cases inCall with
  | false => exact hleads tokens h
  | true =>
    rcases formedArguments_cases h with hwhole | ⟨first, comma, rest, rfl, hcomma, hone, hothers⟩
    · exact (hleads tokens hwhole).filled true
    · show FormedArguments _
      rw [← List.append_assoc]
      exact formedArguments_more hcomma (hleads first hone) hothers

end Reckoner.Infix
