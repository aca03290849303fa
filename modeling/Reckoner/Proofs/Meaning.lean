import Reckoner.Proofs.Arrangement
import Reckoner.Proofs.Scanning
import Reckoner.Proofs.Simulation

/-!
# The meaning of an expression

A derived expression whose functions are called with as many arguments as they are declared with
has a well-formed tree. Scanning, arranging, checking and running a text that reads as such an
expression comes to the outcome of its tree.
-/

namespace Reckoner

open Infix
set_option autoImplicit false

namespace Tree

/-- Every function of the tree is in the vocabulary and is called with as many arguments as it is
declared with. -/
inductive Declared : Tree → Prop where
  | node {token : Token} {arguments : List Tree}
      (hcalled : IsFunction token → ∃ operation,
        identifier? token.name = some (.function operation) ∧ operation.arity = arguments.length)
      (hdeclared : ∀ argument ∈ arguments, Declared argument) :
      Declared (.node token arguments)

theorem declared_node_iff {token : Token} {arguments : List Tree} :
    Declared (node token arguments) ↔
      (IsFunction token → ∃ operation, identifier? token.name = some (.function operation) ∧
        operation.arity = arguments.length) ∧
      ∀ argument ∈ arguments, Declared argument := by
  constructor
  · intro h
    cases h with
    | node hcalled hdeclared => exact ⟨hcalled, hdeclared⟩
  · rintro ⟨hcalled, hdeclared⟩
    exact .node hcalled hdeclared

theorem Declared.operands {token : Token} {left right : Tree}
    (h : (Tree.node token [left, right]).Declared) : left.Declared ∧ right.Declared := by
  have hinner := (declared_node_iff.mp h).2
  exact ⟨hinner left (by simp), hinner right (by simp)⟩

theorem postorder_ne_nil (tree : Tree) : tree.postorder ≠ [] := by
  cases tree
  simp [postorder]

end Tree

theorem Token.arity?_number {token : Token} (hnumber : token.kind = .number) :
    token.arity? = some 0 := by
  simp [Token.arity?, hnumber]

theorem Token.arity?_constant {token : Token} (hconstant : IsConstant token) :
    token.arity? = some 0 := by
  obtain ⟨hkind, hentry⟩ := hconstant
  unfold Reckoner.isConstant at hentry
  split at hentry
  · rename_i value hknown
    simp [Token.arity?, hkind, hknown, IdentifierEntry.arity]
  · cases hentry

theorem Token.arity?_function {token : Token} {operation : Operation}
    (hfunction : IsFunction token)
    (hknown : identifier? token.name = some (.function operation)) :
    token.arity? = some operation.arity := by
  simp [Token.arity?, hfunction.1, hknown, IdentifierEntry.arity]

theorem Postorder.Binds.arity? {token : Token} {precedence : Nat} {associativity : Associativity}
    (hbinds : Postorder.Binds token precedence associativity) : token.arity? = some 2 := by
  obtain ⟨operation, hknown⟩ := hbinds.entry
  simp [Token.arity?, hbinds.kind, hknown, OperatorEntry.arity, Operation.arity]

theorem Token.arity?_negation (minus : Token) : (negation minus).arity? = some 1 := rfl

namespace Tree

theorem wellFormed_binary {token : Token} {left right : Tree} {precedence : Nat}
    {associativity : Associativity} (hbinds : Postorder.Binds token precedence associativity)
    (hfirst : left.WellFormed) (hsecond : right.WellFormed) :
    WellFormed (node token [left, right]) := by
  refine wellFormed_node_iff.mpr ⟨hbinds.arity?, ?_⟩
  rw [forall_wellFormed_cons, List.forall_mem_singleton]
  exact ⟨hfirst, hsecond⟩

theorem wellFormed_call {token : Token} {arguments : List Tree} (hfunction : IsFunction token)
    (hdeclared : Declared (node token arguments))
    (hinner : ∀ argument ∈ arguments, WellFormed argument) : WellFormed (node token arguments) := by
  obtain ⟨operation, hknown, harity⟩ := (declared_node_iff.mp hdeclared).1 hfunction
  refine wellFormed_node_iff.mpr ⟨?_, hinner⟩
  rw [Token.arity?_function hfunction hknown, harity]

mutual

theorem wellFormed_of_derives {level : Level} {tokens : List Token} {tree : Tree} :
    Derives level tokens tree → tree.Declared → tree.WellFormed
  | .sum hop hfirst hsecond, hdeclared => by
    obtain ⟨hleft, hright⟩ := hdeclared.operands
    exact wellFormed_binary (Postorder.binds_of_sum hop) (wellFormed_of_derives hfirst hleft)
      (wellFormed_of_derives hsecond hright)
  | .ofProduct hproduct, hdeclared => wellFormed_of_derives hproduct hdeclared
  | .product hop hfirst hsecond, hdeclared => by
    obtain ⟨hleft, hright⟩ := hdeclared.operands
    exact wellFormed_binary (Postorder.binds_of_product hop)
      (wellFormed_of_derives hfirst hleft) (wellFormed_of_derives hsecond hright)
  | .ofSigned hsigned, hdeclared => wellFormed_of_derives hsigned hdeclared
  | .negative _ hoperand, hdeclared => by
    have hinner := (declared_node_iff.mp hdeclared).2
    refine wellFormed_node_iff.mpr ⟨Token.arity?_negation _, ?_⟩
    rw [List.forall_mem_singleton] at hinner ⊢
    exact wellFormed_of_derives hoperand hinner
  | .ofPower hpower, hdeclared => wellFormed_of_derives hpower hdeclared
  | .power hop hfirst hsecond, hdeclared => by
    obtain ⟨hleft, hright⟩ := hdeclared.operands
    exact wellFormed_binary (Postorder.binds_of_power hop) (wellFormed_of_derives hfirst hleft)
      (wellFormed_of_derives hsecond hright)
  | .ofAtom hatom, hdeclared => wellFormed_of_derives hatom hdeclared
  | .number hnumber, _ =>
    wellFormed_node_iff.mpr ⟨Token.arity?_number hnumber, List.forall_mem_nil _⟩
  | .constant hconstant, _ =>
    wellFormed_node_iff.mpr ⟨Token.arity?_constant hconstant, List.forall_mem_nil _⟩
  | .group _ _ hinner, hdeclared => wellFormed_of_derives hinner hdeclared
  | .emptyCall hfunction _ _, hdeclared =>
    wellFormed_call hfunction hdeclared (List.forall_mem_nil _)
  | .call hfunction _ _ hinner, hdeclared =>
    wellFormed_call hfunction hdeclared
      (forall_wellFormed_of_derives hinner (declared_node_iff.mp hdeclared).2)

theorem forall_wellFormed_of_derives {tokens : List Token} {trees : List Tree} :
    DerivesArguments tokens trees → (∀ tree ∈ trees, tree.Declared) →
      ∀ tree ∈ trees, tree.WellFormed
  | .last hargument, hdeclared => by
    rw [List.forall_mem_singleton] at hdeclared ⊢
    exact wellFormed_of_derives hargument hdeclared
  | .more _ hargument hothers, hdeclared => by
    obtain ⟨hone, hbehind⟩ := List.forall_mem_cons.mp hdeclared
    exact forall_wellFormed_cons.mpr
      ⟨wellFormed_of_derives hargument hone, forall_wellFormed_of_derives hothers hbehind⟩

end

end Tree

theorem ne_nil_of_expression {tokens : List Token} {tree : Tree}
    (hderived : Expression tokens tree) : tokens ≠ [] := by
  rintro rfl
  have harrange := Postorder.arrange_of_expression hderived
  have hempty : Postorder.arrange [] = .ok [] := rfl
  rw [hempty, Except.ok.injEq] at harrange
  exact tree.postorder_ne_nil harrange.symm

/-- A text that reads as a derived expression has the value of its tree, or fails where the tree
fails, in either mode. -/
theorem evaluate_eq_outcome {text : String} {tokens : List Token} {tree : Tree}
    (hscan : Token.scan text = .ok tokens) (hderived : Expression tokens tree)
    (hdeclared : tree.Declared) (mode : AngleMode) :
    (evaluate mode (some text)).mapError Fault.failure = tree.outcome mode := by
  have hnotBlank : isEmptyExpression (some text) = false :=
    Token.allBlank_eq_false hscan (ne_nil_of_expression hderived)
  have harrange := Postorder.arrange_of_expression hderived
  have hspells : tree.Spells tree.postorder := ⟨Tree.wellFormed_of_derives hderived hdeclared, rfl⟩
  have hevaluate : evaluate mode (some text) = Program.evaluate mode tree.postorder := by
    simp [evaluate, hnotBlank, hscan, evaluateTokens, harrange]
  rw [hevaluate]
  exact Program.evaluate_of_spells hspells mode

theorem evaluate_negated_call :
    (evaluate .degrees (some "-abs(1 - 2) * 3")).mapError Fault.failure =
      .ok (Double.ofNat 3).neg := by
  have hnumber (literal : List Char) (place : Nat) :
      Derives .power [Token.number literal place] (.node (Token.number literal place) []) :=
    .ofAtom (.number rfl)
  have hdifference : Derives .sum
      ([Token.number ['1'] 5] ++ Token.symbol .operator '-' 7 :: [Token.number ['2'] 9]) _ :=
    .sum ⟨rfl, by decide⟩ (.ofProduct (.ofSigned (.ofPower (hnumber ['1'] 5))))
      (.ofSigned (.ofPower (hnumber ['2'] 9)))
  have hcall : Derives .atom (Token.identifier ['a', 'b', 's'] 1 :: Token.symbol .leftParen '(' 4 ::
      _ ++ [Token.symbol .rightParen ')' 10]) _ :=
    .call ⟨rfl, by decide +kernel⟩ rfl rfl (.last hdifference)
  have hnegated : Derives .signed (Token.symbol .operator '-' 0 :: _) _ :=
    .negative ⟨rfl, by decide⟩ (.ofPower (.ofAtom hcall))
  have hproduct : Derives .product (_ ++ Token.symbol .operator '*' 12 :: _) _ :=
    .product ⟨rfl, by decide⟩ (.ofSigned hnegated) (.ofPower (hnumber ['3'] 14))
  have hdeclared : Tree.Declared (.node (Token.symbol .operator '*' 12)
      [.node (negation (Token.symbol .operator '-' 0))
        [.node (Token.identifier ['a', 'b', 's'] 1)
          [.node (Token.symbol .operator '-' 7)
            [.node (Token.number ['1'] 5) [], .node (Token.number ['2'] 9) []]]],
        .node (Token.number ['3'] 14) []]) := by
    have hknown : identifier? (Token.identifier ['a', 'b', 's'] 1).name =
        some (.function (.unary .abs)) := by decide +kernel
    simp [Tree.declared_node_iff, hknown, Operation.arity, IsFunction, negation, Token.symbol,
      Token.number]
  rw [evaluate_eq_outcome (show Token.scan "-abs(1 - 2) * 3" = .ok _ from rfl) (.ofProduct hproduct)
    hdeclared]
  decide +kernel

end Reckoner
