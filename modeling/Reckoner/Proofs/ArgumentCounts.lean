import Reckoner.Proofs.Meaning
import Reckoner.Syntax.Calls

/-!
# Argument counts

The check does not see calls, only how many values each token finds in postorder. Arguments that one
call has too many of stay on the stack, where a token further out takes them for its own. A derived
tree passes the check exactly if every token is fed and nothing is left over; where all calls that
differ from their declarations differ in the same direction, something is.
-/

namespace Reckoner

open Infix
set_option autoImplicit false

namespace Tree

/-- Only functions may differ from their declarations. -/
def Shaped (tree : Tree) : Prop :=
  tree.EveryNode fun token count => ¬ IsFunction token → token.arity? = some count

theorem shaped_pair {token : Token} {a b : Tree} {precedence : Nat}
    {associativity : Associativity} (hbinds : Postorder.Binds token precedence associativity)
    (hfirst : a.Shaped) (hsecond : b.Shaped) : (Tree.node token [a, b]).Shaped := by
  refine .node (fun _ => hbinds.arity?) ?_
  intro argument hmem
  rcases List.mem_pair.mp hmem with rfl | rfl
  · exact hfirst
  · exact hsecond

theorem shaped_call {name : Token} {arguments : List Tree} (hfunction : IsFunction name)
    (hinner : ∀ argument ∈ arguments, argument.Shaped) : (Tree.node name arguments).Shaped :=
  .node (fun hnotFunction => absurd hfunction hnotFunction) hinner

mutual

theorem shaped_of_derives {level : Level} {tokens : List Token} {tree : Tree} :
    Derives level tokens tree → tree.Shaped
  | .sum hop hfirst hsecond =>
    shaped_pair (Postorder.binds_of_sum hop) (shaped_of_derives hfirst) (shaped_of_derives hsecond)
  | .ofProduct hproduct => shaped_of_derives hproduct
  | .product hop hfirst hsecond =>
    shaped_pair (Postorder.binds_of_product hop) (shaped_of_derives hfirst)
      (shaped_of_derives hsecond)
  | .ofSigned hsigned => shaped_of_derives hsigned
  | .negative _ hoperand =>
    .node (fun _ => Token.arity?_negation _)
      (List.forall_mem_singleton.mpr (shaped_of_derives hoperand))
  | .ofPower hpower => shaped_of_derives hpower
  | .power hop hfirst hsecond =>
    shaped_pair (Postorder.binds_of_power hop) (shaped_of_derives hfirst)
      (shaped_of_derives hsecond)
  | .ofAtom hatom => shaped_of_derives hatom
  | .number hnumber => .node (fun _ => Token.arity?_number hnumber) nofun
  | .constant hconstant => .node (fun _ => Token.arity?_constant hconstant) nofun
  | .group _ _ hinner => shaped_of_derives hinner
  | .emptyCall hfunction _ _ => shaped_call hfunction nofun
  | .call hfunction _ _ hinner => shaped_call hfunction (shaped_of_derivesArguments hinner)

theorem shaped_of_derivesArguments {tokens : List Token} {trees : List Tree} :
    DerivesArguments tokens trees → ∀ tree ∈ trees, tree.Shaped
  | .last hargument => List.forall_mem_singleton.mpr (shaped_of_derives hargument)
  | .more _ hargument hothers =>
    List.forall_mem_cons.mpr ⟨shaped_of_derives hargument, shaped_of_derivesArguments hothers⟩

end

/-- What holds of the calls against their declarations holds of all tokens against their arities,
if it holds of numbers that agree. -/
theorem everyNode_of_shaped {compare : Nat → Nat → Prop} {tree : Tree} (hshaped : tree.Shaped)
    (hevery : tree.EveryCall (Compares compare)) (hrefl : ∀ count, compare count count) :
    tree.EveryNode fun token count => ∃ arity, token.arity? = some arity ∧ compare count arity := by
  refine (hshaped.and hevery).imp ?_
  rintro token count ⟨hshape, hcall⟩
  by_cases hfunction : IsFunction token
  · obtain ⟨operation, hknown, hcompares⟩ := hcall hfunction
    exact ⟨operation.arity, Token.arity?_function hfunction hknown, hcompares⟩
  · exact ⟨count, hshape hfunction, hrefl count⟩

theorem everyCall_of_everyNode {compare : Nat → Nat → Prop} {tree : Tree} (hknown : tree.Known)
    (hevery : tree.EveryNode fun token count =>
      ∃ arity, token.arity? = some arity ∧ compare count arity) :
    tree.EveryCall (Compares compare) := by
  refine (hknown.and hevery).imp ?_
  rintro token count ⟨hcall, arity, htakes, hcompares⟩ hfunction
  obtain ⟨operation, hfound, _⟩ := hcall hfunction
  rw [Token.arity?_function hfunction hfound, Option.some.injEq] at htakes
  exact ⟨operation, hfound, htakes ▸ hcompares⟩

mutual

/-- Numbers of arguments that differ in one direction only do not make up for each other. -/
theorem surplus_of_sign {sign : Int} (hunit : sign = 1 ∨ sign = -1) : (tree : Tree) →
    (tree.EveryNode fun token count => ∃ arity : Nat, token.arity? = some arity ∧
      0 ≤ sign * (count - arity)) →
    0 ≤ sign * tree.surplus ∧ (tree.surplus = 0 → tree.EveryNode fun token count =>
      ∃ arity, token.arity? = some arity ∧ count = arity)
  | .node token arguments, hevery => by
    obtain ⟨⟨arity, htakes, hown⟩, hothers⟩ := everyNode_node_iff.mp hevery
    obtain ⟨hinner, hexactInner⟩ := surpluses_of_sign hunit arguments hothers
    rw [surplus, htakes, Option.getD_some]
    constructor
    · rw [Int.mul_add]
      exact Int.add_nonneg hinner hown
    · intro hnothing
      have hparts : surpluses arguments = 0 ∧ arguments.length = arity := by
        rcases hunit with rfl | rfl <;> omega
      exact .node ⟨arity, htakes, hparts.2⟩ (hexactInner hparts.1)

theorem surpluses_of_sign {sign : Int} (hunit : sign = 1 ∨ sign = -1) : (trees : List Tree) →
    (∀ tree ∈ trees, tree.EveryNode fun token count => ∃ arity : Nat,
      token.arity? = some arity ∧ 0 ≤ sign * (count - arity)) →
    0 ≤ sign * surpluses trees ∧ (surpluses trees = 0 → ∀ tree ∈ trees,
      tree.EveryNode fun token count => ∃ arity, token.arity? = some arity ∧ count = arity)
  | [], _ => ⟨by simp [surpluses], fun _ => nofun⟩
  | tree :: rest, hevery => by
    obtain ⟨hone, hothers⟩ := List.forall_mem_cons.mp hevery
    obtain ⟨hfirst, hexactFirst⟩ := surplus_of_sign hunit tree hone
    obtain ⟨hbehind, hexactBehind⟩ := surpluses_of_sign hunit rest hothers
    rw [surpluses]
    constructor
    · rw [Int.mul_add]
      exact Int.add_nonneg hfirst hbehind
    · intro hnothing
      have hparts : tree.surplus = 0 ∧ surpluses rest = 0 := by
        rcases hunit with rfl | rfl <;> omega
      exact List.forall_mem_cons.mpr ⟨hexactFirst hparts.1, hexactBehind hparts.2⟩

end

/-- No call has too many arguments, or no call has too few. -/
def OneSided (tree : Tree) : Prop :=
  tree.EveryCall (Compares (· ≤ ·)) ∨ tree.EveryCall (Compares (· ≥ ·))

theorem OneSided.exists_sign {tree : Tree} (honeSided : tree.OneSided) (hshaped : tree.Shaped) :
    ∃ sign : Int, (sign = 1 ∨ sign = -1) ∧ tree.EveryNode fun token count =>
      ∃ arity : Nat, token.arity? = some arity ∧ 0 ≤ sign * (count - arity) := by
  rcases honeSided with hfew | hmany
  · refine ⟨-1, .inr rfl, (everyNode_of_shaped hshaped hfew Nat.le_refl).imp ?_⟩
    rintro token count ⟨arity, htakes, hle⟩
    exact ⟨arity, htakes, by omega⟩
  · refine ⟨1, .inl rfl, (everyNode_of_shaped hshaped hmany Nat.le_refl).imp ?_⟩
    rintro token count ⟨arity, htakes, hge⟩
    exact ⟨arity, htakes, by omega⟩

theorem OneSided.surplus_ne_zero {tree : Tree} (honeSided : tree.OneSided) (hshaped : tree.Shaped)
    (hknown : tree.Known) (hwrong : ¬ tree.EveryCall (Compares (· = ·))) : tree.surplus ≠ 0 := by
  obtain ⟨sign, hunit, hevery⟩ := honeSided.exists_sign hshaped
  intro hnothing
  have hall := (surplus_of_sign hunit tree hevery).2 hnothing
  exact hwrong (everyCall_of_everyNode hknown hall)

end Tree

namespace Program

theorem depthAfter_append_error {depth : Nat} {first : List Instruction} {failure : Failure}
    (h : depthAfter depth first = .error failure) (second : List Instruction) :
    depthAfter depth (first ++ second) = .error failure := by
  induction first generalizing depth with
  | nil => cases h
  | cons instruction rest ih =>
    simp only [depthAfter, List.cons_append] at h ⊢
    split at h
    · rename_i hshort
      rw [if_pos hshort, h]
    · rename_i henough
      rw [if_neg henough, ih h]

/-- On `depth` values the program comes to its end exactly if it is fed, and leaves `after`. -/
structure Counts (program : List Instruction) (depth : Nat) (fed : Prop) (after : Int) : Prop where
  reaches : fed → ∃ reached : Nat, depthAfter depth program = .ok reached ∧ (reached : Int) = after
  lacks : ¬ fed → ∃ instruction : Instruction,
    depthAfter depth program = .error instruction.lacking

theorem Counts.append {left right : List Instruction} {depth : Nat} {fed fed' : Prop}
    {middle after : Int} (hfirst : Counts left depth fed middle)
    (hsecond : ∀ reached : Nat, (reached : Int) = middle → Counts right reached fed' after) :
    Counts (left ++ right) depth (fed ∧ fed') after := by
  constructor
  · rintro ⟨hone, hother⟩
    obtain ⟨reached, hran, hcount⟩ := hfirst.reaches hone
    rw [depthAfter_append hran]
    exact (hsecond reached hcount).reaches hother
  · intro hunfed
    by_cases hone : fed
    · obtain ⟨reached, hran, hcount⟩ := hfirst.reaches hone
      rw [depthAfter_append hran]
      exact (hsecond reached hcount).lacks fun hother => hunfed ⟨hone, hother⟩
    · obtain ⟨instruction, hlacking⟩ := hfirst.lacks hone
      exact ⟨instruction, depthAfter_append_error hlacking right⟩

theorem counts_nil (depth : Nat) : Counts [] depth True depth :=
  ⟨fun _ => ⟨depth, rfl, rfl⟩, fun hunfed => absurd trivial hunfed⟩

theorem counts_singleton (instruction : Instruction) (depth : Nat) :
    Counts [instruction] depth (instruction.arity ≤ (depth : Int))
      (depth - instruction.arity + 1) := by
  constructor
  · intro henough
    refine ⟨depth - instruction.arity + 1, ?_, by omega⟩
    rw [depthAfter, if_neg (by omega), depthAfter]
  · intro hshort
    exact ⟨instruction, by rw [depthAfter, if_pos (by omega)]⟩

def Measured (tree : Tree) : Prop :=
  tree.EveryNode fun token _ => ∃ arity, token.arity? = some arity

mutual

theorem exists_counts : (tree : Tree) → Measured tree →
    ∃ program, ofTokens tree.postorder = .ok program ∧
      ∀ depth : Nat, Counts program depth (tree.Fed depth) (depth + 1 + tree.surplus)
  | .node token arguments, hmeasured => by
    obtain ⟨⟨arity, htakes⟩, hothers⟩ := Tree.everyNode_node_iff.mp hmeasured
    obtain ⟨inner, hknown, hcounts⟩ := exists_counts_forest arguments hothers
    obtain ⟨instruction, hfound, rfl⟩ := Instruction.exists_ofToken htakes
    have hsingle : ofTokens [token] = .ok [instruction] := by simp [ofTokens, hfound, Except.map]
    refine ⟨inner ++ [instruction], ofTokens_append hknown hsingle, ?_⟩
    intro depth
    have hwhole := (hcounts depth).append fun reached hcount => by
      have hlast := counts_singleton instruction reached
      rwa [hcount] at hlast
    rw [Tree.Fed, Tree.surplus, htakes, Option.getD_some]
    convert hwhole using 1
    omega

theorem exists_counts_forest : (trees : List Tree) → (∀ tree ∈ trees, Measured tree) →
    ∃ program, ofTokens (Tree.postorders trees) = .ok program ∧
      ∀ depth : Nat, Counts program depth (Tree.AllFed depth trees)
        (depth + trees.length + Tree.surpluses trees)
  | [], _ => by
    refine ⟨[], rfl, ?_⟩
    intro depth
    have hnothing : (depth : Int) + ([] : List Tree).length + Tree.surpluses [] = depth := by
      simp [Tree.surpluses]
    rw [hnothing]
    exact counts_nil depth
  | tree :: rest, hmeasured => by
    obtain ⟨hone, hothers⟩ := List.forall_mem_cons.mp hmeasured
    obtain ⟨first, hknown, hcounts⟩ := exists_counts tree hone
    obtain ⟨second, hknown', hcounts'⟩ := exists_counts_forest rest hothers
    refine ⟨first ++ second, ofTokens_append hknown hknown', ?_⟩
    intro depth
    have hwhole := (hcounts depth).append fun reached hcount => by
      have hbehind := hcounts' reached
      rwa [hcount] at hbehind
    rw [Tree.AllFed, Tree.surpluses, List.length_cons]
    convert hwhole using 1
    push_cast
    omega

end

def miscounts : List FailureKind := [.missingArgument, .insufficientOperands, .malformedExpression]

theorem kind_lacking_mem (instruction : Instruction) : instruction.lacking.kind ∈ miscounts := by
  unfold Instruction.lacking
  split
  · exact .tail _ (.head _)
  · exact .head _

theorem check_of_fed {tree : Tree} (hmeasured : Measured tree) (hfed : tree.Fed 0)
    (hnothing : tree.surplus = 0) : ∃ program, check tree.postorder = .ok program := by
  obtain ⟨program, hknown, hcounts⟩ := exists_counts tree hmeasured
  obtain ⟨reached, hran, hcount⟩ := (hcounts 0).reaches hfed
  refine ⟨program, check_eq_ok_iff.mpr ⟨hknown, ?_⟩⟩
  have hone : reached = 1 := by omega
  rw [hran, hone]

theorem check_of_not_fed {tree : Tree} (hmeasured : Measured tree)
    (hmiscounted : ¬ (tree.Fed 0 ∧ tree.surplus = 0)) :
    ∃ failure, check tree.postorder = .error failure ∧ failure.kind ∈ miscounts := by
  obtain ⟨program, hknown, hcounts⟩ := exists_counts tree hmeasured
  by_cases hfed : tree.Fed 0
  · obtain ⟨reached, hran, hcount⟩ := (hcounts 0).reaches hfed
    have hseveral : reached ≠ 1 := by
      intro hone
      exact hmiscounted ⟨hfed, by omega⟩
    refine ⟨.surplusValues reached, ?_, .tail _ (.tail _ (.head _))⟩
    simp [check, hknown, hran, hseveral]
  · obtain ⟨instruction, hlacking⟩ := (hcounts 0).lacks hfed
    refine ⟨instruction.lacking, ?_, kind_lacking_mem instruction⟩
    simp [check, hknown, hlacking]

end Program

theorem evaluate_eq_postorder {text : String} {tokens : List Token} {tree : Tree}
    (hscan : Token.scan text = .ok tokens) (hderived : Expression tokens tree)
    (mode : AngleMode) :
    evaluate mode (some text) = Program.evaluate mode tree.postorder := by
  have hnotBlank : isEmptyExpression (some text) = false :=
    Token.allBlank_eq_false hscan (ne_nil_of_expression hderived)
  have harrange := Postorder.arrange_of_expression hderived
  simp [evaluate, hnotBlank, hscan, evaluateTokens, harrange]

/-- An expression whose functions are known, called with any numbers of arguments, has a value only
if each token finds enough values in postorder and none is left over, and then the value is that of
the tree in which each takes the arguments it is declared with. So it fails, whatever the mode,
where some call is wrong and the wrong calls do not include both too few and too many arguments. -/
theorem evaluate_of_calls {text : String} {tokens : List Token} {tree : Tree}
    (hscan : Token.scan text = .ok tokens) (hderived : Expression tokens tree)
    (hknown : tree.Known) (mode : AngleMode) :
    (¬ (tree.Fed 0 ∧ tree.surplus = 0) → ∃ failure,
      evaluate mode (some text) = .error failure ∧ failure.kind ∈ Program.miscounts) ∧
    (tree.Fed 0 ∧ tree.surplus = 0 → ∃ other : Tree, other.Spells tree.postorder ∧
      (evaluate mode (some text)).mapError Fault.failure = other.outcome mode) ∧
    (¬ tree.EveryCall (Tree.Compares (· = ·)) → tree.OneSided →
      ∃ failure, evaluate mode (some text) = .error failure) := by
  have hshaped := Tree.shaped_of_derives hderived
  have hmeasured : Program.Measured tree := by
    refine (Tree.everyNode_of_shaped hshaped hknown fun _ => trivial).imp ?_
    rintro token count ⟨arity, htakes, _⟩
    exact ⟨arity, htakes⟩
  have hfails : ¬ (tree.Fed 0 ∧ tree.surplus = 0) → ∃ failure,
      evaluate mode (some text) = .error failure ∧ failure.kind ∈ Program.miscounts := by
    intro hmiscounted
    obtain ⟨failure, hcheck, hkind⟩ := Program.check_of_not_fed hmeasured hmiscounted
    refine ⟨failure, ?_, hkind⟩
    rw [evaluate_eq_postorder hscan hderived]
    simp only [Program.evaluate, hcheck]
  refine ⟨hfails, ?_, ?_⟩
  · rintro ⟨hfed, hnothing⟩
    obtain ⟨program, hcheck⟩ := Program.check_of_fed hmeasured hfed hnothing
    obtain ⟨other, hspells⟩ := Program.exists_spells_of_check hcheck
    refine ⟨other, hspells, ?_⟩
    rw [evaluate_eq_postorder hscan hderived]
    exact Program.evaluate_of_spells hspells mode
  · intro hwrong honeSided
    have hleftOver := honeSided.surplus_ne_zero hshaped hknown hwrong
    obtain ⟨failure, hevaluate, _⟩ := hfails fun hfed => hleftOver hfed.2
    exact ⟨failure, hevaluate⟩

/-- A call with an argument too many. -/
theorem evaluate_argument_too_many :
    ∃ tokens tree, Token.scan "2 * abs(1, 3)" = .ok tokens ∧ Expression tokens tree ∧
      tree.Known ∧ ¬ tree.EveryCall (Tree.Compares (· = ·)) ∧ tree.OneSided ∧
      ∃ failure, evaluate .degrees (some "2 * abs(1, 3)") = .error failure := by
  have hnumber (literal : List Char) (place : Nat) : Derives .power [Token.number literal place]
      (.node (Token.number literal place) []) := .ofAtom (.number rfl)
  have harguments : DerivesArguments
      ([Token.number ['1'] 8] ++ Token.symbol .comma ',' 9 :: [Token.number ['3'] 11]) _ :=
    .more rfl (.ofProduct (.ofSigned (.ofPower (hnumber ['1'] 8))))
      (.last (.ofProduct (.ofSigned (.ofPower (hnumber ['3'] 11)))))
  have hfunction : IsFunction (Token.identifier ['a', 'b', 's'] 4) := ⟨rfl, by decide +kernel⟩
  have hcall : Derives .atom (Token.identifier ['a', 'b', 's'] 4 :: Token.symbol .leftParen '(' 7 ::
      _ ++ [Token.symbol .rightParen ')' 12]) _ := .call hfunction rfl rfl harguments
  have hproduct : Derives .product
      ([Token.number ['2'] 0] ++ Token.symbol .operator '*' 2 :: _) _ :=
    .product ⟨rfl, by decide⟩ (.ofSigned (.ofPower (hnumber ['2'] 0))) (.ofPower (.ofAtom hcall))
  have hfound : identifier? (Token.identifier ['a', 'b', 's'] 4).name =
      some (.function (.unary .abs)) := by decide +kernel
  have hcalls (compare : Nat → Nat → Prop) : Tree.EveryCall (Tree.Compares compare)
      (.node (Token.symbol .operator '*' 2) [.node (Token.number ['2'] 0) [],
        .node (Token.identifier ['a', 'b', 's'] 4)
          [.node (Token.number ['1'] 8) [], .node (Token.number ['3'] 11) []]]) ↔ compare 2 1 := by
    simp [Tree.EveryCall, Tree.everyNode_node_iff, Tree.Compares, hfound, IsFunction,
      Token.symbol, Token.number, Operation.arity, hfunction.1, hfunction.2]
  refine ⟨_, _, by rfl, .ofProduct hproduct, (hcalls fun _ _ => True).mpr trivial,
    mt (hcalls (· = ·)).mp (by decide), .inr ((hcalls (· ≥ ·)).mpr (by decide)), ?_⟩
  exact (evaluate_of_calls (by rfl) (.ofProduct hproduct) ((hcalls fun _ _ => True).mpr trivial)
    .degrees).2.2 (mt (hcalls (· = ·)).mp (by decide)) (.inr ((hcalls (· ≥ ·)).mpr (by decide)))

/-- An argument too many and one too few: `abs` leaves one of its two for `root`. -/
theorem evaluate_argument_passed_on :
    ∃ tokens tree, Token.scan "root(abs(1, 2))" = .ok tokens ∧ Expression tokens tree ∧
      tree.Known ∧ ¬ tree.EveryCall (Tree.Compares (· = ·)) ∧
      evaluate .radians (some "root(abs(1, 2))") = .ok (Double.ofNat 1) := by
  have hnumber (literal : List Char) (place : Nat) : Derives .sum [Token.number literal place]
      (.node (Token.number literal place) []) :=
    .ofProduct (.ofSigned (.ofPower (.ofAtom (.number rfl))))
  have harguments : DerivesArguments
      ([Token.number ['1'] 9] ++ Token.symbol .comma ',' 10 :: [Token.number ['2'] 12]) _ :=
    .more rfl (hnumber ['1'] 9) (.last (hnumber ['2'] 12))
  have hinner : IsFunction (Token.identifier ['a', 'b', 's'] 5) := ⟨rfl, by decide +kernel⟩
  have houter : IsFunction (Token.identifier ['r', 'o', 'o', 't'] 0) := ⟨rfl, by decide +kernel⟩
  have hcall : Derives .atom (Token.identifier ['a', 'b', 's'] 5 :: Token.symbol .leftParen '(' 8 ::
      _ ++ [Token.symbol .rightParen ')' 13]) _ := .call hinner rfl rfl harguments
  have hwhole : Derives .atom (Token.identifier ['r', 'o', 'o', 't'] 0 ::
      Token.symbol .leftParen '(' 4 :: _ ++ [Token.symbol .rightParen ')' 14]) _ :=
    .call houter rfl rfl (.last (.ofProduct (.ofSigned (.ofPower (.ofAtom hcall)))))
  have hfound : identifier? (Token.identifier ['a', 'b', 's'] 5).name =
      some (.function (.unary .abs)) := by decide +kernel
  have hfound' : identifier? (Token.identifier ['r', 'o', 'o', 't'] 0).name =
      some (.function (.binary .root)) := by decide +kernel
  have hcalls (compare : Nat → Nat → Prop) : Tree.EveryCall (Tree.Compares compare)
      (.node (Token.identifier ['r', 'o', 'o', 't'] 0) [.node (Token.identifier ['a', 'b', 's'] 5)
        [.node (Token.number ['1'] 9) [], .node (Token.number ['2'] 12) []]]) ↔
      compare 1 2 ∧ compare 2 1 := by
    simp [Tree.EveryCall, Tree.everyNode_node_iff, Tree.Compares, hfound, hfound', IsFunction,
      Token.number, Operation.arity, hinner.1, hinner.2, houter.1, houter.2]
  exact ⟨_, _, by rfl, .ofProduct (.ofSigned (.ofPower (.ofAtom hwhole))),
    (hcalls fun _ _ => True).mpr ⟨trivial, trivial⟩, mt (hcalls (· = ·)).mp (by decide),
    by decide +kernel⟩

end Reckoner
