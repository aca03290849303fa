import Mathlib.Data.List.Forall2
import Reckoner.Proofs.OperatorStack
import Reckoner.Syntax.Infix

/-!
# The arrangement of a derived expression

The operator stack holds what the context of an expression still waits for. Reading a derived
expression adds its postorder to the output and leaves the stack as it was, provided nothing that
waits on the stack belongs inside the expression (`Shelters`) and nothing that follows it could
go on with it (`Follows`).
-/

namespace Reckoner.Postorder

open Infix
set_option autoImplicit false

theorem step_number {token : Token} (hnumber : token.kind = .number) (stack : List Token)
    (due : Bool) : step ⟨stack, due⟩ token = .ok ([token], ⟨stack, false⟩) := by
  simp [step, hnumber]

theorem step_constant {token : Token} (hconstant : IsConstant token) (stack : List Token)
    (due : Bool) : step ⟨stack, due⟩ token = .ok ([token], ⟨stack, false⟩) := by
  simp [step, hconstant.1, hconstant.2]

theorem step_function {name : Token} (hfunction : IsFunction name) (stack : List Token)
    (due : Bool) : step ⟨stack, due⟩ name = .ok ([], ⟨name :: stack, false⟩) := by
  simp [step, hfunction.1, hfunction.2]

theorem step_opening {opening : Token} (hopens : opening.kind = .leftParen) (stack : List Token)
    (due : Bool) : step ⟨stack, due⟩ opening = .ok ([], ⟨opening :: stack, true⟩) := by
  simp [step, hopens]

theorem step_comma {opening comma : Token} (hopens : opening.kind = .leftParen)
    (hcomma : comma.kind = .comma) (stack : List Token) (due : Bool) :
    step ⟨opening :: stack, due⟩ comma = .ok ([], ⟨opening :: stack, true⟩) := by
  simp [step, hcomma, splitAtParen_opening hopens]

theorem step_closing_function {opening closing name : Token}
    (hopens : opening.kind = .leftParen) (hcloses : closing.kind = .rightParen)
    (hfunction : IsFunction name) (stack : List Token) (due : Bool) :
    step ⟨opening :: name :: stack, due⟩ closing = .ok ([name], ⟨stack, false⟩) := by
  simp [step, hcloses, splitAtParen_opening hopens, splitFunction, hfunction.1]

theorem step_closing_group {opening closing : Token} {stack : List Token}
    (hopens : opening.kind = .leftParen) (hcloses : closing.kind = .rightParen)
    (hnoFunction : ∀ top, stack.head? = some top → top.kind ≠ .identifier) (due : Bool) :
    step ⟨opening :: stack, due⟩ closing = .ok ([], ⟨stack, false⟩) := by
  cases stack with
  | nil => simp [step, hcloses, splitAtParen_opening hopens, splitFunction]
  | cons top below =>
    simp [step, hcloses, splitAtParen_opening hopens, splitFunction, hnoFunction top rfl]

theorem step_negation {minus : Token} (hminus : IsOperator ["-"] minus) (stack : List Token) :
    step ⟨stack, true⟩ minus = .ok ([], ⟨negation minus :: stack, true⟩) := by
  obtain ⟨hkind, hname⟩ := hminus
  rw [List.mem_singleton] at hname
  have hread : readOperator true minus = negation minus := by simp [readOperator, hname, negation]
  have hentry : operator? (negation minus).name = some ⟨3, .right, .unary .neg⟩ := rfl
  simp only [step, hkind, hread, hentry]
  rfl

theorem step_binary {operator : Token} {entry : OperatorEntry} (hkind : operator.kind = .operator)
    (hknown : operator? operator.name = some entry) (hbinary : entry.arity = 2)
    (stack : List Token) :
    step ⟨stack, false⟩ operator = .ok ((stack.span (yields entry)).1,
      ⟨operator :: (stack.span (yields entry)).2, true⟩) := by
  have hread : readOperator false operator = operator := by simp [readOperator]
  simp only [step, hkind, hread, hknown, if_pos hbinary]

structure Binds (token : Token) (precedence : Nat) (associativity : Associativity) : Prop where
  kind : token.kind = .operator
  entry : ∃ operation, operator? token.name = some ⟨precedence, associativity, .binary operation⟩

theorem binds_of_sum {token : Token} (hsign : IsOperator ["+", "-"] token) :
    Binds token 1 .left := by
  refine ⟨hsign.1, ?_⟩
  have hname := hsign.2
  simp only [List.mem_cons, List.not_mem_nil, or_false] at hname
  rcases hname with hname | hname <;> rw [hname]
  · exact ⟨.add, rfl⟩
  · exact ⟨.sub, rfl⟩

theorem binds_of_product {token : Token} (hsign : IsOperator ["*", "/", "%"] token) :
    Binds token 2 .left := by
  refine ⟨hsign.1, ?_⟩
  have hname := hsign.2
  simp only [List.mem_cons, List.not_mem_nil, or_false] at hname
  rcases hname with hname | hname | hname <;> rw [hname]
  · exact ⟨.mul, rfl⟩
  · exact ⟨.div, rfl⟩
  · exact ⟨.mod, rfl⟩

theorem binds_of_power {token : Token} (hsign : IsOperator ["^"] token) : Binds token 4 .right := by
  refine ⟨hsign.1, .pow, ?_⟩
  have hname := hsign.2
  rw [List.mem_singleton] at hname
  rw [hname]
  rfl

/-- What waits on the stack is no function and no operator of the given precedence or above, so
that an expression of such operators leaves it alone. -/
def Shelters (precedence : Nat) (stack : List Token) : Prop :=
  ∀ top, stack.head? = some top → top.kind ≠ .identifier ∧
    (top.kind = .operator → ∀ waiting, operator? top.name = some waiting →
      waiting.precedence < precedence)

theorem Shelters.mono {low high : Nat} {stack : List Token} (h : Shelters low stack)
    (hle : low ≤ high) : Shelters high stack := by
  intro top hhead
  obtain ⟨hnoFunction, hlower⟩ := h top hhead
  exact ⟨hnoFunction, fun hoperator waiting hentry =>
    Nat.lt_of_lt_of_le (hlower hoperator waiting hentry) hle⟩

theorem shelters_nil (precedence : Nat) : Shelters precedence [] := by
  intro top hhead
  cases hhead

theorem shelters_opening {opening : Token} (hopens : opening.kind = .leftParen)
    (precedence : Nat) (stack : List Token) : Shelters precedence (opening :: stack) := by
  intro top hhead
  cases hhead
  simp [hopens]

theorem shelters_operator {operator : Token} {entry : OperatorEntry} {precedence : Nat}
    (hkind : operator.kind = .operator) (hknown : operator? operator.name = some entry)
    (hlower : entry.precedence < precedence) (stack : List Token) :
    Shelters precedence (operator :: stack) := by
  intro top hhead
  cases hhead
  refine ⟨by simp [hkind], ?_⟩
  intro _ waiting hfound
  rw [hknown, Option.some.injEq] at hfound
  exact hfound ▸ hlower

/-- A sheltered stack keeps what it holds when an operator comes in, and the operator waits on
top of it. An operator to the right leaves those of its own precedence alone. -/
theorem step_sheltered {operator : Token} {precedence bound : Nat}
    {associativity : Associativity} {stack : List Token}
    (hbinds : Binds operator precedence associativity) (hshelters : Shelters bound stack)
    (hle : bound ≤ precedence ∨ associativity = .right ∧ bound ≤ precedence + 1) :
    step ⟨stack, false⟩ operator = .ok ([], ⟨operator :: stack, true⟩) := by
  obtain ⟨operation, hknown⟩ := hbinds.entry
  have hstays : ∀ top, stack.head? = some top →
      yields ⟨precedence, associativity, .binary operation⟩ top = false := by
    intro top hhead
    by_cases hoperator : top.kind = .operator
    · cases hfound : operator? top.name with
      | none => simp [yields, hfound]
      | some waiting =>
        have hlower := (hshelters top hhead).2 hoperator waiting hfound
        rcases hle with hlow | ⟨rfl, hlow⟩
        · cases associativity <;> simp [yields, hfound, leavesBefore] <;> omega
        · simp [yields, hfound, leavesBefore]
          omega
    · simp [yields, hoperator]
  rw [step_binary hbinds.kind hknown rfl, span_yields_of_head hstays]

/-- The highest precedence of an operator to the left that may follow an expression. -/
def ceiling : Level → Nat
  | .sum => 1
  | _ => 2

/-- The end, a comma, a closing parenthesis or an operator that cannot go on with an expression of
the given level. -/
def Follows (level : Level) (rest : List Token) : Prop :=
  ∀ next, rest.head? = some next → next.kind = .comma ∨ next.kind = .rightParen ∨
    (∃ precedence, precedence ≤ ceiling level ∧ Binds next precedence .left) ∨
    (level = .atom ∧ Binds next 4 .right)

theorem follows_nil (level : Level) : Follows level [] := by
  intro next hhead
  cases hhead

theorem follows_comma {comma : Token} (hcomma : comma.kind = .comma) (level : Level)
    (rest : List Token) : Follows level (comma :: rest) := by
  intro next hhead
  cases hhead
  exact .inl hcomma

theorem follows_closing {closing : Token} (hcloses : closing.kind = .rightParen) (level : Level)
    (rest : List Token) : Follows level (closing :: rest) := by
  intro next hhead
  cases hhead
  exact .inr (.inl hcloses)

theorem follows_binary {operator : Token} {precedence : Nat} {level : Level}
    (hbinds : Binds operator precedence .left) (hle : precedence ≤ ceiling level)
    (rest : List Token) : Follows level (operator :: rest) := by
  intro next hhead
  cases hhead
  exact .inr (.inr (.inl ⟨precedence, hle, hbinds⟩))

theorem follows_power {operator : Token} (hbinds : Binds operator 4 .right) (rest : List Token) :
    Follows .atom (operator :: rest) := by
  intro next hhead
  cases hhead
  exact .inr (.inr (.inr ⟨rfl, hbinds⟩))

theorem Follows.mono {low high : Level} {rest : List Token} (h : Follows low rest)
    (hle : ceiling low ≤ ceiling high) (hnotAtom : low ≠ .atom) : Follows high rest := by
  intro next hhead
  rcases h next hhead with hcomma | hclosing | ⟨precedence, hbound, hbinds⟩ | ⟨hatom, _⟩
  · exact .inl hcomma
  · exact .inr (.inl hclosing)
  · exact .inr (.inr (.inl ⟨precedence, Nat.le_trans hbound hle, hbinds⟩))
  · exact absurd hatom hnotAtom

/-- An operator that binds at least as tightly as anything that may follow leaves the stack before
whatever follows, and first of all. -/
theorem arrangeFrom_waiting {operator : Token} {entry : OperatorEntry} {level : Level}
    {rest : List Token} (hkind : operator.kind = .operator)
    (hknown : operator? operator.name = some entry) (htight : ceiling level ≤ entry.precedence)
    (hnotAtom : level ≠ .atom) (hfollows : Follows level rest) (stack : List Token) :
    arrangeFrom ⟨operator :: stack, false⟩ rest =
      emit [operator] (arrangeFrom ⟨stack, false⟩ rest) := by
  have hnoParen : operator.kind ≠ .leftParen := by simp [hkind]
  cases rest with
  | nil => exact unwind_cons (by simp [Token.isParen, hkind]) stack
  | cons next rest =>
    rcases hfollows next rfl with hcomma | hclosing | ⟨precedence, hbound, hbinds⟩ | ⟨hatom, _⟩
    · simp only [arrangeFrom, step, hcomma, splitAtParen_cons hnoParen]
      rcases splitAtParen stack with ⟨above, _ | ⟨opening, below⟩⟩
      · rfl
      · exact (emit_emit [operator] above _).symm
    · simp only [arrangeFrom, step, hclosing, splitAtParen_cons hnoParen]
      rcases splitAtParen stack with ⟨above, _ | ⟨opening, below⟩⟩
      · rfl
      · exact (emit_emit [operator] (above ++ (splitFunction below).1) _).symm
    · obtain ⟨operation, hincoming⟩ := hbinds.entry
      have hleaves : yields ⟨precedence, .left, .binary operation⟩ operator = true := by
        simp only [yields, hkind, hknown, leavesBefore, beq_self_eq_true, Bool.true_and,
          decide_eq_true_eq]
        omega
      have hstep := step_binary hbinds.kind hincoming rfl (operator :: stack)
      rw [span_yields_cons hleaves] at hstep
      rw [arrangeFrom_cons hstep, arrangeFrom_cons (step_binary hbinds.kind hincoming rfl stack),
        emit_emit]
      rfl
    · exact absurd hatom hnotAtom

def floor : Level → Nat
  | .sum => 1
  | .product => 2
  | _ => 5

/-- Reading the tokens puts out the postorder of the tree and leaves the stack alone. -/
def Reads (level : Level) (tokens : List Token) (tree : Tree) : Prop :=
  ∀ stack rest, Shelters (floor level) stack → Follows level rest →
    arrangeFrom ⟨stack, true⟩ (tokens ++ rest) =
      emit tree.postorder (arrangeFrom ⟨stack, false⟩ rest)

def ReadsArguments (tokens : List Token) (trees : List Tree) : Prop :=
  ∀ opening closing stack rest, opening.kind = .leftParen → closing.kind = .rightParen →
    arrangeFrom ⟨opening :: stack, true⟩ (tokens ++ closing :: rest) =
      emit (Tree.postorders trees) (arrangeFrom ⟨opening :: stack, false⟩ (closing :: rest))

theorem Reads.mono {low high : Level} {tokens : List Token} {tree : Tree}
    (hreads : Reads high tokens tree)
    (habove : floor low ≤ floor high ∧ ceiling low ≤ ceiling high ∧ low ≠ .atom) :
    Reads low tokens tree := by
  obtain ⟨hfloors, hceilings, hnotAtom⟩ := habove
  intro stack rest hshelters hfollows
  exact hreads stack rest (hshelters.mono hfloors) (hfollows.mono hceilings hnotAtom)

/-- An operator makes an expression of the given level from an inner one on its left and an outer
one on its right: it passes what the context waits for, waits while its right operand is read, and
leaves before what follows. -/
def Joins (level inner outer : Level) (precedence : Nat) (associativity : Associativity) : Prop :=
  floor level ≤ floor inner ∧
  (floor level ≤ precedence ∨ associativity = .right ∧ floor level ≤ precedence + 1) ∧
  precedence < floor outer ∧ ceiling level ≤ ceiling outer ∧ ceiling level ≤ precedence ∧
  level ≠ .atom

instance (level inner outer : Level) (precedence : Nat) (associativity : Associativity) :
    Decidable (Joins level inner outer precedence associativity) :=
  inferInstanceAs (Decidable (_ ∧ _))

theorem reads_binary {level inner outer : Level} {left right : List Token} {a b : Tree}
    {operator : Token} {precedence : Nat} {associativity : Associativity}
    (hbinds : Binds operator precedence associativity)
    (hfirst : Reads inner left a) (hsecond : Reads outer right b)
    (hgoesOn : ∀ rest, Follows inner (operator :: rest))
    (hjoins : Joins level inner outer precedence associativity) :
    Reads level (left ++ operator :: right) (.node operator [a, b]) := by
  obtain ⟨hfloors, hpasses, hwaits, hceilings, hleaves, hnotAtom⟩ := hjoins
  intro stack rest hshelters hfollows
  obtain ⟨operation, hknown⟩ := hbinds.entry
  have hsheltersRight : Shelters (floor outer) (operator :: stack) :=
    shelters_operator hbinds.kind hknown hwaits stack
  calc arrangeFrom ⟨stack, true⟩ (left ++ operator :: right ++ rest)
      = emit a.postorder (arrangeFrom ⟨stack, false⟩ (operator :: (right ++ rest))) := by
        rw [List.append_assoc, List.cons_append]
        exact hfirst _ _ (hshelters.mono hfloors) (hgoesOn _)
    _ = emit a.postorder (arrangeFrom ⟨operator :: stack, true⟩ (right ++ rest)) := by
        rw [arrangeFrom_cons_nil (step_sheltered hbinds hshelters hpasses)]
    _ = emit (a.postorder ++ b.postorder) (arrangeFrom ⟨operator :: stack, false⟩ rest) := by
        rw [hsecond _ _ hsheltersRight (hfollows.mono hceilings hnotAtom), emit_emit]
    _ = emit (Tree.node operator [a, b]).postorder (arrangeFrom ⟨stack, false⟩ rest) := by
        rw [arrangeFrom_waiting hbinds.kind hknown hleaves hnotAtom hfollows stack, emit_emit]
        simp [Tree.postorder, Tree.postorders]

theorem reads_negative {minus : Token} {tokens : List Token} {tree : Tree}
    (hminus : IsOperator ["-"] minus) (hoperand : Reads .signed tokens tree) :
    Reads .signed (minus :: tokens) (.node (negation minus) [tree]) := by
  intro stack rest _ hfollows
  have hknown : operator? (negation minus).name = some ⟨3, .right, .unary .neg⟩ := rfl
  have hshelters : Shelters (floor .signed) (negation minus :: stack) :=
    shelters_operator rfl hknown (by decide) stack
  rw [List.cons_append, arrangeFrom_cons_nil (step_negation hminus stack),
    hoperand _ _ hshelters hfollows,
    arrangeFrom_waiting rfl hknown (by decide) (by decide) hfollows stack, emit_emit]
  simp [Tree.postorder, Tree.postorders]

theorem reads_group {opening closing : Token} {tokens : List Token} {tree : Tree}
    (hopens : opening.kind = .leftParen) (hcloses : closing.kind = .rightParen)
    (hinner : Reads .sum tokens tree) : Reads .atom (opening :: tokens ++ [closing]) tree := by
  intro stack rest hshelters _
  have hnoFunction : ∀ top, stack.head? = some top → top.kind ≠ .identifier :=
    fun top hhead => (hshelters top hhead).1
  rw [List.append_assoc, List.cons_append, List.singleton_append,
    arrangeFrom_cons_nil (step_opening hopens stack true),
    hinner _ _ (shelters_opening hopens _ stack) (follows_closing hcloses _ rest),
    arrangeFrom_cons_nil (step_closing_group hopens hcloses hnoFunction false)]

theorem reads_emptyCall {name opening closing : Token} (hfunction : IsFunction name)
    (hopens : opening.kind = .leftParen) (hcloses : closing.kind = .rightParen) :
    Reads .atom [name, opening, closing] (.node name []) := by
  intro stack rest _ _
  simp only [List.cons_append, List.nil_append]
  rw [arrangeFrom_cons_nil (step_function hfunction stack true),
    arrangeFrom_cons_nil (step_opening hopens (name :: stack) false),
    arrangeFrom_cons (step_closing_function hopens hcloses hfunction stack true)]
  rfl

theorem reads_call {name opening closing : Token} {tokens : List Token} {arguments : List Tree}
    (hfunction : IsFunction name) (hopens : opening.kind = .leftParen)
    (hcloses : closing.kind = .rightParen) (hinner : ReadsArguments tokens arguments) :
    Reads .atom (name :: opening :: tokens ++ [closing]) (.node name arguments) := by
  intro stack rest _ _
  simp only [List.cons_append, List.append_assoc, List.nil_append]
  rw [arrangeFrom_cons_nil (step_function hfunction stack true),
    arrangeFrom_cons_nil (step_opening hopens (name :: stack) false), hinner _ _ _ _ hopens hcloses,
    arrangeFrom_cons (step_closing_function hopens hcloses hfunction stack false), emit_emit]
  rfl

theorem readsArguments_last {tokens : List Token} {tree : Tree}
    (hargument : Reads .sum tokens tree) : ReadsArguments tokens [tree] := by
  intro opening closing stack rest hopens hcloses
  rw [hargument _ _ (shelters_opening hopens _ stack) (follows_closing hcloses _ rest)]
  simp [Tree.postorders]

theorem readsArguments_more {tokens others : List Token} {tree : Tree} {trees : List Tree}
    {comma : Token} (hcomma : comma.kind = .comma) (hargument : Reads .sum tokens tree)
    (hbehind : ReadsArguments others trees) :
    ReadsArguments (tokens ++ comma :: others) (tree :: trees) := by
  intro opening closing stack rest hopens hcloses
  rw [List.append_assoc, List.cons_append,
    hargument _ _ (shelters_opening hopens _ stack) (follows_comma hcomma _ _),
    arrangeFrom_cons_nil (step_comma hopens hcomma stack false), hbehind _ _ _ _ hopens hcloses,
    emit_emit]
  rfl

mutual

theorem reads_of_derives {level : Level} {tokens : List Token} {tree : Tree} :
    Derives level tokens tree → Reads level tokens tree
  | .sum hop hfirst hsecond =>
    have hbinds := binds_of_sum hop
    reads_binary hbinds (reads_of_derives hfirst) (reads_of_derives hsecond)
      (follows_binary hbinds (Nat.le_refl 1)) (by decide)
  | .ofProduct hproduct => (reads_of_derives hproduct).mono (by decide)
  | .product hop hfirst hsecond =>
    have hbinds := binds_of_product hop
    reads_binary hbinds (reads_of_derives hfirst) (reads_of_derives hsecond)
      (follows_binary hbinds (Nat.le_refl 2)) (by decide)
  | .ofSigned hsigned => (reads_of_derives hsigned).mono (by decide)
  | .negative hminus hoperand => reads_negative hminus (reads_of_derives hoperand)
  | .ofPower hpower => (reads_of_derives hpower).mono (by decide)
  | .power hop hfirst hsecond =>
    have hbinds := binds_of_power hop
    reads_binary hbinds (reads_of_derives hfirst) (reads_of_derives hsecond) (follows_power hbinds)
      (by decide)
  | .ofAtom hatom => (reads_of_derives hatom).mono (by decide)
  | .number hnumber => fun stack rest _ _ => arrangeFrom_cons (step_number hnumber stack true) rest
  | .constant hconstant => fun stack rest _ _ =>
    arrangeFrom_cons (step_constant hconstant stack true) rest
  | .group hopens hcloses hinner => reads_group hopens hcloses (reads_of_derives hinner)
  | .emptyCall hfunction hopens hcloses => reads_emptyCall hfunction hopens hcloses
  | .call hfunction hopens hcloses hinner =>
    reads_call hfunction hopens hcloses (readsArguments_of_derives hinner)

theorem readsArguments_of_derives {tokens : List Token} {trees : List Tree} :
    DerivesArguments tokens trees → ReadsArguments tokens trees
  | .last hargument => readsArguments_last (reads_of_derives hargument)
  | .more hcomma hargument hothers =>
    readsArguments_more hcomma (reads_of_derives hargument) (readsArguments_of_derives hothers)

end

/-- Every derived expression is arranged, and comes out as the postorder of its tree. -/
theorem arrange_of_expression {tokens : List Token} {tree : Tree}
    (hderived : Expression tokens tree) : arrange tokens = .ok tree.postorder := by
  have hreading := reads_of_derives hderived [] [] (shelters_nil _) (follows_nil .sum)
  rw [List.append_nil] at hreading
  simpa [arrange, arrangeFrom, unwind] using hreading

theorem expression_of_derives {level : Level} {tokens : List Token} {tree : Tree}
    (hderived : Derives level tokens tree) : Expression tokens tree := by
  cases level with
  | sum => exact hderived
  | product => exact .ofProduct hderived
  | signed => exact .ofProduct (.ofSigned hderived)
  | power => exact .ofProduct (.ofSigned (.ofPower hderived))
  | atom => exact .ofProduct (.ofSigned (.ofPower (.ofAtom hderived)))

/-- A minus may be read as the prefixed one; the other tokens are read as they are. -/
def ReadAs (token read : Token) : Prop :=
  read = token ∨ IsOperator ["-"] token ∧ read = negation token

/-- The tokens that have a place in postorder: all but parentheses and commas. -/
def hasPlace (token : Token) : Bool := !token.isParen && !(token.kind == .comma)

/-- The tokens in order are those that were read and have a place, put in another order. -/
def Rearranges (tokens ordered : List Token) : Prop :=
  ∃ read, List.Forall₂ ReadAs tokens read ∧ (read.filter hasPlace).Perm ordered

theorem Rearranges.append {left right before behind : List Token} (h : Rearranges left before)
    (h' : Rearranges right behind) : Rearranges (left ++ right) (before ++ behind) := by
  obtain ⟨first, hreads, hperm⟩ := h
  obtain ⟨second, hreads', hperm'⟩ := h'
  refine ⟨first ++ second, List.rel_append hreads hreads', ?_⟩
  rw [List.filter_append]
  exact hperm.append hperm'

theorem Rearranges.perm {tokens ordered other : List Token} (h : Rearranges tokens ordered)
    (hperm : ordered.Perm other) : Rearranges tokens other := by
  obtain ⟨read, hreads, hperm'⟩ := h
  exact ⟨read, hreads, hperm'.trans hperm⟩

theorem rearranges_kept {token : Token} (hplace : hasPlace token = true) :
    Rearranges [token] [token] :=
  ⟨[token], .cons (.inl rfl) .nil, by simp [hplace]⟩

theorem rearranges_gone {token : Token} (hnoPlace : hasPlace token = false) :
    Rearranges [token] [] :=
  ⟨[token], .cons (.inl rfl) .nil, by simp [hnoPlace]⟩

theorem rearranges_negation {minus : Token} (hminus : IsOperator ["-"] minus) :
    Rearranges [minus] [negation minus] :=
  ⟨[negation minus], .cons (.inr ⟨hminus, rfl⟩) .nil, .refl _⟩

theorem hasPlace_of_kind {token : Token}
    (h : token.kind = .number ∨ token.kind = .identifier ∨ token.kind = .operator) :
    hasPlace token = true := by
  rcases h with hkind | hkind | hkind <;> simp [hasPlace, Token.isParen, hkind]

theorem not_hasPlace_of_kind {token : Token}
    (h : token.kind = .leftParen ∨ token.kind = .rightParen ∨ token.kind = .comma) :
    hasPlace token = false := by
  rcases h with hkind | hkind | hkind <;> simp [hasPlace, Token.isParen, hkind]

theorem rearranges_binary {left right : List Token} {a b : Tree} {operator : Token}
    (hkind : operator.kind = .operator) (hfirst : Rearranges left a.postorder)
    (hsecond : Rearranges right b.postorder) :
    Rearranges (left ++ operator :: right) (Tree.node operator [a, b]).postorder := by
  have hkept := rearranges_kept (hasPlace_of_kind (.inr (.inr hkind)))
  refine (hfirst.append (hkept.append hsecond)).perm ?_
  simp only [Tree.postorder, Tree.postorders, List.append_nil, List.append_assoc]
  exact List.perm_append_comm.append_left _

theorem rearranges_call {name opening closing : Token} {tokens : List Token}
    {arguments : List Tree} (hfunction : IsFunction name) (hopens : opening.kind = .leftParen)
    (hcloses : closing.kind = .rightParen)
    (hinner : Rearranges tokens (Tree.postorders arguments)) :
    Rearranges (name :: opening :: tokens ++ [closing]) (Tree.node name arguments).postorder := by
  have hkept := rearranges_kept (hasPlace_of_kind (.inr (.inl hfunction.1)))
  have hgone := rearranges_gone (not_hasPlace_of_kind (.inl hopens))
  have hgone' := rearranges_gone (not_hasPlace_of_kind (.inr (.inl hcloses)))
  refine (hkept.append (hgone.append (hinner.append hgone'))).perm ?_
  rw [List.append_nil, List.nil_append, Tree.postorder]
  exact List.perm_append_comm

mutual

theorem rearranges_of_derives {level : Level} {tokens : List Token} {tree : Tree} :
    Derives level tokens tree → Rearranges tokens tree.postorder
  | .sum hop hfirst hsecond =>
    rearranges_binary hop.1 (rearranges_of_derives hfirst) (rearranges_of_derives hsecond)
  | .ofProduct hproduct => rearranges_of_derives hproduct
  | .product hop hfirst hsecond =>
    rearranges_binary hop.1 (rearranges_of_derives hfirst) (rearranges_of_derives hsecond)
  | .ofSigned hsigned => rearranges_of_derives hsigned
  | .negative hminus hoperand => by
    refine ((rearranges_negation hminus).append (rearranges_of_derives hoperand)).perm ?_
    simp only [Tree.postorder, Tree.postorders, List.append_nil]
    exact List.perm_append_comm
  | .ofPower hpower => rearranges_of_derives hpower
  | .power hop hfirst hsecond =>
    rearranges_binary hop.1 (rearranges_of_derives hfirst) (rearranges_of_derives hsecond)
  | .ofAtom hatom => rearranges_of_derives hatom
  | .number hnumber => rearranges_kept (hasPlace_of_kind (.inl hnumber))
  | .constant hconstant => rearranges_kept (hasPlace_of_kind (.inr (.inl hconstant.1)))
  | .group hopens hcloses hinner => by
    have hgone := rearranges_gone (not_hasPlace_of_kind (.inl hopens))
    have hgone' := rearranges_gone (not_hasPlace_of_kind (.inr (.inl hcloses)))
    simpa using hgone.append ((rearranges_of_derives hinner).append hgone')
  | .emptyCall hfunction hopens hcloses =>
    rearranges_call hfunction hopens hcloses ⟨[], .nil, .refl _⟩
  | .call hfunction hopens hcloses hinner =>
    rearranges_call hfunction hopens hcloses (rearranges_of_derivesArguments hinner)

theorem rearranges_of_derivesArguments {tokens : List Token} {trees : List Tree} :
    DerivesArguments tokens trees → Rearranges tokens (Tree.postorders trees)
  | .last hargument => by
    simpa [Tree.postorders] using rearranges_of_derives hargument
  | .more hcomma hargument hothers => by
    have hgone := rearranges_gone (not_hasPlace_of_kind (.inr (.inr hcomma)))
    exact (rearranges_of_derives hargument).append
      (hgone.append (rearranges_of_derivesArguments hothers))

end

/-- Every derivation is arranged as the postorder of its tree, which holds the tokens of the
derivation and nothing else. -/
theorem arrange_of_derives {level : Level} {tokens : List Token} {tree : Tree}
    (hderived : Derives level tokens tree) :
    arrange tokens = .ok tree.postorder ∧ Rearranges tokens tree.postorder :=
  ⟨arrange_of_expression (expression_of_derives hderived), rearranges_of_derives hderived⟩

theorem arrange_negated_power :
    arrange [⟨.operator, "-", none, some 0⟩, ⟨.identifier, "f", none, some 1⟩,
        ⟨.leftParen, "(", none, some 2⟩, ⟨.number, "2", none, some 3⟩, ⟨.comma, ",", none, some 4⟩,
        ⟨.number, "3", none, some 5⟩, ⟨.rightParen, ")", none, some 6⟩,
        ⟨.operator, "^", none, some 7⟩, ⟨.operator, "-", none, some 8⟩,
        ⟨.number, "4", none, some 9⟩] =
      .ok [⟨.number, "2", none, some 3⟩, ⟨.number, "3", none, some 5⟩,
        ⟨.identifier, "f", none, some 1⟩, ⟨.number, "4", none, some 9⟩,
        ⟨.operator, "u-", none, some 8⟩, ⟨.operator, "^", none, some 7⟩,
        ⟨.operator, "u-", none, some 0⟩] := by
  have hnumber (name : String) (place : Int) : Derives .atom [⟨.number, name, none, some place⟩]
      (.node ⟨.number, name, none, some place⟩ []) := .number rfl
  have harguments : DerivesArguments
      [⟨.number, "2", none, some 3⟩, ⟨.comma, ",", none, some 4⟩, ⟨.number, "3", none, some 5⟩] _ :=
    .more rfl (expression_of_derives (hnumber "2" 3))
      (.last (expression_of_derives (hnumber "3" 5)))
  have hbase : Derives .atom
      [⟨.identifier, "f", none, some 1⟩, ⟨.leftParen, "(", none, some 2⟩,
        ⟨.number, "2", none, some 3⟩, ⟨.comma, ",", none, some 4⟩, ⟨.number, "3", none, some 5⟩,
        ⟨.rightParen, ")", none, some 6⟩] _ := .call ⟨rfl, by decide⟩ rfl rfl harguments
  have hexponent : Derives .signed
      [⟨.operator, "-", none, some 8⟩, ⟨.number, "4", none, some 9⟩] _ :=
    .negative ⟨rfl, by decide⟩ (.ofPower (.ofAtom (hnumber "4" 9)))
  have hpower : Derives .power
      [⟨.identifier, "f", none, some 1⟩, ⟨.leftParen, "(", none, some 2⟩,
        ⟨.number, "2", none, some 3⟩, ⟨.comma, ",", none, some 4⟩, ⟨.number, "3", none, some 5⟩,
        ⟨.rightParen, ")", none, some 6⟩, ⟨.operator, "^", none, some 7⟩,
        ⟨.operator, "-", none, some 8⟩, ⟨.number, "4", none, some 9⟩] _ :=
    .power ⟨rfl, by decide⟩ hbase hexponent
  have hnegated : Derives .signed (⟨.operator, "-", none, some 0⟩ :: _) _ :=
    .negative ⟨rfl, by decide⟩ (.ofPower hpower)
  exact (arrange_of_derives hnegated).1

end Reckoner.Postorder
