import Mathlib.Data.List.Chain
import Reckoner.Proofs.ArgumentCounts
import Reckoner.Proofs.Conservation
import Reckoner.Proofs.Degrees
import Reckoner.Proofs.OuterBlanks
import Reckoner.Syntax.Sequence

/-!
# A group and its value

A group that has a value can be replaced by a number of that value, whatever stands around it. What
waits below an opening parenthesis takes no part in the arrangement of the group, and what is on
the stack of values takes no part in its program. Behind the group both stacks are as they are
behind a number.
-/

namespace Reckoner

set_option autoImplicit false

namespace Infix

theorem namesApplied_nil : NamesApplied [] := by
  intro before name after hcut
  simp at hcut

theorem namesApplied_cons_iff {token : Token} {rest : List Token} :
    NamesApplied (token :: rest) ↔ (IsFunction token → BeginsGroup rest) ∧ NamesApplied rest := by
  constructor
  · intro happlied
    refine ⟨fun hfunction => happlied [] token rest rfl hfunction, ?_⟩
    intro before name after hcut hfunction
    exact happlied (token :: before) name after (by rw [hcut]; rfl) hfunction
  · rintro ⟨hhere, hlater⟩ before name after hcut hfunction
    cases before with
    | nil =>
      obtain ⟨rfl, rfl⟩ := List.cons.inj hcut
      exact hhere hfunction
    | cons first before =>
      obtain ⟨rfl, rfl⟩ := List.cons.inj hcut
      exact hlater before name after rfl hfunction

end Infix

namespace Postorder

open Infix

section

variable {opening : Token}

theorem span_append_of_stop {p : Token → Bool} (hstops : p opening = false)
    (stack below : List Token) : (stack ++ opening :: below).span p =
      ((stack.span p).1, (stack.span p).2 ++ opening :: below) := by
  induction stack with
  | nil => simp [List.span_eq_takeWhile_dropWhile, hstops]
  | cons top rest ih =>
    rw [List.span_eq_takeWhile_dropWhile, List.span_eq_takeWhile_dropWhile, Prod.mk.injEq] at ih
    simp only [List.span_eq_takeWhile_dropWhile, List.cons_append, List.takeWhile_cons,
      List.dropWhile_cons]
    cases p top with
    | false => rfl
    | true => simp [ih]

/-- The state inside of a group, with the parenthesis and what waits outside below. -/
def State.within (state : State) (opening : Token) (below : List Token) : State :=
  ⟨state.stack ++ opening :: below, state.operandDue⟩

variable (hopens : opening.kind = .leftParen)

include hopens

theorem splitAtParen_append (stack below : List Token) :
    splitAtParen (stack ++ opening :: below) =
      ((splitAtParen stack).1, (splitAtParen stack).2 ++ opening :: below) :=
  span_append_of_stop (by simp [Token.isLeftParen, hopens]) stack below

theorem splitFunction_append_opening (stack below : List Token) :
    splitFunction (stack ++ opening :: below) =
      ((splitFunction stack).1, (splitFunction stack).2 ++ opening :: below) := by
  cases stack with
  | nil => simp [splitFunction, hopens]
  | cons top rest =>
    simp only [List.cons_append, splitFunction]
    split <;> rfl

/-- A step inside of a group leaves alone what waits outside. -/
theorem step_within {state after : State} {token : Token} {done : List Token}
    (h : step state token = .ok (done, after)) (below : List Token) :
    step (state.within opening below) token = .ok (done, after.within opening below) := by
  cases moves_of_step h with
  | operand hkind =>
    rcases hkind with hnumber | hconstant
    · exact step_number hnumber _ _
    · exact step_constant hconstant _ _
  | function hkind hnotConstant => exact step_function ⟨hkind, hnotConstant⟩ _ _
  | opening hkind => exact step_opening hkind _ _
  | comma hkind hsplit => simp [step, hkind, State.within, splitAtParen_append hopens, hsplit]
  | closing hkind hsplit =>
    simp [step, hkind, State.within, splitAtParen_append hopens, hsplit,
      splitFunction_append_opening hopens]
  | @binary entry hkind hknown harity =>
    have hspans := span_append_of_stop (by simp [yields, hopens] : yields entry opening = false)
      state.stack below
    simp only [step, hkind, State.within, hknown, harity, if_true, hspans, List.cons_append]
  | prefixed hkind hknown harity => simp [step, hkind, State.within, hknown, harity]

theorem step_closing {closing : Token} (hcloses : closing.kind = .rightParen) {stack : List Token}
    (hnoParen : ∀ token ∈ stack, token.isParen = false) (due : Bool) (below : List Token) :
    step (State.within ⟨stack, due⟩ opening below) closing =
      .ok (stack ++ (splitFunction below).1, ⟨(splitFunction below).2, false⟩) := by
  have habove : splitAtParen stack = (stack, []) := by
    rw [splitAtParen_eq, List.takeWhile_eq_self_iff.mpr, List.dropWhile_eq_nil_iff.mpr]
    all_goals
      intro token hmem
      have hplain := hnoParen token hmem
      rw [Token.isParen, Bool.or_eq_false_iff] at hplain
      simpa [Token.isLeftParen] using hplain.1
  simp [step, hcloses, State.within, splitAtParen_append hopens, habove]

/-- A group puts out its own arrangement and the name before it, whatever waits below. -/
theorem arrangeFrom_within {closing : Token} (hcloses : closing.kind = .rightParen) {state : State}
    {inner out : List Token} (h : arrangeFrom state inner = .ok out) (below after : List Token) :
    arrangeFrom (state.within opening below) (inner ++ closing :: after) =
      emit (out ++ (splitFunction below).1)
        (arrangeFrom ⟨(splitFunction below).2, false⟩ after) := by
  induction inner generalizing state out with
  | nil =>
    obtain ⟨rfl, hnoParen⟩ := eq_of_unwind h
    exact arrangeFrom_cons (step_closing hopens hcloses hnoParen state.operandDue below) after
  | cons token rest ih =>
    obtain ⟨done, middle, others, hstep, hbehind, rfl⟩ := exists_step_of_arrangeFrom h
    rw [List.cons_append, arrangeFrom_cons (step_within hopens hstep below), ih hbehind, emit_emit,
      List.append_assoc]

theorem arrangeFrom_group {closing : Token} (hcloses : closing.kind = .rightParen)
    {inner out : List Token} (h : arrange inner = .ok out) {stack : List Token}
    (hnoName : ∀ top, stack.head? = some top → top.kind ≠ .identifier) (due : Bool)
    (after : List Token) :
    arrangeFrom ⟨stack, due⟩ (opening :: inner ++ closing :: after) =
      emit out (arrangeFrom ⟨stack, false⟩ after) := by
  have halone : splitFunction stack = ([], stack) := by
    cases stack with
    | nil => rfl
    | cons top below => simp [splitFunction, hnoName top rfl]
  have hinside := arrangeFrom_within hopens hcloses h stack after
  rw [halone, List.append_nil] at hinside
  rw [List.cons_append, arrangeFrom_cons_nil (step_opening hopens stack due)]
  exact hinside

end

-- A name on top of the stack would take a group for its arguments, but not a number. None is there
-- where a group begins if each name before it has a group of its own.

/-- A name waits only below an opening parenthesis. -/
def Covers (upper lower : Token) : Prop := lower.kind = .identifier → upper.kind = .leftParen

theorem Covers.of_kind {upper other lower : Token} (hkind : upper.kind ≠ .leftParen)
    (h : Covers upper lower) : Covers other lower :=
  fun hname => absurd (h hname) hkind

structure Covered (stack tokens : List Token) : Prop where
  chain : stack.IsChain Covers
  top : ∀ name, stack.head? = some name → name.kind = .identifier → BeginsGroup tokens

theorem covered_nil (tokens : List Token) : Covered [] tokens := ⟨.nil, nofun⟩

theorem Covered.cons {stack rest : List Token} {token : Token} (h : Covered stack (token :: rest)) :
    (token :: stack).IsChain Covers := by
  refine List.isChain_cons.mpr ⟨fun name hmem hkind => ?_, h.chain⟩
  obtain ⟨opening, hfirst, hopens⟩ := h.top name hmem hkind
  rw [List.head?_cons, Option.some.injEq] at hfirst
  rw [hfirst, hopens]

theorem covered_of_top {stack tokens : List Token} (hchain : stack.IsChain Covers)
    (hnoName : ∀ top, stack.head? = some top → top.kind ≠ .identifier) : Covered stack tokens :=
  ⟨hchain, fun name hfirst hkind => absurd hkind (hnoName name hfirst)⟩

theorem not_name_of_isChain {token : Token} {stack : List Token}
    (hchain : (token :: stack).IsChain Covers) (hkind : token.kind ≠ .leftParen) (top : Token)
    (hfirst : stack.head? = some top) : top.kind ≠ .identifier :=
  fun hname => hkind ((List.isChain_cons.mp hchain).1 top hfirst hname)

theorem isChain_span {token operator : Token} (hkind : token.kind ≠ .leftParen)
    (entry : OperatorEntry) {stack : List Token} (hchain : (token :: stack).IsChain Covers) :
    (operator :: (stack.span (yields entry)).2).IsChain Covers := by
  -- What yields is an operator, so it covers no name and the next token may take its place.
  induction stack generalizing token with
  | nil => exact .singleton operator
  | cons top below ih =>
    rw [List.span_eq_takeWhile_dropWhile, List.dropWhile_cons]
    split
    · rename_i hleaves
      rw [yields, Bool.and_eq_true, beq_iff_eq] at hleaves
      have hinner := ih (by simp [hleaves.1]) (List.isChain_cons.mp hchain).2
      rwa [List.span_eq_takeWhile_dropWhile] at hinner
    · exact hchain.imp_head (Covers.of_kind hkind)

theorem covered_splitFunction {stack : List Token} (hchain : stack.IsChain Covers)
    (tokens : List Token) : Covered (splitFunction stack).2 tokens := by
  cases stack with
  | nil => exact covered_nil tokens
  | cons top below =>
    rw [splitFunction]
    split
    · rename_i hname
      have hnotOpening : top.kind ≠ .leftParen := by simp [hname]
      exact covered_of_top (List.isChain_cons.mp hchain).2 (not_name_of_isChain hchain hnotOpening)
    · rename_i hnoName
      refine covered_of_top hchain ?_
      intro other hfirst
      rw [List.head?_cons, Option.some.injEq] at hfirst
      exact hfirst ▸ hnoName

theorem covered_of_step {state after : State} {token : Token} {rest done : List Token}
    (h : step state token = .ok (done, after)) (happlied : NamesApplied (token :: rest))
    (hcovered : Covered state.stack (token :: rest)) : Covered after.stack rest := by
  have hchain := hcovered.cons
  have happlies := (namesApplied_cons_iff.mp happlied).1
  have htop {first other : Token} {below : List Token}
      (hsame : (first :: below).head? = some other) : other = first := by simpa using hsame.symm
  cases moves_of_step h with
  | operand hkind =>
    have hnotOpening : token.kind ≠ .leftParen := by
      rcases hkind with hkind | ⟨hkind, _⟩ <;> simp [hkind]
    exact covered_of_top hcovered.chain (not_name_of_isChain hchain hnotOpening)
  | function hkind hnotConstant => exact ⟨hchain, fun _ _ _ => happlies ⟨hkind, hnotConstant⟩⟩
  | opening hkind =>
    refine covered_of_top hchain fun other hfirst => ?_
    simp [htop hfirst, hkind]
  | comma hkind hsplit =>
    obtain ⟨hcut, _, hopens⟩ := parts_of_splitAtParen hsplit
    rw [hcut] at hcovered
    refine covered_of_top hcovered.chain.right_of_append fun other hfirst => ?_
    simp [htop hfirst, hopens]
  | closing hkind hsplit =>
    obtain ⟨hcut, _, _⟩ := parts_of_splitAtParen hsplit
    rw [hcut] at hcovered
    exact covered_splitFunction hcovered.chain.right_of_append.tail rest
  | binary hkind hknown harity =>
    refine covered_of_top (isChain_span (by simp [hkind]) _ hchain) fun other hfirst => ?_
    simp [htop hfirst, kind_readOperator _ token hkind]
  | prefixed hkind hknown harity =>
    refine covered_of_top
      (hchain.imp_head (Covers.of_kind (by simp [hkind]))) fun other hfirst => ?_
    simp [htop hfirst, kind_readOperator _ token hkind]

/-- Tokens fail whatever is behind them, or they put out the same and leave the same state. -/
theorem arrangeFrom_append {state : State} {before : List Token} (happlied : NamesApplied before)
    (hcovered : Covered state.stack before) :
    (∃ failure, ∀ rest, arrangeFrom state (before ++ rest) = .error failure) ∨
    ∃ done after, Covered after.stack [] ∧
      ∀ rest, arrangeFrom state (before ++ rest) = emit done (arrangeFrom after rest) := by
  induction before generalizing state with
  | nil => exact .inr ⟨[], state, hcovered, fun rest => (emit_nil _).symm⟩
  | cons token tokens ih =>
    cases hstep : step state token with
    | error failure => exact .inl ⟨failure, fun rest => by simp [arrangeFrom, hstep]⟩
    | ok move =>
      obtain ⟨done, middle⟩ := move
      rcases ih (namesApplied_cons_iff.mp happlied).2 (covered_of_step hstep happlied hcovered) with
        ⟨failure, hfails⟩ | ⟨others, after, hleaves, harrange⟩
      · refine .inl ⟨failure, fun rest => ?_⟩
        rw [List.cons_append, arrangeFrom_cons hstep, hfails]
        rfl
      · refine .inr ⟨done ++ others, after, hleaves, fun rest => ?_⟩
        rw [List.cons_append, arrangeFrom_cons hstep, harrange, emit_emit]

/-- Around a group and around a number the output is the same, if there is one. -/
theorem arrange_around {before : List Token} (happlied : NamesApplied before)
    {opening closing number : Token} (hopens : opening.kind = .leftParen)
    (hcloses : closing.kind = .rightParen) (hnumber : number.kind = .number)
    {inner out : List Token} (h : arrange inner = .ok out) (after : List Token) :
    (∃ failure, arrange (before ++ (opening :: inner ++ closing :: after)) = .error failure ∧
      arrange (before ++ number :: after) = .error failure) ∨
    ∃ left right,
      arrange (before ++ (opening :: inner ++ closing :: after)) = .ok (left ++ (out ++ right)) ∧
      arrange (before ++ number :: after) = .ok (left ++ ([number] ++ right)) := by
  have hstart : Covered (State.mk [] true).stack before := covered_nil before
  rcases arrangeFrom_append happlied hstart with
    ⟨failure, hfails⟩ | ⟨done, state, hcovered, harrange⟩
  · exact .inl ⟨failure, hfails _, hfails _⟩
  · have hnoName : ∀ top, state.stack.head? = some top → top.kind ≠ .identifier := by
      intro top hfirst hname
      obtain ⟨opening, hnothing, _⟩ := hcovered.top top hfirst hname
      cases hnothing
    have hgroup := arrangeFrom_group hopens hcloses h hnoName state.operandDue after
    have hsingle := arrangeFrom_cons (step_number hnumber state.stack state.operandDue) after
    rw [arrange, arrange, harrange, harrange, hgroup, hsingle, emit_emit, emit_emit]
    cases arrangeFrom ⟨state.stack, false⟩ after with
    | error failure => exact .inl ⟨failure, rfl, rfl⟩
    | ok right => exact .inr ⟨done, right, by simp, by simp⟩

end Postorder

namespace Program

theorem ofTokens_append_eq_bind (left right : List Token) :
    ofTokens (left ++ right) =
      (ofTokens left).bind fun first => (ofTokens right).map (first ++ ·) := by
  induction left with
  | nil =>
    show ofTokens right = (ofTokens right).map ([] ++ ·)
    cases ofTokens right <;> rfl
  | cons token rest ih =>
    rw [List.cons_append, ofTokens_eq_bind, ofTokens_eq_bind, ih]
    cases Instruction.ofToken token with
    | error failure => rfl
    | ok instruction =>
      simp only [Except.bind]
      cases ofTokens rest with
      | error failure => rfl
      | ok first => cases ofTokens right <;> rfl

theorem depthAfter_append_eq_bind (depth : Nat) (first second : List Instruction) :
    depthAfter depth (first ++ second) =
      (depthAfter depth first).bind fun middle => depthAfter middle second := by
  cases hreached : depthAfter depth first with
  | error failure => exact depthAfter_append_error hreached second
  | ok middle => exact depthAfter_append hreached second

/-- The two programs do the same to any stack, as the check and the run see it. -/
structure Replaces (mode : AngleMode) (program other : List Instruction) : Prop where
  depth : ∀ depth, depthAfter depth program = depthAfter depth other
  run : ∀ stack, run mode program stack = run mode other stack

theorem Replaces.around {mode : AngleMode} {program other : List Instruction}
    (h : Replaces mode program other) (first last : List Instruction) :
    Replaces mode (first ++ (program ++ last)) (first ++ (other ++ last)) := by
  constructor
  · intro depth
    simp only [depthAfter_append_eq_bind, h.depth]
  · intro stack
    simp only [run_append]
    congr 1
    funext middle
    rw [run_append, run_append, h.run]

theorem Replaces.value_eq {mode : AngleMode} {program other : List Instruction}
    (h : Replaces mode program other) : value mode program = value mode other :=
  value_eq_of_run (h.run [])

/-- Programs that do the same can replace each other between any tokens. -/
theorem evaluate_replace {mode : AngleMode} {middle other : List Token}
    {program replacement : List Instruction} (hknown : ofTokens middle = .ok program)
    (hknown' : ofTokens other = .ok replacement) (h : Replaces mode program replacement)
    (left right : List Token) :
    evaluate mode (left ++ (middle ++ right)) = evaluate mode (left ++ (other ++ right)) := by
  simp only [evaluate_eq_bind, check_eq_bind, ofTokens_append_eq_bind, hknown, hknown']
  cases ofTokens left with
  | error failure => rfl
  | ok first =>
    cases ofTokens right with
    | error failure => rfl
    | ok last =>
      have hwhole := h.around first last
      simp only [Except.bind, Except.map, hwhole.depth]
      cases depthAfter 0 (first ++ (replacement ++ last)) with
      | error failure => rfl
      | ok depth =>
        by_cases hone : depth = 1
        · simpa only [if_pos hone] using hwhole.value_eq
        · simp only [if_neg hone]

/-- A program with a value does what a number of that value does. -/
theorem replaces_number {mode : AngleMode} {tokens : List Token} {v : Double}
    (h : evaluate mode tokens = .ok v) {number : Token} (hvalue : number.value = some v) :
    ∃ program, ofTokens tokens = .ok program ∧ Replaces mode program [⟨number, none⟩] := by
  obtain ⟨program, hcheck, hcomputed⟩ := exists_check_of_evaluate h
  obtain ⟨tree, hspells⟩ := exists_spells_of_check hcheck
  obtain ⟨other, hcomputes⟩ := exists_computes tree hspells.wellFormed
  have hsame : ofTokens tokens = .ok other := hspells.postorder ▸ hcomputes.known
  rw [(check_eq_ok_iff.mp hcheck).1, Except.ok.injEq] at hsame
  subst hsame
  have hresult : tree.value mode = .ok v := by
    rw [value, run_of_spells hcheck hspells mode] at hcomputed
    cases hevaluate : tree.value mode with
    | error fault => cases fault <;> simp [hevaluate, Except.map] at hcomputed
    | ok value =>
      simp only [hevaluate, Except.map] at hcomputed
      split at hcomputed
      · rw [Except.ok.inj hcomputed]
      · cases hcomputed
  refine ⟨program, (check_eq_ok_iff.mp hcheck).1, ?_, ?_⟩
  · intro depth
    rw [hcomputes.depth]
    rfl
  · intro stack
    rw [hcomputes.run, hresult]
    simp [Except.map, Program.run, step, hvalue]

end Program

/-- Where the tokens of a group have a value, the group can be replaced by a number of that value:
with anything before it in which names stand before groups, and anything behind it, the outcome is
the same value or the same failure. -/
theorem evaluateTokens_group {mode : AngleMode} {inner : List Token} {v : Double}
    (h : evaluateTokens mode inner = .ok v) {opening closing number : Token}
    (hopens : opening.kind = .leftParen) (hcloses : closing.kind = .rightParen)
    (hnumber : number.kind = .number) (hvalue : number.value = some v)
    {before : List Token} (happlied : Infix.NamesApplied before) (after : List Token) :
    evaluateTokens mode (before ++ [opening] ++ inner ++ [closing] ++ after) =
      evaluateTokens mode (before ++ [number] ++ after) := by
  obtain ⟨out, harrange, hvalued⟩ := exists_arrange_of_evaluateTokens h
  obtain ⟨program, hknown, hreplaces⟩ := Program.replaces_number hvalued hvalue
  have hknown' : Program.ofTokens [number] = .ok [⟨number, none⟩] := by
    simp [Program.ofTokens, Instruction.ofToken, Token.meaning, hnumber, Except.map]
  have hregroup : before ++ [opening] ++ inner ++ [closing] ++ after =
      before ++ (opening :: inner ++ closing :: after) := by simp
  rw [hregroup, List.append_assoc, List.singleton_append, evaluateTokens_eq_bind,
    evaluateTokens_eq_bind]
  rcases Postorder.arrange_around happlied hopens hcloses hnumber harrange after with
    ⟨failure, hgroup, hsingle⟩ | ⟨left, right, hgroup, hsingle⟩
  · rw [hgroup, hsingle]
  · rw [hgroup, hsingle]
    exact Program.evaluate_replace hknown hknown' hreplaces left right

/-- The group need not be an expression, and what is around it need not make sense. -/
theorem evaluateTokens_group_reversed :
    evaluateTokens .radians [Token.number ['1'] 5, Token.number ['2'] 7,
        Token.symbol .operator '+' 9] = .ok (Double.ofNat 3) ∧
    evaluateTokens .radians ([Token.identifier ['a', 'b', 's'] 0, Token.symbol .leftParen '(' 3] ++
        [Token.symbol .leftParen '(' 4] ++
        [Token.number ['1'] 5, Token.number ['2'] 7, Token.symbol .operator '+' 9] ++
        [Token.symbol .rightParen ')' 10] ++
        [Token.symbol .operator '-' 11, Token.symbol .rightParen ')' 12]) =
      evaluateTokens .radians ([Token.identifier ['a', 'b', 's'] 0,
          Token.symbol .leftParen '(' 3] ++ [Token.number ['3'] 4] ++
        [Token.symbol .operator '-' 11, Token.symbol .rightParen ')' 12]) := by
  have hvalue : evaluateTokens .radians [Token.number ['1'] 5, Token.number ['2'] 7,
      Token.symbol .operator '+' 9] = .ok (Double.ofNat 3) := by decide +kernel
  have happlied : Infix.NamesApplied
      [Token.identifier ['a', 'b', 's'] 0, Token.symbol .leftParen '(' 3] := by
    rw [Infix.namesApplied_cons_iff, Infix.namesApplied_cons_iff]
    exact ⟨fun _ => ⟨_, rfl, rfl⟩, nofun, Infix.namesApplied_nil⟩
  exact ⟨hvalue, evaluateTokens_group hvalue rfl rfl rfl (by decide +kernel) happlied _⟩

end Reckoner
