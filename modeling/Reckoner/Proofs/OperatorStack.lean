import Mathlib.Data.List.TakeDrop
import Mathlib.Data.List.TakeWhile
import Reckoner.Postorder

/-!
# The operator stack

What one token does to the operator stack, and what that means for a whole list of tokens. Only
opening parentheses, names and operators of the vocabulary ever wait on the stack, so only numbers,
names and operators of the vocabulary are put out.
-/

namespace Reckoner.Postorder

set_option autoImplicit false

def emit (done : List Token) (rest : Except Failure (List Token)) : Except Failure (List Token) :=
  rest.map (done ++ ·)

@[simp] theorem emit_nil (rest : Except Failure (List Token)) : emit [] rest = rest := by
  cases rest <;> rfl

@[simp] theorem emit_emit (first second : List Token) (rest : Except Failure (List Token)) :
    emit first (emit second rest) = emit (first ++ second) rest := by
  cases rest with
  | error failure => rfl
  | ok tokens => simp [emit, Except.map]

@[simp] theorem emit_ok (done tokens : List Token) :
    emit done (.ok tokens) = .ok (done ++ tokens) := rfl

theorem splitAtParen_eq (stack : List Token) :
    splitAtParen stack = (stack.takeWhile (fun token => !token.isLeftParen),
      stack.dropWhile (fun token => !token.isLeftParen)) :=
  List.span_eq_takeWhile_dropWhile _ stack

theorem splitAtParen_opening {opening : Token} (hopens : opening.kind = .leftParen)
    (stack : List Token) : splitAtParen (opening :: stack) = ([], opening :: stack) := by
  simp [splitAtParen_eq, Token.isLeftParen, hopens]

theorem splitAtParen_cons {token : Token} (hother : token.kind ≠ .leftParen) (stack : List Token) :
    splitAtParen (token :: stack) =
      (token :: (splitAtParen stack).1, (splitAtParen stack).2) := by
  simp [splitAtParen_eq, Token.isLeftParen, hother]

theorem span_yields_cons {entry : OperatorEntry} {waiting : Token}
    (hleaves : yields entry waiting = true) (stack : List Token) :
    (waiting :: stack).span (yields entry) =
      (waiting :: (stack.span (yields entry)).1, (stack.span (yields entry)).2) := by
  simp [List.span_eq_takeWhile_dropWhile, hleaves]

theorem span_yields_of_head {entry : OperatorEntry} {stack : List Token}
    (hstays : ∀ top, stack.head? = some top → yields entry top = false) :
    stack.span (yields entry) = ([], stack) := by
  cases stack with
  | nil => rfl
  | cons top below => simp [List.span_eq_takeWhile_dropWhile, hstays top rfl]

theorem unwind_cons {token : Token} (hnoParen : token.isParen = false) (stack : List Token) :
    unwind (token :: stack) = emit [token] (unwind stack) := by
  simp only [unwind, List.any_cons, hnoParen, Bool.false_or]
  split <;> rfl

theorem eq_of_unwind {stack out : List Token} (h : unwind stack = .ok out) :
    out = stack ∧ ∀ token ∈ stack, token.isParen = false := by
  unfold unwind at h
  split at h
  · cases h
  · rename_i hnoParen
    refine ⟨(Except.ok.inj h).symm, ?_⟩
    simpa using hnoParen

theorem exists_step_of_arrangeFrom {state : State} {token : Token} {rest out : List Token}
    (h : arrangeFrom state (token :: rest) = .ok out) :
    ∃ done after others, step state token = .ok (done, after) ∧
      arrangeFrom after rest = .ok others ∧ out = done ++ others := by
  cases hstep : step state token with
  | error failure => simp [arrangeFrom, hstep] at h
  | ok result =>
    cases hbehind : arrangeFrom result.2 rest with
    | error failure => simp [arrangeFrom, hstep, hbehind, Except.map] at h
    | ok others =>
      simp only [arrangeFrom, hstep, hbehind, Except.map, Except.ok.injEq] at h
      exact ⟨result.1, result.2, others, rfl, hbehind, h.symm⟩

theorem arrangeFrom_cons {state after : State} {token : Token} {done : List Token}
    (h : step state token = .ok (done, after)) (rest : List Token) :
    arrangeFrom state (token :: rest) = emit done (arrangeFrom after rest) := by
  simp only [arrangeFrom, h]
  rfl

theorem arrangeFrom_cons_nil {state after : State} {token : Token}
    (h : step state token = .ok ([], after)) (rest : List Token) :
    arrangeFrom state (token :: rest) = arrangeFrom after rest := by
  rw [arrangeFrom_cons h, emit_nil]

inductive Moves (state : State) (token : Token) : List Token → State → Prop where
  | operand (hkind : token.kind = .number ∨
        token.kind = .identifier ∧ isConstant token.name = true) :
      Moves state token [token] ⟨state.stack, false⟩
  | function (hkind : token.kind = .identifier) (hnotConstant : isConstant token.name = false) :
      Moves state token [] ⟨token :: state.stack, false⟩
  | opening (hkind : token.kind = .leftParen) :
      Moves state token [] ⟨token :: state.stack, true⟩
  | comma {above below : List Token} {opening : Token} (hkind : token.kind = .comma)
      (hsplit : splitAtParen state.stack = (above, opening :: below)) :
      Moves state token above ⟨opening :: below, true⟩
  | closing {above below : List Token} {opening : Token} (hkind : token.kind = .rightParen)
      (hsplit : splitAtParen state.stack = (above, opening :: below)) :
      Moves state token (above ++ (splitFunction below).1) ⟨(splitFunction below).2, false⟩
  | binary {entry : OperatorEntry} (hkind : token.kind = .operator)
      (hknown : operator? (readOperator state.operandDue token).name = some entry)
      (harity : entry.arity = 2) :
      Moves state token (state.stack.span (yields entry)).1
        ⟨readOperator state.operandDue token :: (state.stack.span (yields entry)).2, true⟩
  | prefixed {entry : OperatorEntry} (hkind : token.kind = .operator)
      (hknown : operator? (readOperator state.operandDue token).name = some entry)
      (harity : entry.arity ≠ 2) :
      Moves state token [] ⟨readOperator state.operandDue token :: state.stack, true⟩

theorem moves_of_step {state after : State} {token : Token} {done : List Token}
    (h : step state token = .ok (done, after)) : Moves state token done after := by
  cases hkind : token.kind with
  | number =>
    simp only [step, hkind, Except.ok.injEq, Prod.mk.injEq] at h
    obtain ⟨rfl, rfl⟩ := h
    exact .operand (.inl hkind)
  | identifier =>
    simp only [step, hkind] at h
    split at h
    · rename_i hconstant
      cases h
      exact .operand (.inr ⟨hkind, hconstant⟩)
    · rename_i hnotConstant
      cases h
      exact .function hkind (by simpa using hnotConstant)
  | leftParen =>
    simp only [step, hkind, Except.ok.injEq, Prod.mk.injEq] at h
    obtain ⟨rfl, rfl⟩ := h
    exact .opening hkind
  | comma =>
    simp only [step, hkind] at h
    rcases hsplit : splitAtParen state.stack with ⟨above, _ | ⟨opening, below⟩⟩
    · simp [hsplit] at h
    · simp only [hsplit, Except.ok.injEq, Prod.mk.injEq] at h
      obtain ⟨rfl, rfl⟩ := h
      exact .comma hkind hsplit
  | rightParen =>
    simp only [step, hkind] at h
    rcases hsplit : splitAtParen state.stack with ⟨above, _ | ⟨opening, below⟩⟩
    · simp [hsplit] at h
    · simp only [hsplit, Except.ok.injEq, Prod.mk.injEq] at h
      obtain ⟨rfl, rfl⟩ := h
      exact .closing hkind hsplit
  | operator =>
    simp only [step, hkind] at h
    split at h
    · cases h
    · rename_i entry hknown
      split at h
      · rename_i harity
        cases h
        exact .binary hkind hknown harity
      · rename_i harity
        cases h
        exact .prefixed hkind hknown harity

theorem kind_readOperator (due : Bool) (token : Token) (hkind : token.kind = .operator) :
    (readOperator due token).kind = .operator := by
  unfold readOperator
  split
  · rfl
  · exact hkind

def Known (token : Token) : Prop :=
  token.kind = .operator ∧ ∃ entry, operator? token.name = some entry

def Waits (token : Token) : Prop :=
  token.kind = .leftParen ∨ token.kind = .identifier ∨ Known token

/-- The token may be put out while the given tokens are read: numbers do not change on the way. -/
def Leaves (tokens : List Token) (token : Token) : Prop :=
  (token ∈ tokens ∧ token.kind = .number) ∨ token.kind = .identifier ∨ Known token

theorem waits_initial : ∀ token ∈ (State.mk [] true).stack, Waits token := nofun

theorem Waits.leaves {token : Token} (hwaits : Waits token) (hnoParen : token.kind ≠ .leftParen)
    (tokens : List Token) : Leaves tokens token := by
  rcases hwaits with hparen | hname | hknown
  · exact absurd hparen hnoParen
  · exact .inr (.inl hname)
  · exact .inr (.inr hknown)

theorem Leaves.mono {few many : List Token} {token : Token} (h : Leaves few token)
    (hsubset : ∀ other ∈ few, other ∈ many) : Leaves many token := by
  rcases h with ⟨hmem, hnumber⟩ | hname | hknown
  · exact .inl ⟨hsubset token hmem, hnumber⟩
  · exact .inr (.inl hname)
  · exact .inr (.inr hknown)

theorem waits_splitAtParen {stack : List Token} (hwaits : ∀ token ∈ stack, Waits token)
    (tokens : List Token) : (∀ token ∈ (splitAtParen stack).1, Leaves tokens token) ∧
      ∀ token ∈ (splitAtParen stack).2, Waits token := by
  rw [splitAtParen_eq]
  constructor
  · intro token hmem
    have hnoParen : token.kind ≠ .leftParen := by
      simpa [Token.isLeftParen] using List.mem_takeWhile_imp hmem
    exact (hwaits token ((List.takeWhile_prefix _).subset hmem)).leaves hnoParen tokens
  · intro token hmem
    exact hwaits token ((List.dropWhile_suffix _).subset hmem)

theorem waits_span {stack : List Token} (hwaits : ∀ token ∈ stack, Waits token)
    (entry : OperatorEntry) (tokens : List Token) :
    (∀ token ∈ (stack.span (yields entry)).1, Leaves tokens token) ∧
      ∀ token ∈ (stack.span (yields entry)).2, Waits token := by
  rw [List.span_eq_takeWhile_dropWhile]
  constructor
  · intro token hmem
    have hleaves : yields entry token = true := List.mem_takeWhile_imp hmem
    have hnoParen : token.kind ≠ .leftParen := by
      intro hparen
      simp [yields, hparen] at hleaves
    exact (hwaits token ((List.takeWhile_prefix _).subset hmem)).leaves hnoParen tokens
  · intro token hmem
    exact hwaits token ((List.dropWhile_suffix _).subset hmem)

theorem waits_splitFunction {stack : List Token} (hwaits : ∀ token ∈ stack, Waits token)
    (tokens : List Token) : (∀ token ∈ (splitFunction stack).1, Leaves tokens token) ∧
      ∀ token ∈ (splitFunction stack).2, Waits token := by
  cases stack with
  | nil => exact ⟨nofun, nofun⟩
  | cons top below =>
    by_cases hname : top.kind = .identifier
    · rw [splitFunction, if_pos hname]
      exact ⟨fun token hmem => .inr (.inl (List.mem_singleton.mp hmem ▸ hname)),
        (List.forall_mem_cons.mp hwaits).2⟩
    · rw [splitFunction, if_neg hname]
      exact ⟨nofun, hwaits⟩

theorem step_keeps {state after : State} {token : Token} {done : List Token}
    (h : step state token = .ok (done, after)) (hwaits : ∀ token ∈ state.stack, Waits token) :
    (∀ token ∈ after.stack, Waits token) ∧ ∀ other ∈ done, Leaves [token] other := by
  cases moves_of_step h with
  | operand hkind =>
    refine ⟨hwaits, List.forall_mem_singleton.mpr ?_⟩
    rcases hkind with hnumber | ⟨hname, _⟩
    · exact .inl ⟨List.mem_singleton_self token, hnumber⟩
    · exact .inr (.inl hname)
  | function hkind _ => exact ⟨List.forall_mem_cons.mpr ⟨.inr (.inl hkind), hwaits⟩, nofun⟩
  | opening hkind => exact ⟨List.forall_mem_cons.mpr ⟨.inl hkind, hwaits⟩, nofun⟩
  | comma _ hsplit =>
    obtain ⟨hleaves, hstay⟩ := waits_splitAtParen hwaits [token]
    rw [hsplit] at hleaves hstay
    exact ⟨hstay, hleaves⟩
  | closing _ hsplit =>
    obtain ⟨hleaves, hstay⟩ := waits_splitAtParen hwaits [token]
    rw [hsplit] at hleaves hstay
    obtain ⟨happlied, hrest⟩ := waits_splitFunction (List.forall_mem_cons.mp hstay).2 [token]
    exact ⟨hrest, List.forall_mem_append.mpr ⟨hleaves, happlied⟩⟩
  | binary hkind hknown _ =>
    obtain ⟨hleaves, hstay⟩ := waits_span hwaits _ [token]
    have hoperator : Known (readOperator state.operandDue token) :=
      ⟨kind_readOperator _ token hkind, _, hknown⟩
    exact ⟨List.forall_mem_cons.mpr ⟨.inr (.inr hoperator), hstay⟩, hleaves⟩
  | prefixed hkind hknown _ =>
    have hoperator : Known (readOperator state.operandDue token) :=
      ⟨kind_readOperator _ token hkind, _, hknown⟩
    exact ⟨List.forall_mem_cons.mpr ⟨.inr (.inr hoperator), hwaits⟩, nofun⟩

theorem leaves_of_arrangeFrom {state : State} {tokens out : List Token}
    (h : arrangeFrom state tokens = .ok out) (hwaits : ∀ token ∈ state.stack, Waits token) :
    ∀ token ∈ out, Leaves tokens token := by
  induction tokens generalizing state out with
  | nil =>
    obtain ⟨rfl, hnoParen⟩ := eq_of_unwind h
    intro token hmem
    refine (hwaits token hmem).leaves ?_ []
    intro hparen
    simpa [Token.isParen, hparen] using hnoParen token hmem
  | cons token rest ih =>
    obtain ⟨done, after, others, hstep, hbehind, rfl⟩ := exists_step_of_arrangeFrom h
    obtain ⟨hkeeps, hputs⟩ := step_keeps hstep hwaits
    intro other hmem
    rcases List.mem_append.mp hmem with hmem | hmem
    · exact (hputs other hmem).mono (by simp)
    · exact (ih hbehind hkeeps other hmem).mono (fun _ => List.mem_cons_of_mem token)

/-- What holds of every operator, of what waits and of the token read holds of what a step leaves
and of what it puts out. -/
theorem step_forall {P : Token → Prop} (hoperator : ∀ token, token.kind = .operator → P token)
    {state after : State} {token : Token} {done : List Token}
    (h : step state token = .ok (done, after)) (hwaiting : ∀ other ∈ state.stack, P other)
    (hread : P token) : (∀ other ∈ after.stack, P other) ∧ ∀ other ∈ done, P other := by
  have hparts {above below : List Token} (hsplit : above ++ below = state.stack) :
      (∀ other ∈ above, P other) ∧ ∀ other ∈ below, P other :=
    List.forall_mem_append.mp (hsplit ▸ hwaiting)
  have hparens {above below : List Token} (hsplit : splitAtParen state.stack = (above, below)) :
      above ++ below = state.stack := by
    rw [splitAtParen_eq, Prod.mk.injEq] at hsplit
    rw [← hsplit.1, ← hsplit.2, List.takeWhile_append_dropWhile]
  cases moves_of_step h with
  | operand _ => exact ⟨hwaiting, List.forall_mem_singleton.mpr hread⟩
  | function _ _ | opening _ => exact ⟨List.forall_mem_cons.mpr ⟨hread, hwaiting⟩, nofun⟩
  | comma _ hsplit =>
    obtain ⟨hleaves, hstay⟩ := hparts (hparens hsplit)
    exact ⟨hstay, hleaves⟩
  | @closing above below opening _ hsplit =>
    obtain ⟨hleaves, hstay⟩ := hparts (hparens hsplit)
    have hothers := (List.forall_mem_cons.mp hstay).2
    cases below with
    | nil => exact ⟨nofun, by simpa [splitFunction] using hleaves⟩
    | cons top rest =>
      rw [splitFunction]
      split
      · refine ⟨(List.forall_mem_cons.mp hothers).2, List.forall_mem_append.mpr ⟨hleaves, ?_⟩⟩
        exact List.forall_mem_singleton.mpr (List.forall_mem_cons.mp hothers).1
      · exact ⟨hothers, by simpa using hleaves⟩
  | @binary entry hkind _ _ =>
    have hcut : (state.stack.span (yields entry)).1 ++ (state.stack.span (yields entry)).2 =
        state.stack := by
      rw [List.span_eq_takeWhile_dropWhile, List.takeWhile_append_dropWhile]
    obtain ⟨hleaves, hstay⟩ := hparts hcut
    exact ⟨List.forall_mem_cons.mpr ⟨hoperator _ (kind_readOperator _ token hkind), hstay⟩, hleaves⟩
  | prefixed hkind _ _ =>
    exact ⟨List.forall_mem_cons.mpr ⟨hoperator _ (kind_readOperator _ token hkind), hwaiting⟩,
      nofun⟩

theorem forall_of_arrangeFrom {P : Token → Prop}
    (hoperator : ∀ token, token.kind = .operator → P token) {state : State}
    {tokens out : List Token} (h : arrangeFrom state tokens = .ok out)
    (hwaiting : ∀ token ∈ state.stack, P token) (hread : ∀ token ∈ tokens, P token) :
    ∀ token ∈ out, P token := by
  induction tokens generalizing state out with
  | nil =>
    obtain ⟨rfl, _⟩ := eq_of_unwind h
    exact hwaiting
  | cons token rest ih =>
    obtain ⟨hfirst, hunread⟩ := List.forall_mem_cons.mp hread
    obtain ⟨done, after, others, hstep, hbehind, rfl⟩ := exists_step_of_arrangeFrom h
    obtain ⟨hstay, hputs⟩ := step_forall hoperator hstep hwaiting hfirst
    exact List.forall_mem_append.mpr ⟨hputs, ih hbehind hstay hunread⟩

/-- Reading a minus as the prefixed one makes no operator unknown and none known. -/
theorem operator?_readOperator_eq_none_iff (due : Bool) (token : Token) :
    operator? (readOperator due token).name = none ↔ operator? token.name = none := by
  unfold readOperator
  split
  · rename_i hminus
    rw [Bool.and_eq_true, beq_iff_eq] at hminus
    have hknown : operator? prefixedMinus = none ↔ operator? "-" = none := by decide
    rw [hminus.1]
    exact hknown
  · exact Iff.rfl

theorem readOperator_of_unknown {token : Token} (hunknown : operator? token.name = none)
    (due : Bool) : readOperator due token = token := by
  unfold readOperator
  split
  · rename_i hminus
    rw [Bool.and_eq_true, beq_iff_eq] at hminus
    rw [hminus.1] at hunknown
    exact absurd hunknown (by decide)
  · rfl

/-- Why a token is refused: it needs an opening parenthesis on the stack and there is none, or it is
an operator out of the vocabulary. -/
inductive Refuses (state : State) (token : Token) : Failure → Prop where
  | comma (hkind : token.kind = .comma) (houtside : (splitAtParen state.stack).2 = []) :
      Refuses state token (.misplacedComma token.position)
  | closing (hkind : token.kind = .rightParen) (houtside : (splitAtParen state.stack).2 = []) :
      Refuses state token (.unmatchedParen token.position)
  | stranger (hkind : token.kind = .operator) (hunknown : operator? token.name = none) :
      Refuses state token (.unknownOperator token.name)

theorem refuses_of_step {state : State} {token : Token} {failure : Failure}
    (h : step state token = .error failure) : Refuses state token failure := by
  cases hkind : token.kind with
  | number | leftParen => simp [step, hkind] at h
  | identifier =>
    simp only [step, hkind] at h
    split at h <;> cases h
  | comma =>
    simp only [step, hkind] at h
    rcases hsplit : splitAtParen state.stack with ⟨above, _ | ⟨opening, below⟩⟩
    · simp only [hsplit, Except.error.injEq] at h
      subst h
      exact .comma hkind (by rw [hsplit])
    · simp [hsplit] at h
  | rightParen =>
    simp only [step, hkind] at h
    rcases hsplit : splitAtParen state.stack with ⟨above, _ | ⟨opening, below⟩⟩
    · simp only [hsplit, Except.error.injEq] at h
      subst h
      exact .closing hkind (by rw [hsplit])
    · simp [hsplit] at h
  | operator =>
    simp only [step, hkind] at h
    split at h
    · rename_i hunknown
      rw [operator?_readOperator_eq_none_iff] at hunknown
      rw [readOperator_of_unknown hunknown] at h
      cases h
      exact .stranger hkind hunknown
    · split at h <;> cases h

theorem step_of_refuses {state : State} {token : Token} {failure : Failure}
    (h : Refuses state token failure) : step state token = .error failure := by
  have hnoneBelow (houtside : (splitAtParen state.stack).2 = []) :
      splitAtParen state.stack = ((splitAtParen state.stack).1, []) := by rw [← houtside]
  cases h with
  | comma hkind houtside =>
    simp only [step, hkind]
    rw [hnoneBelow houtside]
  | closing hkind houtside =>
    simp only [step, hkind]
    rw [hnoneBelow houtside]
  | stranger hkind hunknown =>
    simp only [step, hkind, readOperator_of_unknown hunknown, hunknown]

theorem arrangeFrom_error {state : State} {tokens : List Token} {failure : Failure}
    (h : arrangeFrom state tokens = .error failure) :
    failure = .unclosedParen ∨ ∃ token ∈ tokens, ∃ before, Refuses before token failure := by
  induction tokens generalizing state with
  | nil =>
    simp only [arrangeFrom, unwind] at h
    split at h <;> cases h
    exact .inl rfl
  | cons token rest ih =>
    cases hstep : step state token with
    | error other =>
      simp only [arrangeFrom, hstep, Except.error.injEq] at h
      subst h
      exact .inr ⟨token, List.mem_cons_self, state, refuses_of_step hstep⟩
    | ok result =>
      cases hbehind : arrangeFrom result.2 rest with
      | ok others => simp [arrangeFrom, hstep, hbehind, Except.map] at h
      | error other =>
        simp only [arrangeFrom, hstep, hbehind, Except.map, Except.error.injEq] at h
        subst h
        rcases ih hbehind with hunclosed | ⟨culprit, hmem, hrefused⟩
        · exact .inl hunclosed
        · exact .inr ⟨culprit, List.mem_cons_of_mem token hmem, hrefused⟩

end Reckoner.Postorder
