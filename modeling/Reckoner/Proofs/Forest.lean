import Mathlib.Data.List.TakeDrop
import Reckoner.Syntax.Tree

/-!
# The forest of a postorder list

Any list of tokens builds a forest: each token takes the last trees for its arguments. The
postorder of the forest is the list again, and a forest of well-formed trees is built again from
its own postorder, so such a forest is the only one with its postorder. A program that passes its
check builds a forest of one well-formed tree.
-/

namespace Reckoner.Tree

set_option autoImplicit false

/-- A token put over the last trees of a forest, as many as it takes. -/
def graft (forest : List Tree) (token : Token) : List Tree :=
  let kept := forest.length - token.arity?.getD 0
  forest.take kept ++ [node token (forest.drop kept)]

def build (forest : List Tree) (tokens : List Token) : List Tree := tokens.foldl graft forest

@[simp] theorem build_nil (forest : List Tree) : build forest [] = forest := rfl

@[simp] theorem build_cons (forest : List Tree) (token : Token) (rest : List Token) :
    build forest (token :: rest) = build (graft forest token) rest := rfl

theorem build_append (forest : List Tree) (left right : List Token) :
    build forest (left ++ right) = build (build forest left) right := List.foldl_append ..

theorem postorders_graft (forest : List Tree) (token : Token) :
    postorders (graft forest token) = postorders forest ++ [token] := by
  simp only [graft, postorders_append, postorders, postorder, List.append_nil]
  rw [← List.append_assoc, ← postorders_append, List.take_append_drop]

/-- Nothing is lost on the way from a list to its forest. -/
theorem postorders_build (forest : List Tree) (tokens : List Token) :
    postorders (build forest tokens) = postorders forest ++ tokens := by
  induction tokens generalizing forest with
  | nil => simp
  | cons token rest ih => rw [build_cons, ih, postorders_graft, List.append_assoc,
      List.singleton_append]

theorem graft_append {token : Token} {arguments : List Tree}
    (harity : token.arity? = some arguments.length) (forest : List Tree) :
    graft (forest ++ arguments) token = forest ++ [node token arguments] := by
  simp [graft, harity]

theorem wellFormed_node_iff {token : Token} {arguments : List Tree} :
    WellFormed (node token arguments) ↔
      token.arity? = some arguments.length ∧ ∀ argument ∈ arguments, WellFormed argument := by
  constructor
  · intro h
    cases h with
    | node harity hwellFormed => exact ⟨harity, hwellFormed⟩
  · rintro ⟨harity, hwellFormed⟩
    exact .node harity hwellFormed

theorem forall_wellFormed_cons {tree : Tree} {rest : List Tree} :
    (∀ other ∈ tree :: rest, WellFormed other) ↔
      WellFormed tree ∧ ∀ other ∈ rest, WellFormed other := List.forall_mem_cons

mutual

theorem build_postorder (forest : List Tree) :
    (tree : Tree) → WellFormed tree → build forest (postorder tree) = forest ++ [tree]
  | node token arguments, hwellFormed => by
    obtain ⟨harity, hinner⟩ := wellFormed_node_iff.mp hwellFormed
    rw [postorder, build_append, build_postorders forest arguments hinner, build_cons, build_nil,
      graft_append harity]

theorem build_postorders (forest : List Tree) :
    (trees : List Tree) → (∀ tree ∈ trees, WellFormed tree) →
      build forest (postorders trees) = forest ++ trees
  | [], _ => by simp [postorders]
  | tree :: rest, hwellFormed => by
    obtain ⟨hfirst, hothers⟩ := forall_wellFormed_cons.mp hwellFormed
    rw [postorders, build_append, build_postorder forest tree hfirst,
      build_postorders (forest ++ [tree]) rest hothers, List.append_assoc, List.singleton_append]

end

structure Spells (tree : Tree) (tokens : List Token) : Prop where
  wellFormed : tree.WellFormed
  postorder : tree.postorder = tokens

theorem Spells.unique {tree other : Tree} {tokens : List Token} (h : tree.Spells tokens)
    (h' : other.Spells tokens) : tree = other := by
  have hbuilt := build_postorder [] tree h.wellFormed
  have hbuilt' := build_postorder [] other h'.wellFormed
  rw [h.postorder] at hbuilt
  rw [h'.postorder, hbuilt] at hbuilt'
  simpa using hbuilt'

end Reckoner.Tree

namespace Reckoner

theorem Instruction.ofToken_cases {token : Token} {instruction : Instruction}
    (h : Instruction.ofToken token = .ok instruction) :
    (token.kind = .number ∧ instruction = ⟨token, none⟩) ∨
    (∃ entry, token.kind = .operator ∧ operator? token.name = some entry ∧
      instruction = ⟨token, some (.operator entry)⟩) ∨
    (∃ entry, token.kind = .identifier ∧ identifier? token.name = some entry ∧
      instruction = ⟨token, some (.identifier entry)⟩) := by
  cases hkind : token.kind with
  | number =>
    simp only [Instruction.ofToken, Token.meaning, hkind, Except.map, Except.ok.injEq] at h
    exact .inl ⟨rfl, h.symm⟩
  | operator =>
    cases hknown : operator? token.name with
    | none => simp [Instruction.ofToken, Token.meaning, hkind, hknown, Except.map] at h
    | some entry =>
      simp only [Instruction.ofToken, Token.meaning, hkind, hknown, Except.map,
        Except.ok.injEq] at h
      exact .inr (.inl ⟨entry, rfl, rfl, h.symm⟩)
  | identifier =>
    cases hknown : identifier? token.name with
    | none => simp [Instruction.ofToken, Token.meaning, hkind, hknown, Except.map] at h
    | some entry =>
      simp only [Instruction.ofToken, Token.meaning, hkind, hknown, Except.map,
        Except.ok.injEq] at h
      exact .inr (.inr ⟨entry, rfl, rfl, h.symm⟩)
  | leftParen | rightParen | comma => simp [Instruction.ofToken, hkind] at h

theorem Instruction.arity_ofToken {token : Token} {instruction : Instruction}
    (h : Instruction.ofToken token = .ok instruction) :
    token.arity? = some instruction.arity := by
  rcases Instruction.ofToken_cases h with ⟨hkind, rfl⟩ | ⟨entry, hkind, hknown, rfl⟩ |
    ⟨entry, hkind, hknown, rfl⟩
  · simp [Token.arity?, hkind, Instruction.arity]
  · simp [Token.arity?, hkind, hknown, Instruction.arity, Entry.arity]
  · simp [Token.arity?, hkind, hknown, Instruction.arity, Entry.arity]

theorem Instruction.exists_ofToken {token : Token} {arity : Nat}
    (h : token.arity? = some arity) :
    ∃ instruction, Instruction.ofToken token = .ok instruction ∧ instruction.arity = arity := by
  have hok : ∃ instruction, Instruction.ofToken token = .ok instruction := by
    cases hkind : token.kind with
    | number =>
      exact ⟨⟨token, none⟩, by simp [Instruction.ofToken, Token.meaning, hkind, Except.map]⟩
    | operator =>
      simp only [Token.arity?, hkind, Option.map_eq_some_iff] at h
      obtain ⟨entry, hknown, _⟩ := h
      exact ⟨⟨token, some (.operator entry)⟩,
        by simp [Instruction.ofToken, Token.meaning, hkind, hknown, Except.map]⟩
    | identifier =>
      simp only [Token.arity?, hkind, Option.map_eq_some_iff] at h
      obtain ⟨entry, hknown, _⟩ := h
      exact ⟨⟨token, some (.identifier entry)⟩,
        by simp [Instruction.ofToken, Token.meaning, hkind, hknown, Except.map]⟩
    | leftParen | rightParen | comma => simp [Token.arity?, hkind] at h
  obtain ⟨instruction, hfound⟩ := hok
  have hsame := Instruction.arity_ofToken hfound
  rw [h, Option.some.injEq] at hsame
  exact ⟨instruction, hfound, hsame.symm⟩

namespace Program

theorem ofTokens_cons_eq_ok {token : Token} {rest : List Token} {program : List Instruction}
    (h : ofTokens (token :: rest) = .ok program) :
    ∃ instruction behind, Instruction.ofToken token = .ok instruction ∧
      ofTokens rest = .ok behind ∧ program = instruction :: behind := by
  cases hfirst : Instruction.ofToken token with
  | error failure => simp [ofTokens, hfirst] at h
  | ok instruction =>
    cases hothers : ofTokens rest with
    | error failure => simp [ofTokens, hfirst, hothers, Except.map] at h
    | ok behind =>
      simp only [ofTokens, hfirst, hothers, Except.map, Except.ok.injEq] at h
      exact ⟨instruction, behind, rfl, rfl, h.symm⟩

theorem ofTokens_append {left right : List Token} {first second : List Instruction}
    (hl : ofTokens left = .ok first) (hr : ofTokens right = .ok second) :
    ofTokens (left ++ right) = .ok (first ++ second) := by
  induction left generalizing first with
  | nil =>
    cases hl
    exact hr
  | cons token rest ih =>
    obtain ⟨instruction, behind, hfound, hothers, rfl⟩ := ofTokens_cons_eq_ok hl
    simp [ofTokens, hfound, ih hothers, Except.map]

theorem depthAfter_append {depth middle : Nat} {first : List Instruction}
    (h : depthAfter depth first = .ok middle) (second : List Instruction) :
    depthAfter depth (first ++ second) = depthAfter middle second := by
  induction first generalizing depth with
  | nil =>
    cases h
    rfl
  | cons instruction rest ih =>
    simp only [depthAfter, List.cons_append] at h ⊢
    split at h
    · cases h
    · rename_i henough
      rw [if_neg henough, ih h]

theorem check_eq_ok_iff {tokens : List Token} {program : List Instruction} :
    check tokens = .ok program ↔ ofTokens tokens = .ok program ∧ depthAfter 0 program = .ok 1 := by
  cases hfound : ofTokens tokens with
  | error failure => simp [check, hfound]
  | ok instructions =>
    cases hreached : depthAfter 0 instructions with
    | error failure =>
      simp only [check, hfound, hreached]
      constructor
      · intro h
        cases h
      · rintro ⟨h, h'⟩
        cases h
        rw [hreached] at h'
        cases h'
    | ok depth =>
      simp only [check, hfound, hreached]
      constructor
      · intro h
        split at h
        · rename_i hsingle
          cases h
          exact ⟨rfl, by rw [hreached, hsingle]⟩
        · cases h
      · rintro ⟨h, h'⟩
        cases h
        rw [hreached] at h'
        cases h'
        rfl

/-- The forest that a program builds has as many trees as the program leaves values, and
they are well formed if those under them were. -/
theorem build_of_depthAfter {tokens : List Token} {program : List Instruction} {depth : Nat}
    {forest : List Tree} (hknown : ofTokens tokens = .ok program)
    (hreached : depthAfter forest.length program = .ok depth)
    (hwellFormed : ∀ tree ∈ forest, tree.WellFormed) :
    (Tree.build forest tokens).length = depth ∧
      ∀ tree ∈ Tree.build forest tokens, tree.WellFormed := by
  induction tokens generalizing program forest with
  | nil =>
    cases hknown
    cases hreached
    exact ⟨rfl, hwellFormed⟩
  | cons token rest ih =>
    obtain ⟨instruction, behind, hfound, hothers, rfl⟩ := ofTokens_cons_eq_ok hknown
    have harity := Instruction.arity_ofToken hfound
    simp only [depthAfter] at hreached
    split at hreached
    · cases hreached
    · rename_i henough
      have hgrafted : (Tree.graft forest token).length = forest.length - instruction.arity + 1 := by
        simp [Tree.graft, harity]
      rw [← hgrafted] at hreached
      refine ih hothers hreached ?_
      intro tree hmem
      simp only [Tree.graft, harity, Option.getD_some, List.mem_append, List.mem_singleton] at hmem
      rcases hmem with hmem | rfl
      · exact hwellFormed tree (List.mem_of_mem_take hmem)
      · refine Tree.wellFormed_node_iff.mpr ⟨?_, fun argument hmem =>
          hwellFormed argument (List.mem_of_mem_drop hmem)⟩
        rw [harity, List.length_drop]
        congr 1
        omega

theorem exists_spells_of_check {tokens : List Token} {program : List Instruction}
    (h : check tokens = .ok program) : ∃ tree : Tree, tree.Spells tokens := by
  obtain ⟨hknown, hreached⟩ := check_eq_ok_iff.mp h
  have hstart : depthAfter ([] : List Tree).length program = .ok 1 := hreached
  obtain ⟨hlength, hwellFormed⟩ := build_of_depthAfter hknown hstart (by simp)
  obtain ⟨tree, hsingle⟩ := List.length_eq_one_iff.mp hlength
  have hlisted := Tree.postorders_build [] tokens
  rw [hsingle] at hlisted hwellFormed
  refine ⟨tree, hwellFormed tree (List.mem_singleton_self tree), ?_⟩
  simpa [Tree.postorders] using hlisted

end Program

end Reckoner
