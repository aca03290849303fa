import Reckoner.Syntax.Infix

/-!
# Calls in a tree

A tree of the grammar may call a function with any number of arguments. What the calls of a tree
are like, how many arguments they are given beyond those they take, and whether each token would
still find as many values as it takes.
-/

namespace Reckoner.Tree

open Infix

/-- Every token of the tree, with the number of its arguments, is as `allowed` has it. -/
inductive EveryNode (allowed : Token → Nat → Prop) : Tree → Prop where
  | node {token : Token} {arguments : List Tree} (hown : allowed token arguments.length)
      (hothers : ∀ argument ∈ arguments, EveryNode allowed argument) :
      EveryNode allowed (.node token arguments)

theorem everyNode_node_iff {allowed : Token → Nat → Prop} {token : Token}
    {arguments : List Tree} : (node token arguments).EveryNode allowed ↔
      allowed token arguments.length ∧ ∀ argument ∈ arguments, argument.EveryNode allowed := by
  constructor
  · intro h
    cases h with
    | node hown hothers => exact ⟨hown, hothers⟩
  · rintro ⟨hown, hothers⟩
    exact .node hown hothers

theorem EveryNode.imp {few many : Token → Nat → Prop}
    (h : ∀ token count, few token count → many token count) {tree : Tree}
    (hevery : tree.EveryNode few) : tree.EveryNode many := by
  induction hevery with
  | node hown _ ih => exact .node (h _ _ hown) ih

theorem EveryNode.and {first second : Token → Nat → Prop} {tree : Tree}
    (h : tree.EveryNode first) (h' : tree.EveryNode second) :
    tree.EveryNode fun token count => first token count ∧ second token count := by
  induction h with
  | node hown _ ih =>
    obtain ⟨hown', hothers'⟩ := everyNode_node_iff.mp h'
    exact .node ⟨hown, hown'⟩ fun argument hmem => ih argument hmem (hothers' argument hmem)

def EveryCall (allowed : Token → Nat → Prop) (tree : Tree) : Prop :=
  tree.EveryNode fun token count => IsFunction token → allowed token count

def Supplied (tree : Tree) : Prop := tree.EveryCall fun _ count => count ≠ 0

/-- A function is in the vocabulary and called with a number of arguments that compares with the
number it is declared with. -/
def Compares (compare : Nat → Nat → Prop) (name : Token) (count : Nat) : Prop :=
  ∃ operation, identifier? name.name = some (.function operation) ∧ compare count operation.arity

def Known (tree : Tree) : Prop := tree.EveryCall (Compares fun _ _ => True)

mutual

/-- The arguments of all tokens of a tree less those that the tokens take. -/
def surplus : Tree → Int
  | node token arguments => surpluses arguments + (arguments.length - token.arity?.getD 0)

def surpluses : List Tree → Int
  | [] => 0
  | tree :: rest => surplus tree + surpluses rest

end

mutual

/-- In postorder, on top of `depth` values, every token finds as many values as it takes. -/
def Fed (depth : Int) : Tree → Prop
  | node token arguments =>
    AllFed depth arguments ∧ token.arity?.getD 0 ≤ depth + arguments.length + surpluses arguments

def AllFed (depth : Int) : List Tree → Prop
  | [] => True
  | tree :: rest => Fed depth tree ∧ AllFed (depth + 1 + surplus tree) rest

end

end Reckoner.Tree
