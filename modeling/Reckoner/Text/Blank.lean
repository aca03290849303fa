import Reckoner.Text.Ranges

/-!
# Blank characters

Blank characters are those that separate words: the Unicode white space and the four ASCII
separators. Stripping a text takes them off both its ends.
-/

namespace Reckoner.Text

def blankRanges : List (Nat × Nat) :=
  [(9, 13), (28, 32), (133, 133), (160, 160), (5760, 5760), (8192, 8202), (8232, 8233),
   (8239, 8239), (8287, 8287), (12288, 12288)]

def isBlank (c : Char) : Bool := inRanges blankRanges c.toNat

/-- The characters between the first and the last that are not blank. -/
def stripChars (cs : List Char) : List Char :=
  ((cs.dropWhile isBlank).reverse.dropWhile isBlank).reverse

def strip (s : String) : String := String.ofList (stripChars s.toList)

def allBlank (s : String) : Bool := s.toList.all isBlank

theorem isBlank_of_isWhitespace {c : Char} (h : c.isWhitespace) : isBlank c := by
  simp only [Char.isWhitespace, Bool.or_eq_true, decide_eq_true_eq] at h
  rcases h with ((rfl | rfl) | rfl) | rfl <;> decide

end Reckoner.Text
