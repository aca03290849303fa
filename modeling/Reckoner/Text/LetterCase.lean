import Mathlib.Data.List.Forall2

/-!
# Texts alike but for case

Two texts are alike but for case if they are of one length and have the same characters place by
place, an ASCII letter in the same case or in the other. No other character has a second form.
-/

namespace Reckoner.Text

/-- The same character, or the same ASCII letter in the other case. -/
def SameLetter (c d : Char) : Prop :=
  c = d ∨ c.isAlpha = true ∧ d.isAlpha = true ∧ c.toLower = d.toLower

instance (c d : Char) : Decidable (SameLetter c d) :=
  inferInstanceAs (Decidable (c = d ∨ c.isAlpha = true ∧ d.isAlpha = true ∧ c.toLower = d.toLower))

/-- As many characters in one text as in the other, each pair of them the same but for case. -/
def AlikeButCase (text other : String) : Prop :=
  List.Forall₂ SameLetter text.toList other.toList

end Reckoner.Text
