import Mathlib.Data.List.TakeWhile
import Reckoner.Proofs.LongestMatch
import Reckoner.Text.LetterCase

/-!
# Lower case

Beyond ASCII hardly any character has a lower case in ASCII, so a lower case of plain characters
comes from ASCII letters. An ASCII letter belongs to the same classes of characters in either case,
and beside a capital sigma it is a letter in either, so the lower case of a text does not depend on
the case of its ASCII letters.
-/

namespace Reckoner

set_option autoImplicit false

namespace Text

theorem toLower_of_not_isAlpha {c : Char} (hother : c.isAlpha = false) : c.toLower = c := by
  have hcases : c.isAlpha = (c.isUpper || c.isLower) := rfl
  rw [hcases, Bool.or_eq_false_iff] at hother
  exact dif_neg (of_decide_eq_false hother.1)

theorem toNat_lt_of_isAlpha {c : Char} (hletter : c.isAlpha = true) : c.toNat < 128 := by
  rw [isAlpha_iff] at hletter
  omega

/-- What does not depend on case in ASCII depends on it nowhere. -/
theorem apply_toLower {α : Type} {f : Char → α}
    (htable : ∀ n : Fin 128, f (Char.ofNat n).toLower = f (Char.ofNat n)) (c : Char) :
    f c.toLower = f c := by
  by_cases hascii : c.toNat < 128
  · have hhere := htable ⟨c.toNat, hascii⟩
    rwa [Char.ofNat_toNat] at hhere
  · have hother : c.isAlpha = false := by
      rw [← Bool.not_eq_true]
      exact fun hletter => hascii (toNat_lt_of_isAlpha hletter)
    rw [toLower_of_not_isAlpha hother]

theorem isAlpha_toLower (c : Char) : c.toLower.isAlpha = c.isAlpha :=
  apply_toLower (by decide +kernel) c

theorem isDigit_toLower (c : Char) : c.toLower.isDigit = c.isDigit :=
  apply_toLower (by decide +kernel) c

theorem isBlank_toLower (c : Char) : isBlank c.toLower = isBlank c :=
  apply_toLower (by decide +kernel) c

theorem isLetter_toLower (c : Char) : isLetter c.toLower = isLetter c :=
  apply_toLower (by decide +kernel) c

theorem isCased_toLower (c : Char) : isCased c.toLower = isCased c :=
  apply_toLower (by decide +kernel) c

theorem isCaseIgnorable_toLower (c : Char) : isCaseIgnorable c.toLower = isCaseIgnorable c :=
  apply_toLower (by decide +kernel) c

theorem lowerChar_toLower (c : Char) : lowerChar c.toLower = lowerChar c :=
  apply_toLower (by decide +kernel) c

/-- A test of characters that does not depend on case cuts a text in the same place. -/
theorem span_map_toLower {p : Char → Bool} (hsame : ∀ c : Char, p c.toLower = p c)
    (cs : List Char) :
    (cs.map Char.toLower).takeWhile p = (cs.takeWhile p).map Char.toLower ∧
      (cs.map Char.toLower).dropWhile p = (cs.dropWhile p).map Char.toLower := by
  have hlowered : p ∘ Char.toLower = p := funext hsame
  rw [List.takeWhile_map, List.dropWhile_map, hlowered]
  exact ⟨rfl, rfl⟩

theorem endsWord_map_toLower (before after : List Char) :
    endsWord (before.map Char.toLower) (after.map Char.toLower) = endsWord before after := by
  have hfirst := fun cs => (span_map_toLower isCaseIgnorable_toLower cs).2
  unfold endsWord
  rw [hfirst, hfirst]
  cases before.dropWhile isCaseIgnorable <;> cases after.dropWhile isCaseIgnorable <;>
    simp only [List.map_nil, List.map_cons, isCased_toLower]

/-- The case of ASCII letters does not matter to the lower case, neither that of the characters
themselves nor that of those around a capital sigma. -/
theorem lowerFrom_map_toLower (before cs : List Char) :
    lowerFrom (before.map Char.toLower) (cs.map Char.toLower) = lowerFrom before cs := by
  induction cs generalizing before with
  | nil => rfl
  | cons c rest ih =>
    have hbehind := ih (c :: before)
    rw [List.map_cons] at hbehind
    rw [List.map_cons, lowerFrom, lowerFrom, hbehind, endsWord_map_toLower, lowerChar_toLower]
    cases hletter : c.isAlpha with
    | true =>
      have hascii := toNat_lt_of_isAlpha hletter
      rw [← isAlpha_toLower] at hletter
      have hasciiLower := toNat_lt_of_isAlpha hletter
      rw [if_neg (by omega), if_neg (by omega)]
    | false => rw [toLower_of_not_isAlpha hletter]

theorem map_toLower_of_alikeButCase {text other : String} (halike : AlikeButCase text other) :
    text.toList.map Char.toLower = other.toList.map Char.toLower := by
  rw [← List.forall₂_eq_eq_eq, List.forall₂_map_left_iff, List.forall₂_map_right_iff]
  refine halike.imp fun c d hsame => ?_
  rcases hsame with rfl | ⟨_, _, hlowered⟩
  · rfl
  · exact hlowered

theorem toNat_ofNat (n : Nat) : (Char.ofNat n).toNat = n ∨ (Char.ofNat n).toNat = 0 := by
  by_cases hvalid : n.isValidChar
  · have hsame : Char.ofNat n = Char.ofNatAux n hvalid := dif_pos hvalid
    rw [hsame]
    exact Or.inl rfl
  · have hzero : Char.ofNat n = Char.ofNat 0 := dif_neg hvalid
    rw [hzero]
    exact Or.inr rfl

/-- Beyond ASCII only the Kelvin sign has a lower case in ASCII. -/
theorem mapRuns_lowerRuns {c : Char} (hbeyond : ¬ c.toNat < 128) :
    128 ≤ (mapRuns lowerRuns c).toNat ∨ (mapRuns lowerRuns c).toNat = 0 ∨
      (mapRuns lowerRuns c).toNat = 107 := by
  unfold mapRuns
  split
  · rename_i run hfound
    have hholds := List.find?_some hfound
    have hmem : run ∈ lowerRuns := List.mem_of_find?_eq_some hfound
    have htable : (lowerRuns.all fun run =>
        decide (128 ≤ run.first + run.offset) ||
          decide (run.first = 8490 ∧ run.last = 8490 ∧ run.offset = -8383)) = true := by
      decide +kernel
    have hfar := List.all_eq_true.mp htable run hmem
    simp only [CaseRun.holds, Bool.and_eq_true, decide_eq_true_eq, Bool.or_eq_true] at hholds hfar
    obtain ⟨⟨hlower, hupper⟩, _⟩ := hholds
    rcases toNat_ofNat ((c.toNat : Int) + run.offset).toNat with hsame | hzero
    · omega
    · exact Or.inr (Or.inl hzero)
  · omega

/-- An ASCII character that is not the lower case of one beyond ASCII. -/
def isPlain (c : Char) : Bool := c.toNat < 128 && c.toNat != 0 && c.toNat != 107

theorem isPlain_eq_false_of_beyond {d : Char}
    (hbeyond : 128 ≤ d.toNat ∨ d.toNat = 0 ∨ d.toNat = 107) : isPlain d = false := by
  rw [← Bool.not_eq_true, isPlain, Bool.and_eq_true, Bool.and_eq_true, decide_eq_true_eq,
    bne_iff_ne, bne_iff_ne]
  omega

/-- Part of what a character beyond ASCII becomes is not plain. -/
theorem exists_mem_lower_of_beyond (before rest : List Char) {c : Char}
    (hbeyond : ¬ c.toNat < 128) :
    ∃ d ∈ lowerFrom before (c :: rest), isPlain d = false := by
  rw [lowerFrom]
  by_cases hsigma : c.toNat = 931
  · rw [if_pos hsigma]
    refine ⟨_, List.mem_cons_self, ?_⟩
    split <;> decide
  · rw [if_neg hsigma, lowerChar, if_neg hbeyond]
    by_cases hdotted : c.toNat = 304
    · -- The dot of the dotted capital stays beyond ASCII, though `i` does not.
      rw [if_pos hdotted]
      exact ⟨Char.ofNat 775, List.mem_cons_of_mem _ List.mem_cons_self, by decide⟩
    · rw [if_neg hdotted]
      exact ⟨_, List.mem_cons_self, isPlain_eq_false_of_beyond (mapRuns_lowerRuns hbeyond)⟩

theorem lowerFrom_of_ascii {cs : List Char} (hascii : ∀ c ∈ cs, c.toNat < 128)
    (before : List Char) : lowerFrom before cs = cs.map Char.toLower := by
  induction cs generalizing before with
  | nil => rfl
  | cons c rest ih =>
    obtain ⟨hhere, hothers⟩ := List.forall_mem_cons.mp hascii
    rw [lowerFrom, if_neg (by omega), lowerChar, if_pos hhere, ih hothers]
    rfl

theorem ascii_of_lowerFrom {before cs : List Char}
    (hplain : ∀ d ∈ lowerFrom before cs, isPlain d = true) : ∀ c ∈ cs, c.toNat < 128 := by
  induction cs generalizing before with
  | nil => exact List.forall_mem_nil _
  | cons c rest ih =>
    have hbehind : ∀ d ∈ lowerFrom (c :: before) rest, isPlain d = true := by
      intro d hmem
      refine hplain d ?_
      rw [lowerFrom]
      exact List.mem_append_right _ hmem
    refine List.forall_mem_cons.mpr ⟨?_, ih hbehind⟩
    by_contra hbeyond
    obtain ⟨d, hmem, hnotPlain⟩ := exists_mem_lower_of_beyond before rest hbeyond
    rw [hplain d hmem] at hnotPlain
    cases hnotPlain

/-- Only a text in ASCII has a lower case of plain characters, which is that of each of its own. -/
theorem map_toLower_of_lower {text other : String} (hlowered : lower text = other)
    (hplain : other.toList.all isPlain = true) :
    (∀ c ∈ text.toList, c.toNat < 128) ∧ text.toList.map Char.toLower = other.toList := by
  have hletters : lowerFrom [] text.toList = other.toList := by
    rw [← hlowered, lower, String.toList_ofList]
  have hascii : ∀ c ∈ text.toList, c.toNat < 128 := by
    apply ascii_of_lowerFrom
    rw [hletters]
    exact List.all_eq_true.mp hplain
  exact ⟨hascii, by rw [← hletters, lowerFrom_of_ascii hascii]⟩

end Text

end Reckoner
