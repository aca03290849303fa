import Reckoner.Proofs.Refusals
import Reckoner.Proofs.WaysOfUse

/-!
# Commands are no expressions

A line is read in two ways: its first word in lower case may be a command, and its characters may
be the lexemes of an expression. Every command word begins with letters that are scanned as a name
out of the vocabulary, so what is taken for a command has no value, and what has a value is never
taken for a command.
-/

namespace Reckoner

set_option autoImplicit false

theorem Postorder.mem_readFrom {token : Token} (hkind : token.kind ≠ .operator)
    {tokens : List Token} (hmem : token ∈ tokens) (due : Bool) : token ∈ readFrom due tokens := by
  induction tokens generalizing due with
  | nil => cases hmem
  | cons first rest ih =>
    rw [readFrom]
    rcases List.mem_cons.mp hmem with rfl | hbehind
    · rw [readToken_of_ne hkind]
      exact List.mem_cons_self
    · exact List.mem_cons_of_mem _ (ih hbehind (opens first))

theorem Program.familiar_of_evaluate {mode : AngleMode} {tokens : List Token} {v : Double}
    (h : evaluate mode tokens = .ok v) : Familiar tokens := by
  obtain ⟨program, hcheck, _⟩ := exists_check_of_evaluate h
  exact (available_of_check hcheck).1

/-- Tokens that have a value have no unknown name among them. -/
theorem identifier?_ne_none_of_evaluateTokens {mode : AngleMode} {tokens : List Token} {v : Double}
    (h : evaluateTokens mode tokens = .ok v) {token : Token} (hmem : token ∈ tokens)
    (hname : token.kind = .identifier) : identifier? token.name ≠ none := by
  intro hunknown
  obtain ⟨out, harrange, hvalued⟩ := exists_arrange_of_evaluateTokens h
  have hread : token ∈ Postorder.readFrom true tokens :=
    Postorder.mem_readFrom (by simp [hname]) hmem true
  have hput : token ∈ out := by
    refine (Postorder.perm_of_arrange harrange).subset (List.mem_filter.mpr ⟨hread, ?_⟩)
    exact Postorder.hasPlace_of_kind (by simp [hname])
  obtain ⟨before, after, hcut⟩ := List.append_of_mem hput
  exact Program.familiar_of_evaluate hvalued before token after _ hcut (.identifier hname hunknown)

/-- A text that begins with an unknown name has no value. -/
theorem exists_failure_of_leading_word {text : String} {before word after : List Char}
    (hsplit : text.toList = before ++ word ++ after) (hword : Token.IsWord word)
    (hblankBefore : ∀ c ∈ before, Text.isBlank c = true)
    (hends : ∀ c, after.head? = some c → Token.isNameChar c = false)
    (hunknown : identifier? (Text.lower (String.ofList word)) = none) (mode : AngleMode) :
    ∃ failure, evaluate mode (some text) = .error failure := by
  cases hevaluate : evaluate mode (some text) with
  | error failure => exact ⟨failure, rfl⟩
  | ok v =>
    obtain ⟨_, tokens, hscan, hvalued⟩ := exists_scan_of_evaluate hevaluate
    rw [Option.getD_some, Token.scan_leading_word hsplit hword hblankBefore hends] at hscan
    cases hrest : Token.scanFrom 0 (before.length + word.length) after with
    | error failure =>
      rw [hrest] at hscan
      cases hscan
    | ok others =>
      rw [hrest] at hscan
      obtain rfl := Except.ok.inj hscan
      exact absurd hunknown (identifier?_ne_none_of_evaluateTokens hvalued List.mem_cons_self rfl)

namespace Text

def leadingLetters (cs : List Char) : List Char := cs.takeWhile Char.isAlpha

def behindLetters (cs : List Char) : List Char := cs.dropWhile Char.isAlpha

theorem letters_map_toLower (cs : List Char) :
    leadingLetters (cs.map Char.toLower) = (leadingLetters cs).map Char.toLower ∧
      behindLetters (cs.map Char.toLower) = (behindLetters cs).map Char.toLower :=
  span_map_toLower isAlpha_toLower cs

end Text

namespace CommandLine

open Text

/-- The characters come from lists none of which begins with what may continue a name. -/
theorem ends_append {left right : List Char}
    (hfirst : ∀ c, left.head? = some c → Token.isNameChar c = false)
    (hsecond : ∀ c, right.head? = some c → Token.isNameChar c = false) :
    ∀ c, (left ++ right).head? = some c → Token.isNameChar c = false := by
  cases left with
  | nil => exact hsecond
  | cons c rest => exact hfirst

theorem ends_of_blank {cs : List Char} (hblank : ∀ c ∈ cs, isBlank c = true) :
    ∀ c, cs.head? = some c → Token.isNameChar c = false :=
  fun c hfirst => Token.isNameChar_eq_false_of_isBlank (hblank c (List.mem_of_head? hfirst))

/-- A command word is plain. The letters it begins with are not in the vocabulary, and a name ends
behind them. -/
structure IsForeign (word : List Char) : Prop where
  plain : word.all isPlain = true
  letters : leadingLetters word ≠ []
  unknown : identifier? (String.ofList (leadingLetters word)) = none
  ends : (behindLetters word).head?.all (fun c => !Token.isNameChar c) = true

theorem isForeign_of_mem {word : String} (hmem : word ∈ commandWords) : IsForeign word.toList := by
  have htable : ∀ word ∈ commandWords, word.toList.all isPlain = true ∧
      leadingLetters word.toList ≠ [] ∧
      identifier? (String.ofList (leadingLetters word.toList)) = none ∧
      (behindLetters word.toList).head?.all (fun c => !Token.isNameChar c) = true := by
    decide +kernel
  obtain ⟨hplain, hletters, hunknown, hends⟩ := htable word hmem
  exact ⟨hplain, hletters, hunknown, hends⟩

/-- What is in lower case a command word begins with a name out of the vocabulary. -/
theorem isWord_of_isForeign {cs word : List Char} (hforeign : IsForeign word)
    (hascii : ∀ c ∈ cs, c.toNat < 128) (hlowered : cs.map Char.toLower = word) :
    Token.IsWord (leadingLetters cs) ∧
      identifier? (lower (String.ofList (leadingLetters cs))) = none ∧
      ∀ c, (behindLetters cs).head? = some c → Token.isNameChar c = false := by
  subst hlowered
  obtain ⟨hleads, hbehind⟩ := letters_map_toLower cs
  have hinside : ∀ c ∈ leadingLetters cs, c.toNat < 128 ∧ c.isAlpha = true := fun c hmem =>
    ⟨hascii c ((List.takeWhile_prefix _).subset hmem), List.mem_takeWhile_imp hmem⟩
  refine ⟨Token.isWord_of_isAlpha ?_ hinside, ?_, ?_⟩
  · intro hempty
    refine hforeign.letters ?_
    rw [hleads, hempty]
    rfl
  · have hunknown := hforeign.unknown
    rw [hleads] at hunknown
    rwa [lower, String.toList_ofList, lowerFrom_of_ascii fun c hmem => (hinside c hmem).1]
  · intro c hfirst
    have hnotAlpha : c.isAlpha = false := by
      have h := List.head?_dropWhile_not Char.isAlpha cs
      rw [behindLetters] at hfirst
      rw [hfirst] at h
      exact h
    have hends := hforeign.ends
    rw [hbehind, List.head?_map, hfirst] at hends
    simpa [toLower_of_not_isAlpha hnotAlpha] using hends

theorem exists_failure_of_command {line : String}
    (hcommand : lower (cutAtSpace (strip line)).1 ∈ commandWords) (mode : AngleMode) :
    ∃ failure, evaluate mode (some line) = .error failure := by
  obtain ⟨before, after, hsplit, hblankBefore, hblankAfter⟩ := exists_stripChars line.toList
  have hforeign := isForeign_of_mem hcommand
  obtain ⟨hascii, hlowered⟩ := map_toLower_of_lower rfl hforeign.plain
  have htake : (cutAtSpace (strip line)).1.toList =
      (stripChars line.toList).takeWhile (· != ' ') := by
    simp [cutAtSpace, strip]
  rw [htake] at hascii hlowered
  obtain ⟨hword, hunknown, hends⟩ := isWord_of_isForeign hforeign hascii hlowered
  -- The name ends where the word has a sign, or else at the space behind it, or with the text.
  have hbehind : ∀ c, ((stripChars line.toList).dropWhile (· != ' ')).head? = some c →
      Token.isNameChar c = false := by
    intro c hfirst
    have h := List.head?_dropWhile_not (· != ' ') (stripChars line.toList)
    rw [hfirst] at h
    have hspace : c = ' ' := by simpa using h
    rw [hspace]
    decide
  have hwhole : line.toList = before ++
      leadingLetters ((stripChars line.toList).takeWhile (· != ' ')) ++
      (behindLetters ((stripChars line.toList).takeWhile (· != ' ')) ++
        ((stripChars line.toList).dropWhile (· != ' ') ++ after)) := by
    rw [List.append_assoc, ← List.append_assoc (leadingLetters _), leadingLetters, behindLetters,
      List.takeWhile_append_dropWhile, ← List.append_assoc (List.takeWhile _ _),
      List.takeWhile_append_dropWhile, ← List.append_assoc]
    exact hsplit
  exact exists_failure_of_leading_word hwhole hword hblankBefore
    (ends_append hends (ends_append hbehind (ends_of_blank hblankAfter))) hunknown mode

theorem noCommand_of_evaluate {mode : AngleMode} {line : String} {x : Double}
    (h : evaluate mode (some line) = .ok x) :
    lower (cutAtSpace (strip line)).1 ∉ commandWords := by
  intro hcommand
  obtain ⟨failure, hfails⟩ := exists_failure_of_command hcommand mode
  rw [hfails] at h
  cases h

theorem evaluate_strip_of_ok {mode : AngleMode} {line : String} {x : Double}
    (h : evaluate mode (some line) = .ok x) : evaluate mode (some (strip line)) = .ok x := by
  have hsame := toOption_evaluate_strip mode line
  rw [h] at hsame
  cases hstripped : evaluate mode (some (strip line)) with
  | error failure =>
    rw [hstripped] at hsame
    cases hsame
  | ok y =>
    rw [hstripped] at hsame
    exact congrArg Except.ok (Option.some.inj hsame)

/-- A history with room for an entry ends with the one made last. -/
theorem getLast?_entries_add {history : History} (hroom : 0 < history.capacity)
    (expression result : String) :
    (history.add expression result).entries.getLast? =
      some (history.entry expression result) := by
  have hkept : ¬ (history.entries ++ [history.entry expression result]).length ≤
      (history.entries ++ [history.entry expression result]).length - history.capacity := by
    rw [List.length_append, List.length_singleton]
    omega
  rw [History.add, History.keepLast, List.getLast?_drop, if_neg hkept, List.getLast?_concat]

/-- What is taken for a command has no value in either mode. So a line that has a value is evaluated
as an expression; its value is shown, and the line is entered in the history without the blanks
around it. -/
theorem command_or_expression :
    (∀ line, lower (cutAtSpace (strip line)).1 ∈ commandWords →
      ∀ mode, ∃ failure, evaluate mode (some line) = .error failure) ∧
    ∀ (dialogue : Dialogue) (line : String) (x : Double),
      evaluate dialogue.session.mode (some line) = .ok x →
      Request.ofLine line = .evaluate (strip line) ∧
      ∃ after, dialogue.step line = (x.display ++ "\n", some after) ∧
        after.session.last = some ⟨some (strip line), .ok x⟩ ∧
        after.session.history = dialogue.session.history.add (strip line) x.display ∧
        (0 < dialogue.session.history.capacity → after.session.history.entries.getLast? =
          some (dialogue.session.history.entry (strip line) x.display)) := by
  refine ⟨fun line => exists_failure_of_command, fun dialogue line x h => ?_⟩
  have hfilled : allBlank line = false := (exists_scan_of_evaluate h).1
  have hasked := ofLine_of_noCommand hfilled (noCommand_of_evaluate h)
  have houtcome : dialogue.session.outcome (some (strip line)) = ⟨some (strip line), .ok x⟩ := by
    rw [Session.outcome, tryEvaluate, evaluate_strip_of_ok h]
  have hentered : (dialogue.evaluate (some (strip line))).session.history =
      dialogue.session.history.add (strip line) x.display := by
    simp only [Dialogue.evaluate, Session.after, houtcome, Session.record, Outcome.shown]
  refine ⟨hasked, dialogue.evaluate (some (strip line)), ?_, ?_, hentered, ?_⟩
  · rw [Dialogue.step, hasked]
    simp only [Dialogue.respond, Dialogue.evaluate, houtcome, Outcome.shown, Option.getD_some]
  · simp only [Dialogue.evaluate, Session.after, houtcome]
  · intro hroom
    rw [hentered]
    exact getLast?_entries_add hroom (strip line) x.display

/-- A name may begin like a command word, and a command may go on like an expression. -/
theorem command_or_expression_degrees :
    lower (cutAtSpace (strip " M- (2)")).1 ∈ commandWords ∧
    (∃ failure, evaluate .degrees (some " M- (2)") = .error failure) ∧
    evaluate .degrees (some "\te + 0 ") = .ok Double.e ∧
    Request.ofLine "\te + 0 " = .evaluate (strip "\te + 0 ") ∧
    ∃ after : Dialogue, Dialogue.step ⟨⟨.degrees, ⟨1, " = ", ["1 = 1"]⟩, Double.zero, none⟩, none⟩
        "\te + 0 " = (Double.e.display ++ "\n", some after) ∧
      after.session.history.entries.getLast? =
        some (strip "\te + 0 " ++ " = " ++ Double.e.display) := by
  have hcommand : lower (cutAtSpace (strip " M- (2)")).1 ∈ commandWords := by decide +kernel
  have hvalue : evaluate .degrees (some "\te + 0 ") = .ok Double.e := by decide +kernel
  obtain ⟨hasked, after, hstep, _, _, hentered⟩ := command_or_expression.2
    ⟨⟨.degrees, ⟨1, " = ", ["1 = 1"]⟩, Double.zero, none⟩, none⟩ _ _ hvalue
  exact ⟨hcommand, command_or_expression.1 _ hcommand .degrees, hvalue, hasked, after, hstep,
    hentered (by decide)⟩

end CommandLine

end Reckoner
