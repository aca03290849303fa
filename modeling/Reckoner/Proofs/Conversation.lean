import Reckoner.CommandLine.Hazard
import Reckoner.Proofs.Recall
import Reckoner.Proofs.Requests
import Reckoner.Proofs.Taxonomy
import Reckoner.Proofs.WaysOfUse

/-!
# Every dialogue comes to its end

Each operation of a dialogue with hazards agrees with the one without them: a value is asked of an
outcome only where there is one, a mode is looked up under its own name, and no text is worked on
that is missing. So a dialogue ends where its lines end it. The history of a dialogue holds results
only, each of which gives its expression back; that is why no entry without an expression is ever
met.
-/

namespace Reckoner

set_option autoImplicit false

namespace CommandLine

theorem ofLine_eq (line : String) : Request.ofLine line = if Text.strip line = "" then .nothing
    else (Request.ofCommand? (commandWord line) (commandArgument line)).getD
      (.evaluate (Text.strip line)) := by
  rw [Request.ofLine]
  exact if_congr String.isEmpty_iff rfl rfl

end CommandLine

open CommandLine

namespace Unguarded

theorem outcomeOf_eq (mode : AngleMode) (expression : Option String) :
    outcomeOf mode expression = .ok (Reckoner.tryEvaluate mode expression) := by
  rw [outcomeOf, tryEvaluate_eq]
  rfl

theorem valueOf_or_zero (outcome : Outcome) :
    (if outcome.isOk then valueOf outcome else .ok Double.zero) =
      .ok (outcome.value?.getD Double.zero) := by
  obtain ⟨expression, result⟩ := outcome
  cases result <;> rfl

theorem toOption_expressionOf (dialogue : Dialogue) (number : String) :
    (expressionOf dialogue.session.history number).toOption = dialogue.recalled? number := by
  unfold expressionOf Dialogue.recalled?
  cases Text.wholeNumber? number with
  | none => rfl
  | some n =>
    dsimp only
    split
    · rfl
    · cases dialogue.session.history.expressionAt (n - 1) <;> rfl

namespace Session

theorem evaluate_eq (session : Reckoner.Session) (expression : Option String) :
    evaluate session expression =
      .ok ((session.outcome expression).shown, session.after (session.outcome expression)) := by
  obtain ⟨result, hresult⟩ : ∃ result, Reckoner.evaluate session.mode expression = result :=
    ⟨_, rfl⟩
  have houtcome : Reckoner.tryEvaluate session.mode expression = ⟨expression, result⟩ := by
    rw [Reckoner.tryEvaluate, hresult]
  rw [evaluate, outcomeOf_eq, Reckoner.Session.outcome, houtcome]
  cases result with
  | error failure => cases expression <;> rfl
  | ok value =>
    cases expression with
    | none => cases hresult
    | some text => rfl

theorem valueOrZero_eq (session : Reckoner.Session) (text : Option String) :
    valueOrZero session text = .ok (session.valueOrZero text) := by
  cases text with
  | none => rfl
  | some text =>
    simp only [valueOrZero, Option.isNone_some, Bool.false_eq_true, if_false, textOf, bind,
      Except.bind, outcomeOf_eq, Reckoner.Session.valueOrZero, Reckoner.Session.isNoValue,
      beq_iff_eq, Reckoner.Session.outcome]
    split
    · rfl
    · exact valueOf_or_zero _

theorem addToMemory_eq (session : Reckoner.Session) (text : Option String) :
    addToMemory session text = .ok (session.addToMemory text) := by
  rw [addToMemory, valueOrZero_eq]
  rfl

theorem subtractFromMemory_eq (session : Reckoner.Session) (text : Option String) :
    subtractFromMemory session text = .ok (session.subtractFromMemory text) := by
  rw [subtractFromMemory, valueOrZero_eq]
  rfl

end Session

namespace Dialogue

theorem given_eq (dialogue : CommandLine.Dialogue) (argument : String) :
    given dialogue argument = dialogue.argumentOrShown argument :=
  if_congr String.isEmpty_iff.symm rfl rfl

theorem obey_history (dialogue : CommandLine.Dialogue) (text argument : String) :
    obey dialogue text "history" argument = .ok (dialogue.respond
      (if argument.isEmpty then .listHistory else .recallEntry argument)) := by
  by_cases hempty : argument = ""
  · subst hempty
    rfl
  · rw [if_neg (mt String.isEmpty_iff.mp hempty)]
    simp only [CommandLine.Dialogue.respond, ← toOption_expressionOf]
    refine (if_neg hempty).trans ?_
    cases expressionOf dialogue.session.history argument with
    | error fault => rfl
    | ok expression =>
      simp only [Session.evaluate_eq]
      rfl

theorem obey_eq (dialogue : CommandLine.Dialogue) (text command argument : String) :
    obey dialogue text command argument =
      .ok (dialogue.respond ((Request.ofCommand? command argument).getD (.evaluate text))) := by
  unfold obey
  split
  · rename_i hquit
    rcases hquit with rfl | rfl <;> rfl
  split
  · rename_i help
    subst help
    rfl
  split
  · rename_i hsetMode
    rcases hsetMode with rfl | rfl <;> rfl
  split
  · rename_i hclearMemory
    subst hclearMemory
    rfl
  split
  · rename_i hrecallMemory
    subst hrecallMemory
    rfl
  split
  · rename_i haddToMemory
    subst haddToMemory
    rw [given_eq, Session.addToMemory_eq]
    rfl
  split
  · rename_i hsubtractFromMemory
    subst hsubtractFromMemory
    rw [given_eq, Session.subtractFromMemory_eq]
    rfl
  split
  · rename_i history
    subst history
    exact obey_history dialogue text argument
  split
  · rename_i hclear
    subst hclear
    rfl
  · have hnone : command ∉ commandWords := by simp_all [commandWords]
    rw [ofCommand?_eq_none_iff.mpr hnone, Session.evaluate_eq]
    rfl

theorem step_eq (dialogue : CommandLine.Dialogue) (line : String) :
    step dialogue line = .ok (dialogue.step line) := by
  rw [step, CommandLine.Dialogue.step, ofLine_eq]
  split
  · rfl
  · exact obey_eq dialogue _ _ _

theorem converse_eq (dialogue : CommandLine.Dialogue) (lines : List String) :
    converse dialogue lines = .ok (dialogue.transcript lines, dialogue.final lines) := by
  induction lines generalizing dialogue with
  | nil => rfl
  | cons line rest ih =>
    rw [converse, step_eq, CommandLine.Dialogue.transcript, CommandLine.Dialogue.final]
    obtain ⟨output, after?⟩ := dialogue.step line
    cases after? with
    | none => rfl
    | some after =>
      simp only [bind, Except.bind, ih after]
      rfl

end Dialogue

theorem start_eq (options : Options) :
    Reckoner.Session.start (if options.degrees then some "deg" else none) none =
      .ok (session options) := by
  rw [session]
  cases options.degrees <;> rfl

theorem runDialogue_eq (options : Options) (input : String) :
    runDialogue options input = .ok (CommandLine.runDialogue (session options) input,
      Dialogue.final { session := session options } (Text.typedLines input)) := by
  rw [runDialogue, start_eq]
  simp only [bind, Except.bind, Except.mapError, Dialogue.converse_eq]
  rfl

end Unguarded

namespace CommandLine

theorem ofCommand?_eq_quit_iff {command argument : String} :
    Request.ofCommand? command argument = some .quit ↔ command = "quit" ∨ command = "exit" := by
  unfold Request.ofCommand?
  split <;> simp_all
  split <;> simp

theorem ofLine_eq_quit_iff (line : String) : Request.ofLine line = .quit ↔ quits line = true := by
  have hword : quits line = true ↔ commandWord line = "quit" ∨ commandWord line = "exit" := by
    simp [quits]
  rw [hword, ofLine_eq]
  split
  · rename_i hempty
    have hblank : commandWord line = "" := by
      rw [commandWord, hempty]
      rfl
    simp [hblank]
  · rw [← @ofCommand?_eq_quit_iff _ (commandArgument line)]
    cases Request.ofCommand? (commandWord line) (commandArgument line) <;> simp

theorem untilQuit_of_quits {line : String} (h : quits line = true) (rest : List String) :
    untilQuit (line :: rest) = [] := by
  rw [untilQuit, List.takeWhile_cons, h]
  rfl

theorem untilQuit_of_not_quits {line : String} (h : ¬ quits line = true) (rest : List String) :
    untilQuit (line :: rest) = line :: untilQuit rest := by
  rw [untilQuit, List.takeWhile_cons, Bool.eq_false_iff.mpr h]
  rfl

theorem untilQuit_append {line : String} (h : quits line = true) (before behind : List String) :
    untilQuit (before ++ line :: behind) = untilQuit before := by
  induction before with
  | nil => exact untilQuit_of_quits h behind
  | cons first rest ih =>
    rw [List.cons_append]
    by_cases hfirst : quits first = true
    · rw [untilQuit_of_quits hfirst, untilQuit_of_quits hfirst]
    · rw [untilQuit_of_not_quits hfirst, untilQuit_of_not_quits hfirst, ih]

namespace Dialogue

theorem step_of_quits (dialogue : Dialogue) {line : String} (h : quits line = true) :
    dialogue.step line = ("", none) := by
  rw [step, (ofLine_eq_quit_iff line).mpr h]
  rfl

/-- Nothing but a quitting line ends a dialogue. -/
theorem exists_step_of_not_quits (dialogue : Dialogue) {line : String} (h : ¬ quits line = true) :
    ∃ output after, dialogue.step line = (output, some after) := by
  have hrequest := mt (ofLine_eq_quit_iff line).mp h
  rw [step]
  cases hline : Request.ofLine line with
  | quit => exact absurd hline hrequest
  | recallEntry number =>
    rw [respond]
    cases dialogue.recalled? number <;> exact ⟨_, _, rfl⟩
  | _ => exact ⟨_, _, rfl⟩

theorem transcript_untilQuit (dialogue : Dialogue) (lines : List String) :
    dialogue.transcript (untilQuit lines) = dialogue.transcript lines := by
  induction lines generalizing dialogue with
  | nil => rfl
  | cons line rest ih =>
    by_cases h : quits line = true
    · rw [untilQuit_of_quits h, transcript, transcript, dialogue.step_of_quits h]
      exact (String.append_empty).symm
    · obtain ⟨output, after, hstep⟩ := dialogue.exists_step_of_not_quits h
      rw [untilQuit_of_not_quits h, transcript, transcript, hstep]
      exact congrArg (prompt ++ output ++ ·) (ih after)

theorem after?_untilQuit (dialogue : Dialogue) (lines : List String) :
    dialogue.after? (untilQuit lines) = some (dialogue.final lines) := by
  induction lines generalizing dialogue with
  | nil => rfl
  | cons line rest ih =>
    by_cases h : quits line = true
    · rw [untilQuit_of_quits h, final, dialogue.step_of_quits h]
      rfl
    · obtain ⟨output, after, hstep⟩ := dialogue.exists_step_of_not_quits h
      rw [untilQuit_of_not_quits h, after?, final, hstep]
      exact ih after

theorem final_eq_of_untilQuit_eq (dialogue : Dialogue) {lines others : List String}
    (h : untilQuit lines = untilQuit others) : dialogue.final lines = dialogue.final others := by
  apply Option.some.inj
  rw [← after?_untilQuit, h, after?_untilQuit]

theorem transcript_eq_of_untilQuit_eq (dialogue : Dialogue) {lines others : List String}
    (h : untilQuit lines = untilQuit others) :
    dialogue.transcript lines = dialogue.transcript others := by
  rw [← transcript_untilQuit, h, transcript_untilQuit]

end Dialogue

/-- Behind a line feed the lines begin anew. -/
theorem linesOf_append (cs rest : List Char) :
    Text.linesOf (cs ++ '\n' :: rest) = Text.linesOf (cs ++ ['\n']) ++ Text.linesOf rest := by
  by_cases hfeed : '\n' ∈ cs
  · obtain ⟨line, others, rfl, hline⟩ := List.eq_append_cons_of_mem hfeed
    have ih := linesOf_append others rest
    rw [List.append_assoc, List.append_assoc, List.cons_append, List.cons_append,
      Text.linesOf_append_feed hline, Text.linesOf_append_feed hline, ih, List.cons_append]
  · rw [Text.linesOf_append_feed hfeed, Text.linesOf_append_feed hfeed]
    rfl
termination_by cs.length
decreasing_by
  rename_i happend
  rw [happend, List.length_append, List.length_cons]
  omega

theorem typedLines_append {before line : String}
    (hbefore : before = "" ∨ ∃ text, before = text ++ "\n")
    (hline : '\n' ∉ line.toList) (behind : String) :
    Text.typedLines (before ++ line ++ "\n" ++ behind) =
      Text.typedLines before ++ line :: Text.typedLines behind := by
  have hone : Text.linesOf (line.toList ++ '\n' :: behind.toList) =
      line.toList :: Text.linesOf behind.toList := Text.linesOf_append_feed hline _
  have hall : Text.linesOf (before.toList ++ (line.toList ++ '\n' :: behind.toList)) =
      Text.linesOf before.toList ++ (line.toList :: Text.linesOf behind.toList) := by
    rcases hbefore with rfl | ⟨text, rfl⟩
    · exact hone
    · have hfeed : (text ++ "\n").toList = text.toList ++ ['\n'] := String.toList_append
      rw [hfeed, List.append_assoc, List.singleton_append, linesOf_append, hone]
  have htext : (before ++ line ++ "\n" ++ behind).toList =
      before.toList ++ (line.toList ++ '\n' :: behind.toList) := by
    rw [String.toList_append, String.toList_append, String.toList_append, List.append_assoc,
      List.append_assoc]
    rfl
  rw [Text.typedLines, htext, hall, List.map_append, List.map_cons, String.ofList_toList]
  rfl

end CommandLine

structure History.HoldsResults (history : History) : Prop where
  capacity : history.capacity = defaultCapacity
  separator : history.separator = defaultSeparator
  results : ∃ results : List Result, history.entries = results.map (Result.line defaultSeparator)
  room : history.entries.length ≤ defaultCapacity

namespace History.HoldsResults

variable {history : History}

theorem clear (h : history.HoldsResults) : history.clear.HoldsResults :=
  ⟨h.capacity, h.separator, ⟨[], rfl⟩, Nat.zero_le _⟩

theorem add (h : history.HoldsResults) (result : Result) :
    (history.add result.expression result.shown).HoldsResults := by
  obtain ⟨results, hresults⟩ := h.results
  have hentries : (history.add result.expression result.shown).entries =
      keepLast defaultCapacity ((results ++ [result]).map (Result.line defaultSeparator)) := by
    rw [History.add, h.capacity, entry, h.separator, hresults, List.map_append]
    rfl
  refine ⟨h.capacity, h.separator, ?_, ?_⟩
  · rw [hentries, keepLast, ← List.map_drop]
    exact ⟨_, rfl⟩
  · rw [hentries, length_keepLast]
    exact Nat.min_le_left _ _

theorem record (h : history.HoldsResults) (mode : AngleMode) (expression : Option String) :
    (Session.record history (tryEvaluate mode expression)).HoldsResults := by
  cases expression with
  | none => exact h
  | some text =>
    cases hvalue : evaluate mode (some text) with
    | error failure =>
      simp only [tryEvaluate, hvalue, Session.record]
      exact h
    | ok value =>
      simp only [tryEvaluate, hvalue, Session.record]
      exact h.add ⟨mode, text, value, hvalue⟩

theorem length_le (h : history.HoldsResults) : history.entries.length ≤ sizeBound := by
  refine h.room.trans ?_
  decide

theorem exists_expressionOf? (h : history.HoldsResults) {place : Nat}
    (hplace : place < history.entries.length) :
    ∃ expression, expressionOf? history.separator history.entries[place] = some expression := by
  obtain ⟨results, hresults⟩ := h.results
  have hmem : history.entries[place] ∈ results.map (Result.line defaultSeparator) :=
    hresults ▸ List.getElem_mem hplace
  obtain ⟨result, _, hline⟩ := List.mem_map.mp hmem
  rw [← hline, h.separator]
  exact ⟨_, result.expressionOf?_line (by decide)⟩

end History.HoldsResults

namespace CommandLine.Dialogue

variable {dialogue after : Dialogue}

theorem holdsResults_respond (h : dialogue.session.history.HoldsResults) {request : Request}
    (hafter : (dialogue.respond request).2 = some after) : after.session.history.HoldsResults := by
  cases becomes_of_respond hafter with
  | evaluated => exact h.record _ _
  | historyCleared => exact h.clear
  | same | modeSet | memoryCleared | memoryAdded | memorySubtracted => exact h

theorem holdsResults_after? {lines : List String} (h : dialogue.session.history.HoldsResults)
    (hafter : dialogue.after? lines = some after) : after.session.history.HoldsResults := by
  induction lines generalizing dialogue with
  | nil =>
    cases hafter
    exact h
  | cons line rest ih =>
    obtain ⟨middle, hstep, hrest⟩ := Option.bind_eq_some_iff.mp hafter
    exact ih (holdsResults_respond h hstep) hrest

theorem recalled?_of_lacksEntry (h : dialogue.session.history.HoldsResults) {number : String}
    (hlacks : dialogue.LacksEntry number) : dialogue.recalled? number = none := by
  rw [recalled?]
  cases hnumber : Text.wholeNumber? number with
  | none => rfl
  | some n =>
    have hbeyond := hlacks n hnumber
    dsimp only
    split
    · rfl
    · obtain ⟨fault, hfault⟩ := (History.expressionAt_error_iff h.length_le (n - 1)).mpr (by omega)
      rw [hfault]
      rfl

theorem recalled?_of_entry (h : dialogue.session.history.HoldsResults) {number : String}
    (hentry : ¬ dialogue.LacksEntry number) :
    ∃ expression, dialogue.recalled? number = some (some expression) := by
  simp only [LacksEntry, not_forall, not_or, not_lt] at hentry
  obtain ⟨n, hnumber, hleast, hgreatest⟩ := hentry
  obtain ⟨place, rfl⟩ : ∃ place : Nat, n = place + 1 := ⟨(n - 1).toNat, by omega⟩
  have hplace : place < dialogue.session.history.entries.length := by omega
  obtain ⟨expression, hexpression⟩ := h.exists_expressionOf? hplace
  refine ⟨expression, ?_⟩
  rw [recalled?, hnumber]
  dsimp only
  rw [if_neg (by omega), History.expressionAt_eq h.length_le hplace (.inl (by omega)),
    hexpression]
  rfl

theorem guardsEntries_of_holdsResults (h : dialogue.session.history.HoldsResults) :
    dialogue.GuardsEntries := by
  refine ⟨fun number => recalled?_of_entry h, ?_, ?_⟩
  · intro number hmissing
    by_cases hlacks : dialogue.LacksEntry number
    · rw [recalled?_of_lacksEntry h hlacks] at hmissing
      cases hmissing
    · obtain ⟨expression, hexpression⟩ := recalled?_of_entry h hlacks
      rw [hexpression] at hmissing
      cases hmissing
  · intro line hword hargument hlacks
    have hfilled : Text.strip line ≠ "" := by
      intro hempty
      rw [commandWord, hempty] at hword
      exact absurd hword (by decide)
    have hrequest : Request.ofLine line = .recallEntry (commandArgument line) := by
      rw [ofLine_eq, if_neg hfilled, hword]
      have hhistory : Request.ofCommand? "history" (commandArgument line) =
          some (if (commandArgument line).isEmpty then .listHistory
            else .recallEntry (commandArgument line)) := rfl
      rw [hhistory, if_neg (mt String.isEmpty_iff.mp hargument)]
      rfl
    rw [step, hrequest, respond, recalled?_of_lacksEntry h hlacks]

end CommandLine.Dialogue

namespace CommandLine

/-- A dialogue answers whatever is typed. Nothing that can be refused is refused on the way, the
exit code is zero, and the end is at the first line that quits or behind the last line; what is
printed and what the dialogue is left as depend on the lines in front of that end only. In every
dialogue on the way an entry that is there has an expression, and to ask for any other entry
changes nothing. -/
theorem runDialogue_of_any_input (options : Options) (input : String) :
    Unguarded.runDialogue options input = .ok (runDialogue (session options) input,
      Dialogue.final { session := session options } (Text.typedLines input)) ∧
    (runDialogue (session options) input).ending = .ok 0 ∧
    (∀ surroundings, levelFault? options = none → options.task = .dialogue →
      runWith surroundings options input = runDialogue (session options) input) ∧
    (Dialogue.transcript { session := session options } (untilQuit (Text.typedLines input)) =
        Dialogue.transcript { session := session options } (Text.typedLines input) ∧
      Dialogue.after? { session := session options } (untilQuit (Text.typedLines input)) =
        some (Dialogue.final { session := session options } (Text.typedLines input))) ∧
    (∀ line behind, (input = "" ∨ ∃ text, input = text ++ "\n") → '\n' ∉ line.toList →
      quits line = true →
      runDialogue (session options) (input ++ line ++ "\n" ++ behind) =
        runDialogue (session options) input ∧
      Dialogue.final { session := session options }
          (Text.typedLines (input ++ line ++ "\n" ++ behind)) =
        Dialogue.final { session := session options } (Text.typedLines input)) ∧
    ∀ lines dialogue, Dialogue.after? { session := session options } lines = some dialogue →
      dialogue.GuardsEntries := by
  refine ⟨Unguarded.runDialogue_eq options input, rfl, ?_, ⟨Dialogue.transcript_untilQuit _ _,
    Dialogue.after?_untilQuit _ _⟩, ?_, ?_⟩
  · intro surroundings hlevel htask
    rw [runWith, hlevel, htask]
  · intro line behind hinput hline hquits
    have hsame : untilQuit (Text.typedLines (input ++ line ++ "\n" ++ behind)) =
        untilQuit (Text.typedLines input) := by
      rw [typedLines_append hinput hline, untilQuit_append hquits]
    refine ⟨?_, Dialogue.final_eq_of_untilQuit_eq _ hsame⟩
    rw [runDialogue, Dialogue.transcript_eq_of_untilQuit_eq _ hsame, runDialogue]
  · intro lines dialogue hafter
    have hstart : (session options).history.HoldsResults :=
      ⟨rfl, rfl, ⟨[], rfl⟩, Nat.zero_le _⟩
    have hreached := Dialogue.holdsResults_after? hstart hafter
    exact Dialogue.guardsEntries_of_holdsResults hreached

end CommandLine

end Reckoner
