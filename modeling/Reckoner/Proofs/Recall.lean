import Reckoner.Proofs.Queue
import Reckoner.Proofs.Recovery

/-!
# What a history gives back

A text with a value has no equality sign in it, for no token spans one and it is not blank. A
separator is an equality sign with blanks around it, so the first separator of a line stands right
behind the expression: no copy of the sign comes earlier, whatever blanks the expression ends with.
-/

namespace Reckoner

set_option autoImplicit false

namespace Text

/-- The texts before the first mark of two equal texts are equal. -/
theorem eq_of_append_mark {mark : Char} {left right rest rest' : List Char} (hleft : mark ∉ left)
    (hright : mark ∉ right) (h : left ++ mark :: rest = right ++ mark :: rest') : left = right := by
  have hcut : ∀ {before behind : List Char}, mark ∉ before →
      (before ++ mark :: behind).takeWhile (· != mark) = before := by
    intro before behind hbefore
    refine (Token.takeWhile_append_eq_left ?_ ?_).1
    · intro c hmem
      exact bne_iff_ne.mpr fun hsame => hbefore (hsame ▸ hmem)
    · rintro c ⟨⟩
      exact bne_self_eq_false mark
  rw [← hcut hleft, h, hcut hright]

theorem splitFirst?_append {mark : Char} {left right text rest : List Char} (hleft : mark ∉ left)
    (htext : mark ∉ text) :
    splitFirst? (left ++ mark :: right) (text ++ (left ++ mark :: right) ++ rest) =
      some (text, rest) := by
  induction text with
  | nil =>
    have hhere : (left ++ mark :: right).isPrefixOf (left ++ mark :: right ++ rest) = true :=
      List.isPrefixOf_iff_prefix.mpr (List.prefix_append _ _)
    obtain ⟨c, others, hcons⟩ : ∃ c others, left ++ mark :: right = c :: others :=
      List.exists_cons_of_ne_nil (by simp)
    rw [List.nil_append]
    rw [hcons] at hhere ⊢
    rw [List.cons_append] at hhere ⊢
    rw [splitFirst?, if_pos hhere, ← List.cons_append, List.drop_left]
  | cons c text ih =>
    have hnotHere : ¬ (left ++ mark :: right).isPrefixOf
        (c :: (text ++ (left ++ mark :: right) ++ rest)) = true := by
      -- A separator here would have its mark within the text or within its own left part.
      intro hprefix
      obtain ⟨tail, htail⟩ := List.isPrefixOf_iff_prefix.mp hprefix
      have hmarks : left ++ mark :: (right ++ tail) =
          (c :: text ++ left) ++ mark :: (right ++ rest) := by
        simpa using htail
      have hlong : mark ∉ c :: text ++ left := by
        rw [List.mem_append]
        exact not_or.mpr ⟨htext, hleft⟩
      have hlength := congrArg List.length (eq_of_append_mark hleft hlong hmarks)
      simp only [List.length_append, List.length_cons] at hlength
      omega
    have hbehind : mark ∉ text := fun hmem => htext (List.mem_cons_of_mem c hmem)
    rw [List.cons_append, List.cons_append, splitFirst?, if_neg hnotHere, ih hbehind]
    rfl

/-- A text that comes to one character when it is stripped is that character among blanks. -/
theorem exists_blanks_of_strip {text : String} {mark : Char}
    (h : strip text = String.ofList [mark]) :
    ∃ left right, text.toList = left ++ mark :: right ∧ ∀ c ∈ left, isBlank c = true := by
  obtain ⟨left, right, hsplit, hblank, _⟩ := exists_stripChars text.toList
  have hmark : stripChars text.toList = [mark] := by
    have hlist := congrArg String.toList h
    rwa [strip, String.toList_ofList, String.toList_ofList] at hlist
  rw [hmark, List.append_assoc] at hsplit
  exact ⟨left, right, hsplit, hblank⟩

end Text

namespace Token

theorem equals_not_mem_of_starts {position : Nat} {text behind : List Char} {piece : Piece}
    (hstarts : Starts position text piece behind) : '=' ∉ piece.span := by
  intro hmem
  cases hstarts with
  | blank hblank =>
    cases List.mem_singleton.mp hmem
    cases hblank
  | number hnumber _ =>
    rcases hnumber.digits_or_point _ hmem with hdigit | hpoint
    · cases hdigit
    · cases hpoint
  | @word span _ hword _ =>
    obtain ⟨first, hhead, hletter⟩ := hword.first
    cases span with
    | nil => cases hmem
    | cons c others =>
      cases hhead
      rcases List.mem_cons.mp hmem with rfl | hmem
      · cases hletter
      · cases hword.others _ hmem
  | symbol hsymbol =>
    cases List.mem_singleton.mp hmem
    cases hsymbol

theorem equals_not_mem_of_segments {position : Nat} {text rest : List Char} {pieces : List Piece}
    (hcut : Segments position text pieces rest) : '=' ∉ Piece.text pieces := by
  induction hcut with
  | done => exact List.not_mem_nil
  | more hfirst _ ih =>
    rw [Piece.text, List.flatMap_cons, List.mem_append]
    exact not_or.mpr ⟨equals_not_mem_of_starts hfirst, ih⟩

theorem equals_not_mem_of_scan {text : String} {tokens : List Token}
    (hscan : scan text = .ok tokens) : '=' ∉ text.toList := by
  rcases exists_segments_scan text with ⟨pieces, hcut, _⟩ | ⟨_, _, _, _, _, hfailed⟩
  · rw [hcut.text_eq, List.append_nil]
    exact equals_not_mem_of_segments hcut
  · rw [hfailed] at hscan
    cases hscan

end Token

namespace Result

variable (result : Result)

theorem equals_not_mem : '=' ∉ result.expression.toList := by
  obtain ⟨tokens, _, _, hscan, _⟩ := exists_program_of_evaluate result.evaluates
  exact Token.equals_not_mem_of_scan hscan

theorem expression_ne_nil : result.expression.toList ≠ [] := by
  intro hempty
  have hblank : isEmptyExpression (some result.expression) = true := by
    rw [isEmptyExpression, Text.allBlank, hempty]
    rfl
  have hevaluates := result.evaluates
  rw [evaluate, if_pos hblank] at hevaluates
  cases hevaluates

/-- A line is cut at its first separator into the two parts it was made of. -/
theorem splitFirst?_line {separator : String} (h : Text.strip separator = "=") :
    Text.splitFirst? separator.toList (result.line separator).toList =
      some (result.expression.toList, result.shown.toList) := by
  obtain ⟨left, right, hseparator, hblank⟩ := Text.exists_blanks_of_strip h
  have hleft : '=' ∉ left := by
    intro hmem
    cases hblank '=' hmem
  rw [line, String.toList_append, String.toList_append, hseparator]
  exact Text.splitFirst?_append hleft result.equals_not_mem

theorem fields_line {separator : String} (h : Text.strip separator = "=") :
    History.fields separator (result.line separator) = (result.expression, result.shown) := by
  simp only [History.fields, result.splitFirst?_line h, String.ofList_toList]

theorem expressionOf?_line {separator : String} (h : Text.strip separator = "=") :
    History.expressionOf? separator (result.line separator) = some result.expression := by
  obtain ⟨length, hlength⟩ := Nat.exists_eq_succ_of_ne_zero
    (mt List.length_eq_zero_iff.mp result.expression_ne_nil)
  have htake : (result.line separator).toList.take (length + 1) = result.expression.toList := by
    rw [line, String.toList_append, String.toList_append, List.append_assoc, ← Nat.succ_eq_add_one,
      ← hlength]
    exact List.take_left
  rw [History.expressionOf?, Text.find?_eq_map_length, result.splitFirst?_line h, Option.map_some,
    hlength]
  exact congrArg some (by rw [htake, String.ofList_toList])

/-- Whoever evaluates the expression in the same mode is shown the same. -/
theorem perform_evaluate {session : Session} (h : session.mode = result.mode) :
    (session.perform (.evaluate (some result.expression))).1 = .ok (.text result.shown) := by
  simp only [Session.perform, Session.outcome, tryEvaluate, h, result.evaluates, Outcome.shown,
    shown]

end Result

namespace History

theorem givesBack_of_entries {history : History} {results : List Result}
    (hseparator : Text.strip history.separator = "=")
    (hentries : history.entries = results.map (Result.line history.separator))
    (hsize : results.length ≤ sizeBound) : GivesBack history results := by
  have hlength : history.entries.length = results.length := by rw [hentries, List.length_map]
  have hbound : history.entries.length ≤ sizeBound := by omega
  have hrecalled : ∀ (place : Nat) (index : Int) (h : place < results.length),
      index = place ∨ index = place - results.length →
      history.expressionAt index = .ok (some results[place].expression) := by
    intro place index h hindex
    have hplace : place < history.entries.length := by omega
    rw [expressionAt_eq hbound hplace (by omega)]
    simp only [hentries, List.getElem_map, Result.expressionOf?_line _ hseparator]
  refine ⟨hentries, ?_, ?_, ?_, ?_⟩
  · intro place h
    exact ⟨hrecalled place _ h (.inl rfl), hrecalled place _ h (.inr rfl)⟩
  · intro index h
    exact (expressionAt_error_iff hbound index).mpr (by omega)
  · rw [rows, hentries, List.map_map]
    exact List.map_congr_left fun result _ => result.fields_line hseparator
  · intro result _ session hmode
    exact result.perform_evaluate hmode

theorem run_eq_after (history : History) (events : List Event) :
    history.run events = history.after (events.map Event.step) := by
  rw [run, after, List.foldl_map]

theorem linesAdded_map_step (separator : String) (events : List Event) :
    linesAdded separator (events.map Event.step) =
      (resultsEntered events).map (Result.line separator) := by
  have hclears : Step.clears ∘ Event.step = Event.clears := by
    funext event
    cases event <;> rfl
  have hline : Step.line? separator ∘ Event.step =
      fun event => event.result?.map (Result.line separator) := by
    funext event
    cases event <;> rfl
  rw [linesAdded, resultsEntered, Session.sinceLast_map, hclears, List.filterMap_map, hline,
    List.map_filterMap]

/-- A run leaves the capacity and the separator alone, and the entries are the lines of the last
results entered. -/
theorem run_eq {history : History} (hempty : history.entries = []) (events : List Event) :
    history.run events = { history with
      entries := (lastMembers history.capacity (resultsEntered events)).map
        (Result.line history.separator) } := by
  rw [run_eq_after, after_eq hempty, linesAdded_map_step, map_lastMembers]

theorem eq_of_new {capacity : Option Int} {separator : Option String} {history : History}
    (hnew : new capacity separator = .ok history) :
    history.capacity < sizeBound ∧ history.entries = [] ∧
      (history.separator = separator.getD defaultSeparator ∨ separator = some "") := by
  unfold new at hnew
  dsimp only at hnew
  split at hnew
  · cases hnew
  · rename_i hsize
    split at hnew
    · cases hnew
    · cases hnew
      simp only [isSize, Bool.not_eq_true', Bool.not_eq_false, Bool.and_eq_true,
        decide_eq_true_eq] at hsize
      refine ⟨?_, rfl, ?_⟩
      · dsimp only
        omega
      · dsimp only
        split
        · exact .inl rfl
        · exact .inr rfl
        · exact .inl rfl

end History

namespace Session

theorem line?_eq_map_result? (event : AngleMode × Step) :
    line? event = (result? event).map (Result.line " = ") := by
  obtain ⟨mode, step⟩ := event
  cases step with
  | evaluate text =>
    cases text with
    | none => rfl
    | some text =>
      simp only [line?, result?, Result.of?]
      split
      · rename_i value hvalue
        split
        · rename_i value' hvalue'
          cases hvalue.symm.trans hvalue'
          rfl
        · rename_i failure hfailure
          cases hvalue.symm.trans hfailure
      · rename_i failure hfailure
        split
        · rename_i value hvalue
          cases hfailure.symm.trans hvalue
        · rfl
  | _ => rfl

theorem linesEntered_eq_map_resultsEntered (events : List (AngleMode × Step)) :
    linesEntered events = (resultsEntered events).map (Result.line " = ") := by
  rw [linesEntered, resultsEntered, List.map_filterMap]
  exact congrArg (fun f => List.filterMap f _) (funext line?_eq_map_result?)

theorem new_of_start {mode : Option String} {capacity : Option Int} {session : Session}
    (hstart : start mode capacity = .ok session) :
    History.new capacity none = .ok session.history := by
  unfold start at hstart
  split at hstart
  · cases hstart
  · split at hstart
    · cases hstart
    · rename_i history hhistory
      cases hstart
      exact hhistory

end Session

/-- Histories give back exactly what was put into them. In every session that was started, after
any run of steps, the history gives back the last results, as many as it has room for, of those
entered since it was cleared, each with the mode that the steps before it led to. So does every
history whose separator is an equality sign among blanks, after any run of events in which only
results are entered. -/
theorem History.givesBack_of_run {mode : Option String} {capacity : Option Int} :
    (∀ session, Session.start mode capacity = .ok session → ∀ steps,
      (session.run steps).history.GivesBack (lastMembers session.history.capacity
        (Session.resultsEntered (Session.timed session.mode steps)))) ∧
    ∀ separator history, Text.strip separator = "=" →
      History.new capacity (some separator) = .ok history → ∀ events,
        (history.run events).GivesBack
          (lastMembers history.capacity (History.resultsEntered events)) := by
  constructor
  · intro session hstart steps
    obtain ⟨_, haccounts⟩ := Session.accounts_start hstart
    have hcapacity := (eq_of_new (Session.new_of_start hstart)).1
    have hlength := length_lastMembers session.history.capacity
      (Session.resultsEntered (Session.timed session.mode steps))
    have hentries : (session.run steps).history = { session.history with
        entries := (lastMembers session.history.capacity
          (Session.resultsEntered (Session.timed session.mode steps))).map
            (Result.line " = ") } := by
      rw [(haccounts.run steps).history, haccounts.history, map_lastMembers,
        Session.linesEntered_eq_map_resultsEntered]
      rfl
    have hseparator : session.history.separator = " = " := by rw [haccounts.history]
    rw [hentries]
    refine givesBack_of_entries ?_ ?_ (by omega)
    · rw [hseparator]
      decide
    · rw [hseparator]
  · intro separator history hseparator hnew events
    obtain ⟨hcapacity, hempty, hgiven | hblank⟩ := eq_of_new hnew
    · have hlength := length_lastMembers history.capacity (resultsEntered events)
      rw [run_eq hempty]
      refine givesBack_of_entries ?_ rfl (by omega)
      rw [hgiven]
      exact hseparator
    · cases hblank
      exact absurd hseparator (by decide)

theorem History.givesBack_of_run_degrees :
    (∃ session, Session.start (some "DEG") (some 2) = .ok session ∧
      ∃ steps : List Session.Step, steps = [.evaluate (some "7"), .clearHistory,
          .evaluate (some "8"), .evaluate (some " 1+1  "), .evaluate (some "2 = 2"), .toggle,
          .evaluate (some "sin(0)\t")] ∧
        (session.run steps).history.rows = [(" 1+1  ", "2"), ("sin(0)\t", "0")]) ∧
    ∃ history result, History.new (some 2) (some "\t= ") = .ok history ∧
      result.expression = "\t3 " ∧ ∃ events : List History.Event,
        events = [.enter result, .clear, .enter result, .rows, .enter result] ∧
        (history.run events).expressionAt (-1) = .ok (some "\t3 ") := by
  have hstart : Session.start (some "DEG") (some 2) =
      .ok ⟨.degrees, ⟨2, " = ", []⟩, Double.zero, none⟩ := by rfl
  have hnew : History.new (some 2) (some "\t= ") = .ok ⟨2, "\t= ", []⟩ := by rfl
  have hthree : evaluate .radians (some "\t3 ") = .ok (Double.ofNat 3) := by decide +kernel
  obtain ⟨hsession, hhistory⟩ := @givesBack_of_run (some "DEG") (some 2)
  let three : Result := ⟨.radians, "\t3 ", _, hthree⟩
  have hback := hhistory _ _ (by decide) hnew
    [.enter three, .clear, .enter three, .rows, .enter three]
  refine ⟨⟨_, hstart, _, rfl, (hsession _ hstart _).rows.trans ?_⟩,
    _, three, hnew, rfl, _, rfl, (hback.expressionAt 1 (Nat.lt_succ_self 1)).2⟩
  decide +kernel

end Reckoner
