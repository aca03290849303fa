import Mathlib.Data.List.Induction
import Reckoner.Proofs.FailureWord
import Reckoner.Proofs.Zeros
import Reckoner.Session.Account

/-!
# The state of a session

Each step changes the parts of a session as an account of the steps says, and leaves the other
parts alone; so after any run the session is what the account comes to. The memory is never the
negative zero, which is why adding zero to it leaves it as it is.
-/

namespace Reckoner

set_option autoImplicit false

namespace Session

theorem timed_concat (mode : AngleMode) (steps : List Step) (step : Step) :
    timed mode (steps ++ [step]) = timed mode steps ++ [(steps.foldl modeAfter mode, step)] := by
  induction steps generalizing mode with
  | nil => rfl
  | cons first rest ih => rw [List.cons_append, timed, ih, timed, List.foldl_cons, List.cons_append]

theorem sinceLast_concat {α : Type} (isKind : α → Bool) (members : List α) (member : α) :
    sinceLast isKind (members ++ [member]) =
      if isKind member then [] else sinceLast isKind members ++ [member] := by
  unfold sinceLast
  rw [List.reverse_concat, List.takeWhile_cons]
  cases isKind member <;> simp

theorem sinceLast_map {α β : Type} (isKind : β → Bool) (f : α → β) (members : List α) :
    sinceLast isKind (members.map f) = (sinceLast (isKind ∘ f) members).map f := by
  unfold sinceLast
  rw [← List.map_reverse, List.takeWhile_map, List.map_reverse]
  rfl

theorem lastOutcome?_concat (events : List (AngleMode × Step)) (event : AngleMode × Step) :
    lastOutcome? (events ++ [event]) = (outcome? event).or (lastOutcome? events) := by
  unfold lastOutcome?
  rw [List.filterMap_append, List.getLast?_append]
  cases h : outcome? event <;> simp [h]

theorem memorySum_concat (events : List (AngleMode × Step)) (event : AngleMode × Step) :
    memorySum (events ++ [event]) =
      if clearsMemory event then Double.zero
      else (term? event).elim (memorySum events) (memorySum events).add := by
  unfold memorySum
  rw [sinceLast_concat]
  cases clearsMemory event with
  | true => rfl
  | false =>
    rw [if_neg Bool.false_ne_true, if_neg Bool.false_ne_true, List.filterMap_append,
      List.foldl_append]
    cases h : term? event <;> simp [h]

theorem linesEntered_concat (events : List (AngleMode × Step)) (event : AngleMode × Step) :
    linesEntered (events ++ [event]) =
      if clearsHistory event then [] else linesEntered events ++ (line? event).toList := by
  unfold linesEntered
  rw [sinceLast_concat]
  cases clearsHistory event with
  | true => rfl
  | false =>
    rw [if_neg Bool.false_ne_true, if_neg Bool.false_ne_true, List.filterMap_append]
    cases h : line? event <;> simp [h]

theorem mode_perform (session : Session) (step : Step) :
    (session.perform step).2.mode = modeAfter session.mode step := by
  cases step with
  | setMode name =>
    simp only [perform, modeAfter]
    cases defaultMode.readOr name <;> rfl
  | _ => rfl

theorem last_perform (session : Session) (step : Step) :
    (session.perform step).2.last = (outcome? (session.mode, step)).or session.last := by
  cases step with
  | setMode name =>
    simp only [perform]
    cases defaultMode.readOr name <;> rfl
  | _ => rfl

theorem valueOrZero_eq_valueIn (session : Session) (text : Option String) :
    session.valueOrZero text = valueIn session.mode text := by
  rw [valueOrZero_eq, valueIn, tryEvaluate, Outcome.value?]
  cases evaluate session.mode text <;> rfl

theorem memory_perform (session : Session) (step : Step) :
    (session.perform step).2.memory =
      if clearsMemory (session.mode, step) then Double.zero
      else (term? (session.mode, step)).elim session.memory session.memory.add := by
  cases step with
  | setMode name =>
    simp only [perform]
    cases defaultMode.readOr name <;> rfl
  | addToMemory text =>
    simp only [perform, addToMemory, valueOrZero_eq_valueIn]
    rfl
  | subtractFromMemory text =>
    simp only [perform, subtractFromMemory, valueOrZero_eq_valueIn]
    rfl
  | _ => rfl

theorem record_tryEvaluate (mode : AngleMode) {history : History}
    (hseparator : history.separator = " = ") (text : Option String) :
    record history (tryEvaluate mode text) =
      { history with entries := (line? (mode, .evaluate text)).elim history.entries fun line =>
          History.keepLast history.capacity (history.entries ++ [line]) } := by
  cases text with
  | none => rfl
  | some text =>
    simp only [record, tryEvaluate, line?]
    cases evaluate mode (some text) with
    | error failure => rfl
    | ok value =>
      simp only [History.add, History.entry, hseparator, Outcome.shown, Option.elim_some]

theorem history_perform {session : Session} (hseparator : session.history.separator = " = ")
    (step : Step) :
    (session.perform step).2.history =
      { session.history with
        entries := (if clearsHistory (session.mode, step) then []
          else (line? (session.mode, step)).elim session.history.entries fun line =>
            History.keepLast session.history.capacity (session.history.entries ++ [line])) } := by
  cases step with
  | evaluate text => exact record_tryEvaluate session.mode hseparator text
  | setMode name =>
    simp only [perform]
    cases defaultMode.readOr name <;> rfl
  | _ => rfl

theorem valueOrZero_eq_zero {session : Session} {text : Option String}
    (hfails : (evaluate session.mode text).toOption.isNone = true) :
    session.valueOrZero text = Double.zero := by
  rw [valueOrZero_eq_valueIn, valueIn]
  cases hresult : evaluate session.mode text with
  | error failure => rfl
  | ok value =>
    rw [hresult] at hfails
    cases hfails

/-- A step that asks or fails leaves the session as it is. -/
theorem perform_of_isIdle {session : Session} (hmemory : session.memory ≠ Double.zero.neg)
    {step : Step} (hidle : isIdle session.mode step = true) :
    (session.perform step).2 = session := by
  cases step with
  | status | current _ | recallMemory | expressionAt _ | entries | rows => rfl
  | evaluate _ | toggle | clearMemory | clearHistory => cases hidle
  | setMode name =>
    simp only [isIdle] at hidle
    simp only [perform]
    cases hname : defaultMode.readOr name with
    | error unknown => rfl
    | ok mode =>
      rw [hname] at hidle
      cases hidle
  | addToMemory text =>
    -- The sum with zero would lose the sign of a negative zero; the memory never holds one.
    have hsum : session.memory.add Double.zero = session.memory :=
      Double.add_finite_zero false fun _ => hmemory
    simp only [perform, addToMemory, valueOrZero_eq_zero hidle, hsum]
  | subtractFromMemory text =>
    have hsum : session.memory.add Double.zero.neg = session.memory :=
      Double.add_finite_zero true fun h => by cases h
    simp only [perform, subtractFromMemory, valueOrZero_eq_zero hidle, Double.sub, hsum]

theorem isIdle_of_refused {session : Session} {step : Step} {fault : StepFault}
    (hrefused : (session.perform step).1 = .error fault) : isIdle session.mode step = true := by
  cases step with
  | setMode name =>
    simp only [perform] at hrefused
    simp only [isIdle]
    cases hname : defaultMode.readOr name with
    | error unknown => rfl
    | ok mode =>
      rw [hname] at hrefused
      cases hrefused
  | expressionAt index => rfl
  | _ => cases hrefused

/-- An evaluation that fails leaves its failure behind and nothing else. -/
theorem perform_evaluate_error {session : Session} {text : Option String} {failure : Failure}
    (hfails : evaluate session.mode text = .error failure) :
    (session.perform (.evaluate text)).2 =
      { session with last := some ⟨text, .error failure⟩ } := by
  have houtcome : session.outcome text = ⟨text, .error failure⟩ := by
    rw [outcome, tryEvaluate, hfails]
  have hrecord : record session.history ⟨text, .error failure⟩ = session.history := by
    cases text <;> rfl
  simp only [perform, after, houtcome, hrecord]

structure Accounts (capacity : Nat) (events : List (AngleMode × Step)) (session : Session) :
    Prop where
  last : session.last = lastOutcome? events
  memory : session.memory = memorySum events
  history : session.history = ⟨capacity, " = ",
    (linesEntered events).drop ((linesEntered events).length - capacity)⟩

/-- Keeping the last lines after each line that is entered keeps the last lines of all. -/
theorem keepLast_drop_append (capacity : Nat) (lines : List String) (line : String) :
    History.keepLast capacity (lines.drop (lines.length - capacity) ++ [line]) =
      (lines ++ [line]).drop ((lines ++ [line]).length - capacity) := by
  have happend : lines.drop (lines.length - capacity) ++ [line] =
      (lines ++ [line]).drop (lines.length - capacity) :=
    (List.drop_append_of_le_length (Nat.sub_le _ _)).symm
  rw [happend, History.keepLast, List.drop_drop, List.length_drop, List.length_append,
    List.length_singleton]
  congr 1
  omega

theorem Accounts.perform {capacity : Nat} {events : List (AngleMode × Step)} {session : Session}
    (h : Accounts capacity events session) (step : Step) :
    Accounts capacity (events ++ [(session.mode, step)]) (session.perform step).2 := by
  have hseparator : session.history.separator = " = " := by rw [h.history]
  refine ⟨?_, ?_, ?_⟩
  · rw [last_perform, lastOutcome?_concat, h.last]
  · rw [memory_perform, memorySum_concat, h.memory]
  · rw [history_perform hseparator, linesEntered_concat, h.history]
    cases clearsHistory (session.mode, step) with
    | true => simp
    | false =>
      cases line? (session.mode, step) with
      | none => simp
      | some line =>
        simp only [Bool.false_eq_true, if_false, Option.elim_some, Option.toList_some,
          keepLast_drop_append]

theorem run_concat (session : Session) (steps : List Step) (step : Step) :
    session.run (steps ++ [step]) = ((session.run steps).perform step).2 := by
  rw [run, List.foldl_append]
  rfl

theorem mode_run (session : Session) (steps : List Step) :
    (session.run steps).mode = steps.foldl modeAfter session.mode := by
  induction steps using List.reverseRecOn with
  | nil => rfl
  | append_singleton steps step ih =>
    rw [run_concat, mode_perform, ih, List.foldl_append]
    rfl

theorem Accounts.run {capacity : Nat} {session : Session} (h : Accounts capacity [] session)
    (steps : List Step) :
    Accounts capacity (timed session.mode steps) (session.run steps) := by
  -- Step by step from the end, for an account grows at its end.
  induction steps using List.reverseRecOn with
  | nil => exact h
  | append_singleton steps step ih =>
    have hstep := ih.perform step
    rw [mode_run] at hstep
    rw [run_concat, timed_concat]
    exact hstep

theorem Accounts.memory_ne_neg_zero {capacity : Nat} {events : List (AngleMode × Step)}
    {session : Session} (h : Accounts capacity events session) :
    session.memory ≠ Double.zero.neg := by
  rw [h.memory]
  exact Double.foldl_add_ne_neg_zero Double.zero_ne_neg_zero _

/-- What a session starts with. -/
theorem accounts_start {mode : Option String} {capacity : Option Int} {session : Session}
    (hstart : start mode capacity = .ok session) :
    defaultMode.readOr mode = .ok session.mode ∧
      Accounts (capacity.getD History.defaultCapacity).toNat [] session := by
  unfold start at hstart
  split at hstart
  · cases hstart
  · rename_i named hmode
    split at hstart
    · cases hstart
    · rename_i history hhistory
      cases hstart
      refine ⟨hmode, rfl, rfl, ?_⟩
      unfold History.new at hhistory
      dsimp only at hhistory
      split at hhistory
      · cases hhistory
      · split at hhistory
        · cases hhistory
        · cases hhistory
          have hlines : linesEntered [] = [] := rfl
          rw [hlines, List.drop_nil]
          rfl

/-- The law of a session. After any run of steps its mode is what the toggles and the modes that
were named and known make of the first one; the last outcome is that of the last evaluation; the
memory is the sum, taken from left to right, of what was added to it since it was cleared; and the
history holds the last lines, as many as it has room for, of those entered since it was cleared. A
step that asks, a step that is refused and a step on the memory without a value change nothing, and
an evaluation that fails changes the last outcome only. -/
theorem run_of_start {mode : Option String} {capacity : Option Int} {session : Session}
    (hstart : start mode capacity = .ok session) :
    defaultMode.readOr mode = .ok session.mode ∧
    ∀ steps : List Step,
      (session.run steps).mode = steps.foldl modeAfter session.mode ∧
      (session.run steps).last = lastOutcome? (timed session.mode steps) ∧
      (session.run steps).memory = memorySum (timed session.mode steps) ∧
      (session.run steps).history.entries =
        (linesEntered (timed session.mode steps)).drop
          ((linesEntered (timed session.mode steps)).length -
            (capacity.getD History.defaultCapacity).toNat) ∧
      (∀ step fault, ((session.run steps).perform step).1 = .error fault →
        isIdle (session.run steps).mode step = true) ∧
      (∀ step, isIdle (session.run steps).mode step = true →
        ((session.run steps).perform step).2 = session.run steps) ∧
      ∀ text failure, evaluate (session.run steps).mode text = .error failure →
        ((session.run steps).perform (.evaluate text)).2 =
          { session.run steps with last := some ⟨text, .error failure⟩ } := by
  obtain ⟨hmode, haccounts⟩ := accounts_start hstart
  refine ⟨hmode, fun steps => ?_⟩
  have hrun := haccounts.run steps
  refine ⟨mode_run session steps, hrun.last, hrun.memory, ?_, ?_, ?_, ?_⟩
  · rw [hrun.history]
  · intro step fault hrefused
    exact isIdle_of_refused hrefused
  · intro step hidle
    exact perform_of_isIdle hrun.memory_ne_neg_zero hidle
  · intro text failure hfails
    exact perform_evaluate_error hfails

theorem run_of_start_degrees :
    ∃ session, start (some "DEG") (some 1) = .ok session ∧
      ∃ steps : List Step, steps = [.evaluate (some "7"), .subtractFromMemory (some "5"),
          .clearMemory, .setMode (some "grad"), .evaluate (some "2+2"),
          .addToMemory (some " eRRoR "), .subtractFromMemory (some "3"), .toggle,
          .expressionAt 7, .evaluate none] ∧
        (session.run steps).mode = .radians ∧
        (session.run steps).last = some ⟨none, .error .emptyExpression⟩ ∧
        (session.run steps).memory = (Double.ofNat 3).neg ∧
        (session.run steps).history.entries = ["2+2 = 4"] := by
  have hstart : start (some "DEG") (some 1) =
      .ok ⟨.degrees, ⟨1, " = ", []⟩, Double.zero, none⟩ := by rfl
  obtain ⟨_, hrun⟩ := run_of_start hstart
  obtain ⟨hmode, hlast, hmemory, hentries, _⟩ := hrun _
  refine ⟨_, hstart, _, rfl, hmode.trans ?_, hlast.trans rfl, hmemory.trans ?_, hentries.trans ?_⟩
  · decide +kernel
  · decide +kernel
  · decide +kernel

end Session

end Reckoner
