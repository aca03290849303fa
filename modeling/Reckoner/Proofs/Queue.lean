import Reckoner.History.Queue
import Reckoner.Proofs.Bookkeeping

/-!
# What a history holds and where it cuts

After any run of steps a history holds the last of the lines added. Every one of its entries has a
separator in it, and it is the first one that an entry is cut at, whether the expression alone is
asked for or both parts: the two ways of looking for it agree on the place.
-/

namespace Reckoner

set_option autoImplicit false

namespace Text

theorem exists_splitFirst? {part before behind : List Char} :
    ∃ pair, splitFirst? part (before ++ part ++ behind) = some pair := by
  induction before with
  | nil =>
    have hhere : part.isPrefixOf (part ++ behind) = true :=
      List.isPrefixOf_iff_prefix.mpr (List.prefix_append _ _)
    rw [List.nil_append]
    cases htext : part ++ behind with
    | nil => exact ⟨_, if_pos (by rw [(List.append_eq_nil_iff.mp htext).1]; rfl)⟩
    | cons c rest =>
      rw [htext] at hhere
      exact ⟨_, if_pos hhere⟩
  | cons c before ih =>
    obtain ⟨pair, hpair⟩ := ih
    rw [List.cons_append, List.cons_append, splitFirst?]
    split
    · exact ⟨_, rfl⟩
    · rw [hpair]
      exact ⟨_, rfl⟩

/-- No occurrence begins before the first one. -/
theorem length_le_of_splitFirst? {part left right : List Char} :
    ∀ {text before behind : List Char}, splitFirst? part text = some (left, right) →
      before ++ part ++ behind = text → left.length ≤ before.length := by
  intro text
  induction text generalizing left with
  | nil =>
    intro before behind hsplit happend
    simp only [splitFirst?] at hsplit
    split at hsplit
    · cases hsplit
      exact Nat.zero_le _
    · cases hsplit
  | cons c rest ih =>
    intro before behind hsplit happend
    simp only [splitFirst?] at hsplit
    split at hsplit
    · cases hsplit
      exact Nat.zero_le _
    · rename_i hnotHere
      obtain ⟨⟨left', right'⟩, hrest, hleft⟩ := Option.map_eq_some_iff.mp hsplit
      cases hleft
      cases before with
      | nil =>
        -- The text would begin with an occurrence.
        refine absurd (List.isPrefixOf_iff_prefix.mpr ?_) hnotHere
        exact happend ▸ List.prefix_append _ _
      | cons c' before =>
        rw [List.cons_append, List.cons_append] at happend
        exact Nat.succ_le_succ (ih hrest (List.cons.inj happend).2)

end Text

theorem lastMembers_nil {α : Type} (n : Nat) : lastMembers n ([] : List α) = [] := List.drop_nil

theorem length_lastMembers {α : Type} (n : Nat) (members : List α) :
    (lastMembers n members).length = min n members.length := by
  rw [lastMembers, List.length_drop]
  omega

theorem map_lastMembers {α β : Type} (f : α → β) (n : Nat) (members : List α) :
    (lastMembers n members).map f = lastMembers n (members.map f) := by
  rw [lastMembers, lastMembers, List.map_drop, List.length_map]

namespace History

theorem entryAt_eq {history : History} {index : Int} {place : Nat}
    (hsize : history.entries.length ≤ sizeBound)
    (hplace : (if index < 0 then index + history.entries.length else index) = place)
    (h : place < history.entries.length) : history.entryAt index = .ok history.entries[place] := by
  have hsize' : isSize index = true := by
    simp only [isSize, Bool.and_eq_true, decide_eq_true_eq]
    split at hplace <;> omega
  simp only [entryAt, hplace, hsize', Int.toNat_natCast, List.getElem?_eq_getElem h]
  rw [if_neg (by simp), if_neg (by omega)]

theorem entryAt_beyond {history : History} {index : Int}
    (h : index < -history.entries.length ∨ history.entries.length ≤ index) :
    ∃ fault, history.entryAt index = .error fault := by
  obtain ⟨place, hplace⟩ : ∃ place : Int,
      (if index < 0 then index + history.entries.length else index) = place := ⟨_, rfl⟩
  have hnowhere : place < 0 ∨ history.entries.length ≤ place.toNat := by
    split at hplace <;> omega
  simp only [entryAt, hplace]
  split
  · exact ⟨_, rfl⟩
  · split
    · exact ⟨_, rfl⟩
    · rw [List.getElem?_eq_none (by omega)]
      exact ⟨_, rfl⟩

/-- A place that is asked for by itself or counted from the end. -/
theorem expressionAt_eq {history : History} (hsize : history.entries.length ≤ sizeBound)
    {place : Nat} (h : place < history.entries.length) {index : Int}
    (hindex : index = place ∨ index = place - history.entries.length) :
    history.expressionAt index =
      .ok (expressionOf? history.separator history.entries[place]) := by
  have hplace : (if index < 0 then index + history.entries.length else index) = place := by
    split <;> omega
  rw [expressionAt, entryAt_eq hsize hplace h]
  rfl

theorem expressionAt_error_iff {history : History} (hsize : history.entries.length ≤ sizeBound)
    (index : Int) :
    (∃ fault, history.expressionAt index = .error fault) ↔
      index < -history.entries.length ∨ history.entries.length ≤ index := by
  constructor
  · rintro ⟨fault, hfault⟩
    by_contra hinside
    obtain ⟨place, h, hindex⟩ : ∃ place : Nat, place < history.entries.length ∧
        (index = place ∨ index = place - history.entries.length) := by
      by_cases hnegative : index < 0
      · exact ⟨(index + history.entries.length).toNat, by omega, by omega⟩
      · exact ⟨index.toNat, by omega, by omega⟩
    rw [expressionAt_eq hsize h hindex] at hfault
    cases hfault
  · intro hbeyond
    obtain ⟨fault, hfault⟩ := entryAt_beyond hbeyond
    exact ⟨fault, by rw [expressionAt, hfault]; rfl⟩

/-- A line with a separator in it is cut in two at the first one, and the expression alone is the
first part, if there is anything in it. -/
theorem exists_isCut (separator before behind : String) :
    ∃ expression result, fields separator (before ++ separator ++ behind) = (expression, result) ∧
      IsCut separator (before ++ separator ++ behind) expression result ∧
      expressionOf? separator (before ++ separator ++ behind) =
        if expression = "" then none else some expression := by
  obtain ⟨line, hline⟩ : ∃ line, before ++ separator ++ behind = line := ⟨_, rfl⟩
  have hlist : before.toList ++ separator.toList ++ behind.toList = line.toList := by
    rw [← hline, String.toList_append, String.toList_append]
  obtain ⟨⟨expression, result⟩, hsplit⟩ : ∃ pair,
      Text.splitFirst? separator.toList line.toList = some pair :=
    hlist ▸ Text.exists_splitFirst?
  have happend := Text.append_of_splitFirst? hsplit
  rw [hline]
  refine ⟨String.ofList expression, String.ofList result, ?_, ⟨?_, ?_⟩, ?_⟩
  · simp only [fields, hsplit]
  · apply String.toList_injective
    rw [String.toList_append, String.toList_append, String.toList_ofList, String.toList_ofList,
      happend]
  · intro before' behind' hother
    have hlist' : before'.toList ++ separator.toList ++ behind'.toList = line.toList := by
      rw [← hother, String.toList_append, String.toList_append]
    have hle := Text.length_le_of_splitFirst? hsplit hlist'
    rwa [← String.length_toList, ← String.length_toList, String.toList_ofList]
  · have htake : line.toList.take expression.length = expression := by
      rw [← happend, List.append_assoc, List.take_left]
    rw [expressionOf?, Text.find?_eq_map_length, hsplit, Option.map_some]
    cases expression with
    | nil => rfl
    | cons c rest =>
      have hne : String.ofList (c :: rest) ≠ "" := by
        intro hempty
        have := congrArg String.toList hempty
        rw [String.toList_ofList] at this
        cases this
      rw [if_neg hne]
      exact congrArg some (congrArg String.ofList htake)

theorem after_concat (history : History) (steps : List Step) (step : Step) :
    history.after (steps ++ [step]) = ((history.after steps).perform step).2 := by
  rw [after, List.foldl_append]
  rfl

theorem linesAdded_concat (separator : String) (steps : List Step) (step : Step) :
    linesAdded separator (steps ++ [step]) =
      if step.clears then [] else linesAdded separator steps ++ (step.line? separator).toList := by
  unfold linesAdded
  rw [Session.sinceLast_concat]
  cases step.clears with
  | true => rfl
  | false =>
    rw [if_neg Bool.false_ne_true, if_neg Bool.false_ne_true, List.filterMap_append]
    cases h : step.line? separator <;> simp [h]

/-- One more step: the history is due one line more, or none at all any more. -/
theorem perform_eq {history : History} {lines : List String}
    (hentries : history.entries = lastMembers history.capacity lines) (step : Step) :
    (history.perform step).2 = { history with
      entries := lastMembers history.capacity
        (if step.clears then [] else lines ++ (step.line? history.separator).toList) } := by
  have hsame : { history with entries := lastMembers history.capacity lines } = history := by
    rw [← hentries]
  cases step with
  | add expression result =>
    simp only [perform, add, entry, Step.clears, Step.line?, Bool.false_eq_true, if_false,
      Option.toList_some, hentries]
    exact congrArg (History.mk _ _) (Session.keepLast_drop_append _ _ _)
  | clear => simp only [perform, clear, Step.clears, if_true, lastMembers_nil]
  | expressionAt _ | rows | info =>
    simp only [perform, Step.clears, Step.line?, Bool.false_eq_true, if_false,
      Option.toList_none, List.append_nil, hsame]

/-- A run leaves the capacity and the separator alone, and the entries are the last of the lines
added. -/
theorem after_eq {history : History} (hempty : history.entries = []) (steps : List Step) :
    history.after steps = { history with
      entries := lastMembers history.capacity (linesAdded history.separator steps) } := by
  induction steps using List.reverseRecOn with
  | nil =>
    have hnone : lastMembers history.capacity (linesAdded history.separator []) =
        history.entries := by
      rw [hempty]
      exact lastMembers_nil _
    rw [hnone]
    rfl
  | append_singleton steps step ih =>
    rw [after_concat, ih, perform_eq rfl, linesAdded_concat]

theorem exists_of_mem_linesAdded {separator line : String} {steps : List Step}
    (hmem : line ∈ linesAdded separator steps) :
    ∃ expression result, line = expression ++ separator ++ result := by
  obtain ⟨step, _, hline⟩ := List.mem_filterMap.mp hmem
  cases step with
  | add expression result => exact ⟨expression, result, (Option.some.inj hline).symm⟩
  | expressionAt _ | clear | rows | info => cases hline

theorem isQueueOf_of_entries {history : History} {lines : List String}
    (hsize : history.capacity < sizeBound)
    (hentries : history.entries = lastMembers history.capacity lines)
    (hlines : ∀ line ∈ lines, ∃ expression result,
      line = expression ++ history.separator ++ result) : history.IsQueueOf lines := by
  have hlength : history.entries.length = min history.capacity lines.length := by
    rw [hentries, length_lastMembers]
  have hbound : history.entries.length ≤ sizeBound := by omega
  refine ⟨hentries, hlength, expressionAt_error_iff hbound, fun index => rfl,
    List.length_map _, ?_⟩
  intro place h
  have hmem : history.entries[place] ∈ lastMembers history.capacity lines :=
    hentries ▸ List.getElem_mem h
  obtain ⟨before, behind, hentry⟩ := hlines _ (List.mem_of_mem_drop hmem)
  obtain ⟨expression, result, hfields, hcut, hexpression⟩ :=
    exists_isCut history.separator before behind
  rw [← hentry] at hfields hcut hexpression
  refine ⟨expression, result, ?_, hcut, ?_⟩
  · rw [rows, List.getElem?_map, List.getElem?_eq_getElem h, Option.map_some, hfields]
  · intro index hindex
    rw [expressionAt_eq hbound h hindex, hexpression]

theorem new_eq_separatorFor {capacity : Nat} (hsize : capacity < sizeBound)
    (separator : Option String) :
    new (some capacity) separator = .ok ⟨capacity, separatorFor separator, []⟩ := by
  have hsize' : isSize capacity = true := by
    simp only [isSize, Bool.and_eq_true, decide_eq_true_eq]
    omega
  have hnonnegative : ¬ (capacity : Int) < 0 := by omega
  simp only [new, Option.getD_some, hsize', Bool.not_true, Bool.false_eq_true, if_false,
    hnonnegative, Int.toNat_natCast]
  refine congrArg (fun text => Except.ok (History.mk capacity text [])) ?_
  split
  · rfl
  · rfl
  · rename_i text hne
    exact (if_neg hne).symm

theorem new_eq_tooLarge {capacity : Nat} (hsize : sizeBound ≤ capacity)
    (separator : Option String) : new (some capacity) separator = .error .tooLarge := by
  have hnoSize : isSize capacity = false := by
    rw [isSize, Bool.and_eq_false_iff, decide_eq_false_iff_not, decide_eq_false_iff_not]
    omega
  simp only [new, Option.getD_some, hnoSize, Bool.not_false, if_true]

/-- A history is a bounded queue, whatever texts it is given. It can be made for every capacity
that is a size, and after any run of steps it holds the last of the lines added since it was
cleared, as many as the capacity allows; it cuts each of them the same way under its places and in
its row, and asking changes nothing. -/
theorem isQueueOf_after (capacity : Nat) (separator : Option String) :
    sizeBound ≤ capacity ∧ new (some capacity) separator = .error .tooLarge ∨
    ∃ history, new (some capacity) separator = .ok history ∧ ∀ steps,
      (history.after steps).capacity = capacity ∧
      (history.after steps).separator = separatorFor separator ∧
      (history.after steps).IsQueueOf (linesAdded (separatorFor separator) steps) := by
  rcases Nat.lt_or_ge capacity sizeBound with hsize | hsize
  · refine .inr ⟨_, new_eq_separatorFor hsize separator, ?_⟩
    intro steps
    rw [after_eq rfl]
    exact ⟨rfl, rfl, isQueueOf_of_entries hsize rfl fun line => exists_of_mem_linesAdded⟩
  · exact .inl ⟨hsize, new_eq_tooLarge hsize separator⟩

-- The separator begins in the expression, and the first one ends before the entered one does.
example : ((⟨1, "==", []⟩ : History).after [.add "" "1", .add "x=" "y==z"]).rows =
    [("x", "=y==z")] := by decide

end History

end Reckoner
