import Reckoner.Proofs.CommandWords
import Reckoner.Proofs.CsvRecords
import Reckoner.Proofs.Numerals
import Reckoner.Proofs.Taxonomy
import Reckoner.Report.Rows

/-!
# What is written of a file

The records of a written report are those of the lines of the file, as far as anything stands in
them. Where a line ends may be told in more than one way, but only by taking an empty line for one,
or not.
-/

namespace Reckoner

set_option autoImplicit false

namespace Text

theorem strip_eq_empty_iff (text : String) : strip text = "" ↔ allBlank text = true := by
  constructor
  · intro hempty
    by_contra hfilled
    exact strip_ne_empty (Bool.eq_false_iff.mpr hfilled) hempty
  · intro hblank
    have hdrop : text.toList.dropWhile isBlank = [] :=
      List.dropWhile_eq_nil_iff.mpr (List.all_eq_true.mp hblank)
    rw [strip, stripChars, hdrop]
    rfl

/-- A carriage return may end a line together with a line feed behind it. -/
theorem unifyLineEnds_ending_cases {ending : String} (hmem : ending ∈ fileEnds)
    (behind : List Char) :
    unifyLineEnds (ending.toList ++ behind) = '\n' :: unifyLineEnds behind ∨
    ∃ rest, behind = '\n' :: rest ∧
      unifyLineEnds (ending.toList ++ behind) = '\n' :: unifyLineEnds rest := by
  by_cases hfeed : behind.head? = some '\n'
  · obtain ⟨rest, rfl⟩ := List.head?_eq_some_iff.mp hfeed
    rcases List.mem_cons.mp hmem with rfl | hmem
    · exact .inl rfl
    rcases List.mem_cons.mp hmem with rfl | hmem
    · exact .inl rfl
    obtain rfl := List.mem_singleton.mp hmem
    exact .inr ⟨rest, rfl, rfl⟩
  · exact .inl (unifyLineEnds_ending hmem hfeed)

def isFilled (line : String) : Bool := !allBlank line

theorem exists_fileLines_append {line ending : String} (hmem : ending ∈ fileEnds)
    (hnoFeed : '\n' ∉ line.toList) (hnoReturn : '\r' ∉ line.toList) (text : String) :
    ∃ others, fileLines (line ++ ending ++ text) = line :: others ∧
      others.filter isFilled = (fileLines text).filter isFilled := by
  have htext : (line ++ ending ++ text).toList =
      line.toList ++ (ending.toList ++ text.toList) := by
    rw [String.toList_append, String.toList_append, List.append_assoc]
  have hcut : ∀ rest, unifyLineEnds (ending.toList ++ text.toList) = '\n' :: unifyLineEnds rest →
      fileLines (line ++ ending ++ text) =
        line :: (linesOf (unifyLineEnds rest)).map String.ofList := by
    intro rest hrest
    rw [fileLines, htext, unifyLineEnds_append hnoReturn, hrest, linesOf_append_feed hnoFeed,
      List.map_cons, String.ofList_toList]
  rcases unifyLineEnds_ending_cases hmem text.toList with hend | ⟨rest, hrest, hend⟩
  · exact ⟨_, hcut _ hend, rfl⟩
  · refine ⟨_, hcut _ hend, ?_⟩
    -- The line feed is an empty line of its own where the text is taken alone.
    have hempty : fileLines text = "" :: (linesOf (unifyLineEnds rest)).map String.ofList := by
      have hfeed : linesOf ('\n' :: unifyLineEnds rest) = [] :: linesOf (unifyLineEnds rest) :=
        linesOf_append_feed List.not_mem_nil _
      rw [fileLines, hrest]
      exact congrArg (List.map String.ofList) hfeed
    rw [hempty]
    rfl

theorem filter_fileLines {text : String} {lines : List String} (h : IsCutInto text lines) :
    (fileLines text).filter isFilled = lines.filter isFilled := by
  obtain ⟨hlines, hnoEnds⟩ := h
  induction hlines with
  | nil => rfl
  | last line =>
    obtain ⟨hnoFeed, hnoReturn⟩ := hnoEnds line List.mem_cons_self
    by_cases hempty : line = ""
    · subst hempty
      rfl
    · have hline : ∀ line' ∈ [line], IsLine line' :=
        List.forall_mem_singleton.mpr ⟨hempty, hnoFeed, hnoReturn⟩
      rw [fileLines_of_hasLines hline (.last line)]
  | @cons ending text' rest line hmem hbehind ih =>
    obtain ⟨⟨hnoFeed, hnoReturn⟩, hrest⟩ := List.forall_mem_cons.mp hnoEnds
    obtain ⟨others, hothers, hfilter⟩ := exists_fileLines_append hmem hnoFeed hnoReturn text'
    rw [hothers, List.filter_cons, List.filter_cons, hfilter, ih hrest]

/-- A character that ends no line goes in front of the first one. -/
theorem IsCutInto.exists_cons {text : String} {lines : List String} (h : IsCutInto text lines)
    {c : Char} (hfeed : c ≠ '\n') (hreturn : c ≠ '\r') :
    ∃ lines, IsCutInto (String.ofList [c] ++ text) lines := by
  have hends : ∀ {line : String}, '\n' ∉ line.toList ∧ '\r' ∉ line.toList →
      '\n' ∉ (String.ofList [c] ++ line).toList ∧ '\r' ∉ (String.ofList [c] ++ line).toList := by
    intro line hline
    rw [String.toList_append, String.toList_ofList, List.singleton_append, List.mem_cons,
      List.mem_cons]
    exact ⟨not_or.mpr ⟨hfeed.symm, hline.1⟩, not_or.mpr ⟨hreturn.symm, hline.2⟩⟩
  obtain ⟨hlines, hnoEnds⟩ := h
  cases hlines with
  | nil =>
    refine ⟨[String.ofList [c] ++ ""], .last _, List.forall_mem_singleton.mpr (hends ?_)⟩
    exact ⟨List.not_mem_nil, List.not_mem_nil⟩
  | last =>
    refine ⟨[String.ofList [c] ++ text], .last _, ?_⟩
    exact List.forall_mem_singleton.mpr (hends (hnoEnds text List.mem_cons_self))
  | @cons ending text rest line hmem hbehind =>
    obtain ⟨hline, hrest⟩ := List.forall_mem_cons.mp hnoEnds
    refine ⟨(String.ofList [c] ++ line) :: rest, ?_, List.forall_mem_cons.mpr ⟨hends hline, hrest⟩⟩
    rw [← String.append_assoc, ← String.append_assoc]
    exact .cons _ hmem hbehind

/-- Every text can be cut into lines. -/
theorem exists_isCutInto (text : String) : ∃ lines, IsCutInto text lines := by
  suffices h : ∀ cs : List Char, ∃ lines, IsCutInto (String.ofList cs) lines by
    obtain ⟨lines, hlines⟩ := h text.toList
    rw [String.ofList_toList] at hlines
    exact ⟨lines, hlines⟩
  intro cs
  induction cs with
  | nil => exact ⟨[], .nil, List.forall_mem_nil _⟩
  | cons c rest ih =>
    obtain ⟨lines, hlines⟩ := ih
    have hcons : String.ofList (c :: rest) = String.ofList [c] ++ String.ofList rest := by
      rw [← String.ofList_append, List.singleton_append]
    rw [hcons]
    by_cases hend : c = '\n' ∨ c = '\r'
    · have hmem : String.ofList [c] ∈ fileEnds := by
        rcases hend with rfl | rfl <;> decide
      refine ⟨"" :: lines, ?_, List.forall_mem_cons.mpr
        ⟨⟨List.not_mem_nil, List.not_mem_nil⟩, hlines.noEnds⟩⟩
      have hbehind := HasLines.cons "" hmem hlines.hasLines
      rwa [String.empty_append] at hbehind
    · obtain ⟨hfeed, hreturn⟩ := not_or.mp hend
      exact hlines.exists_cons hfeed hreturn

end Text

theorem FailureKind.label_ne_empty (kind : FailureKind) : kind.label ≠ "" := by
  cases kind <;> decide +kernel

namespace Report

def recordOf (outcome : Outcome) : List String := (rowFields outcome).map String.ofList

theorem recordOf_ok (expression : String) (x : Double) :
    recordOf ⟨some expression, .ok x⟩ = [expression, x.exactText, x.display, ""] := by
  simp [recordOf, rowFields, Outcome.value?, Outcome.shown, Outcome.failureLabel?, Outcome.failure?,
    Except.toOption, Double.exactText]

theorem recordOf_error (expression : String) (failure : Failure) :
    recordOf ⟨some expression, .error failure⟩ =
      [expression, "", failureText, failure.kind.label] := by
  simp [recordOf, rowFields, Outcome.value?, Outcome.shown, Outcome.failureLabel?, Outcome.failure?,
    Except.toOption]

theorem exists_error_strip {mode : AngleMode} {line : String} {failure : Failure}
    (h : evaluate mode (some line) = .error failure) :
    ∃ other, evaluate mode (some (Text.strip line)) = .error other ∧
      other.kind = failure.kind := by
  have hkind := evaluate_strip mode line
  rw [h] at hkind
  cases hstripped : evaluate mode (some (Text.strip line)) with
  | ok x =>
    rw [hstripped] at hkind
    cases hkind
  | error other =>
    rw [hstripped] at hkind
    exact ⟨other, rfl, Except.error.inj hkind⟩

theorem exactText_ne_empty {x : Double} (h : x.isFinite = true) : x.exactText ≠ "" := by
  intro hempty
  have hreads := Double.ofNumeral?_exactText h
  rw [hempty] at hreads
  cases hreads

/-- The record of a line that was stripped before it was evaluated. -/
theorem isRecordOf_strip (mode : AngleMode) (line : String) :
    IsRecordOf mode line (recordOf (tryEvaluate mode (some (Text.strip line)))) := by
  cases hvalue : evaluate mode (some line) with
  | ok x =>
    have hfinite := isFinite_of_evaluate hvalue
    rw [tryEvaluate, CommandLine.evaluate_strip_of_ok hvalue, recordOf_ok]
    exact .value hvalue (exactText_ne_empty hfinite) (Double.ofNumeral?_exactText hfinite)
  | error failure =>
    obtain ⟨other, hstripped, hkind⟩ := exists_error_strip hvalue
    rw [tryEvaluate, hstripped, recordOf_error, hkind]
    exact .failure hvalue failure.kind.label_ne_empty

theorem read_csv (report : Report) :
    Csv.read report.csv = some (columns :: report.map recordOf) := by
  have hrecords : ∀ fields ∈ columns.map String.toList :: report.map rowFields, fields ≠ [] := by
    intro fields hmem
    rcases List.mem_cons.mp hmem with rfl | hmem
    · exact List.cons_ne_nil _ _
    · obtain ⟨outcome, _, rfl⟩ := List.mem_map.mp hmem
      exact List.cons_ne_nil _ _
  have hcolumns : (columns.map String.toList).map String.ofList = columns := by
    rw [List.map_map]
    exact List.map_id'' (fun _ => String.ofList_toList) columns
  rw [csv, Csv.read_document hrecords, List.map_cons, hcolumns, List.map_map]
  rfl

end Report

namespace CommandLine

theorem expressionsOf_eq (text : String) :
    expressionsOf text = ((Text.fileLines text).filter Text.isFilled).map Text.strip := by
  have hfilled : (fun line : String => !line.isEmpty) ∘ Text.strip = Text.isFilled := by
    funext line
    rw [Function.comp_apply, Text.isFilled]
    refine congrArg not (Bool.eq_iff_iff.mpr ?_)
    rw [String.isEmpty_iff, Text.strip_eq_empty_iff]
  rw [expressionsOf, List.filter_map, hfilled]

/-- What is written of a file can be read again and nothing is lost. However its text is cut into
lines, the records behind the headings are those of the lines in which something stands, in order:
each says the line, a numeral that is read as the value, the sign of a zero included, the value as
it is displayed, and the kind of a failure. -/
theorem runFile_lossless {surroundings : Surroundings} {mode : AngleMode}
    {input output text : String} (hfound : surroundings.read input = .ok text)
    (hsaved : saveFault? surroundings output = none) :
    (∃ lines, Text.IsCutInto text lines) ∧
    ∃ csv, (runFile surroundings mode input (some output)).written = [(output, csv)] ∧
      ∀ lines, Text.IsCutInto text lines →
        ∃ records, Csv.read csv = some (Report.columns :: records) ∧
          List.Forall₂ (Report.IsRecordOf mode) (lines.filter Text.isFilled) records := by
  refine ⟨Text.exists_isCutInto text,
    (Report.ofExpressions mode ((expressionsOf text).map some)).csv, ?_, ?_⟩
  · simp only [runFile, hfound, save, hsaved]
  · intro lines hlines
    refine ⟨_, Report.read_csv _, ?_⟩
    rw [expressionsOf_eq, Text.filter_fileLines hlines, Report.ofExpressions, List.map_map,
      List.map_map, List.map_map]
    apply List.forall₂_map_right_iff.mpr
    apply List.forall₂_same.mpr
    intro line _
    exact Report.isRecordOf_strip mode line

/-- A negative zero, an empty line, quotes and commas, and a value that is not displayed in full. -/
theorem runFile_lossless_quoted :
    let text := " -0\r\n\r\"a\", 1\n1/3"
    let surroundings : Surroundings := ⟨fun _ => .ok text, fun _ => none, fun _ => none⟩
    let csv := "expression,result,formatted,error\n-0,-0.0,0,\n" ++
      "\"\"\"a\"\", 1\",,Error,unexpected_character\n" ++
      "1/3,0.3333333333333333,0.333333333333333,\n"
    Text.IsCutInto text [" -0", "", "\"a\", 1", "1/3"] ∧
      (runFile surroundings .degrees "in.txt" (some "out.csv")).written = [("out.csv", csv)] ∧
      ∃ records, Csv.read csv = some (Report.columns :: records) ∧
        List.Forall₂ (Report.IsRecordOf .degrees) [" -0", "\"a\", 1", "1/3"] records := by
  intro text surroundings csv
  have hfeed : "\n" ∈ Text.fileEnds := by decide
  have hreturned : "\r" ∈ Text.fileEnds := by decide
  have hboth : "\r\n" ∈ Text.fileEnds := by decide
  have hlines : Text.IsCutInto text [" -0", "", "\"a\", 1", "1/3"] := by
    refine ⟨.cons " -0" hboth (.cons "" hreturned (.cons "\"a\", 1" hfeed (.last "1/3"))), ?_⟩
    refine List.forall_mem_cons.mpr ⟨by decide, List.forall_mem_cons.mpr ⟨by decide,
      List.forall_mem_cons.mpr ⟨by decide, List.forall_mem_singleton.mpr (by decide)⟩⟩⟩
  have hwritten : (runFile surroundings .degrees "in.txt" (some "out.csv")).written =
      [("out.csv", csv)] := by decide +kernel
  obtain ⟨_, written, hsame, hrecords⟩ :=
    @runFile_lossless surroundings .degrees "in.txt" "out.csv" text rfl rfl
  obtain rfl : written = csv := by
    rw [hwritten] at hsame
    exact (Prod.mk.inj (List.singleton_inj.mp hsame)).2.symm
  have hfilled : [" -0", "", "\"a\", 1", "1/3"].filter Text.isFilled =
      [" -0", "\"a\", 1", "1/3"] := by decide
  exact ⟨hlines, hwritten, hfilled ▸ hrecords _ hlines⟩

end CommandLine

end Reckoner
