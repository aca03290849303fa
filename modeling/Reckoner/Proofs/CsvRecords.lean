import Mathlib.Data.List.Basic
import Reckoner.Report.Csv.Reader

/-!
# Records are read back

A field is written so that the reader comes to its end just where the writer did: a bare field has
no character in it that would end it, and between quotes the only character that could is written
twice. So the records of a text are those it was written for, whatever is in their fields.
-/

namespace Reckoner.Csv

set_option autoImplicit false

variable {cs : List Char} {rest field : List Char} {fields : List (List Char)}
  {records : List (List (List Char))}

/-- A comma or the end of a line, where every field has to end. -/
def Ends (rest : List Char) : Prop := rest.head? = some ',' ∨ rest.head? = some '\n'

/-- The end of a field is read alike, be it bare, empty or quoted. -/
theorem readFrom_of_ends {place : Place} (hplace : place ≠ .quoted) (h : Ends rest) :
    readFrom place rest = readFrom .bare rest := by
  cases rest with
  | nil => rcases h with h | h <;> cases h
  | cons c others =>
    rcases h with h | h
    · cases h
      cases place <;> first | rfl | exact absurd rfl hplace
    · cases h
      cases place <;> first | rfl | exact absurd rfl hplace

theorem readFrom_cons_bare {place : Place} (hplace : place ≠ .quoted ∧ place ≠ .afterQuote)
    {c : Char} (hc : needsQuotes c = false) :
    readFrom place (c :: rest) = (readFrom .bare rest).map (addChar c) := by
  simp only [needsQuotes, Bool.or_eq_false_iff, beq_eq_false_iff_ne] at hc
  obtain ⟨⟨⟨hcomma, hquote⟩, _⟩, hfeed⟩ := hc
  cases place <;> simp_all [readFrom]

theorem readFrom_bare_append (hcs : ∀ c ∈ cs, needsQuotes c = false)
    (hrest : readFrom .bare rest = some ((field :: fields) :: records)) :
    readFrom .bare (cs ++ rest) = some (((cs ++ field) :: fields) :: records) := by
  induction cs with
  | nil => exact hrest
  | cons c others ih =>
    obtain ⟨hc, hothers⟩ := List.forall_mem_cons.mp hcs
    rw [List.cons_append, readFrom_cons_bare (by decide) hc, ih hothers]
    rfl

theorem readFrom_quoted_append
    (hrest : readFrom .afterQuote rest = some ((field :: fields) :: records)) :
    readFrom .quoted (doubleQuotes cs ++ '"' :: rest) =
      some (((cs ++ field) :: fields) :: records) := by
  induction cs with
  | nil => exact hrest
  | cons c others ih =>
    have happend : doubleQuotes (c :: others) ++ '"' :: rest =
        (if c = '"' then ['"', '"'] else [c]) ++ (doubleQuotes others ++ '"' :: rest) := by
      rw [doubleQuotes, List.flatMap_cons, List.append_assoc]
      rfl
    rw [happend]
    by_cases hquote : c = '"'
    · subst hquote
      exact congrArg (Option.map (addChar '"')) ih
    · rw [if_neg hquote, List.singleton_append, readFrom, if_neg hquote, ih]
      rfl

/-- A field is read up to its end, at which the reader is no longer within quotes. -/
theorem readFrom_field {place : Place} (hplace : place = .record ∨ place = .field)
    (hends : Ends rest) (hrest : readFrom .bare rest = some (([] :: fields) :: records)) :
    readFrom place (Csv.field cs ++ rest) = some ((cs :: fields) :: records) := by
  rw [Csv.field]
  split
  · have hquoted : readFrom .quoted (doubleQuotes cs ++ '"' :: rest) =
        some ((cs :: fields) :: records) := by
      rw [readFrom_quoted_append ((readFrom_of_ends (by decide) hends).trans hrest),
        List.append_nil]
    have hopen : readFrom place ('"' :: (doubleQuotes cs ++ '"' :: rest)) =
        readFrom .quoted (doubleQuotes cs ++ '"' :: rest) := by
      rcases hplace with rfl | rfl <;> rfl
    rw [List.cons_append, List.cons_append, List.append_assoc, List.singleton_append, hopen,
      hquoted]
  · rename_i hplain
    have hcs : ∀ c ∈ cs, needsQuotes c = false := by simpa using hplain
    cases cs with
    | nil =>
      rw [List.nil_append, readFrom_of_ends (by rcases hplace with rfl | rfl <;> decide) hends]
      exact hrest
    | cons c others =>
      obtain ⟨hc, hothers⟩ := List.forall_mem_cons.mp hcs
      rw [List.cons_append, readFrom_cons_bare (by rcases hplace with rfl | rfl <;> decide) hc,
        readFrom_bare_append hothers hrest, List.append_nil]
      rfl

theorem readFrom_record {place : Place} (hplace : place = .record ∨ place = .field)
    (hfields : fields ≠ []) (hrest : readFrom .record rest = some records) :
    readFrom place (record fields ++ rest) = some (fields :: records) := by
  induction fields generalizing place with
  | nil => exact absurd rfl hfields
  | cons first others ih =>
    cases others with
    | nil =>
      have hend : readFrom .bare ('\n' :: rest) = some ([[]] :: records) :=
        congrArg (Option.map addRecord) hrest
      rw [record, List.append_assoc]
      exact readFrom_field hplace (.inr rfl) hend
    | cons second others =>
      have hothers := ih (.inr rfl) (List.cons_ne_nil second others)
      have hend : readFrom .bare (',' :: (record (second :: others) ++ rest)) =
          some (([] :: second :: others) :: records) :=
        congrArg (Option.map addField) hothers
      have hrecord : record (first :: second :: others) =
          Csv.field first ++ ',' :: record (second :: others) := rfl
      rw [hrecord, List.append_assoc, List.cons_append]
      exact readFrom_field hplace (.inl rfl) hend

theorem readFrom_document (hrecords : ∀ fields ∈ records, fields ≠ []) :
    readFrom .record (document records) = some records := by
  induction records with
  | nil => rfl
  | cons first others ih =>
    obtain ⟨hfirst, hothers⟩ := List.forall_mem_cons.mp hrecords
    exact readFrom_record (.inl rfl) hfirst (ih hothers)

/-- What is written is read back, as long as each record has a field. -/
theorem read_document (hrecords : ∀ fields ∈ records, fields ≠ []) :
    read (String.ofList (document records)) = some (records.map (·.map String.ofList)) := by
  rw [read, String.toList_ofList, readFrom_document hrecords]
  rfl

end Reckoner.Csv
