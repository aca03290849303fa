import Mathlib.Data.List.TakeWhile
import Reckoner.Token.Segmentation
import Reckoner.Vocabulary

/-!
# What a scan finds

Each token of a scan is a lexeme of the text, so that what holds of every lexeme holds of every
token: a number has been read from a numeral, and an operator is in the vocabulary.
-/

namespace Reckoner.Token

set_option autoImplicit false

theorem numberSpan_eq (cs : List Char) :
    ∃ whole fraction : List Char, (∀ c ∈ whole, c.isDigit = true) ∧
      (∀ c ∈ fraction, c.isDigit = true) ∧
      (numberSpan cs = whole ∨ numberSpan cs = whole ++ '.' :: fraction) := by
  have hdigits (l : List Char) : ∀ c ∈ l.takeWhile Char.isDigit, c.isDigit = true :=
    fun c hmem => List.mem_takeWhile_imp hmem
  unfold numberSpan
  split
  · rename_i rest _
    exact ⟨_, _, hdigits cs, hdigits rest, .inr rfl⟩
  · exact ⟨_, [], hdigits cs, by simp, .inl rfl⟩

theorem mem_numberSpan_of_isDigit {c : Char} (hdigit : c.isDigit = true) (rest : List Char) :
    c ∈ numberSpan (c :: rest) := by
  unfold numberSpan
  split <;> simp [hdigit]

theorem numberSpan_point (rest : List Char) :
    numberSpan ('.' :: rest) = '.' :: rest.takeWhile Char.isDigit := by
  simp [numberSpan]

theorem count_point_eq_zero {cs : List Char} (hdigits : ∀ c ∈ cs, c.isDigit = true) :
    cs.count '.' = 0 := by
  rw [List.count_eq_zero]
  intro hmem
  exact absurd (hdigits '.' hmem) (by decide)

/-- What begins with a digit or a point and is not a point alone is a numeral. -/
theorem isNumber_numberSpan {c : Char} {rest : List Char} (hbegins : c.isDigit = true ∨ c = '.')
    (hnotAlone : numberSpan (c :: rest) ≠ ['.']) : IsNumber (numberSpan (c :: rest)) := by
  have hexists : ∃ d ∈ numberSpan (c :: rest), d.isDigit = true := by
    rcases hbegins with hdigit | rfl
    · exact ⟨c, mem_numberSpan_of_isDigit hdigit rest, hdigit⟩
    · rw [numberSpan_point] at hnotAlone ⊢
      cases hfraction : rest.takeWhile Char.isDigit with
      | nil => exact absurd (by rw [hfraction]) hnotAlone
      | cons d others =>
        have hmem : d ∈ rest.takeWhile Char.isDigit := by simp [hfraction]
        exact ⟨d, by simp, List.mem_takeWhile_imp hmem⟩
  obtain ⟨whole, fraction, hwholeDigits, hfractionDigits, hspan | hspan⟩ :=
    numberSpan_eq (c :: rest)
  · rw [hspan] at hexists ⊢
    exact ⟨fun d hmem => .inl (hwholeDigits d hmem), by simp [count_point_eq_zero hwholeDigits],
      hexists⟩
  · rw [hspan] at hexists ⊢
    refine ⟨?_, ?_, hexists⟩
    · intro d hmem
      simp only [List.mem_append, List.mem_cons] at hmem
      rcases hmem with hmem | rfl | hmem
      · exact .inl (hwholeDigits d hmem)
      · exact .inr rfl
      · exact .inl (hfractionDigits d hmem)
    · rw [List.count_append, List.count_cons, count_point_eq_zero hwholeDigits,
        count_point_eq_zero hfractionDigits]
      decide

structure Meant (token : Token) : Prop where
  value : token.kind = .number → ∃ value, token.value = some value
  entry : token.kind = .operator → ∃ entry, operator? token.name = some entry

theorem meant_symbol {c : Char} {kind : Kind} (h : symbolKind? c = some kind) (position : Nat) :
    Meant (symbol kind c position) := by
  unfold symbolKind? at h
  split at h <;> cases h
  all_goals refine ⟨fun hnumber => ?_, fun hoperator => ?_⟩
  all_goals first | contradiction | exact ⟨_, rfl⟩

theorem meant_of_lexeme {position others : Nat} {c : Char} {rest : List Char} {token : Token}
    (h : lexeme position c rest = .ok (token, others)) : Meant token := by
  unfold lexeme at h
  dsimp only at h
  split at h
  · split at h
    · cases h
    · cases h
      exact ⟨fun _ => ⟨_, rfl⟩, nofun⟩
  · split at h
    · cases h
      exact ⟨nofun, nofun⟩
    · split at h
      · rename_i kind hknown
        cases h
        exact meant_symbol hknown position
      · cases h

theorem lexeme_error {position : Nat} {c : Char} {rest : List Char} {failure : Failure}
    (h : lexeme position c rest = .error failure) :
    failure = .invalidNumber position ∨ failure = .unexpectedCharacter c position := by
  unfold lexeme at h
  dsimp only at h
  split at h
  · split at h
    · cases h
      exact .inl rfl
    · cases h
  · split at h
    · cases h
    · split at h
      · cases h
      · cases h
        exact .inr rfl

theorem scanFrom_blank {cs : List Char} (hblank : ∀ c ∈ cs, Text.isBlank c = true)
    (position : Nat) : scanFrom 0 position cs = .ok [] := by
  induction cs generalizing position with
  | nil => rfl
  | cons c rest ih =>
    rw [scanFrom, if_pos (hblank c List.mem_cons_self)]
    exact ih (fun d hmem => hblank d (List.mem_cons_of_mem c hmem)) _

theorem exists_lexeme_of_mem_scanFrom {skip position : Nat} {cs : List Char}
    {tokens : List Token} {token : Token} (h : scanFrom skip position cs = .ok tokens)
    (hmem : token ∈ tokens) :
    ∃ place c rest others, lexeme place c rest = .ok (token, others) := by
  induction cs generalizing skip position tokens with
  | nil =>
    cases h
    cases hmem
  | cons c rest ih =>
    cases skip with
    | succ skip => exact ih h hmem
    | zero =>
      rw [scanFrom] at h
      split at h
      · exact ih h hmem
      · split at h
        · cases h
        · rename_i first others hfound
          cases hbehind : scanFrom others (position + 1) rest with
          | error failure => simp [hbehind, Except.map] at h
          | ok after =>
            simp only [hbehind, Except.map, Except.ok.injEq] at h
            subst h
            rcases List.mem_cons.mp hmem with rfl | hmem
            · exact ⟨position, c, rest, others, hfound⟩
            · exact ih hbehind hmem

theorem exists_lexeme_of_scanFrom_error {skip position : Nat} {cs : List Char}
    {failure : Failure} (h : scanFrom skip position cs = .error failure) :
    ∃ place c rest, lexeme place c rest = .error failure := by
  induction cs generalizing skip position with
  | nil => cases h
  | cons c rest ih =>
    cases skip with
    | succ skip => exact ih h
    | zero =>
      rw [scanFrom] at h
      split at h
      · exact ih h
      · split at h
        · rename_i hfound
          cases h
          exact ⟨position, c, rest, hfound⟩
        · rename_i first others hfound
          cases hbehind : scanFrom others (position + 1) rest with
          | error failure =>
            rw [hbehind] at h
            cases h
            exact ih hbehind
          | ok after => simp [hbehind, Except.map] at h

theorem meant_of_mem_scan {text : String} {tokens : List Token} (h : scan text = .ok tokens)
    {token : Token} (hmem : token ∈ tokens) : Meant token := by
  obtain ⟨place, c, rest, others, hfound⟩ := exists_lexeme_of_mem_scanFrom h hmem
  exact meant_of_lexeme hfound

theorem allBlank_eq_false {text : String} {tokens : List Token} (h : scan text = .ok tokens)
    (hnotEmpty : tokens ≠ []) : Text.allBlank text = false := by
  cases hblank : Text.allBlank text with
  | false => rfl
  | true =>
    rw [scan, scanFrom_blank (List.all_eq_true.mp hblank)] at h
    cases h
    exact absurd rfl hnotEmpty

end Reckoner.Token
