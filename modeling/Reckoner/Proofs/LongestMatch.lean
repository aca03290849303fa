import Reckoner.Proofs.Scanning

/-!
# A scan finds the longest match

A scan cuts a text into pieces, each token as long as it can be, and no text can be cut in two
ways. Where no piece starts, the scan fails there and says why.

What starts at a character is settled by the character alone: blanks, digits and the point,
letters, and symbols are four classes apart.
-/

namespace Reckoner

set_option autoImplicit false

namespace Text

def disjointRanges (left right : List (Nat × Nat)) : Bool :=
  left.all fun (first, last) => right.all fun (first', last') => last < first' || last' < first

theorem inRanges_eq_false_of_disjoint {left right : List (Nat × Nat)}
    (hdisjoint : disjointRanges left right = true) {code : Nat} (h : inRanges left code = true) :
    inRanges right code = false := by
  simp only [inRanges, List.any_eq_true, List.any_eq_false, Bool.and_eq_true,
    decide_eq_true_eq] at h ⊢
  obtain ⟨range, hmem, hlower, hupper⟩ := h
  intro other hmem' ⟨hlower', hupper'⟩
  have hapart := List.all_eq_true.mp (List.all_eq_true.mp hdisjoint range hmem) other hmem'
  simp only [Bool.or_eq_true, decide_eq_true_eq] at hapart
  omega

theorem isAlpha_iff {c : Char} :
    c.isAlpha = true ↔ (65 ≤ c.toNat ∧ c.toNat ≤ 90) ∨ (97 ≤ c.toNat ∧ c.toNat ≤ 122) := by
  have hranges : c.isAlpha = (decide (c.val ≥ 65 ∧ c.val ≤ 90) ||
      (decide (c.val ≥ 97) && decide (c.val ≤ 122))) := rfl
  rw [hranges]
  simp only [Char.toNat, Bool.or_eq_true, Bool.and_eq_true, decide_eq_true_eq, ge_iff_le,
    UInt32.le_iff_toNat_le]
  exact Iff.rfl

theorem isDigit_iff {c : Char} : c.isDigit = true ↔ 48 ≤ c.toNat ∧ c.toNat ≤ 57 := by
  simp only [Char.isDigit, Char.toNat, Bool.and_eq_true, decide_eq_true_eq, ge_iff_le,
    UInt32.le_iff_toNat_le]
  exact Iff.rfl

theorem isBlank_of_ascii {c : Char} (hascii : c.toNat < 128) :
    isBlank c = true ↔ (9 ≤ c.toNat ∧ c.toNat ≤ 13) ∨ (28 ≤ c.toNat ∧ c.toNat ≤ 32) := by
  simp only [isBlank, inRanges, blankRanges, List.any_cons, List.any_nil, Bool.or_eq_true,
    Bool.and_eq_true, decide_eq_true_eq, Bool.false_eq_true, or_false]
  omega

theorem isBlank_eq_false_of_isLetter {c : Char} (hletter : isLetter c = true) :
    isBlank c = false := by
  rw [← Bool.not_eq_true]
  intro hblank
  by_cases hascii : c.toNat < 128
  · rw [isLetter_of_isAlpha hascii, isAlpha_iff] at hletter
    rw [isBlank_of_ascii hascii] at hblank
    omega
  · rw [isLetter, if_neg hascii] at hletter
    have hapart : disjointRanges blankRanges letterRanges = true := by decide +kernel
    rw [inRanges_eq_false_of_disjoint hapart hblank] at hletter
    cases hletter

theorem isLetter_eq_false_of_isDigit {c : Char} (hdigit : c.isDigit = true) :
    isLetter c = false := by
  rw [isDigit_iff] at hdigit
  rw [isLetter_of_isAlpha (by omega), ← Bool.not_eq_true, isAlpha_iff]
  omega

theorem isBlank_eq_false_of_isDigit {c : Char} (hdigit : c.isDigit = true) :
    isBlank c = false := by
  rw [isDigit_iff] at hdigit
  rw [← Bool.not_eq_true, isBlank_of_ascii (by omega)]
  omega

end Text

namespace Token

theorem symbolKind?_cases {c : Char} {kind : Kind} (hsymbol : symbolKind? c = some kind) :
    c.isDigit = false ∧ c ≠ '.' ∧ Text.isLetter c = false ∧ Text.isBlank c = false := by
  unfold symbolKind? at hsymbol
  split at hsymbol
  all_goals first | cases hsymbol; done | decide

theorem isNumber_decompose {span : List Char} (hnumber : IsNumber span) :
    (∀ c ∈ span, c.isDigit = true) ∨ ∃ whole fraction : List Char,
      span = whole ++ '.' :: fraction ∧ (∀ c ∈ whole, c.isDigit = true) ∧
        ∀ c ∈ fraction, c.isDigit = true := by
  by_cases hpoint : '.' ∈ span
  · right
    obtain ⟨whole, fraction, rfl⟩ := List.append_of_mem hpoint
    have hsingle := hnumber.count_point
    rw [List.count_append, List.count_cons_self] at hsingle
    have hnoneBefore : '.' ∉ whole := List.count_eq_zero.mp (by omega)
    have hnoneBehind : '.' ∉ fraction := List.count_eq_zero.mp (by omega)
    refine ⟨whole, fraction, rfl, ?_, ?_⟩
    · intro c hmem
      rcases hnumber.digits_or_point c (by simp [hmem]) with hdigit | rfl
      · exact hdigit
      · exact absurd hmem hnoneBefore
    · intro c hmem
      rcases hnumber.digits_or_point c (by simp [hmem]) with hdigit | rfl
      · exact hdigit
      · exact absurd hmem hnoneBehind
  · left
    intro c hmem
    rcases hnumber.digits_or_point c hmem with hdigit | rfl
    · exact hdigit
    · exact absurd hmem hpoint

theorem takeWhile_append_eq_left {p : Char → Bool} {left right : List Char}
    (hall : ∀ c ∈ left, p c = true) (hends : ∀ c, right.head? = some c → p c = false) :
    (left ++ right).takeWhile p = left ∧ (left ++ right).dropWhile p = right := by
  rw [List.takeWhile_append_of_pos hall, List.dropWhile_append_of_pos hall]
  cases right with
  | nil => simp
  | cons c rest => simp [hends c rfl]

/-- A number that cannot go on is all of what a scan takes for one. -/
theorem numberSpan_append {span rest : List Char} (hnumber : IsNumber span)
    (hends : ∀ c, rest.head? = some c → EndsNumber span c) : numberSpan (span ++ rest) = span := by
  rcases isNumber_decompose hnumber with hdigits | ⟨whole, fraction, rfl, hwholeDigits,
    hfractionDigits⟩
  · obtain ⟨htaken, hdropped⟩ := takeWhile_append_eq_left hdigits fun c hfirst => (hends c hfirst).1
    have hnoPoint : '.' ∉ span := fun hmem => absurd (hdigits '.' hmem) (by decide)
    unfold numberSpan
    rw [htaken, hdropped]
    split
    · exact absurd ((hends '.' rfl).2 rfl) hnoPoint
    · rfl
  · have hpointEnds : ∀ c, ('.' :: (fraction ++ rest)).head? = some c → c.isDigit = false := by
      intro c hfirst
      cases hfirst
      rfl
    obtain ⟨htaken, hdropped⟩ := takeWhile_append_eq_left hwholeDigits hpointEnds
    obtain ⟨htakenBehind, _⟩ := takeWhile_append_eq_left hfractionDigits
      fun c hfirst => (hends c hfirst).1
    unfold numberSpan
    rw [List.append_assoc, List.cons_append, htaken, hdropped]
    simp only [htakenBehind]

theorem not_isDigit_of_head?_dropWhile {cs : List Char} {c : Char}
    (hfirst : (cs.dropWhile Char.isDigit).head? = some c) : c.isDigit = false := by
  have h := List.head?_dropWhile_not Char.isDigit cs
  rw [hfirst] at h
  exact h

/-- What a scan takes for a number cannot go on. -/
theorem exists_append_numberSpan (cs : List Char) :
    ∃ rest, cs = numberSpan cs ++ rest ∧
      ∀ c, rest.head? = some c → EndsNumber (numberSpan cs) c := by
  have hwhole : cs = cs.takeWhile Char.isDigit ++ cs.dropWhile Char.isDigit :=
    List.takeWhile_append_dropWhile.symm
  unfold numberSpan
  split
  · rename_i rest hpoint
    refine ⟨rest.dropWhile Char.isDigit, ?_, ?_⟩
    · rw [List.append_assoc, List.cons_append, List.takeWhile_append_dropWhile, ← hpoint]
      exact hwhole
    · intro c hfirst
      exact ⟨not_isDigit_of_head?_dropWhile hfirst, fun _ => by simp⟩
  · rename_i hnoPoint
    refine ⟨cs.dropWhile Char.isDigit, hwhole, ?_⟩
    intro c hfirst
    refine ⟨not_isDigit_of_head?_dropWhile hfirst, ?_⟩
    rintro rfl
    obtain ⟨rest, hpoint⟩ := List.head?_eq_some_iff.mp hfirst
    exact absurd hpoint (hnoPoint rest)

theorem Starts.text_eq {position : Nat} {text behind : List Char} {piece : Piece}
    (h : Starts position text piece behind) : text = piece.span ++ behind := by
  cases h <;> rfl

theorem Starts.length_pos {position : Nat} {text behind : List Char} {piece : Piece}
    (h : Starts position text piece behind) : 0 < piece.span.length := by
  cases h with
  | blank | symbol => simp [Piece.span]
  | number hnumber =>
    obtain ⟨c, hmem, _⟩ := hnumber.has_digit
    exact List.length_pos_of_mem hmem
  | word hword =>
    obtain ⟨c, hfirst, _⟩ := hword.first
    exact List.length_pos_of_mem (List.mem_of_head? hfirst)

theorem Starts.of_blank {position : Nat} {text behind : List Char} {c : Char}
    (h : Starts position text (.blank c) behind) :
    text = c :: behind ∧ Text.isBlank c = true := by
  cases h with
  | blank hblank => exact ⟨rfl, hblank⟩

theorem Starts.position_eq {position : Nat} {text span behind : List Char} {token : Token}
    (h : Starts position text (.spanned span token) behind) :
    token.position = some (position : Int) := by
  cases h <;> rfl

theorem IsNumber.ne_point {span : List Char} (hnumber : IsNumber span) : span ≠ ['.'] := by
  intro halone
  obtain ⟨d, hmem, hdigit⟩ := hnumber.has_digit
  rw [halone, List.mem_singleton] at hmem
  rw [hmem] at hdigit
  exact absurd hdigit (by decide)

theorem lexeme_of_isNumber {position : Nat} {span behind : List Char} (hnumber : IsNumber span)
    (hends : ∀ c, behind.head? = some c → EndsNumber span c) :
    ∃ c rest, span ++ behind = c :: rest ∧ Text.isBlank c = false ∧
      lexeme position c rest = .ok (number span position, span.length - 1) := by
  have hfound := numberSpan_append hnumber hends
  obtain ⟨c, others, rfl⟩ : ∃ c others, span = c :: others := by
    obtain ⟨c, hmem, _⟩ := hnumber.has_digit
    exact List.exists_cons_of_ne_nil (List.ne_nil_of_mem hmem)
  have hbegins := hnumber.digits_or_point c List.mem_cons_self
  have hnotBlank : Text.isBlank c = false := by
    rcases hbegins with hdigit | rfl
    · exact Text.isBlank_eq_false_of_isDigit hdigit
    · decide
  refine ⟨c, others ++ behind, rfl, hnotBlank, ?_⟩
  rw [List.cons_append] at hfound
  simp only [lexeme, hfound]
  rw [if_pos (by simpa using hbegins), if_neg hnumber.ne_point]

theorem not_begins_number_of_isLetter {c : Char} (hletter : Text.isLetter c = true) :
    (c.isDigit || c == '.') = false := by
  rw [Bool.or_eq_false_iff, ← Bool.not_eq_true, beq_eq_false_iff_ne]
  constructor
  · intro hdigit
    rw [Text.isLetter_eq_false_of_isDigit hdigit] at hletter
    cases hletter
  · rintro rfl
    exact absurd hletter (by decide)

theorem lexeme_of_isWord {position : Nat} {span behind : List Char} (hword : IsWord span)
    (hends : ∀ c, behind.head? = some c → isNameChar c = false) :
    ∃ c rest, span ++ behind = c :: rest ∧ Text.isBlank c = false ∧
      lexeme position c rest = .ok (identifier span position, span.length - 1) := by
  obtain ⟨c, hfirst, hletter⟩ := hword.first
  obtain ⟨others, rfl⟩ := List.head?_eq_some_iff.mp hfirst
  obtain ⟨htaken, _⟩ := takeWhile_append_eq_left hword.others hends
  refine ⟨c, others ++ behind, rfl, Text.isBlank_eq_false_of_isLetter hletter, ?_⟩
  rw [List.drop_one, List.tail_cons] at htaken
  simp only [lexeme, not_begins_number_of_isLetter hletter, hletter, htaken]
  rfl

/-- The scan finds each piece that is not a blank. -/
theorem lexeme_of_starts {position : Nat} {text span behind : List Char} {token : Token}
    (h : Starts position text (.spanned span token) behind) :
    ∃ c rest, text = c :: rest ∧ Text.isBlank c = false ∧
      lexeme position c rest = .ok (token, span.length - 1) := by
  cases h with
  | number hnumber hends => exact lexeme_of_isNumber hnumber hends
  | word hword hends => exact lexeme_of_isWord hword hends
  | symbol hsymbol =>
    rename_i c kind
    obtain ⟨hnotDigit, hnotPoint, hnotLetter, hnotBlank⟩ := symbolKind?_cases hsymbol
    refine ⟨c, behind, rfl, hnotBlank, ?_⟩
    simp [lexeme, hnotDigit, hnotPoint, hnotLetter, hsymbol]

/-- What the scan finds is a piece, as long as it can be. -/
theorem starts_of_lexeme {position others : Nat} {c : Char} {rest : List Char} {token : Token}
    (h : lexeme position c rest = .ok (token, others)) :
    ∃ span behind, Starts position (c :: rest) (.spanned span token) behind ∧
      span.length = others + 1 := by
  unfold lexeme at h
  dsimp only at h
  split at h
  · rename_i hbegins
    split at h
    · cases h
    · rename_i hnotAlone
      cases h
      have hnumber := isNumber_numberSpan (by simpa using hbegins) hnotAlone
      obtain ⟨behind, hcut, hends⟩ := exists_append_numberSpan (c :: rest)
      have hstarts : Starts position _ _ _ := .number hnumber hends
      rw [← hcut] at hstarts
      refine ⟨_, behind, hstarts, ?_⟩
      have hlong := hstarts.length_pos
      rw [Piece.span] at hlong
      omega
  · split at h
    · rename_i hletter
      cases h
      have hword : IsWord (c :: rest.takeWhile isNameChar) :=
        ⟨⟨c, rfl, hletter⟩, fun d hmem => List.mem_takeWhile_imp hmem⟩
      have hends : ∀ d, (rest.dropWhile isNameChar).head? = some d → isNameChar d = false := by
        intro d hfirst
        have h := List.head?_dropWhile_not isNameChar rest
        rw [hfirst] at h
        exact h
      have hstarts : Starts position _ _ _ := .word hword hends
      rw [List.cons_append, List.takeWhile_append_dropWhile] at hstarts
      exact ⟨_, _, hstarts, rfl⟩
    · split at h
      · rename_i kind hknown
        cases h
        exact ⟨[c], rest, .symbol hknown, rfl⟩
      · cases h

theorem stuck_of_lexeme {position : Nat} {c : Char} {rest : List Char} {failure : Failure}
    (hnotBlank : Text.isBlank c = false) (h : lexeme position c rest = .error failure) :
    Stuck position (c :: rest) failure := by
  unfold lexeme at h
  dsimp only at h
  split at h
  · rename_i hbegins
    split at h
    · rename_i halone
      cases h
      have hpoint : c = '.' := by
        rcases (by simpa using hbegins : c.isDigit = true ∨ c = '.') with hdigit | hpoint
        · have hmem := mem_numberSpan_of_isDigit hdigit rest
          rw [halone, List.mem_singleton] at hmem
          exact hmem
        · exact hpoint
      subst hpoint
      rw [numberSpan_point, List.cons.injEq] at halone
      refine .point fun d hfirst => ?_
      obtain ⟨others, rfl⟩ := List.head?_eq_some_iff.mp hfirst
      simpa using halone.2
    · cases h
  · rename_i hnotBegins
    split at h
    · cases h
    · rename_i hnotLetter
      split at h
      · cases h
      · rename_i hunknown
        cases h
        simp only [Bool.or_eq_true, beq_iff_eq, not_or] at hnotBegins
        exact .stranger hnotBlank (by simpa using hnotBegins.1) hnotBegins.2
          (by simpa using hnotLetter) hunknown

theorem lexeme_of_stuck {position : Nat} {text : List Char} {failure : Failure}
    (h : Stuck position text failure) :
    ∃ c rest, text = c :: rest ∧ Text.isBlank c = false ∧
      lexeme position c rest = .error failure := by
  cases h with
  | point hnoDigit =>
    rename_i rest
    have halone : numberSpan ('.' :: rest) = ['.'] := by
      rw [numberSpan_point]
      cases rest with
      | nil => rfl
      | cons c others => simp [hnoDigit c rfl]
    refine ⟨'.', rest, rfl, by decide, ?_⟩
    simp [lexeme, halone]
  | stranger hnotBlank hnotDigit hnotPoint hnotLetter hnotSymbol =>
    rename_i c rest
    refine ⟨c, rest, rfl, hnotBlank, ?_⟩
    simp [lexeme, hnotDigit, hnotPoint, hnotLetter, hnotSymbol]

/-- No text starts in two ways. -/
theorem Starts.unique {position : Nat} {text behind behind' : List Char} {piece piece' : Piece}
    (h : Starts position text piece behind) (h' : Starts position text piece' behind') :
    piece = piece' ∧ behind = behind' := by
  -- No token starts with a blank, and two tokens at one place are both what `lexeme` finds there.
  cases piece with
  | blank c =>
    obtain ⟨rfl, hblank⟩ := h.of_blank
    cases piece' with
    | blank d =>
      obtain ⟨hsame, _⟩ := h'.of_blank
      cases hsame
      exact ⟨rfl, rfl⟩
    | spanned span token =>
      obtain ⟨d, rest, hsame, hnotBlank, _⟩ := lexeme_of_starts h'
      cases hsame
      rw [hblank] at hnotBlank
      cases hnotBlank
  | spanned span token =>
    obtain ⟨c, rest, rfl, hnotBlank, hfound⟩ := lexeme_of_starts h
    cases piece' with
    | blank d =>
      obtain ⟨hsame, hblank⟩ := h'.of_blank
      cases hsame
      rw [hblank] at hnotBlank
      cases hnotBlank
    | spanned span' token' =>
      obtain ⟨c', rest', hsame, _, hfound'⟩ := lexeme_of_starts h'
      cases hsame
      rw [hfound, Except.ok.injEq, Prod.mk.injEq] at hfound'
      obtain ⟨rfl, hlengths⟩ := hfound'
      have hlong := h.length_pos
      have hlong' := h'.length_pos
      have hwhole : span ++ behind = span' ++ behind' := h.text_eq.symm.trans h'.text_eq
      simp only [Piece.span] at hlong hlong'
      obtain ⟨rfl, rfl⟩ := List.append_inj hwhole (by omega)
      exact ⟨rfl, rfl⟩

theorem Segments.text_eq {position : Nat} {text rest : List Char} {pieces : List Piece}
    (h : Segments position text pieces rest) : text = Piece.text pieces ++ rest := by
  induction h with
  | done => rfl
  | more hfirst _ ih => rw [hfirst.text_eq, ih, Piece.text, Piece.text, List.flatMap_cons,
      List.append_assoc]

theorem Segments.unique {position : Nat} {text : List Char} {pieces pieces' : List Piece}
    (h : Segments position text pieces []) (h' : Segments position text pieces' []) :
    pieces = pieces' := by
  have hnotEmpty {position : Nat} {piece : Piece} {behind : List Char} :
      ¬ Starts position [] piece behind := by
    intro hfirst
    have hlong := hfirst.length_pos
    have hwhole := congrArg List.length hfirst.text_eq
    rw [List.length_nil, List.length_append] at hwhole
    omega
  induction pieces generalizing position text pieces' with
  | nil =>
    cases h
    cases h' with
    | done => rfl
    | more hfirst _ => exact absurd hfirst hnotEmpty
  | cons piece pieces ih =>
    cases h with
    | more hfirst hothers =>
      cases h' with
      | done => exact absurd hfirst hnotEmpty
      | more hfirst' hothers' =>
        obtain ⟨rfl, rfl⟩ := hfirst.unique hfirst'
        rw [ih hothers hothers']

/-- A text can be cut up to its end or up to a place where no piece starts. -/
theorem exists_segments (position : Nat) (text : List Char) :
    ∃ pieces rest, Segments position text pieces rest ∧
      (rest = [] ∨ ∃ failure, Stuck (position + (Piece.text pieces).length) rest failure) := by
  -- On the length of the text: each piece takes a character at least.
  induction length : text.length using Nat.strong_induction_on generalizing position text with
  | _ n ih =>
    subst length
    have hmore {piece : Piece} {behind : List Char} (hfirst : Starts position text piece behind) :
        ∃ pieces rest, Segments position text pieces rest ∧
          (rest = [] ∨ ∃ failure, Stuck (position + (Piece.text pieces).length) rest failure) := by
      have hlong := hfirst.length_pos
      have hshorter : behind.length < text.length := by
        rw [hfirst.text_eq, List.length_append]
        omega
      obtain ⟨pieces, rest, hothers, hfinal⟩ :=
        ih behind.length hshorter (position + piece.span.length) behind rfl
      refine ⟨piece :: pieces, rest, .more hfirst hothers, ?_⟩
      rwa [Piece.text, List.flatMap_cons, List.length_append, ← Nat.add_assoc]
    cases text with
    | nil => exact ⟨[], [], .done, .inl rfl⟩
    | cons c rest =>
      cases hblank : Text.isBlank c with
      | true => exact hmore (.blank hblank)
      | false =>
        cases hfound : lexeme position c rest with
        | ok result =>
          obtain ⟨span, behind, hfirst, _⟩ := starts_of_lexeme hfound
          exact hmore hfirst
        | error failure =>
          exact ⟨[], c :: rest, .done, .inr ⟨failure, stuck_of_lexeme hblank hfound⟩⟩

theorem scanFrom_of_starts {position : Nat} {text behind : List Char} {piece : Piece}
    (h : Starts position text piece behind) :
    scanFrom 0 position text =
      (scanFrom 0 (position + piece.span.length) behind).map (Piece.tokens [piece] ++ ·) := by
  cases piece with
  | blank c =>
    obtain ⟨rfl, hblank⟩ := h.of_blank
    rw [scanFrom, if_pos hblank, Piece.span, List.length_singleton]
    cases scanFrom 0 (position + 1) behind <;> rfl
  | spanned span token =>
    obtain ⟨c, rest, rfl, hnotBlank, hfound⟩ := lexeme_of_starts h
    have hlong : 0 < span.length := h.length_pos
    have hdropped : rest.drop (span.length - 1) = behind := by
      have hwhole : (c :: rest).drop span.length = behind := by
        rw [h.text_eq]
        exact List.drop_left
      rw [← hwhole, ← List.drop_succ_cons, Nat.sub_add_cancel hlong]
    have hplace : position + 1 + (span.length - 1) = position + span.length := by omega
    rw [scanFrom, if_neg (by simp [hnotBlank]), hfound]
    dsimp only
    rw [scanFrom_skip, hdropped, hplace]
    rfl

/-- Behind the pieces of a segmentation the scan goes on with the rest. -/
theorem scanFrom_of_segments {position : Nat} {text rest : List Char} {pieces : List Piece}
    (h : Segments position text pieces rest) :
    scanFrom 0 position text =
      (scanFrom 0 (position + (Piece.text pieces).length) rest).map
        (Piece.tokens pieces ++ ·) := by
  induction h with
  | done =>
    simp only [Piece.text, Piece.tokens, List.flatMap_nil, List.length_nil, Nat.add_zero]
    cases scanFrom 0 _ _ <;> rfl
  | @more _ _ _ _ piece _ hfirst hothers ih =>
    rw [scanFrom_of_starts hfirst, ih, Piece.text, Piece.text, List.flatMap_cons,
      List.length_append, Nat.add_assoc]
    cases scanFrom 0 _ _ with
    | error failure => rfl
    | ok tokens => cases piece <;> rfl

theorem scanFrom_of_stuck {position : Nat} {text : List Char} {failure : Failure}
    (h : Stuck position text failure) : scanFrom 0 position text = .error failure := by
  obtain ⟨c, rest, rfl, hnotBlank, hfound⟩ := lexeme_of_stuck h
  rw [scanFrom, if_neg (by simp [hnotBlank]), hfound]

theorem scan_of_segments {text : String} {pieces : List Piece}
    (hcut : Segments 0 text.toList pieces []) : scan text = .ok (Piece.tokens pieces) := by
  rw [scan, scanFrom_of_segments hcut]
  simp [scanFrom, Except.map]

theorem scan_of_stuck {text : String} {pieces : List Piece} {rest : List Char} {failure : Failure}
    (hcut : Segments 0 text.toList pieces rest)
    (hstuck : Stuck (Piece.text pieces).length rest failure) : scan text = .error failure := by
  rw [scan, scanFrom_of_segments hcut, Nat.zero_add, scanFrom_of_stuck hstuck]
  rfl

/-- Every scan goes along a segmentation, up to the end or up to where it is stuck. -/
theorem exists_segments_scan (text : String) :
    (∃ pieces, Segments 0 text.toList pieces [] ∧ scan text = .ok (Piece.tokens pieces)) ∨
    ∃ pieces rest failure, Segments 0 text.toList pieces rest ∧
      Stuck (Piece.text pieces).length rest failure ∧ scan text = .error failure := by
  obtain ⟨pieces, rest, hcut, rfl | ⟨failure, hstuck⟩⟩ := exists_segments 0 text.toList
  · exact Or.inl ⟨pieces, hcut, scan_of_segments hcut⟩
  · rw [Nat.zero_add] at hstuck
    exact Or.inr ⟨pieces, rest, failure, hcut, hstuck, scan_of_stuck hcut hstuck⟩

theorem Segments.position_eq {position : Nat} {text rest : List Char} {pieces : List Piece}
    (h : Segments position text pieces rest) {before behind : List Piece} {span : List Char}
    {token : Token} (hcut : pieces = before ++ .spanned span token :: behind) :
    token.position = some ((position + (Piece.text before).length : Nat) : Int) := by
  induction h generalizing before with
  | done => simp at hcut
  | more hfirst _ ih =>
    cases before with
    | nil =>
      cases hcut
      exact hfirst.position_eq
    | cons piece before =>
      cases hcut
      rw [ih rfl, Piece.text, Piece.text, List.flatMap_cons, List.length_append, Nat.add_assoc]

theorem Segments.position_ge {position : Nat} {text rest : List Char} {pieces : List Piece}
    (h : Segments position text pieces rest) {token : Token}
    (hmem : token ∈ Piece.tokens pieces) :
    ∃ place : Nat, position ≤ place ∧ token.position = some (place : Int) := by
  obtain ⟨piece, hmem, htoken⟩ := List.mem_filterMap.mp hmem
  cases piece with
  | blank c => cases htoken
  | spanned span other =>
    cases htoken
    obtain ⟨before, behind, hcut⟩ := List.append_of_mem hmem
    exact ⟨_, Nat.le_add_right _ _, h.position_eq hcut⟩

theorem Segments.pairwise_position {position : Nat} {text rest : List Char}
    {pieces : List Piece} (h : Segments position text pieces rest) :
    (Piece.tokens pieces).Pairwise fun a b => a.position < b.position := by
  induction h with
  | done => exact .nil
  | @more _ _ _ _ piece _ hfirst hothers ih =>
    cases piece with
    | blank c => exact ih
    | spanned span token =>
      refine List.pairwise_cons.mpr ⟨?_, ih⟩
      intro other hmem
      obtain ⟨place, hle, hfound⟩ := hothers.position_ge hmem
      have hlong := hfirst.length_pos
      rw [hfirst.position_eq, hfound, Option.some_lt_some]
      omega

/-- A scan has tokens exactly if the text can be cut into blanks and tokens, each as long as it can
be, and they are the tokens of the cut. There is one cut at most; it loses nothing, each of its
tokens stands where its span starts, and they stand one behind the other. A scan fails exactly at
the one place where a cut of what comes before cannot go on. -/
theorem scan_iff_segments (text : String) :
    (∀ tokens, scan text = .ok tokens ↔
      ∃ pieces, Segments 0 text.toList pieces [] ∧ Piece.tokens pieces = tokens) ∧
    (∀ pieces pieces', Segments 0 text.toList pieces [] → Segments 0 text.toList pieces' [] →
      pieces = pieces') ∧
    (∀ pieces, Segments 0 text.toList pieces [] →
      Piece.text pieces = text.toList ∧
      (∀ before span token behind, pieces = before ++ .spanned span token :: behind →
        token.position = some ((Piece.text before).length : Int)) ∧
      (Piece.tokens pieces).Pairwise fun a b => a.position < b.position) ∧
    ∀ failure, scan text = .error failure ↔
      ∃ pieces rest, Segments 0 text.toList pieces rest ∧
        Stuck (Piece.text pieces).length rest failure := by
  refine ⟨?_, fun pieces pieces' h h' => h.unique h', ?_, ?_⟩
  · intro tokens
    constructor
    · intro hscan
      rcases exists_segments_scan text with ⟨pieces, hcut, hfound⟩ | ⟨_, _, _, _, _, hfound⟩
      · rw [hfound, Except.ok.injEq] at hscan
        exact ⟨pieces, hcut, hscan⟩
      · rw [hfound] at hscan
        cases hscan
    · rintro ⟨pieces, hcut, rfl⟩
      exact scan_of_segments hcut
  · intro pieces hcut
    refine ⟨?_, ?_, hcut.pairwise_position⟩
    · simpa using hcut.text_eq.symm
    · intro before span token behind hsplit
      simpa using hcut.position_eq hsplit
  · intro failure
    constructor
    · intro hscan
      rcases exists_segments_scan text with
        ⟨_, _, hfound⟩ | ⟨pieces, rest, other, hcut, hstuck, hfound⟩
      · rw [hfound] at hscan
        cases hscan
      · rw [hfound, Except.error.injEq] at hscan
        exact ⟨pieces, rest, hcut, hscan ▸ hstuck⟩
    · rintro ⟨pieces, rest, hcut, hstuck⟩
      exact scan_of_stuck hcut hstuck

end Token

end Reckoner
