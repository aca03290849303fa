import Reckoner.CommandLine.Latest
import Reckoner.Proofs.Reentry
import Reckoner.Proofs.Requests
import Reckoner.Proofs.Taxonomy
import Reckoner.Proofs.WaysOfUse
import Reckoner.Proofs.Zeros

/-!
# Memory commands without an expression

A dialogue remembers the text that was shown last, and a memory command without an expression takes
that text for one. The text stays in step with the last outcome, so what is added or subtracted is
what the latest result was shown as.
-/

namespace Reckoner

set_option autoImplicit false

namespace CommandLine

open Text

/-- The last outcome and the text shown are those of the latest evaluation, and the memory does not
hold the negative zero. -/
structure Dialogue.Follows (dialogue : Dialogue) (latest : Option Outcome) : Prop where
  last : dialogue.session.last = latest
  shown : dialogue.shown = latest.map Outcome.shown
  memory : dialogue.session.memory ≠ Double.zero.neg
  finite : ∀ x, latest.bind Outcome.value? = some x → x.isFinite = true

variable {dialogue after : Dialogue} {latest : Option Outcome}

theorem Dialogue.Follows.evaluate (h : dialogue.Follows latest) (expression : Option String) :
    (dialogue.evaluate expression).Follows (some (dialogue.session.outcome expression)) := by
  refine ⟨rfl, rfl, h.memory, fun x hx => ?_⟩
  rw [Option.bind_some, Session.outcome, tryEvaluate, Outcome.value?] at hx
  cases hvalue : Reckoner.evaluate dialogue.session.mode expression with
  | error failure =>
    rw [hvalue] at hx
    cases hx
  | ok y =>
    rw [hvalue] at hx
    exact isFinite_of_evaluate (hvalue.trans (congrArg Except.ok (Option.some.inj hx)))

theorem Dialogue.Follows.respond (h : dialogue.Follows latest) {request : Request}
    (hafter : (dialogue.respond request).2 = some after) :
    after.Follows (((dialogue.evaluated? request).map dialogue.session.outcome).or latest) := by
  cases Dialogue.becomes_of_respond hafter with
  | evaluated hasked =>
    rw [hasked]
    exact h.evaluate _
  | same hidle =>
    rw [hidle]
    exact h
  | modeSet hidle | historyCleared hidle =>
    rw [hidle]
    exact ⟨h.last, h.shown, h.memory, h.finite⟩
  | memoryCleared hidle =>
    rw [hidle]
    exact ⟨h.last, h.shown, Double.zero_ne_neg_zero, h.finite⟩
  | memoryAdded hidle | memorySubtracted hidle =>
    rw [hidle]
    exact ⟨h.last, h.shown, Double.add_ne_neg_zero h.memory _, h.finite⟩

theorem Dialogue.Follows.run {lines : List String} (h : dialogue.Follows latest)
    (hafter : dialogue.after? lines = some after) :
    after.Follows ((dialogue.latest? lines).or latest) := by
  induction lines generalizing dialogue latest with
  | nil =>
    cases hafter
    exact h
  | cons line rest ih =>
    rw [Dialogue.after?, Option.bind_eq_some_iff] at hafter
    obtain ⟨middle, hstep, hrest⟩ := hafter
    have hthen := ih (h.respond hstep) hrest
    have hlatest : dialogue.latest? (line :: rest) =
        (middle.latest? rest).or (dialogue.outcome? line) := by
      rw [Dialogue.latest?, Dialogue.outcomes, List.getLast?_append, hstep]
      cases dialogue.outcome? line <;> rfl
    rw [hlatest, Option.or_assoc]
    exact hthen

theorem ofLine_of_bare {line word : String} (hlower : lower (strip line) = word)
    (hplain : word.toList.all isPlain = true) (hspace : ' ' ∉ word.toList) (hword : word ≠ "") :
    Request.ofLine line = (Request.ofCommand? word "").getD (.evaluate (strip line)) := by
  have hsame := (map_toLower_of_lower hlower hplain).2
  have hall : ∀ c ∈ (strip line).toList, (c != ' ') = true := by
    intro c hc
    rw [bne_iff_ne]
    rintro rfl
    refine hspace ?_
    rw [← hsame]
    exact List.mem_map_of_mem hc
  have hcut : cutAtSpace (strip line) = (strip line, "") := by
    rw [cutAtSpace, List.takeWhile_eq_self_iff.mpr hall, List.dropWhile_eq_nil_iff.mpr hall,
      String.ofList_toList]
    rfl
  have hne : ¬ (strip line).isEmpty = true := by
    rw [String.isEmpty_iff]
    intro hempty
    rw [hempty] at hsame
    exact hword (String.toList_eq_nil_iff.mp hsame.symm)
  rw [Request.ofLine, if_neg hne, hcut]
  dsimp only
  rw [hlower]

theorem step_of_bare (dialogue : Dialogue) {line : String} :
    (lower (strip line) = "m+" → dialogue.step line =
      dialogue.showStatus (dialogue.session.addToMemory dialogue.shown)) ∧
    (lower (strip line) = "m-" → dialogue.step line =
      dialogue.showStatus (dialogue.session.subtractFromMemory dialogue.shown)) := by
  constructor
  · intro hlower
    rw [Dialogue.step, ofLine_of_bare hlower (by decide) (by decide) (by decide)]
    rfl
  · intro hlower
    rw [Dialogue.step, ofLine_of_bare hlower (by decide) (by decide) (by decide)]
    rfl

theorem evaluate_shown (mode : AngleMode) (negative : Bool) (rank : Fin (2047 * 2 ^ (52 : Nat))) :
    evaluate mode (some (Double.finite negative rank).display) =
      .ok (Double.reread negative rank) :=
  evaluate_plain mode _ (Decimal.rank_within_lt rank.isLt)

theorem Dialogue.Follows.valueOrZero_of_none (h : dialogue.Follows latest)
    (hnone : latest.bind Outcome.value? = none) :
    dialogue.session.valueOrZero dialogue.shown = Double.zero := by
  rw [h.shown]
  cases latest with
  | none => rfl
  | some outcome =>
    obtain ⟨expression, result⟩ := outcome
    cases result with
    | ok x => cases hnone
    | error failure =>
      have hword : Session.isNoValue (some failureText) = true := by decide
      exact if_pos hword

theorem Dialogue.Follows.valueOrZero_of_some (h : dialogue.Follows latest) {negative : Bool}
    {rank : Fin (2047 * 2 ^ (52 : Nat))}
    (hsome : latest.bind Outcome.value? = some (.finite negative rank)) :
    dialogue.session.valueOrZero dialogue.shown = Double.reread negative rank := by
  obtain ⟨outcome, rfl, hvalue⟩ := Option.bind_eq_some_iff.mp hsome
  obtain ⟨expression, result⟩ := outcome
  cases result with
  | error failure => cases hvalue
  | ok x =>
    obtain rfl := Option.some.inj hvalue
    rw [h.shown, Session.valueOrZero_eq]
    simp only [Option.map_some, Outcome.shown, tryEvaluate, evaluate_shown]
    rfl

theorem reread_neg_zero {negative : Bool} {rank : Fin (2047 * 2 ^ (52 : Nat))}
    (h : Double.finite negative rank = Double.zero.neg) :
    Double.reread negative rank = Double.zero := by
  obtain ⟨rfl, hrank⟩ := (Double.finite_eq_neg_zero_iff negative rank).mp h
  rw [Double.reread, Double.zero, Double.finite.injEq, Fin.ext_iff]
  have hplain : (Decimal.within 15 rank).plain = ['0'] := by
    rw [hrank]
    exact Double.plain_within_zero
  refine ⟨?_, Double.rank_within_eq_zero hplain⟩
  rw [hplain]
  rfl

/-- A number that a decimal of at most fifteen places reads back as is remembered as it is, but for
the sign of a zero, which makes no difference to the memory. -/
theorem add_reread {memory : Double} (hmemory : memory ≠ Double.zero.neg) {negative : Bool}
    {rank : Fin (2047 * 2 ^ (52 : Nat))} (hplaces : ∃ d : Decimal, d.rank = rank ∧ d.places ≤ 15) :
    memory.add (Double.reread negative rank) = memory.add (.finite negative rank) ∧
      memory.sub (Double.reread negative rank) = memory.sub (.finite negative rank) := by
  by_cases hzero : Double.finite negative rank = Double.zero.neg
  · have hpositive : memory.add Double.zero = memory :=
      Double.add_finite_zero false fun _ => hmemory
    have hnegative : memory.add Double.zero.neg = memory := Double.add_finite_zero true nofun
    have hback : Double.zero.neg.neg = Double.zero := rfl
    rw [reread_neg_zero hzero, hzero, Double.sub, Double.sub, hback, hpositive, hnegative]
    exact ⟨rfl, rfl⟩
  · rw [(Double.reread_eq_iff negative rank).mpr ⟨hzero, hplaces⟩]
    exact ⟨rfl, rfl⟩

theorem exists_decimal_of_large {negative : Bool} {rank : Fin (2047 * 2 ^ (52 : Nat))} {p : ℚ}
    (hp : (Double.finite negative rank).value? = some p) (hlarge : 8 ≤ |p|) :
    ∃ d : Decimal, d.rank = rank ∧ d.places ≤ 15 := by
  obtain rfl := Option.some.inj ((Double.value?_finite negative rank).symm.trans hp)
  rw [Double.abs_signed, abs_of_nonneg (Double.magnitude_nonneg _)] at hlarge
  exact ⟨Decimal.shortest rank, Decimal.rank_shortest rank,
    Decimal.places_shortest_le_of_large hlarge⟩

/-- In a dialogue that starts with a session as it is made, the last outcome after any lines is that
of the latest evaluation, and a memory command without an expression adds or subtracts one number:
zero where there is no latest value, and otherwise what the text shown for that value is read as, in
either mode. The memory comes to what it would with the value itself if a decimal with at most
fifteen fraction digits reads back as the value, as one does from eight on; and the number is never
off by as much as a unit in the fifteenth place. -/
theorem step_of_bare_memory {session : Session} (hlast : session.last = none)
    (hmemory : session.memory ≠ Double.zero.neg) {lines : List String} {dialogue : Dialogue}
    (hrun : Dialogue.after? ⟨session, none⟩ lines = some dialogue) :
    dialogue.session.last = Dialogue.latest? ⟨session, none⟩ lines ∧
    ∃ v : Double,
      (∀ line, lower (strip line) = "m+" → dialogue.step line = dialogue.showStatus
        { dialogue.session with memory := dialogue.session.memory.add v }) ∧
      (∀ line, lower (strip line) = "m-" → dialogue.step line = dialogue.showStatus
        { dialogue.session with memory := dialogue.session.memory.sub v }) ∧
      (dialogue.session.last.bind Outcome.value? = none → v = Double.zero) ∧
      ∀ x, dialogue.session.last.bind Outcome.value? = some x →
        (∀ mode, evaluate mode (some x.display) = .ok v) ∧
        ∃ (negative : Bool) (rank : Fin (2047 * 2 ^ (52 : Nat))) (p q : ℚ),
          x = .finite negative rank ∧ x.value? = some p ∧ v.value? = some q ∧
          |q - p| < 1 / 10 ^ 15 ∧
          (v = x ↔ x ≠ Double.zero.neg ∧ ∃ d : Decimal, d.rank = rank ∧ d.places ≤ 15) ∧
          (8 ≤ |p| → ∃ d : Decimal, d.rank = rank ∧ d.places ≤ 15) ∧
          ((∃ d : Decimal, d.rank = rank ∧ d.places ≤ 15) →
            dialogue.session.memory.add v = dialogue.session.memory.add x ∧
              dialogue.session.memory.sub v = dialogue.session.memory.sub x) := by
  have hstart : Dialogue.Follows ⟨session, none⟩ none := ⟨hlast, rfl, hmemory, nofun⟩
  have hfollows := hstart.run hrun
  rw [Option.or_none] at hfollows
  refine ⟨hfollows.last, dialogue.session.valueOrZero dialogue.shown,
    fun _ => (step_of_bare dialogue).1, fun _ => (step_of_bare dialogue).2, ?_, ?_⟩
  · rw [hfollows.last]
    exact hfollows.valueOrZero_of_none
  · rw [hfollows.last]
    intro x hx
    cases x with
    | nan | infinite _ => cases hfollows.finite _ hx
    | finite negative rank =>
      rw [hfollows.valueOrZero_of_some hx]
      obtain ⟨p, q, hp, hq, hnear⟩ := Double.reread_near negative rank
      exact ⟨fun mode => evaluate_shown mode negative rank, negative, rank, p, q, rfl, hp, hq,
        hnear, Double.reread_eq_iff negative rank, exists_decimal_of_large hp,
        add_reread hfollows.memory⟩

theorem step_of_bare_memory_recalled :
    ∃ dialogue after : Dialogue,
      Dialogue.after? ⟨session {}, none⟩ ["6/2", "mc", "1/0", "history 1"] = some dialogue ∧
      lower (strip "\tM- ") = "m-" ∧
      dialogue.session.last.bind Outcome.value? = some (Double.ofNat 3) ∧
      (dialogue.step "\tM- ").2 = some after ∧
      after.session.memory = dialogue.session.memory.sub (Double.ofNat 3) := by
  let start : Dialogue := ⟨session {}, none⟩
  have hfound : (start.after? ["6/2", "mc", "1/0", "history 1"]).isSome = true := by decide +kernel
  obtain ⟨dialogue, hrun⟩ := Option.isSome_iff_exists.mp hfound
  have hvalue : ((start.after? ["6/2", "mc", "1/0", "history 1"]).bind fun dialogue =>
      dialogue.session.last.bind Outcome.value?) = some (Double.ofNat 3) := by
    decide +kernel
  rw [hrun, Option.bind_some] at hvalue
  have hlower : lower (strip "\tM- ") = "m-" := by decide +kernel
  obtain ⟨_, v, _, hsub, _, hvalues⟩ :=
    @step_of_bare_memory (session {}) rfl Double.zero_ne_neg_zero _ _ hrun
  have hthree : evaluate .radians (some (Double.ofNat 3).display) =
      .ok (Double.ofNat 3) := by decide +kernel
  rw [(hvalues _ hvalue).1 .radians, Except.ok.injEq] at hthree
  rw [hthree] at hsub
  refine ⟨dialogue, ⟨{ dialogue.session with
    memory := dialogue.session.memory.sub (Double.ofNat 3) }, dialogue.shown⟩,
    hrun, hlower, hvalue, ?_, rfl⟩
  rw [hsub _ hlower]
  rfl

/-- A value below half a unit in the fifteenth place is shown as zero, and zero is what is added. -/
theorem step_of_bare_memory_tiny :
    ∃ (dialogue after : Dialogue) (x : Double),
      Dialogue.after? ⟨session {}, none⟩ ["0.0000000000000004"] = some dialogue ∧
      dialogue.session.last.bind Outcome.value? = some x ∧
      (dialogue.step "m+").2 = some after ∧
      after.session.memory ≠ dialogue.session.memory.add x := by
  let start : Dialogue := ⟨session {}, none⟩
  have hfound : (start.after? ["0.0000000000000004"]).isSome = true := by decide +kernel
  obtain ⟨dialogue, hrun⟩ := Option.isSome_iff_exists.mp hfound
  have hlast : ((start.after? ["0.0000000000000004"]).bind fun dialogue =>
      dialogue.session.last.bind Outcome.value?).isSome = true := by decide +kernel
  rw [hrun, Option.bind_some] at hlast
  obtain ⟨x, hvalue⟩ := Option.isSome_iff_exists.mp hlast
  have hdiffers : ((start.after? ["0.0000000000000004"]).all fun dialogue =>
      (dialogue.session.last.bind Outcome.value?).all fun x =>
        dialogue.session.memory.add (dialogue.session.valueOrZero dialogue.shown) !=
          dialogue.session.memory.add x) = true := by decide +kernel
  rw [hrun, Option.all_some, hvalue, Option.all_some, bne_iff_ne] at hdiffers
  have hlower : lower (strip "m+") = "m+" := by decide +kernel
  refine ⟨dialogue, ⟨dialogue.session.addToMemory dialogue.shown, dialogue.shown⟩, x, hrun, hvalue,
    ?_, hdiffers⟩
  rw [(step_of_bare dialogue).1 hlower]
  rfl

end CommandLine

end Reckoner
