import Reckoner.Proofs.Bookkeeping
import Reckoner.Proofs.Taxonomy

/-!
# The memory of a session

The memory is the one number that no check for finiteness guards. What is added to it is always
finite, so it can overflow but never becomes NaN, and an infinite memory stays as it is until it is
cleared.
-/

namespace Reckoner

set_option autoImplicit false

namespace Double

theorem ofRank_ne_nan (negative : Bool) (rank : Nat) : ofRank negative rank ≠ .nan := by
  by_cases h : rank < 2047 * 2 ^ (52 : Nat)
  · rw [ofRank, dif_pos h]
    exact fun hnan => by cases hnan
  · rw [ofRank, dif_neg h]
    exact fun hnan => by cases hnan

theorem add_ne_nan {x y : Double} (hx : x ≠ .nan) (hy : y.isFinite = true) : x.add y ≠ .nan := by
  cases y with
  | nan | infinite _ => cases hy
  | finite t b =>
    cases x with
    | nan => exact absurd rfl hx
    | infinite s => exact fun hnan => by cases hnan
    | finite s a =>
      rw [add, ofQuanta, ofRatio]
      exact ofRank_ne_nan _ _

theorem infinite_add (negative : Bool) {y : Double} (hy : y.isFinite = true) :
    (infinite negative).add y = .infinite negative := by
  cases y with
  | nan | infinite _ => cases hy
  | finite t b => rfl

theorem isFinite_neg (x : Double) : x.neg.isFinite = x.isFinite := by cases x <;> rfl

end Double

namespace Session

theorem isFinite_valueIn (mode : AngleMode) (text : Option String) :
    (valueIn mode text).isFinite = true := by
  rw [valueIn]
  cases hvalue : evaluate mode text with
  | error failure => rfl
  | ok value => exact isFinite_of_evaluate hvalue

/-- What is added to the memory is finite. -/
theorem isFinite_of_term? {event : AngleMode × Step} {term : Double} (h : term? event = some term) :
    term.isFinite = true := by
  obtain ⟨mode, step⟩ := event
  cases step with
  | addToMemory text =>
    cases h
    exact isFinite_valueIn mode text
  | subtractFromMemory text =>
    cases h
    rw [Double.isFinite_neg]
    exact isFinite_valueIn mode text
  | _ => cases h

/-- A step clears the memory, leaves it alone, or adds a finite number to it. -/
theorem memory_perform_cases (session : Session) (step : Step) :
    (step = .clearMemory ∧ (session.perform step).2.memory = Double.zero) ∨
      step ≠ .clearMemory ∧ ((session.perform step).2.memory = session.memory ∨
        ∃ term : Double, term.isFinite = true ∧
          (session.perform step).2.memory = session.memory.add term) := by
  rw [memory_perform]
  cases hclears : clearsMemory (session.mode, step) with
  | true =>
    cases step with
    | clearMemory => exact Or.inl ⟨rfl, rfl⟩
    | _ => cases hclears
  | false =>
    refine Or.inr ⟨?_, ?_⟩
    · rintro rfl
      cases hclears
    · cases hterm : term? (session.mode, step) with
      | none => exact Or.inl rfl
      | some term => exact Or.inr ⟨term, isFinite_of_term? hterm, rfl⟩

theorem memory_perform_ne_nan {session : Session} (h : session.memory ≠ .nan) (step : Step) :
    (session.perform step).2.memory ≠ .nan := by
  rcases memory_perform_cases session step with ⟨_, hzero⟩ | ⟨_, hsame | ⟨term, hfinite, hsum⟩⟩
  · rw [hzero]
    exact fun hnan => by cases hnan
  · rwa [hsame]
  · rw [hsum]
    exact Double.add_ne_nan h hfinite

theorem memory_perform_of_infinite {session : Session} {negative : Bool}
    (h : session.memory = .infinite negative) {step : Step} (hkept : step ≠ .clearMemory) :
    (session.perform step).2.memory = .infinite negative := by
  rcases memory_perform_cases session step with ⟨hclears, _⟩ | ⟨_, hsame | ⟨term, hfinite, hsum⟩⟩
  · exact absurd hclears hkept
  · rw [hsame, h]
  · rw [hsum, h]
    exact Double.infinite_add negative hfinite

/-- What each step of some kind keeps, a run of such steps keeps. -/
theorem run_keeps (P : Session → Prop) (allowed : Step → Prop)
    (hstep : ∀ session step, allowed step → P session → P (session.perform step).2)
    {session : Session} (h : P session) {steps : List Step} (hall : ∀ step ∈ steps, allowed step) :
    P (session.run steps) := by
  induction steps generalizing session with
  | nil => exact h
  | cons step rest ih =>
    obtain ⟨hfirst, hrest⟩ := List.forall_mem_cons.mp hall
    exact ih (hstep session step hfirst h) hrest

theorem run_append (session : Session) (steps later : List Step) :
    session.run (steps ++ later) = (session.run steps).run later := List.foldl_append

/-- After any run of a session as it is made, the memory is not NaN. If it is infinite, it is the
same infinity after all further steps up to the next one that clears the memory, and that one makes
it zero. -/
theorem memory_of_start {mode : Option String} {capacity : Option Int} {session : Session}
    (hstart : start mode capacity = .ok session) (steps : List Step) :
    (session.run steps).memory ≠ .nan ∧
    ∀ negative, (session.run steps).memory = .infinite negative → ∀ later : List Step,
      Step.clearMemory ∉ later →
        (session.run (steps ++ later)).memory = .infinite negative ∧
        (session.run (steps ++ later ++ [.clearMemory])).memory = Double.zero := by
  have hzero : session.memory = Double.zero := (accounts_start hstart).2.memory
  refine ⟨?_, fun negative hinfinite later hkept => ⟨?_, ?_⟩⟩
  · refine run_keeps (fun session => session.memory ≠ .nan) (fun _ => True)
      (fun session step _ h => memory_perform_ne_nan h step) ?_ fun _ _ => trivial
    rw [hzero]
    exact fun hnan => by cases hnan
  · rw [run_append]
    refine run_keeps (fun session => session.memory = .infinite negative)
      (fun step => step ≠ .clearMemory)
      (fun session step hstep h => memory_perform_of_infinite h hstep) hinfinite ?_
    rintro step hmem rfl
    exact hkept hmem
  · rw [run_concat]
    rfl

/-- Two additions overflow, and neither a subtraction nor a failure brings the memory back. -/
theorem memory_of_start_overflow :
    ∃ session, start (some "DEG") none = .ok session ∧
      ∃ steps later, steps = [.addToMemory (some "2^1023"), .addToMemory (some "2^1023")] ∧
        later = [.subtractFromMemory (some "2^1023"), .evaluate (some "1/0"),
          .subtractFromMemory (some "pi")] ∧
        (session.run steps).memory = .infinite false ∧
        (session.run (steps ++ later)).memory = .infinite false ∧
        (session.run (steps ++ later ++ [.clearMemory])).memory = Double.zero := by
  have hstart :
      start (some "DEG") none = .ok ⟨.degrees, ⟨100, " = ", []⟩, Double.zero, none⟩ := rfl
  have hinfinite : ((Session.mk .degrees ⟨100, " = ", []⟩ Double.zero none).run
      [.addToMemory (some "2^1023"), .addToMemory (some "2^1023")]).memory =
        .infinite false := by decide +kernel
  have hkept : Step.clearMemory ∉ [.subtractFromMemory (some "2^1023"), .evaluate (some "1/0"),
      .subtractFromMemory (some "pi")] := by simp
  obtain ⟨hstays, hcleared⟩ := (memory_of_start hstart _).2 false hinfinite _ hkept
  exact ⟨_, hstart, _, _, rfl, rfl, hinfinite, hstays, hcleared⟩

end Session

end Reckoner
