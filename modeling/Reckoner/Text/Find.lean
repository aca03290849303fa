/-!
# Finding a text inside another

`find?` gives the place of the first occurrence and `splitFirst?` what comes before and after it.
-/

namespace Reckoner.Text

/-- How many characters come before the first occurrence of `part`. -/
def find? (part : List Char) : List Char → Option Nat
  | [] => if part.isEmpty then some 0 else none
  | c :: rest =>
    if part.isPrefixOf (c :: rest) then some 0 else (find? part rest).map (· + 1)

/-- The characters before and after the first occurrence of `part`. -/
def splitFirst? (part : List Char) : List Char → Option (List Char × List Char)
  | [] => if part.isEmpty then some ([], []) else none
  | c :: rest =>
    if part.isPrefixOf (c :: rest) then some ([], (c :: rest).drop part.length)
    else (splitFirst? part rest).map fun (before, after) => (c :: before, after)

theorem append_of_splitFirst? {part cs before after : List Char}
    (h : splitFirst? part cs = some (before, after)) : before ++ part ++ after = cs := by
  induction cs generalizing before after with
  | nil =>
    simp only [splitFirst?] at h
    split at h
    · simp_all
    · simp at h
  | cons c rest ih =>
    simp only [splitFirst?] at h
    split at h
    · rename_i hp
      obtain ⟨tail, ht⟩ := List.isPrefixOf_iff_prefix.mp hp
      simp only [Option.some.injEq, Prod.mk.injEq] at h
      obtain ⟨rfl, rfl⟩ := h
      rw [← ht]
      simp
    · obtain ⟨⟨b, a⟩, hs, he⟩ := Option.map_eq_some_iff.mp h
      simp only [Prod.mk.injEq] at he
      obtain ⟨rfl, rfl⟩ := he
      simpa using ih hs

/-- Both ways to look for a text agree on the place. -/
theorem find?_eq_map_length (part cs : List Char) :
    find? part cs = (splitFirst? part cs).map fun pair => pair.1.length := by
  induction cs with
  | nil => simp only [find?, splitFirst?]; split <;> rfl
  | cons c rest ih =>
    simp only [find?, splitFirst?]
    split
    · rfl
    · rw [ih, Option.map_map, Option.map_map]
      rfl

end Reckoner.Text
