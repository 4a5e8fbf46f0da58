/-
PhraseGrammar/Text/Basic.lean

Words over the Unicode alphabet.  A name, the two sides of a rule and a file
name are all a `Text`, the list of their characters: they are measured, cut
and compared character by character, never by the length of an encoding.
What is only printed is a `String`.

A set of characters that a standard gives by code points is a sorted list of
closed intervals, and `inRanges` is membership in it.
-/

namespace PhraseGrammar

/-- A word: a finite sequence of characters. -/
abbrev Text := List Char

/-! ### Sets of characters given by code points -/

/-- Membership in a union of closed intervals of code points. -/
def inRanges (ranges : List (Nat × Nat)) (c : Char) : Bool :=
  ranges.any fun r => r.1 ≤ c.toNat && c.toNat ≤ r.2

theorem inRanges_iff {ranges : List (Nat × Nat)} {c : Char} :
    inRanges ranges c = true ↔ ∃ r ∈ ranges, r.1 ≤ c.toNat ∧ c.toNat ≤ r.2 := by
  simp [inRanges]

end PhraseGrammar
