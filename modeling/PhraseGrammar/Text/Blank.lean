/-
PhraseGrammar/Text/Blank.lean

Blank characters and trimming.  The blanks are the characters with the
Unicode property White_Space, so a zero-width space and a byte-order mark are
ordinary characters here while a carriage return and an ideographic space are
blanks.

`trim` cuts the blanks off both ends and nothing else:

    s = front ++ trim s ++ back,    front and back blank,

and `trim s` neither starts nor ends with a blank (`trim_split`,
`not_isBlank_of_head?_trim`, `not_isBlank_of_getLast?_trim`).  A text is
*padded* when trimming changes it.
-/
import PhraseGrammar.Text.Basic

namespace PhraseGrammar

/-- The code points with the property White_Space. -/
def blankRanges : List (Nat × Nat) :=
  [(0x9, 0xD), (0x20, 0x20), (0x85, 0x85), (0xA0, 0xA0), (0x1680, 0x1680), (0x2000, 0x200A),
    (0x2028, 0x2029), (0x202F, 0x202F), (0x205F, 0x205F), (0x3000, 0x3000)]

/-- Whether a character is white space. -/
def isBlank (c : Char) : Bool :=
  inRanges blankRanges c

/-- Cuts the blanks off the end. -/
def trimEnd (s : Text) : Text :=
  (s.reverse.dropWhile isBlank).reverse

/-- Cuts the blanks off both ends. -/
def trim (s : Text) : Text :=
  trimEnd (s.dropWhile isBlank)

/-- Whether trimming would change the text. -/
def isPadded (s : Text) : Bool :=
  trim s != s

/-- Whether nothing but blanks is left to trim. -/
def isBlankText (s : Text) : Bool :=
  (trim s).isEmpty

/-! ### What trimming cuts and what it leaves -/

theorem mem_takeWhile_isBlank {s : Text} {c : Char} (h : c ∈ s.takeWhile isBlank) :
    isBlank c = true := by
  induction s with
  | nil => simp at h
  | cons a s ih =>
    rw [List.takeWhile_cons] at h
    split at h
    · next ha =>
      rcases List.mem_cons.mp h with rfl | h
      · exact ha
      · exact ih h
    · simp at h

/-- Trimming the end keeps all but a blank tail. -/
theorem trimEnd_split (s : Text) :
    ∃ back : Text, s = trimEnd s ++ back ∧ ∀ c ∈ back, isBlank c = true := by
  refine ⟨(s.reverse.takeWhile isBlank).reverse, ?_, fun c hc => ?_⟩
  · rw [trimEnd, ← List.reverse_append, List.takeWhile_append_dropWhile, List.reverse_reverse]
  · exact mem_takeWhile_isBlank (List.mem_reverse.mp hc)

/-- A text is its trimmed part between two blank ends. -/
theorem trim_split (s : Text) :
    ∃ front back : Text, s = front ++ trim s ++ back ∧
      (∀ c ∈ front, isBlank c = true) ∧ ∀ c ∈ back, isBlank c = true := by
  obtain ⟨back, hs, hb⟩ := trimEnd_split (s.dropWhile isBlank)
  refine ⟨s.takeWhile isBlank, back, ?_, fun c hc => mem_takeWhile_isBlank hc, hb⟩
  have h : s.takeWhile isBlank ++ s.dropWhile isBlank = s := List.takeWhile_append_dropWhile
  rw [List.append_assoc, trim, ← hs, h]

theorem not_isBlank_of_head?_dropWhile {s : Text} {c : Char}
    (h : (s.dropWhile isBlank).head? = some c) : isBlank c = false := by
  have := List.head?_dropWhile_not isBlank s
  rw [h] at this
  simpa using this

theorem not_isBlank_of_getLast?_trimEnd {s : Text} {c : Char}
    (h : (trimEnd s).getLast? = some c) : isBlank c = false := by
  rw [trimEnd, List.getLast?_reverse] at h
  exact not_isBlank_of_head?_dropWhile h

/-- The last character of a trimmed text is no blank. -/
theorem not_isBlank_of_getLast?_trim {s : Text} {c : Char}
    (h : (trim s).getLast? = some c) : isBlank c = false :=
  not_isBlank_of_getLast?_trimEnd h

/-- The first character of a trimmed text is no blank. -/
theorem not_isBlank_of_head?_trim {s : Text} {c : Char}
    (h : (trim s).head? = some c) : isBlank c = false := by
  obtain ⟨back, hs, -⟩ := trimEnd_split (s.dropWhile isBlank)
  refine not_isBlank_of_head?_dropWhile (s := s) ?_
  rw [hs]
  have h' : (trimEnd (s.dropWhile isBlank)).head? = some c := h
  cases ht : trimEnd (s.dropWhile isBlank) with
  | nil => simp [ht] at h'
  | cons a t => simpa [ht] using h'

end PhraseGrammar
