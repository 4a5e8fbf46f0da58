/-
PhraseGrammar/Text/Lines.lean

Pieces between separators, and lines as the pieces between line feeds.

`pieces sep` cuts a list at every separator, so n separators make n + 1
pieces and the empty list is one, empty, piece.  `glue sep` undoes the cut:

    glue sep (pieces sep s) = s,        pieces sep (glue sep ps) = ps

the second for a non-empty list of pieces without separators
(`glue_pieces`, `pieces_glue`).  A line ends at a line feed and nowhere else.
-/
import PhraseGrammar.Text.Basic

namespace PhraseGrammar

variable {α : Type}

/-- Puts an element in front of the first piece. -/
def consPiece (a : α) : List (List α) → List (List α)
  | [] => [[a]]
  | p :: ps => (a :: p) :: ps

/-- The pieces of a list, without the separators between them. -/
def pieces [DecidableEq α] (sep : α) : List α → List (List α)
  | [] => [[]]
  | a :: s => if a = sep then [] :: pieces sep s else consPiece a (pieces sep s)

/-- The pieces, with a separator between each and the next. -/
def glue (sep : α) : List (List α) → List α
  | [] => []
  | [p] => p
  | p :: q :: ps => p ++ sep :: glue sep (q :: ps)

/-- The lines of a text. -/
abbrev lines (s : Text) : List Text :=
  pieces '\n' s

/-- The line a text starts with. -/
def firstLine (s : Text) : Text :=
  (lines s).headD []

/-- The lines of a text after the first. -/
def laterLines (s : Text) : List Text :=
  (lines s).tail

/-- The text with the given lines. -/
abbrev joinLines (ls : List Text) : Text :=
  glue '\n' ls

/-! ### Cutting and gluing undo each other -/

variable [DecidableEq α] {sep : α}

theorem pieces_ne_nil (s : List α) : pieces sep s ≠ [] := by
  cases s with
  | nil => simp [pieces]
  | cons c s =>
    by_cases h : c = sep
    · simp [pieces, h]
    · cases hs : pieces sep s <;> simp [pieces, h, hs, consPiece]

omit [DecidableEq α] in
theorem glue_nil_cons {ps : List (List α)} (h : ps ≠ []) :
    glue sep ([] :: ps) = sep :: glue sep ps := by
  cases ps with
  | nil => exact absurd rfl h
  | cons q ps => rfl

omit [DecidableEq α] in
theorem glue_consPiece (a : α) {ps : List (List α)} (h : ps ≠ []) :
    glue sep (consPiece a ps) = a :: glue sep ps := by
  match ps with
  | [] => exact absurd rfl h
  | [p] => rfl
  | p :: q :: ps => rfl

/-- Gluing the pieces of a list gives it back. -/
theorem glue_pieces (s : List α) : glue sep (pieces sep s) = s := by
  induction s with
  | nil => rfl
  | cons c s ih =>
    by_cases h : c = sep
    · rw [pieces, if_pos h, glue_nil_cons (pieces_ne_nil s), ih, h]
    · rw [pieces, if_neg h, glue_consPiece c (pieces_ne_nil s), ih]

theorem pieces_append_sep {p : List α} (h : sep ∉ p) (s : List α) :
    pieces sep (p ++ sep :: s) = p :: pieces sep s := by
  induction p with
  | nil => simp [pieces]
  | cons c p ih =>
    simp only [List.mem_cons, not_or] at h
    rw [List.cons_append, pieces, if_neg (Ne.symm h.1), ih h.2, consPiece]

theorem pieces_eq_singleton {p : List α} (h : sep ∉ p) : pieces sep p = [p] := by
  induction p with
  | nil => rfl
  | cons c p ih =>
    simp only [List.mem_cons, not_or] at h
    rw [pieces, if_neg (Ne.symm h.1), ih h.2, consPiece]

/-- Cutting undoes gluing when no piece holds a separator. -/
theorem pieces_glue {ps : List (List α)} (hne : ps ≠ []) (h : ∀ p ∈ ps, sep ∉ p) :
    pieces sep (glue sep ps) = ps := by
  induction ps with
  | nil => exact absurd rfl hne
  | cons p ps ih =>
    have hp : sep ∉ p := h p List.mem_cons_self
    cases ps with
    | nil => exact pieces_eq_singleton hp
    | cons q ps =>
      rw [glue, pieces_append_sep hp,
        ih (List.cons_ne_nil _ _) fun k hk => h k (List.mem_cons_of_mem _ hk)]

/-- No piece holds a separator. -/
theorem sep_not_mem_of_mem_pieces {s p : List α} (h : p ∈ pieces sep s) : sep ∉ p := by
  induction s generalizing p with
  | nil =>
    obtain rfl : p = [] := by simpa [pieces] using h
    simp
  | cons c s ih =>
    by_cases hc : c = sep
    · rw [pieces, if_pos hc] at h
      rcases List.mem_cons.mp h with rfl | h
      · simp
      · exact ih h
    · rw [pieces, if_neg hc] at h
      cases hs : pieces sep s with
      | nil => exact absurd hs (pieces_ne_nil s)
      | cons q qs =>
        rw [hs, consPiece] at h
        rw [hs] at ih
        rcases List.mem_cons.mp h with rfl | h
        · simp only [List.mem_cons, not_or]
          exact ⟨Ne.symm hc, ih List.mem_cons_self⟩
        · exact ih (List.mem_cons_of_mem _ h)

/-- A text is its first line and the lines after it. -/
theorem lines_eq_cons (s : Text) : lines s = firstLine s :: laterLines s := by
  cases h : lines s with
  | nil => exact absurd h (pieces_ne_nil s)
  | cons l ls => simp [firstLine, laterLines, h]

end PhraseGrammar
