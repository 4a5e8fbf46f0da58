/-
PhraseGrammar/Proofs/BrokenLine.lean

The line that is blamed when bytes are no text.

A reader stops at the first byte that goes on with nothing, and the line breaks
before that byte are counted.  Lines tell it without the reader: cut the bytes at
every line feed, and the line blamed is the first piece that is not well-formed
by itself.  Both come to the same,

    first broken piece of b = the line breaks in (read b).1    (`findIdx?_pieces`),

because a line feed is one byte that stands in no longer sequence.  So a sequence
that a line feed cuts short is broken on its own line, whatever follows, and a
character in front of a piece does not change whether the piece is broken
(`wellFormed_encodeChar_append`).  The induction is on what the reader takes off.

Main result: bytes of a text are read as the text, and all others are refused
with the first broken line (`first_broken_line`).
-/
import PhraseGrammar.Format
import PhraseGrammar.Proofs.WellFormed

namespace PhraseGrammar

/-! ### The first piece -/

section Pieces

variable {α : Type} [DecidableEq α] {sep : α}

/-- The first piece is followed by nothing or by a separator. -/
theorem eq_append_of_pieces {s p : List α} {ps : List (List α)} (h : pieces sep s = p :: ps) :
    ∃ rest, s = p ++ rest ∧ (rest = [] ∨ ∃ u, rest = sep :: u) := by
  obtain rfl : glue sep (p :: ps) = s := by rw [← h, glue_pieces]
  cases ps with
  | nil => exact ⟨[], (List.append_nil p).symm, Or.inl rfl⟩
  | cons q ps => exact ⟨_, rfl, Or.inr ⟨_, rfl⟩⟩

/-- What has no separator in it goes to the first piece. -/
theorem pieces_append_of_not_mem {p s q : List α} {qs : List (List α)} (hp : sep ∉ p)
    (hs : pieces sep s = q :: qs) : pieces sep (p ++ s) = (p ++ q) :: qs := by
  induction p with
  | nil => exact hs
  | cons a p ih =>
    rw [List.mem_cons, not_or] at hp
    rw [List.cons_append, pieces, if_neg (Ne.symm hp.1), ih hp.2, consPiece, List.cons_append]

theorem exists_pieces_eq_cons (sep : α) (s : List α) : ∃ p ps, pieces sep s = p :: ps :=
  List.exists_cons_of_ne_nil (pieces_ne_nil s)

end Pieces

namespace Utf8

/-! ### Line feeds -/

/-- The byte that ends a line. -/
def lineFeed : UInt8 := 0x0A

theorem encodeChar_newline : encodeChar '\n' = [lineFeed] :=
  rfl

/-- A line feed stands in no other character. -/
theorem lineFeed_not_mem_encodeChar {c : Char} (h : c ≠ '\n') : lineFeed ∉ encodeChar c := by
  obtain ⟨a, rest, ha, -, hcont⟩ := encodeChar_eq_cons c
  rw [ha, List.mem_cons, not_or]
  constructor
  · -- a first byte below 0x80 is a whole character
    rintro rfl
    have hnext := next?_encodeChar c []
    rw [ha, List.cons_append, List.append_nil] at hnext
    have hfeed : next? (lineFeed :: rest) = some ('\n', rest) := rfl
    rw [hfeed] at hnext
    exact h (Prod.mk.inj (Option.some.inj hnext)).1.symm
  · intro hmem
    exact absurd (hcont lineFeed hmem).1 (by decide)

theorem count_encode (t : Text) : (encode t).count lineFeed = t.count '\n' := by
  induction t with
  | nil => rfl
  | cons c t ih =>
    rw [encode_cons, List.count_append, ih]
    by_cases h : c = '\n'
    · rw [h, encodeChar_newline, List.count_singleton_self, List.count_cons_self, Nat.add_comm]
    · rw [List.count_eq_zero_of_not_mem (lineFeed_not_mem_encodeChar h), List.count_cons_of_ne h,
        Nat.zero_add]

/-! ### Broken pieces -/

/-- A character in front breaks nothing and mends nothing. -/
theorem wellFormed_encodeChar_append {c : Char} {b : Bytes} :
    WellFormed (encodeChar c ++ b) ↔ WellFormed b := by
  simp only [wellFormed_iff_exists_encode]
  constructor
  · rintro ⟨t, ht⟩
    cases t with
    | nil => exact absurd (List.append_eq_nil_iff.mp ht).1 (encodeChar_ne_nil c)
    | cons d t =>
      -- one character is read off the front, and the rest is left
      have hnext := next?_encodeChar c b
      rw [ht, encode_cons, next?_encodeChar] at hnext
      exact ⟨t, (Prod.mk.inj (Option.some.inj hnext)).2.symm⟩
  · rintro ⟨t, rfl⟩
    exact ⟨c :: t, (encode_cons c t).symm⟩

/-- Where no character can be read, the first piece is broken. -/
theorem not_wellFormed_of_next?_eq_none {b q : Bytes} {qs : List Bytes} (h : next? b = none)
    (hb : b ≠ []) (hq : pieces lineFeed b = q :: qs) : ¬ WellFormed q := by
  intro hwell
  obtain ⟨t, rfl⟩ := wellFormed_iff_exists_encode.mp hwell
  obtain ⟨rest, rfl, hrest⟩ := eq_append_of_pieces hq
  cases t with
  | nil =>
    obtain rfl | ⟨u, rfl⟩ := hrest
    · exact hb rfl
    · cases h
  | cons c t =>
    rw [encode_cons, List.append_assoc, next?_encodeChar] at h
    cases h

/-- **The first broken piece** stands behind as many line feeds as were read. -/
theorem findIdx?_pieces (b : Bytes) : (pieces lineFeed b).findIdx? (¬ WellFormed ·) =
    if (read b).2 = [] then none else some ((read b).1.count '\n') := by
  have hempty : WellFormed [] := wellFormed_encode []
  fun_induction read b with
  | case1 b h =>
    obtain ⟨q, qs, hq⟩ := exists_pieces_eq_cons lineFeed b
    by_cases hb : b = []
    · simp [hb, pieces, hempty]
    · have hbroken := not_wellFormed_of_next?_eq_none h hb hq
      rw [hq, List.findIdx?_cons, if_neg hb, if_pos (by simpa using hbroken)]
      rfl
  | case2 b c rest h hlt r ih =>
    obtain ⟨q, qs, hq⟩ := exists_pieces_eq_cons lineFeed rest
    rw [eq_of_next? h]
    by_cases hc : c = '\n'
    · -- an empty piece more
      have hpieces : pieces lineFeed (encodeChar c ++ rest) = [] :: pieces lineFeed rest := by
        rw [hc, encodeChar_newline, List.singleton_append, pieces, if_pos rfl]
      rw [hpieces, List.findIdx?_cons, if_neg (by simpa using hempty), ih, hc,
        List.count_cons_self]
      split <;> rfl
    · have hpieces := pieces_append_of_not_mem (lineFeed_not_mem_encodeChar hc) hq
      rw [hq, List.findIdx?_cons] at ih
      simp only [hpieces, List.findIdx?_cons, wellFormed_encodeChar_append]
      rw [ih, List.count_cons_of_ne hc]

end Utf8

/-! ### Reading bytes -/

/-- **Bytes are read as their text, or the first broken line is blamed.**  The
bytes of a text are read as the text is.  Any others are refused with one fault,
on the line after as many line feeds as their longest well-formed beginning has;
of the pieces between line feeds, all before that line are well-formed and the
one on it is not. -/
theorem first_broken_line :
    (∀ text, decodeBytes (Utf8.encode text) = decode text) ∧
    ∀ b, ¬ Utf8.WellFormed b → ∃ k p broken,
      decodeBytes b = .error [.atLine (k + 1) .invalidUtf8] ∧
      Utf8.IsLongest p b ∧ k = p.count Utf8.lineFeed ∧
      (pieces Utf8.lineFeed b)[k]? = some broken ∧ ¬ Utf8.WellFormed broken ∧
      ∀ i piece, i < k → (pieces Utf8.lineFeed b)[i]? = some piece → Utf8.WellFormed piece := by
  constructor
  · intro text
    rw [decodeBytes, Utf8.decode?_encode]
  · intro b hb
    have hnone : Utf8.decode? b = none := Utf8.decode?_eq_none_iff.mpr hb
    have hrest : (Utf8.read b).2 ≠ [] := by
      intro hnil
      rw [Utf8.decode?, if_pos hnil] at hnone
      cases hnone
    have hfirst := Utf8.findIdx?_pieces b
    rw [if_neg hrest, List.findIdx?_eq_some_iff_getElem] at hfirst
    obtain ⟨hlt, hbroken, hbefore⟩ := hfirst
    refine ⟨_, _, _, ?_, Utf8.longest_read b, (Utf8.count_encode _).symm,
      List.getElem?_eq_getElem hlt, by simpa using hbroken, ?_⟩
    · rw [decodeBytes, hnone]
      rfl
    · intro i piece hi hpiece
      obtain ⟨hlen, rfl⟩ := List.getElem?_eq_some_iff.mp hpiece
      simpa using hbefore i hi

/-- A sequence of three bytes that the end of the second line cuts short is
broken on that line, whatever stands after it. -/
theorem first_broken_line_cut_short :
    ¬ Utf8.WellFormed [0x47, 0x0A, 0xE2, 0x82, 0x0A, 0xFF] ∧
    decodeBytes [0x47, 0x0A, 0xE2, 0x82, 0x0A, 0xFF] = .error [.atLine 2 .invalidUtf8] ∧
    ¬ Utf8.WellFormed [0xE2, 0x82] := by
  have hb : ¬ Utf8.WellFormed [0x47, 0x0A, 0xE2, 0x82, 0x0A, 0xFF] := by decide +kernel
  obtain ⟨k, p, broken, hline, -, -, hpiece, hbroken, hbefore⟩ := first_broken_line.2 _ hb
  have hk : k = 1 := by
    match k, hpiece, hbefore with
    | 0, hpiece, _ =>
      obtain rfl : [0x47] = broken := Option.some.inj hpiece
      exact absurd (by decide +kernel) hbroken
    | 1, _, _ => rfl
    | k + 2, _, hbefore =>
      exact absurd (hbefore 1 [0xE2, 0x82] (by omega) rfl) (by decide +kernel)
  subst hk
  obtain rfl : [0xE2, 0x82] = broken := Option.some.inj hpiece
  exact ⟨hb, hline, hbroken⟩

end PhraseGrammar
