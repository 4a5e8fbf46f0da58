/-
PhraseGrammar/Proofs/RuleLine.lean

What a single line says, apart from how it is read.

The first arrow of a line is the arrow with the fewest characters before it:

    FirstArrow line before after

and a line after the name line is one of four things: blank; a line without
an arrow; a line with nothing but blanks before its first arrow; or a rule,
with the trimmed text before the first arrow for its head and the trimmed
text after it for its body.  None of this mentions that a reader trims the
line before it looks for the arrow.  That makes no difference
(`Rule.ofLine?_eq`), because blanks around a line neither hold an arrow nor
complete one.

Main results: `Rule.ofLine?` answers with a rule, with nothing, or with a
fault exactly where the line says so (`ofLine?_eq_rule_iff`,
`ofLine?_eq_none_iff`, `ofLine?_eq_error_iff`).
-/
import PhraseGrammar.Format
import PhraseGrammar.Proofs.Trimming

namespace PhraseGrammar

/-! ### The first arrow -/

/-- The first arrow of a line stands between two of its parts. -/
structure FirstArrow (line before after : Text) : Prop where
  cut : line = before ++ arrow ++ after
  first : ∀ b a, line = b ++ arrow ++ a → before.length ≤ b.length

/-- A line has one first arrow. -/
theorem FirstArrow.unique {line b b' a a' : Text} (h : FirstArrow line b a)
    (h' : FirstArrow line b' a') : b = b' ∧ a = a' := by
  have hlen : b.length = b'.length :=
    Nat.le_antisymm (h.first b' a' h'.cut) (h'.first b a h.cut)
  have hcut := h.cut.symm.trans h'.cut
  rw [List.append_assoc, List.append_assoc] at hcut
  obtain ⟨hb, ha⟩ := List.append_inj hcut hlen
  exact ⟨hb, List.append_cancel_left ha⟩

/-- What is cut off first holds fewer characters than any other front part. -/
theorem firstArrow_of_splitArrow? {s before after : Text}
    (h : splitArrow? s = some (before, after)) : FirstArrow s before after := by
  refine ⟨eq_of_splitArrow? h, ?_⟩
  -- an arrow at the front, a character that is passed over, or the end
  fun_induction splitArrow? s generalizing before after with
  | case1 s =>
    obtain ⟨rfl, rfl⟩ : [] = before ∧ s = after := by simpa using h
    intro b a _
    exact Nat.zero_le _
  | case2 c s hne ih =>
    obtain ⟨⟨b, a⟩, hs, hc⟩ := Option.map_eq_some_iff.mp h
    obtain ⟨rfl, rfl⟩ : c :: b = before ∧ a = after := by simpa using hc
    intro b' a' hcut
    cases b' with
    | nil =>
      -- an arrow at the very front would have been cut
      obtain ⟨rfl, rfl⟩ : c = '-' ∧ s = '>' :: a' := by simpa [arrow] using hcut
      exact (hne a' rfl rfl).elim
    | cons d b' =>
      have hs' : s = b' ++ arrow ++ a' := by simpa using (List.cons.inj hcut).2
      have := ih hs b' a' hs'
      simpa using this
  | case3 => simp at h

/-- Nothing is cut exactly where there is no arrow. -/
theorem splitArrow?_eq_none_iff {s : Text} : splitArrow? s = none ↔ ¬ arrow <:+: s := by
  constructor
  · intro h hin
    obtain ⟨b, a, hs⟩ := hin
    fun_induction splitArrow? s generalizing b with
    | case1 => cases h
    | case2 c s hne ih =>
      cases b with
      | nil =>
        obtain ⟨rfl, rfl⟩ : '-' = c ∧ '>' :: a = s := by simpa [arrow] using hs
        exact hne a rfl rfl
      | cons d b =>
        exact ih (by simpa using h) b (by simpa using (List.cons.inj hs).2)
    | case3 => simp [arrow] at hs
  · intro h
    cases hs : splitArrow? s with
    | none => rfl
    | some p => exact absurd ⟨p.1, p.2, (eq_of_splitArrow? hs).symm⟩ h

/-- A text is cut at its first arrow. -/
theorem splitArrow?_eq_some_iff {s before after : Text} :
    splitArrow? s = some (before, after) ↔ FirstArrow s before after := by
  constructor
  · exact firstArrow_of_splitArrow?
  · intro h
    -- the reader cuts somewhere, and there is only one first arrow to cut at
    cases hs : splitArrow? s with
    | none => exact absurd ⟨before, after, h.cut.symm⟩ (splitArrow?_eq_none_iff.mp hs)
    | some p =>
      obtain ⟨b, a⟩ := p
      obtain ⟨rfl, rfl⟩ := h.unique (firstArrow_of_splitArrow? hs)
      rfl

theorem splitArrow?_cons {c : Char} {s : Text} (h : c = '-' → s.head? ≠ some '>') :
    splitArrow? (c :: s) = (splitArrow? s).map fun p => (c :: p.1, p.2) := by
  rw [splitArrow?]
  rintro t rfl rfl
  exact h rfl rfl

/-- An arrow after a text that holds none is the first; a dash at the end of
that text does not make an earlier one. -/
theorem firstArrow_append {before : Text} (h : ¬ arrow <:+: before) (after : Text) :
    FirstArrow (before ++ arrow ++ after) before after := by
  rw [← splitArrow?_eq_none_iff] at h
  rw [← splitArrow?_eq_some_iff]
  induction before with
  | nil => rfl
  | cons c b ih =>
    have hc : c = '-' → b.head? ≠ some '>' := by
      rintro rfl hh
      obtain ⟨t, rfl⟩ := List.head?_eq_some_iff.mp hh
      cases h
    rw [splitArrow?_cons hc, Option.map_eq_none_iff] at h
    have hc' : c = '-' → (b ++ arrow ++ after).head? ≠ some '>' := by
      intro hd
      cases b with
      | nil =>
        -- what follows the dash is the dash of the arrow
        simp [arrow]
      | cons d b => exact hc hd
    rw [List.cons_append, List.cons_append, splitArrow?_cons hc', ih h]
    rfl

/-! ### Blanks around a line -/

/-- Blanks in front of a line stay in front of its first arrow. -/
theorem splitArrow?_blank_append {front : Text} (h : AllBlank front) (s : Text) :
    splitArrow? (front ++ s) = (splitArrow? s).map fun p => (front ++ p.1, p.2) := by
  induction front with
  | nil => simp
  | cons c front ih =>
    have hc : c ≠ '-' := by
      rintro rfl
      exact absurd (h '-' List.mem_cons_self) (by decide)
    rw [List.cons_append, splitArrow?_cons fun hd => absurd hd hc,
      ih fun d hd => h d (List.mem_cons_of_mem _ hd), Option.map_map]
    rfl

/-- Blanks hold no arrow. -/
theorem splitArrow?_of_allBlank {s : Text} (h : AllBlank s) : splitArrow? s = none := by
  have := splitArrow?_blank_append h []
  rw [List.append_nil] at this
  rw [this]
  rfl

/-- Blanks behind a line stay behind its first arrow. -/
theorem splitArrow?_append_blank {back : Text} (h : AllBlank back) (s : Text) :
    splitArrow? (s ++ back) = (splitArrow? s).map fun p => (p.1, p.2 ++ back) := by
  fun_induction splitArrow? s with
  | case1 s => rfl
  | case2 c s hne ih =>
    have hc : c = '-' → (s ++ back).head? ≠ some '>' := by
      rintro rfl hh
      cases s with
      | nil =>
        -- a dash at the end of the line, completed by a blank
        have hgt : '>' ∈ back := List.mem_of_mem_head? hh
        exact absurd (h '>' hgt) (by decide)
      | cons d s =>
        obtain rfl : d = '>' := by simpa using hh
        exact hne s rfl rfl
    rw [List.cons_append, splitArrow?_cons hc, ih, Option.map_map, Option.map_map]
    rfl
  | case3 => exact splitArrow?_of_allBlank h

/-- Reading a line needs no trimming before the arrow is looked for. -/
theorem Rule.ofLine?_eq (line : Text) :
    Rule.ofLine? line =
      if AllBlank line then .ok none
      else
        match splitArrow? line with
        | none => .error .missingArrow
        | some (before, after) =>
          if AllBlank before then .error .missingHead
          else .ok (some ⟨trim before, trim after⟩) := by
  obtain ⟨front, back, hs, hf, hb⟩ := trim_split line
  have hcut : splitArrow? line =
      (splitArrow? (trim line)).map fun p => (front ++ p.1, p.2 ++ back) := by
    refine (congrArg splitArrow? hs).trans ?_
    rw [splitArrow?_append_blank hb, splitArrow?_blank_append hf, Option.map_map]
    rfl
  rw [Rule.ofLine?, hcut]
  -- the blanks that come back at the ends are trimmed off the two sides
  simp only [trim_eq_nil_iff]
  cases splitArrow? (trim line) with
  | none => rfl
  | some p =>
    have hp : AllBlank (front ++ p.1) ↔ AllBlank p.1 := by
      rw [allBlank_append]
      exact ⟨And.right, fun h => ⟨hf, h⟩⟩
    simp only [Option.map_some, hp, trim_blank_append hf, trim_append_blank hb]

/-! ### What a line says -/

/-- What is wrong with a line. -/
inductive LineFault (line : Text) : FormatFault → Prop
  | missingArrow : ¬ AllBlank line → ¬ arrow <:+: line → LineFault line .missingArrow
  | missingHead {before after : Text} :
      FirstArrow line before after → AllBlank before → LineFault line .missingHead

/-- The rule on a line. -/
inductive RuleLine (line : Text) : Rule → Prop
  | intro {before after : Text} :
      FirstArrow line before after → ¬ AllBlank before → RuleLine line ⟨trim before, trim after⟩

/-- A line with an arrow is not blank. -/
theorem FirstArrow.not_allBlank {line before after : Text} (h : FirstArrow line before after) :
    ¬ AllBlank line := by
  intro hb
  rw [← splitArrow?_eq_some_iff, splitArrow?_of_allBlank hb] at h
  cases h

theorem ofLine?_of_lineFault {line : Text} {why : FormatFault} (h : LineFault line why) :
    Rule.ofLine? line = .error why := by
  rw [Rule.ofLine?_eq]
  cases h with
  | missingArrow hb ha => rw [if_neg hb, splitArrow?_eq_none_iff.mpr ha]
  | missingHead hf hb =>
    rw [if_neg hf.not_allBlank, splitArrow?_eq_some_iff.mpr hf]
    exact if_pos hb

theorem ofLine?_of_ruleLine {line : Text} {r : Rule} (h : RuleLine line r) :
    Rule.ofLine? line = .ok (some r) := by
  obtain ⟨hf, hb⟩ := h
  rw [Rule.ofLine?_eq, if_neg hf.not_allBlank, splitArrow?_eq_some_iff.mpr hf]
  exact if_neg hb

/-- A line is blank, or faulty, or holds a rule, and is read as what it is. -/
theorem ofLine?_cases (line : Text) :
    (AllBlank line ∧ Rule.ofLine? line = .ok none) ∨
      (∃ why, LineFault line why ∧ Rule.ofLine? line = .error why) ∨
      ∃ r, RuleLine line r ∧ Rule.ofLine? line = .ok (some r) := by
  by_cases hb : AllBlank line
  · refine Or.inl ⟨hb, ?_⟩
    rw [Rule.ofLine?_eq, if_pos hb]
  · refine Or.inr ?_
    cases hs : splitArrow? line with
    | none =>
      have hl := LineFault.missingArrow hb (splitArrow?_eq_none_iff.mp hs)
      exact Or.inl ⟨_, hl, ofLine?_of_lineFault hl⟩
    | some p =>
      have hf : FirstArrow line p.1 p.2 := splitArrow?_eq_some_iff.mp hs
      by_cases hp : AllBlank p.1
      · have hl := LineFault.missingHead hf hp
        exact Or.inl ⟨_, hl, ofLine?_of_lineFault hl⟩
      · have hr := RuleLine.intro hf hp
        exact Or.inr ⟨_, hr, ofLine?_of_ruleLine hr⟩

/-- A line is refused exactly for what is wrong with it. -/
theorem ofLine?_eq_error_iff {line : Text} {why : FormatFault} :
    Rule.ofLine? line = .error why ↔ LineFault line why := by
  refine ⟨fun h => ?_, ofLine?_of_lineFault⟩
  obtain ⟨-, h'⟩ | ⟨w, hw, h'⟩ | ⟨r, -, h'⟩ := ofLine?_cases line
  · rw [h'] at h; cases h
  · rw [h'] at h; cases h; exact hw
  · rw [h'] at h; cases h

/-- The rule that is read is the one on the line. -/
theorem ofLine?_eq_rule_iff {line : Text} {r : Rule} :
    Rule.ofLine? line = .ok (some r) ↔ RuleLine line r := by
  refine ⟨fun h => ?_, ofLine?_of_ruleLine⟩
  obtain ⟨-, h'⟩ | ⟨w, -, h'⟩ | ⟨r', hr, h'⟩ := ofLine?_cases line
  · rw [h'] at h; cases h
  · rw [h'] at h; cases h
  · rw [h'] at h; cases h; exact hr

/-- Nothing is read exactly off blank lines. -/
theorem ofLine?_eq_none_iff {line : Text} : Rule.ofLine? line = .ok none ↔ AllBlank line := by
  obtain ⟨hb, h'⟩ | ⟨w, hw, h'⟩ | ⟨r, hr, h'⟩ := ofLine?_cases line
  · simp [hb, h']
  · have hb : ¬ AllBlank line := by
      cases hw with
      | missingArrow hb _ => exact hb
      | missingHead hf _ => exact hf.not_allBlank
    simp [hb, h']
  · obtain ⟨hf, -⟩ := hr
    simp [hf.not_allBlank, h']

/-- What is read off one line is tidy, and the head is a head. -/
theorem RuleLine.tidy {line : Text} {r : Rule} (h : RuleLine line r) (hl : '\n' ∉ line) :
    Tidy r.head ∧ Tidy r.body ∧ ¬ arrow <:+: r.head := by
  obtain @⟨before, after, hf, -⟩ := h
  have hb : before <:+: line := ⟨[], arrow ++ after, by rw [hf.cut]; simp⟩
  have ha : after <:+: line := ⟨before ++ arrow, [], by rw [hf.cut]; simp⟩
  refine ⟨tidy_trim hb hl, tidy_trim ha hl, fun hin => ?_⟩
  have hnone := splitArrow?_before (splitArrow?_eq_some_iff.mpr hf)
  exact splitArrow?_eq_none_iff.mp hnone (hin.trans (trim_isInfix before))

end PhraseGrammar
