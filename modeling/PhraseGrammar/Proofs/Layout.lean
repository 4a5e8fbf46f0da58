/-
PhraseGrammar/Proofs/Layout.lean

The layout of a text says nothing.

A text is read through its lines: through the trimmed first line, and through
what each later line says.  So reading does not see

* blanks that are added at the ends of any lines, or around the first arrows of
  lines after the first (`Respaced`); a carriage return before a line feed is one
  of these (`respaced_withReturns`);
* blank lines that are put in after the first line, but for the numbers of the
  lines below them (`withBlankLines`, `Located.lowered`).

Blanks next to the first arrow of a line leave it the first: they hold no arrow
and complete none, so all they do is to be trimmed off a side
(`ofLine?_of_spaced`).

Both come from one lemma, which compares what is read off two texts by names,
rules and faults (`decode_eq_mapError`).  The faults are those of the lines under
other numbers, and the numbers are kept by an induction on the lines
(`faultsAfter_spread`).
-/
import PhraseGrammar.Proofs.Legible

namespace PhraseGrammar

/-! ### Blanks in lines -/

/-- A line with blanks added at its ends. -/
def PaddedLine (line line' : Text) : Prop :=
  ∃ front back, AllBlank front ∧ AllBlank back ∧ line' = front ++ line ++ back

/-- A line with blanks added at its ends, and on both sides of its first arrow. -/
inductive SpacedLine (line : Text) : Text → Prop
  | ends {line' : Text} : PaddedLine line line' → SpacedLine line line'
  | arrow {before after gap gap' line' : Text} : FirstArrow line before after →
      AllBlank gap → AllBlank gap' →
      PaddedLine (before ++ gap ++ arrow ++ (gap' ++ after)) line' → SpacedLine line line'

/-- A text, line by line, with blanks added at the ends of lines and around first
arrows.  None of the blanks is a line feed, since there are as many lines. -/
structure Respaced (text text' : Text) : Prop where
  first : PaddedLine (firstLine text) (firstLine text')
  later : List.Forall₂ SpacedLine (laterLines text) (laterLines text')

/-- A text with a carriage return before each line feed. -/
def withReturns (text : Text) : Text :=
  text.flatMap fun c => if c = '\n' then ['\r', '\n'] else [c]

/-! ### Blank lines -/

/-- Lines with others put in: `gaps i` above the first, `gaps (i + 1)` above the
second, and so on to those below the last. -/
def spread (gaps : Nat → List Text) (i : Nat) : List Text → List Text
  | [] => gaps i
  | l :: ls => gaps i ++ l :: spread gaps (i + 1) ls

/-- A text with lines put in after the first: `gaps 0` directly below it,
`gaps 1` below the second, and so on. -/
def withBlankLines (gaps : Nat → List Text) (text : Text) : Text :=
  joinLines (firstLine text :: spread gaps 0 (laterLines text))

/-- Nothing but blank lines is put in. -/
def AreBlankLines (gaps : Nat → List Text) : Prop :=
  ∀ i, ∀ b ∈ gaps i, AllBlank b ∧ '\n' ∉ b

theorem AreBlankLines.allBlank {gaps : Nat → List Text} (h : AreBlankLines gaps) (i : Nat) :
    ∀ b ∈ gaps i, AllBlank b :=
  fun b hb => (h i b hb).1

/-- How many lines are put in above the line with a number. -/
def insertedAbove (gaps : Nat → List Text) (number : Nat) : Nat :=
  ((List.range (number - 1)).flatMap gaps).length

/-- The same fault, found further down by as many lines as are put in above it. -/
def Located.lowered {φ : Type} (gaps : Nat → List Text) (f : Located φ) : Located φ :=
  { f with place := { f.place with line := f.place.line + insertedAbove gaps f.place.line } }

/-! ### What is read of a text -/

theorem eq_nil_of_lines {text : Text} (hf : firstLine text = []) (hl : laterLines text = []) :
    text = [] := by
  have hglue : joinLines (lines text) = text := glue_pieces text
  rw [lines_eq_cons, hf, hl] at hglue
  exact hglue.symm

/-- Reading sees the trimmed name, the rules and the faults of a text, and nothing
else of it. -/
theorem decode_eq_mapError {text text' : Text} (hne : text ≠ []) (hne' : text' ≠ [])
    (hname : trim (firstLine text') = trim (firstLine text))
    (hrules : rulesOf (laterLines text') = rulesOf (laterLines text))
    {move : Located FormatFault → Located FormatFault}
    (hfaults : faultsOf text' = (faultsOf text).map move) :
    decode text' = (decode text).mapError (·.map move) := by
  have hnil : faultsOf text' = [] ↔ faultsOf text = [] := by rw [hfaults, List.map_eq_nil_iff]
  rw [decode, decode, if_neg hne, if_neg hne']
  by_cases h : faultsOf text = []
  · rw [if_pos h, if_pos (hnil.mpr h)]
    exact congrArg Except.ok (Grammar.ofRules_congr hname hrules)
  · rw [if_neg h, if_neg (mt hnil.mp h), hfaults]
    rfl

/-! ### Blanks are not seen -/

theorem trim_of_padded {line line' : Text} (h : PaddedLine line line') : trim line' = trim line := by
  obtain ⟨front, back, hf, hb, rfl⟩ := h
  rw [trim_append_blank hb, trim_blank_append hf]

/-- A line is trimmed before anything else is done with it. -/
theorem ofLine?_congr {line line' : Text} (h : trim line' = trim line) :
    Rule.ofLine? line' = Rule.ofLine? line := by
  rw [Rule.ofLine?, Rule.ofLine?, h]

/-- The first arrow stays the first, with the blanks on either side of it added to
what stands there. -/
theorem FirstArrow.spaced {line before after gap : Text} (h : FirstArrow line before after)
    (hgap : AllBlank gap) (gap' : Text) :
    FirstArrow (before ++ gap ++ arrow ++ (gap' ++ after)) (before ++ gap) (gap' ++ after) := by
  refine firstArrow_append ?_ (gap' ++ after)
  rw [← splitArrow?_eq_none_iff, splitArrow?_append_blank hgap,
    splitArrow?_before (splitArrow?_eq_some_iff.mpr h)]
  rfl

/-- A line says what it says with blanks added. -/
theorem ofLine?_of_spaced {line line' : Text} (h : SpacedLine line line') :
    Rule.ofLine? line' = Rule.ofLine? line := by
  cases h with
  | ends hp => exact ofLine?_congr (trim_of_padded hp)
  | @arrow before after gap gap' _ h hgap hgap' hp =>
    have hspaced := h.spaced hgap gap'
    rw [ofLine?_congr (trim_of_padded hp)]
    -- the gap neither makes a head nor takes it away
    by_cases hblank : AllBlank before
    · have hblank' : AllBlank (before ++ gap) := allBlank_append.mpr ⟨hblank, hgap⟩
      rw [ofLine?_of_lineFault (.missingHead hspaced hblank'),
        ofLine?_of_lineFault (.missingHead h hblank)]
    · have hblank' : ¬ AllBlank (before ++ gap) := fun hb => hblank (allBlank_append.mp hb).1
      rw [ofLine?_of_ruleLine (.intro hspaced hblank'), ofLine?_of_ruleLine (.intro h hblank),
        trim_append_blank hgap, trim_blank_append hgap']

theorem rulesOf_of_spaced {ls ls' : List Text} (h : List.Forall₂ SpacedLine ls ls') :
    rulesOf ls' = rulesOf ls := by
  induction h with
  | nil => rfl
  | cons hl _ ih =>
    rw [rulesOf] at ih ⊢
    rw [List.filterMap_cons, ofLine?_of_spaced hl, ih]
    rfl

theorem faultsAfter_of_spaced {ls ls' : List Text} (h : List.Forall₂ SpacedLine ls ls') (n : Nat) :
    faultsAfter n ls' = faultsAfter n ls := by
  induction h generalizing n with
  | nil => rfl
  | cons hl _ ih => rw [faultsAfter, faultsAfter, ih, ruleFault?, ruleFault?, ofLine?_of_spaced hl]

theorem nameFault?_congr {line line' : Text} (h : trim line' = trim line) :
    nameFault? line' = nameFault? line := by
  rw [nameFault?, nameFault?, h]

namespace Respaced

variable {text text' : Text}

theorem ne_nil (h : Respaced text text') (hne : text ≠ []) : text' ≠ [] := by
  rintro rfl
  refine hne (eq_nil_of_lines ?_ ?_)
  · obtain ⟨front, back, -, -, hline⟩ : PaddedLine (firstLine text) [] := h.first
    simp only [List.nil_eq, List.append_eq_nil_iff] at hline
    exact hline.1.2
  · exact List.forall₂_nil_right_iff.mp h.later

/-- A text is read as it is with blanks added. -/
theorem decode_eq (h : Respaced text text') (hne : text ≠ []) : decode text' = decode text := by
  have htrim := trim_of_padded h.first
  have hfaults : faultsOf text' = (faultsOf text).map id := by
    rw [List.map_id, faultsOf, faultsOf, nameFault?_congr htrim, faultsAfter_of_spaced h.later]
  rw [decode_eq_mapError hne (h.ne_nil hne) htrim (rulesOf_of_spaced h.later) hfaults]
  cases decode text with
  | error faults => exact congrArg Except.error (List.map_id faults)
  | ok g => rfl

end Respaced

/-! ### Carriage returns -/

/-- A line with blanks added at its end only.  Unlike blanks in front they stay where
they are when the line grows in front by a character. -/
def BlanksAfter (line line' : Text) : Prop :=
  ∃ back, AllBlank back ∧ line' = line ++ back

theorem BlanksAfter.refl (line : Text) : BlanksAfter line line :=
  ⟨[], allBlank_nil, (List.append_nil line).symm⟩

theorem BlanksAfter.padded {line line' : Text} (h : BlanksAfter line line') :
    PaddedLine line line' := by
  obtain ⟨back, hb, rfl⟩ := h
  exact ⟨[], back, allBlank_nil, hb, rfl⟩

theorem forall₂_consPiece {ls ls' : List Text} (h : List.Forall₂ BlanksAfter ls ls') (c : Char) :
    List.Forall₂ BlanksAfter (consPiece c ls) (consPiece c ls') := by
  cases h with
  | nil => exact .cons (.refl [c]) .nil
  | cons hl hls =>
    obtain ⟨back, hb, rfl⟩ := hl
    exact .cons ⟨back, hb, rfl⟩ hls

/-- A carriage return before a line feed is a blank at the end of the line. -/
theorem forall₂_lines_withReturns (text : Text) :
    List.Forall₂ BlanksAfter (lines text) (lines (withReturns text)) := by
  induction text with
  | nil => exact .cons (.refl []) .nil
  | cons c text ih =>
    by_cases hc : c = '\n'
    · -- an empty line more, with the return alone on it
      have hreturn : lines (withReturns (c :: text)) = ['\r'] :: lines (withReturns text) := by
        rw [withReturns, List.flatMap_cons, if_pos hc]
        exact pieces_append_sep (p := ['\r']) (by decide) _
      rw [hreturn, lines, pieces, if_pos hc]
      exact .cons ⟨['\r'], by decide, rfl⟩ ih
    · have hkept : lines (withReturns (c :: text)) = consPiece c (lines (withReturns text)) := by
        rw [withReturns, List.flatMap_cons, if_neg hc]
        exact if_neg hc
      rw [hkept, lines, pieces, if_neg hc]
      exact forall₂_consPiece ih c

theorem respaced_withReturns (text : Text) : Respaced text (withReturns text) := by
  have h := forall₂_lines_withReturns text
  rw [lines_eq_cons, lines_eq_cons, List.forall₂_cons] at h
  exact ⟨h.1.padded, h.2.imp fun _ _ hl => .ends hl.padded⟩

/-! ### Blank lines are not seen but counted -/

section BlankLines

variable {gaps : Nat → List Text}

theorem rulesOf_blank_append {bs : List Text} (h : ∀ b ∈ bs, AllBlank b) (ls : List Text) :
    rulesOf (bs ++ ls) = rulesOf ls := by
  induction bs with
  | nil => rfl
  | cons b bs ih =>
    rw [List.cons_append, rulesOf_cons_of_allBlank (h b List.mem_cons_self),
      ih fun c hc => h c (List.mem_cons_of_mem b hc)]

theorem ruleFault?_of_allBlank {line : Text} (h : AllBlank line) : ruleFault? line = none := by
  rw [ruleFault?, ofLine?_eq_none_iff.mpr h]

/-- Blank lines have no faults and are counted. -/
theorem faultsAfter_blank_append {bs : List Text} (h : ∀ b ∈ bs, AllBlank b) (n : Nat)
    (ls : List Text) : faultsAfter n (bs ++ ls) = faultsAfter (n + bs.length) ls := by
  induction bs generalizing n with
  | nil => rfl
  | cons b bs ih =>
    have hcount : n + 1 + bs.length = n + (b :: bs).length := by
      rw [List.length_cons]
      omega
    rw [List.cons_append, faultsAfter, ruleFault?_of_allBlank (h b List.mem_cons_self),
      ih fun c hc => h c (List.mem_cons_of_mem b hc), hcount]
    rfl

theorem rulesOf_spread (h : AreBlankLines gaps) (i : Nat) (ls : List Text) :
    rulesOf (spread gaps i ls) = rulesOf ls := by
  induction ls generalizing i with
  | nil => simpa [spread] using rulesOf_blank_append (h.allBlank i) []
  | cons l ls ih =>
    rw [spread, rulesOf_blank_append (h.allBlank i)]
    show rulesOf ([l] ++ spread gaps (i + 1) ls) = rulesOf ([l] ++ ls)
    rw [rulesOf_append, rulesOf_append, ih (i + 1)]

theorem insertedAbove_succ (i : Nat) :
    insertedAbove gaps (i + 2) = insertedAbove gaps (i + 1) + (gaps i).length := by
  simp [insertedAbove, List.range_succ]

/-- Below line `i + 1` the faults are the same, each as many lines further down as
lines are put in above it. -/
theorem faultsAfter_spread (h : AreBlankLines gaps) (i : Nat) (ls : List Text) :
    faultsAfter (i + 1 + insertedAbove gaps (i + 1)) (spread gaps i ls) =
      (faultsAfter (i + 1) ls).map (Located.lowered gaps) := by
  induction ls generalizing i with
  | nil => simpa [spread, faultsAfter] using faultsAfter_blank_append (h.allBlank i) _ []
  | cons l ls ih =>
    -- the gap is counted once as lines passed over and once as lines put in
    have hline : i + 1 + insertedAbove gaps (i + 1) + (gaps i).length + 1 =
        i + 2 + insertedAbove gaps (i + 2) := by
      rw [insertedAbove_succ]
      omega
    rw [spread, faultsAfter_blank_append (h.allBlank i), faultsAfter, hline, ih (i + 1), faultsAfter,
      List.map_append]
    congr 1
    cases ruleFault? l <;> rfl

theorem mem_spread {i : Nat} {l : Text} {ls : List Text} (h : l ∈ spread gaps i ls) :
    (∃ j, l ∈ gaps j) ∨ l ∈ ls := by
  induction ls generalizing i with
  | nil => exact Or.inl ⟨i, h⟩
  | cons k ls ih =>
    rw [spread, List.mem_append, List.mem_cons] at h
    obtain h | rfl | h := h
    · exact Or.inl ⟨i, h⟩
    · exact Or.inr List.mem_cons_self
    · exact (ih h).imp_right (List.mem_cons_of_mem k)

theorem lines_withBlankLines (h : AreBlankLines gaps) (text : Text) :
    lines (withBlankLines gaps text) = firstLine text :: spread gaps 0 (laterLines text) := by
  have hline : ∀ l ∈ lines text, '\n' ∉ l := fun l hl => sep_not_mem_of_mem_pieces hl
  rw [lines_eq_cons, List.forall_mem_cons] at hline
  refine pieces_glue (List.cons_ne_nil _ _) (List.forall_mem_cons.mpr ⟨hline.1, fun l hl => ?_⟩)
  obtain ⟨j, hj⟩ | hl := mem_spread hl
  · exact (h j l hj).2
  · exact hline.2 l hl

theorem firstLine_withBlankLines (h : AreBlankLines gaps) (text : Text) :
    firstLine (withBlankLines gaps text) = firstLine text := by
  rw [firstLine, lines_withBlankLines h, List.headD_cons]

theorem laterLines_withBlankLines (h : AreBlankLines gaps) (text : Text) :
    laterLines (withBlankLines gaps text) = spread gaps 0 (laterLines text) := by
  rw [laterLines, lines_withBlankLines h, List.tail_cons]

theorem eq_nil_of_spread {i : Nat} {ls : List Text} (h : spread gaps i ls = []) : ls = [] := by
  cases ls with
  | nil => rfl
  | cons l ls => simp [spread] at h

theorem withBlankLines_ne_nil (h : AreBlankLines gaps) {text : Text} (hne : text ≠ []) :
    withBlankLines gaps text ≠ [] := by
  intro hnil
  have hfirst := firstLine_withBlankLines h text
  have hlater := laterLines_withBlankLines h text
  rw [hnil] at hfirst hlater
  exact hne (eq_nil_of_lines hfirst.symm (eq_nil_of_spread hlater.symm))

theorem faultsOf_withBlankLines (h : AreBlankLines gaps) (text : Text) :
    faultsOf (withBlankLines gaps text) = (faultsOf text).map (Located.lowered gaps) := by
  have hname : ((nameFault? (firstLine text)).map (Located.atLine 1)).toList.map
      (Located.lowered gaps) = ((nameFault? (firstLine text)).map (Located.atLine 1)).toList := by
    -- nothing is put in above the first line
    cases nameFault? (firstLine text) <;> rfl
  have hlater : faultsAfter 1 (spread gaps 0 (laterLines text)) =
      (faultsAfter 1 (laterLines text)).map (Located.lowered gaps) :=
    faultsAfter_spread h 0 (laterLines text)
  rw [faultsOf, faultsOf, firstLine_withBlankLines h, laterLines_withBlankLines h, hlater,
    List.map_append, hname]

/-- With blank lines put in, a text has the same rules, and the same faults further
down. -/
theorem decode_withBlankLines (h : AreBlankLines gaps) {text : Text} (hne : text ≠ []) :
    decode (withBlankLines gaps text) = (decode text).mapError (·.map (Located.lowered gaps)) := by
  refine decode_eq_mapError hne (withBlankLines_ne_nil h hne) ?_ ?_ (faultsOf_withBlankLines h text)
  · rw [firstLine_withBlankLines h]
  · rw [laterLines_withBlankLines h, rulesOf_spread h]

end BlankLines

/-! ### Layout -/

/-- **The layout of a text says nothing.**  A text that is not empty is read as the
same grammar, with the same keys, or refused with the same faults on the same
lines, when blanks are added at the ends of lines or around the first arrows of
lines after the first, and when every line feed gets a carriage return before it.
With blank lines put in after the first line it is read as the same grammar, or
refused with the same faults, each on a line further down by as many lines as are
put in above it. -/
theorem layout_says_nothing {text : Text} (hne : text ≠ []) :
    (∀ text', Respaced text text' → decode text' = decode text) ∧
    decode (withReturns text) = decode text ∧
    ∀ gaps, AreBlankLines gaps →
      decode (withBlankLines gaps text) = (decode text).mapError (·.map (Located.lowered gaps)) :=
  ⟨fun _ h => h.decode_eq hne, (respaced_withReturns text).decode_eq hne,
    fun _ h => decode_withBlankLines h hne⟩

/-- A rule whose head is a dash right before the arrow, and a line without an arrow. -/
def dashHead : Text :=
  "G\n-->a\nx".toList

/-- The head stays a dash with blanks around the arrow, and the line without one is
reported two lines further down when two blank lines are put in above it. -/
theorem layout_says_nothing_dashHead :
    dashHead ≠ [] ∧ Respaced dashHead "\tG\n- -> a\nx\r".toList ∧
      decode "\tG\n- -> a\nx\r".toList = .error [.atLine 3 .missingArrow] ∧
      decode (withReturns dashHead) = .error [.atLine 3 .missingArrow] ∧
      AreBlankLines (fun i => if i = 1 then [[], [' ']] else []) ∧
      decode (withBlankLines (fun i => if i = 1 then [[], [' ']] else []) dashHead) =
        .error [.atLine 5 .missingArrow] := by
  have hne : dashHead ≠ [] := by decide
  have hread : decode dashHead = .error [.atLine 3 .missingArrow] := rfl
  have hspace : AllBlank [' '] := by decide
  have hrespaced : Respaced dashHead "\tG\n- -> a\nx\r".toList := by
    have harrow : FirstArrow ['-', '-', '>', 'a'] ['-'] ['a'] := firstArrow_of_splitArrow? rfl
    refine ⟨⟨['\t'], [], by decide, allBlank_nil, rfl⟩, .cons ?_ (.cons ?_ .nil)⟩
    · exact .arrow harrow hspace hspace ⟨[], [], allBlank_nil, allBlank_nil, rfl⟩
    · exact .ends ⟨[], ['\r'], allBlank_nil, by decide, rfl⟩
  have hgaps : AreBlankLines (fun i => if i = 1 then [[], [' ']] else []) := by
    intro i b hb
    by_cases hi : i = 1
    · obtain rfl | rfl : b = [] ∨ b = [' '] := by simpa [hi] using hb
      · decide
      · decide
    · simp [hi] at hb
  obtain ⟨hspaced, hreturns, hblank⟩ := layout_says_nothing hne
  refine ⟨hne, hrespaced, ?_, ?_, hgaps, ?_⟩
  · rw [hspaced _ hrespaced, hread]
  · rw [hreturns, hread]
  · rw [hblank _ hgaps, hread]
    rfl

end PhraseGrammar
