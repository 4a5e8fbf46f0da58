/-
PhraseGrammar/Proofs/Trimming.lean

Trimming, said by what it does not see.  Blanks put at either end of a text
are lost on it, and a text that neither starts nor ends with a blank comes
back as it was:

    trim (front ++ s ++ back) = trim s         front and back blank
    trim s = s                                 no blank at either end

Together with `trim_split` these two determine `trim`: it is idempotent, and
it leaves nothing exactly when there was nothing but blanks.

A text is *tidy* when it is what a line can hold and give back: it has no
line break in it and no blank at its ends.  Every trimmed piece of a line is
tidy (`tidy_trim`), and this is the property that the hazards of names and
rules test.
-/
import PhraseGrammar.Text.Blank
import PhraseGrammar.Text.Lines

namespace PhraseGrammar

/-- Nothing but blanks. -/
def AllBlank (s : Text) : Prop :=
  ∀ c ∈ s, isBlank c = true

instance : DecidablePred AllBlank := fun s =>
  List.decidableBAll (isBlank · = true) s

/-! ### Blanks at the ends -/

@[simp] theorem allBlank_nil : AllBlank [] := by
  intro c hc
  cases hc

theorem allBlank_append {s t : Text} : AllBlank (s ++ t) ↔ AllBlank s ∧ AllBlank t :=
  List.forall_mem_append

theorem trimEnd_append_blank {back : Text} (h : AllBlank back) (s : Text) :
    trimEnd (s ++ back) = trimEnd s := by
  have hr : ∀ c ∈ back.reverse, isBlank c = true := fun c hc => h c (List.mem_reverse.mp hc)
  rw [trimEnd, List.reverse_append, List.dropWhile_append_of_pos hr, trimEnd]

/-- Blanks in front are lost on trimming. -/
theorem trim_blank_append {front : Text} (h : AllBlank front) (s : Text) :
    trim (front ++ s) = trim s := by
  rw [trim, List.dropWhile_append_of_pos h, trim]

/-- A text of blanks leaves nothing. -/
theorem trim_of_allBlank {s : Text} (h : AllBlank s) : trim s = [] := by
  have := trim_blank_append h []
  rwa [List.append_nil] at this

/-- Blanks at the end are lost on trimming. -/
theorem trim_append_blank {back : Text} (h : AllBlank back) (s : Text) :
    trim (s ++ back) = trim s := by
  by_cases hs : s.dropWhile isBlank = []
  · -- nothing is left of `s`, so all of `s ++ back` is blank
    have hb : AllBlank s := by
      intro c hc
      have hw : s.takeWhile isBlank = s := by
        simpa [hs] using List.takeWhile_append_dropWhile (p := isBlank) (l := s)
      exact mem_takeWhile_isBlank (hw.symm ▸ hc)
    rw [trim_of_allBlank hb, trim_of_allBlank (allBlank_append.mpr ⟨hb, h⟩)]
  · rw [trim, List.dropWhile_append, if_neg (by simpa using hs), trimEnd_append_blank h, trim]

/-- Trimming leaves nothing exactly where there is nothing but blanks. -/
theorem trim_eq_nil_iff {s : Text} : trim s = [] ↔ AllBlank s := by
  constructor
  · intro h
    obtain ⟨front, back, hs, hf, hb⟩ := trim_split s
    rw [h, List.append_nil] at hs
    rw [hs]
    exact allBlank_append.mpr ⟨hf, hb⟩
  · exact trim_of_allBlank

/-! ### Texts that trimming leaves alone -/

/-- A text without a blank at either end is left alone. -/
theorem trim_eq_self {s : Text} (hh : ∀ c, s.head? = some c → isBlank c = false)
    (hl : ∀ c, s.getLast? = some c → isBlank c = false) : trim s = s := by
  have hd : s.dropWhile isBlank = s := by
    cases s with
    | nil => rfl
    | cons c s => rw [List.dropWhile_cons_of_neg (by simp [hh c rfl])]
  have hr : s.reverse.dropWhile isBlank = s.reverse := by
    cases h : s.reverse with
    | nil => rfl
    | cons c t =>
      have hc : s.getLast? = some c := by rw [← List.head?_reverse, h]; rfl
      rw [List.dropWhile_cons_of_neg (by simp [hl c hc])]
  rw [trim, hd, trimEnd, hr, List.reverse_reverse]

/-- Trimming twice is trimming once. -/
@[simp] theorem trim_trim (s : Text) : trim (trim s) = trim s :=
  trim_eq_self (fun _ h => not_isBlank_of_head?_trim h) fun _ h => not_isBlank_of_getLast?_trim h

/-- What is left of a text is a stretch of it. -/
theorem trim_isInfix (s : Text) : trim s <:+: s := by
  obtain ⟨front, back, hs, -, -⟩ := trim_split s
  exact ⟨front, back, hs.symm⟩

theorem isPadded_eq_false_iff {s : Text} : isPadded s = false ↔ trim s = s := by
  simp [isPadded]

theorem isBlankText_eq_false_iff {s : Text} : isBlankText s = false ↔ ¬ AllBlank s := by
  rw [← trim_eq_nil_iff]
  simp [isBlankText]

/-! ### Tidy texts -/

/-- No line break inside and no blank at either end. -/
structure Tidy (s : Text) : Prop where
  oneLine : '\n' ∉ s
  unpadded : trim s = s

/-- A tidy text that is not empty is not blank. -/
theorem Tidy.not_allBlank {s : Text} (h : Tidy s) (hne : s ≠ []) : ¬ AllBlank s := by
  intro hb
  exact hne (h.unpadded ▸ trim_of_allBlank hb)

/-- A trimmed stretch of a line is tidy. -/
theorem tidy_trim {s line : Text} (hs : s <:+: line) (hl : '\n' ∉ line) : Tidy (trim s) where
  oneLine := fun h => hl (((trim_isInfix s).trans hs).subset h)
  unpadded := trim_trim s

end PhraseGrammar
