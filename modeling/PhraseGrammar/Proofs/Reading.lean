/-
PhraseGrammar/Proofs/Reading.lean

Reading a text against the rules of its format.

`Reads text result` says what may come of a text, line by line and without a
reader: the empty text is one fault at line 0; a text with bad lines is
refused with one fault for each of them, under the number of the line and in
increasing order; any other text stands for the grammar that is named by its
first line and has one rule for every later line that is not blank, numbered
from 0.

Main result: `decode` does exactly that (`decode_eq_iff_reads`).  The
direction from the right holds because nothing is left open: a text that is
read in two ways is read in one (`Reads.unique`).

The rules of a text without bad lines all have heads, so adding them to the
grammar one after the other never meets a refusal (`StandsFor.added`).  Where the
lines are given and not the text, `Readable` says that they make one that is read.
-/
import Mathlib.Data.List.Forall2
import Mathlib.Data.List.Sort
import PhraseGrammar.Proofs.RuleLine

namespace PhraseGrammar

/-! ### Bad lines -/

/-- A bad line of a text, by its number, and what is wrong with it. -/
inductive BadLine (text : Text) : Nat → FormatFault → Prop
  | name : AllBlank (firstLine text) → BadLine text 1 .missingName
  | rule {i : Nat} {line : Text} {why : FormatFault} :
      (laterLines text)[i]? = some line → LineFault line why → BadLine text (i + 2) why

theorem ruleFault?_eq_some_iff {line : Text} {why : FormatFault} :
    ruleFault? line = some why ↔ LineFault line why := by
  rw [← ofLine?_eq_error_iff, ruleFault?]
  cases Rule.ofLine? line <;> simp

theorem nameFault?_eq_some_iff {line : Text} {why : FormatFault} :
    nameFault? line = some why ↔ AllBlank line ∧ why = .missingName := by
  rw [nameFault?, ← trim_eq_nil_iff]
  split
  · next h => simp [h, eq_comm]
  · next h => simp [h]

/-- The faults after a line are those of the lines after it. -/
theorem mem_faultsAfter_iff {n : Nat} {ls : List Text} {f : Located FormatFault} :
    f ∈ faultsAfter n ls ↔
      ∃ i line why, ls[i]? = some line ∧ LineFault line why ∧ f = .atLine (n + 1 + i) why := by
  induction ls generalizing n with
  | nil => simp [faultsAfter]
  | cons l ls ih =>
    rw [faultsAfter, List.mem_append, ih]
    -- the line at the head has index 0, and the others are one index further on
    constructor
    · rintro (h | ⟨i, line, why, hi, hl, rfl⟩)
      · obtain ⟨why, hw, rfl⟩ := Option.map_eq_some_iff.mp (Option.mem_toList.mp h)
        exact ⟨0, l, why, rfl, ruleFault?_eq_some_iff.mp hw, rfl⟩
      · refine ⟨i + 1, line, why, hi, hl, ?_⟩
        rw [show n + 1 + 1 + i = n + 1 + (i + 1) by omega]
    · rintro ⟨i, line, why, hi, hl, rfl⟩
      cases i with
      | zero =>
        obtain rfl : l = line := by simpa using hi
        refine Or.inl (Option.mem_toList.mpr ?_)
        exact Option.map_eq_some_iff.mpr ⟨why, ruleFault?_eq_some_iff.mpr hl, rfl⟩
      | succ i =>
        refine Or.inr ⟨i, line, why, hi, hl, ?_⟩
        rw [show n + 1 + 1 + i = n + 1 + (i + 1) by omega]

/-- The faults after a line stand in the order of the lines. -/
theorem pairwise_faultsAfter (n : Nat) (ls : List Text) :
    (faultsAfter n ls).Pairwise fun f g => f.place.line < g.place.line := by
  induction ls generalizing n with
  | nil => exact List.Pairwise.nil
  | cons l ls ih =>
    rw [faultsAfter, List.pairwise_append]
    refine ⟨?_, ih (n + 1), ?_⟩
    · -- one line has one fault at most
      cases (ruleFault? l).map (Located.atLine (n + 1)) <;> simp
    · intro f hf g hg
      obtain ⟨why, -, rfl⟩ := Option.map_eq_some_iff.mp (Option.mem_toList.mp hf)
      obtain ⟨i, line, why', -, -, rfl⟩ := mem_faultsAfter_iff.mp hg
      show n + 1 < n + 1 + 1 + i
      omega

/-- The faults of a text are those of its bad lines. -/
theorem mem_faultsOf_iff {text : Text} {f : Located FormatFault} :
    f ∈ faultsOf text ↔ ∃ n why, BadLine text n why ∧ f = .atLine n why := by
  rw [faultsOf, List.mem_append, mem_faultsAfter_iff]
  constructor
  · rintro (h | ⟨i, line, why, hi, hl, rfl⟩)
    · obtain ⟨why, hw, rfl⟩ := Option.map_eq_some_iff.mp (Option.mem_toList.mp h)
      obtain ⟨hb, rfl⟩ := nameFault?_eq_some_iff.mp hw
      exact ⟨1, _, .name hb, rfl⟩
    · refine ⟨i + 2, why, .rule hi hl, ?_⟩
      rw [show 1 + 1 + i = i + 2 by omega]
  · rintro ⟨n, why, hbad, rfl⟩
    cases hbad with
    | name hb =>
      refine Or.inl (Option.mem_toList.mpr ?_)
      exact Option.map_eq_some_iff.mpr ⟨_, nameFault?_eq_some_iff.mpr ⟨hb, rfl⟩, rfl⟩
    | rule hi hl =>
      rename_i i line
      refine Or.inr ⟨i, line, why, hi, hl, ?_⟩
      rw [show 1 + 1 + i = i + 2 by omega]

/-- The faults of a text stand in the order of its lines. -/
theorem pairwise_faultsOf (text : Text) :
    (faultsOf text).Pairwise fun f g => f.place.line < g.place.line := by
  rw [faultsOf, List.pairwise_append]
  refine ⟨?_, pairwise_faultsAfter 1 _, ?_⟩
  · cases (nameFault? (firstLine text)).map (Located.atLine 1) <;> simp
  · intro f hf g hg
    obtain ⟨why, -, rfl⟩ := Option.map_eq_some_iff.mp (Option.mem_toList.mp hf)
    obtain ⟨i, line, why', -, -, rfl⟩ := mem_faultsAfter_iff.mp hg
    show 1 < 1 + 1 + i
    omega

theorem faultsOf_eq_nil_iff {text : Text} :
    faultsOf text = [] ↔ ∀ n why, ¬ BadLine text n why := by
  rw [List.eq_nil_iff_forall_not_mem]
  constructor
  · intro h n why hbad
    exact h _ (mem_faultsOf_iff.mpr ⟨n, why, hbad, rfl⟩)
  · intro h f hf
    obtain ⟨n, why, hbad, -⟩ := mem_faultsOf_iff.mp hf
    exact h n why hbad

/-! ### The grammar of a text without bad lines -/

/-- The grammar a text stands for. -/
structure StandsFor (text : Text) (g : Grammar) : Prop where
  name : g.name = trim (firstLine text)
  rules : List.Forall₂ RuleLine ((laterLines text).filter (¬ AllBlank ·)) g.rules
  numbers : g.entries.map (·.1.number) = List.range g.size
  next : g.register.next = g.size
  added : (Grammar.new g.name).addAll g.rules = .ok g

theorem rulesOf_cons_of_allBlank {l : Text} (h : AllBlank l) (ls : List Text) :
    rulesOf (l :: ls) = rulesOf ls := by
  simp [rulesOf, ofLine?_eq_none_iff.mpr h, Except.toOption]

theorem rulesOf_cons_of_ruleLine {l : Text} {r : Rule} (h : RuleLine l r) (ls : List Text) :
    rulesOf (l :: ls) = r :: rulesOf ls := by
  simp [rulesOf, ofLine?_of_ruleLine h, Except.toOption]

theorem rulesOf_append (ls ls' : List Text) : rulesOf (ls ++ ls') = rulesOf ls ++ rulesOf ls' :=
  List.filterMap_append

/-- Lines without faults are read in order, a rule off each that is not blank. -/
theorem forall₂_rulesOf {ls : List Text} (h : ∀ l ∈ ls, ∀ why, ¬ LineFault l why) :
    List.Forall₂ RuleLine (ls.filter (¬ AllBlank ·)) (rulesOf ls) := by
  induction ls with
  | nil => exact List.Forall₂.nil
  | cons l ls ih =>
    have ih := ih fun k hk => h k (List.mem_cons_of_mem l hk)
    obtain ⟨hb, -⟩ | ⟨why, hw, -⟩ | ⟨r, hr, -⟩ := ofLine?_cases l
    · rwa [rulesOf_cons_of_allBlank hb, List.filter_cons_of_neg (by simpa using hb)]
    · exact absurd hw (h l List.mem_cons_self why)
    · have hb : ¬ AllBlank l := by
        obtain ⟨hf, -⟩ := hr
        exact hf.not_allBlank
      rw [rulesOf_cons_of_ruleLine hr, List.filter_cons_of_pos (by simpa using hb)]
      exact List.Forall₂.cons hr ih

theorem standsFor_ofRules {text : Text} (h : ∀ n why, ¬ BadLine text n why)
    (hr : ∀ r ∈ rulesOf (laterLines text), r.head ≠ []) :
    StandsFor text (.ofRules (trim (firstLine text)) (rulesOf (laterLines text)) hr) where
  name := rfl
  rules := by
    rw [Grammar.rules_ofRules]
    refine forall₂_rulesOf fun l hl why hw => ?_
    obtain ⟨i, hi⟩ := List.getElem?_of_mem hl
    exact h (i + 2) why (.rule hi hw)
  numbers := by
    have hk := congrArg (List.map Key.number) (Register.keys_ofList (rulesOf (laterLines text)))
    rw [Grammar.size_eq_length_rules, Grammar.rules_ofRules]
    simpa [Register.keys, Grammar.entries, Grammar.ofRules, Function.comp_def] using hk
  next := by
    rw [Grammar.size_eq_length_rules, Grammar.rules_ofRules]
    exact Register.next_ofList _
  added := by
    rw [Grammar.rules_ofRules]
    exact Grammar.addAll_new _ hr

/-- A text stands for one grammar. -/
theorem StandsFor.unique {text : Text} {g g' : Grammar} (h : StandsFor text g)
    (h' : StandsFor text g') : g = g' := by
  -- both are read off the line by the same reader
  have hu : Relator.RightUnique RuleLine := by
    intro l r r' hr hr'
    have := (ofLine?_of_ruleLine hr).symm.trans (ofLine?_of_ruleLine hr')
    simpa using this
  have hrules : g.rules = g'.rules := List.right_unique_forall₂' hu h.rules h'.rules
  -- name and rules agree, and adding the rules makes only one grammar
  have hadded := h.added
  rw [h.name.trans h'.name.symm, hrules, h'.added] at hadded
  exact (Except.ok.inj hadded).symm

/-! ### Lines without faults -/

theorem Grammar.ofRules_congr {name name' : Text} {rules rules' : List Rule}
    {h : ∀ r ∈ rules, r.head ≠ []} {h' : ∀ r ∈ rules', r.head ≠ []} (hn : name = name')
    (hr : rules = rules') : Grammar.ofRules name rules h = Grammar.ofRules name' rules' h' := by
  subst hn hr
  rfl

/-- Lines that make a text which is read. -/
structure Readable (first : Text) (later : List Text) : Prop where
  oneLine : ∀ l ∈ first :: later, '\n' ∉ l
  named : ¬ AllBlank first
  faultless : ∀ l ∈ later, ∀ why, ¬ LineFault l why

namespace Readable

variable {first : Text} {later : List Text}

/-- A text of such lines is read. -/
theorem decode_of_lines (h : Readable first later) {text : Text}
    (hlines : lines text = first :: later) :
    decode text =
      .ok (.ofRules (trim first) (rulesOf later) fun _ => head_ne_nil_of_mem_rulesOf) := by
  have hfirst : firstLine text = first := by
    rw [firstLine, hlines]
    rfl
  have hlater : laterLines text = later := by
    rw [laterLines, hlines]
    rfl
  have hne : text ≠ [] := by
    rintro rfl
    exact h.named (hfirst ▸ allBlank_nil)
  have hgood : faultsOf text = [] := by
    refine faultsOf_eq_nil_iff.mpr fun n why hbad => ?_
    cases hbad with
    | name hb => exact h.named (hfirst ▸ hb)
    | rule hi hw =>
      rw [hlater] at hi
      exact h.faultless _ (List.mem_of_getElem? hi) why hw
  rw [decode, if_neg hne, if_pos hgood]
  exact congrArg Except.ok (Grammar.ofRules_congr (congrArg trim hfirst) (congrArg rulesOf hlater))

theorem decode_joinLines (h : Readable first later) :
    decode (joinLines (first :: later)) =
      .ok (.ofRules (trim first) (rulesOf later) fun _ => head_ne_nil_of_mem_rulesOf) :=
  h.decode_of_lines (pieces_glue (List.cons_ne_nil first later) h.oneLine)

end Readable

/-! ### What may come of a text -/

/-- What the format says may come of a text. -/
inductive Reads (text : Text) : Except (List (Located FormatFault)) Grammar → Prop
  | empty : text = [] → Reads text (.error [.atLine 0 .emptyInput])
  | refused {faults : List (Located FormatFault)} :
      text ≠ [] → faults ≠ [] →
      faults.Pairwise (fun f g => f.place.line < g.place.line) →
      (∀ f, f ∈ faults ↔ ∃ n why, BadLine text n why ∧ f = .atLine n why) →
      Reads text (.error faults)
  | read {g : Grammar} :
      text ≠ [] → (∀ n why, ¬ BadLine text n why) → StandsFor text g → Reads text (.ok g)

theorem reads_decode (text : Text) : Reads text (decode text) := by
  unfold decode
  split
  · next h => exact .empty h
  · next h =>
    split
    · next hf =>
      have hgood := faultsOf_eq_nil_iff.mp hf
      exact .read h hgood (standsFor_ofRules hgood _)
    · next hf => exact .refused h hf (pairwise_faultsOf text) fun _ => mem_faultsOf_iff

/-- Where there are faults there is a bad line. -/
theorem exists_badLine {text : Text} {faults : List (Located FormatFault)} (hne : faults ≠ [])
    (hmem : ∀ f, f ∈ faults ↔ ∃ n why, BadLine text n why ∧ f = .atLine n why) :
    ∃ n why, BadLine text n why := by
  obtain ⟨f, hf⟩ := List.exists_mem_of_ne_nil faults hne
  obtain ⟨n, why, hbad, -⟩ := (hmem f).mp hf
  exact ⟨n, why, hbad⟩

/-- One thing comes of a text. -/
theorem Reads.unique {text : Text} {a b : Except (List (Located FormatFault)) Grammar}
    (ha : Reads text a) (hb : Reads text b) : a = b := by
  have irrefl : Std.Irrefl fun f g : Located FormatFault => f.place.line < g.place.line :=
    ⟨fun f => Nat.lt_irrefl f.place.line⟩
  cases ha with
  | empty h =>
    cases hb with
    | empty => rfl
    | refused h' => exact absurd h h'
    | read h' => exact absurd h h'
  | refused h hne hp hm =>
    cases hb with
    | empty h' => exact absurd h' h
    | refused _ _ hp' hm' =>
      -- both lists have the same members and are in strict order
      exact congrArg Except.error (hp.eq_of_mem_iff hp' fun f => (hm f).trans (hm' f).symm)
    | read _ hgood =>
      obtain ⟨n, why, hbad⟩ := exists_badLine hne hm
      exact absurd hbad (hgood n why)
  | read h hgood hg =>
    cases hb with
    | empty h' => exact absurd h' h
    | refused _ hne _ hm =>
      obtain ⟨n, why, hbad⟩ := exists_badLine hne hm
      exact absurd hbad (hgood n why)
    | read _ _ hg' => exact congrArg Except.ok (hg.unique hg')

/-- **Reading is what the format says it is.**  Every text is read as the
format says and in no other way: a bad line is reported once, under its own
number and in order, and nothing else is; a text without bad lines gives the
grammar it stands for, and adding its rules in turn is never refused. -/
theorem decode_eq_iff_reads {text : Text} {result : Except (List (Located FormatFault)) Grammar} :
    decode text = result ↔ Reads text result := by
  constructor
  · rintro rfl
    exact reads_decode text
  · exact (reads_decode text).unique

end PhraseGrammar
