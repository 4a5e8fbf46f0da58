/-
PhraseGrammar/Proofs/FirstMatch.lean

The verdict on a grammar as a search in two orders.

`Rule.Fits` says what each of the four conditions is, without saying which is
tried first; `Shape.inOrder` says that and nothing else.  A rule has the first
shape in this order that it fits (`Rule.FirstFits`), and a grammar is judged by
the first of its rules that fits any (`Grammar.FirstMatch`).

Main result: the verdict is the outcome of that search
(`verdict_first_match`).  It names the rule twice, by position and by key; the
two agree whatever edits came before, since no key stands at two places.

Starting and ending with the head is a matter of characters here.  Reading it
off the bytes comes to the same (`fits_linear_iff_bytes`).
-/
import PhraseGrammar.Hierarchy
import PhraseGrammar.Proofs.Encoding

namespace PhraseGrammar

/-! ### Conditions and their order -/

/-- Whether a rule meets the condition of a shape. -/
def Rule.Fits (r : Rule) : Shape → Prop
  | .shrinking => r.body.length < r.head.length
  | .contextual => ∃ c ∈ r.head, ('0' ≤ c ∧ c ≤ '9') ∨ ('a' ≤ c ∧ c ≤ 'z')
  | .linear .left => r.head <+: r.body
  | .linear .right => r.head <:+ r.body

/-- The shapes in the order in which they are tried, each with the number of
the type it decides. -/
def Shape.inOrder : List (Shape × Nat) :=
  [(.shrinking, 0), (.contextual, 1), (.linear .left, 3), (.linear .right, 3)]

/-- A rule fits a shape and none that is tried before it. -/
def Rule.FirstFits (r : Rule) (s : Shape) (level : Nat) : Prop :=
  ∃ passed rest, Shape.inOrder = passed ++ (s, level) :: rest ∧
    r.Fits s ∧ ∀ e ∈ passed, ¬ r.Fits e.1

/-- The first rule of a grammar that fits a shape, with its position and the
first shape it fits. -/
structure Grammar.FirstMatch (g : Grammar) (p : Nat) (r : Rule) (s : Shape) (level : Nat) :
    Prop where
  rule : g.rules[p]? = some r
  least : ∀ i q, i < p → g.rules[i]? = some q → ∀ s, ¬ q.Fits s
  fits : r.FirstFits s level

/-! ### One rule -/

theorem isContextual_iff {c : Char} :
    isContextual c = true ↔ ('0' ≤ c ∧ c ≤ '9') ∨ ('a' ≤ c ∧ c ≤ 'z') := by
  rw [isContextual, Bool.or_eq_true]
  show (decide ('0' ≤ c) && decide (c ≤ '9')) = true ∨
    (decide ('a' ≤ c) && decide (c ≤ 'z')) = true ↔ _
  simp only [Bool.and_eq_true, decide_eq_true_eq]

theorem any_isContextual_iff {r : Rule} :
    r.head.any isContextual = true ↔ r.Fits .contextual := by
  simp only [List.any_eq_true, isContextual_iff, Rule.Fits]

/-- A rule has no shape where it fits none, and else the first that it fits. -/
theorem shape?_cases (r : Rule) :
    (r.shape? = none ∧ ∀ s, ¬ r.Fits s) ∨
      ∃ s, r.shape? = some s ∧ r.FirstFits s s.kind.level := by
  unfold Rule.shape?
  split
  · next h₁ => exact Or.inr ⟨_, rfl, [], _, rfl, h₁, List.forall_mem_nil _⟩
  next h₁ =>
  have h₁ : ¬ r.Fits .shrinking := h₁
  split
  · next h₂ =>
    refine Or.inr ⟨_, rfl, [(.shrinking, 0)], _, rfl, any_isContextual_iff.mp h₂, ?_⟩
    simpa using h₁
  next h₂ =>
  have h₂ : ¬ r.Fits .contextual := fun h => h₂ (any_isContextual_iff.mpr h)
  split
  · next h₃ =>
    refine Or.inr ⟨_, rfl, [(.shrinking, 0), (.contextual, 1)], _, rfl,
      List.isPrefixOf_iff_prefix.mp h₃, ?_⟩
    simpa using ⟨h₁, h₂⟩
  next h₃ =>
  have h₃ : ¬ r.Fits (.linear .left) := fun h => h₃ (List.isPrefixOf_iff_prefix.mpr h)
  split
  · next h₄ =>
    refine Or.inr ⟨_, rfl, [(.shrinking, 0), (.contextual, 1), (.linear .left, 3)], _, rfl,
      List.isSuffixOf_iff_suffix.mp h₄, ?_⟩
    simpa using ⟨h₁, h₂, h₃⟩
  next h₄ =>
  have h₄ : ¬ r.Fits (.linear .right) := fun h => h₄ (List.isSuffixOf_iff_suffix.mpr h)
  refine Or.inl ⟨rfl, fun s => ?_⟩
  cases s with
  | shrinking => exact h₁
  | contextual => exact h₂
  | linear side =>
    cases side with
    | left => exact h₃
    | right => exact h₄

theorem Rule.FirstFits.fits {r : Rule} {s : Shape} {level : Nat} (h : r.FirstFits s level) :
    r.Fits s := by
  obtain ⟨-, -, -, hs, -⟩ := h
  exact hs

theorem shape?_eq_none_iff {r : Rule} : r.shape? = none ↔ ∀ s, ¬ r.Fits s := by
  obtain ⟨hn, hr⟩ | ⟨s, hs, hr⟩ := shape?_cases r
  · exact ⟨fun _ => hr, fun _ => hn⟩
  · constructor
    · intro h
      rw [hs] at h
      cases h
    · intro h
      exact absurd hr.fits (h s)

theorem firstFits_of_shape? {r : Rule} {s : Shape} (h : r.shape? = some s) :
    r.FirstFits s s.kind.level := by
  obtain ⟨hn, -⟩ | ⟨s', hs, hr⟩ := shape?_cases r
  · rw [hn] at h
    cases h
  · rw [hs] at h
    cases h
    exact hr

/-- Whether the body starts or ends with the head can be read off the bytes. -/
theorem fits_linear_iff_bytes (r : Rule) :
    (r.Fits (.linear .left) ↔ Utf8.encode r.head <+: Utf8.encode r.body) ∧
    (r.Fits (.linear .right) ↔ Utf8.encode r.head <:+ Utf8.encode r.body) :=
  ⟨Utf8.encode_isPrefix_iff.symm, Utf8.encode_isSuffix_iff.symm⟩

/-! ### The scan -/

/-- A scan that is decided is so by an entry with a shape, after entries
without. -/
theorem scan_eq_decided {es : List (Key Rule × Rule)} {start p : Nat} {s : Shape} {key : Key Rule}
    (h : Verdict.scan start es = .decided s p key) :
    ∃ passed r rest, es = passed ++ (key, r) :: rest ∧ p = start + passed.length ∧
      (∀ e ∈ passed, e.2.shape? = none) ∧ r.shape? = some s := by
  induction es generalizing start with
  | nil => cases h
  | cons e es ih =>
    obtain ⟨k, r⟩ := e
    rw [Verdict.scan] at h
    cases hr : r.shape? with
    | some s' =>
      rw [hr] at h
      cases h
      exact ⟨[], r, es, rfl, rfl, List.forall_mem_nil _, hr⟩
    | none =>
      rw [hr] at h
      obtain ⟨passed, q, rest, rfl, rfl, hpassed, hq⟩ := ih h
      refine ⟨(k, r) :: passed, q, rest, rfl, ?_, List.forall_mem_cons.mpr ⟨hr, hpassed⟩, hq⟩
      rw [List.length_cons]
      omega

theorem rules_getElem? (g : Grammar) (i : Nat) : g.rules[i]? = g.entries[i]?.map (·.2) :=
  List.getElem?_map

/-- The key of an entry is found at the entry's place. -/
theorem position?_of_entries {g : Grammar} {p : Nat} {key : Key Rule} {r : Rule}
    (h : g.entries[p]? = some (key, r)) : g.position? key = some p := by
  refine Register.position?_eq_some_iff.mpr ?_
  have hkeys : g.register.keys[p]? = g.entries[p]?.map (·.1) := List.getElem?_map
  rw [hkeys, h]
  rfl

/-- A verdict that is decided is so by the first rule that fits a shape. -/
theorem firstMatch_of_verdict {g : Grammar} {s : Shape} {p : Nat} {key : Key Rule}
    (h : g.verdict = .decided s p key) :
    ∃ r, g.FirstMatch p r s s.kind.level ∧ g.entries[p]? = some (key, r) := by
  obtain ⟨passed, r, rest, hes, hp, hpassed, hr⟩ := scan_eq_decided h
  rw [Nat.zero_add] at hp
  have hentry : g.entries[p]? = some (key, r) := by
    rw [hes, hp]
    simp
  refine ⟨r, ⟨?_, ?_, firstFits_of_shape? hr⟩, hentry⟩
  · rw [rules_getElem?, hentry]
    rfl
  · -- what stands before the place was passed over
    intro i q hi hq
    rw [rules_getElem?, hes, List.getElem?_append_left (hp ▸ hi), Option.map_eq_some_iff] at hq
    obtain ⟨e, he, rfl⟩ := hq
    exact shape?_eq_none_iff.mp (hpassed e (List.mem_of_getElem? he))

theorem verdict_eq_undecided_iff {g : Grammar} :
    g.verdict = .undecided ↔ ∀ r ∈ g.rules, ∀ s, ¬ r.Fits s := by
  have hrules : g.rules = g.entries.map (·.2) := rfl
  rw [Grammar.verdict, Verdict.scan_eq_undecided_iff, hrules, List.forall_mem_map]
  simp only [shape?_eq_none_iff]

/-- **The verdict is the first match.**  If some rule of a grammar fits a shape,
the verdict is decided by the first such rule, under its position and its key,
and that key is found at that position; the shape is the first in the order
that the rule fits, and the type is the one that the shape decides.  If no rule
fits any, the verdict is undecided and the type is 2.  The type of a grammar is
the type of its verdict. -/
theorem verdict_first_match (g : Grammar) :
    ((∃ r ∈ g.rules, ∃ s, r.Fits s) →
      ∃ p r s level key, g.FirstMatch p r s level ∧ g.verdict = .decided s p key ∧
        g.verdict.kind.level = level ∧ g.entries[p]? = some (key, r) ∧
        g.position? key = some p) ∧
    ((∀ r ∈ g.rules, ∀ s, ¬ r.Fits s) →
      g.verdict = .undecided ∧ g.verdict.kind.level = 2) ∧
    g.kind = g.verdict.kind ∧
    ∀ r : Rule, (r.Fits (.linear .left) ↔ Utf8.encode r.head <+: Utf8.encode r.body) ∧
      (r.Fits (.linear .right) ↔ Utf8.encode r.head <:+ Utf8.encode r.body) := by
  refine ⟨?_, ?_, rfl, fits_linear_iff_bytes⟩
  · rintro ⟨r, hr, s, hs⟩
    cases hv : g.verdict with
    | undecided => exact absurd hs (verdict_eq_undecided_iff.mp hv r hr s)
    | decided shape p key =>
      obtain ⟨q, hfirst, hentry⟩ := firstMatch_of_verdict hv
      exact ⟨p, q, shape, _, key, hfirst, rfl, rfl, hentry, position?_of_entries hentry⟩
  · intro h
    rw [verdict_eq_undecided_iff.mpr h]
    exact ⟨rfl, rfl⟩

/-- In a grammar whose first rule was removed, the rule that fits is found at
position 0 and under the key 1. -/
theorem verdict_first_match_after_removal :
    ∃ g, (Grammar.ofRules ['G'] [⟨['S'], ['a', 'S', 'b']⟩, ⟨['A'], ['A', 'b']⟩]
        (by decide)).removeAt 0 = .ok g ∧
      (∃ r ∈ g.rules, ∃ s, r.Fits s) ∧
      g.verdict = .decided (.linear .left) 0 ⟨1⟩ ∧ g.position? ⟨1⟩ = some 0 := by
  obtain ⟨g, hg⟩ : ∃ g, (Grammar.ofRules ['G'] [⟨['S'], ['a', 'S', 'b']⟩, ⟨['A'], ['A', 'b']⟩]
      (by decide)).removeAt 0 = .ok g := ⟨_, rfl⟩
  have hv : g.verdict = .decided (.linear .left) 0 ⟨1⟩ := by
    cases hg
    rfl
  have hfits : ∃ r ∈ g.rules, ∃ s, r.Fits s := by
    cases hg
    exact ⟨_, List.mem_cons_self, .linear .left, ['b'], rfl⟩
  obtain ⟨p, r, s, level, key, -, hv', -, -, hpos⟩ := (verdict_first_match g).1 hfits
  rw [hv] at hv'
  cases hv'
  exact ⟨g, hg, hfits, hv, hpos⟩

end PhraseGrammar
