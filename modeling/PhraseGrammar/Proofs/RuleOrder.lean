/-
PhraseGrammar/Proofs/RuleOrder.lean

How far the order of the rules can move the type.

Of a grammar only the rules count for its type, and of these only the first
that has a shape (`kind_eq_elim`):

    g.kind = (g.rules.findSome? Rule.shape?).elim .contextFree Shape.kind

No shape decides type 2.  So type 2 says of each rule that it has no shape, which
no order can change; and any other type is that of a single rule, which decides
as soon as it is moved to the front.

Main result: the types that the orders of the rules can give are, apart from
type 2, those that the rules have alone (`kind_reorder`).
-/
import PhraseGrammar.Proofs.VerdictEdits

namespace PhraseGrammar

/-- The rules of a grammar in another order, numbered anew. -/
def Grammar.reorder (g : Grammar) (rules : List Rule) (h : rules.Perm g.rules) : Grammar :=
  .ofRules g.name rules fun r hr => g.headed r (h.subset hr)

/-! ### The type as that of the first rule with a shape -/

theorem Shape.kind_ne_contextFree (s : Shape) : s.kind ≠ .contextFree := by
  cases s <;> simp [Shape.kind]

theorem kind_scan (start : Nat) (es : List (Key Rule × Rule)) :
    (Verdict.scan start es).kind =
      ((es.map (·.2)).findSome? Rule.shape?).elim .contextFree Shape.kind := by
  induction es generalizing start with
  | nil => rfl
  | cons e es ih =>
    rw [Verdict.scan, List.map_cons, List.findSome?_cons]
    cases e.2.shape? with
    | none => exact ih (start + 1)
    | some s => rfl

/-- Neither the name nor the keys count for the type. -/
theorem Grammar.kind_eq_elim (g : Grammar) :
    g.kind = (g.rules.findSome? Rule.shape?).elim .contextFree Shape.kind :=
  kind_scan 0 g.entries

theorem kind_alone {r : Rule} (hr : r.head ≠ []) :
    (r.alone hr).kind = r.shape?.elim .contextFree Shape.kind := by
  rw [Grammar.kind, verdict_alone]
  cases r.shape? <;> rfl

theorem kind_alone_eq_contextFree_iff {r : Rule} (hr : r.head ≠ []) :
    (r.alone hr).kind = .contextFree ↔ r.shape? = none := by
  rw [kind_alone]
  cases r.shape? with
  | none => simp
  | some s => simp [s.kind_ne_contextFree]

/-! ### Grammars of type 2, and of the other types -/

variable {g : Grammar}

/-- Type 2 says of each rule that it is of type 2 alone. -/
theorem kind_eq_contextFree_iff :
    g.kind = .contextFree ↔
      ∀ r (hr : r ∈ g.rules), (r.alone (g.headed r hr)).kind = .contextFree := by
  have hnone : g.kind = .contextFree ↔ g.rules.findSome? Rule.shape? = none := by
    rw [g.kind_eq_elim]
    cases g.rules.findSome? Rule.shape? with
    | none => simp
    | some s => simp [s.kind_ne_contextFree]
  rw [hnone, List.findSome?_eq_none_iff]
  constructor
  · intro h r hr
    exact (kind_alone_eq_contextFree_iff _).mpr (h r hr)
  · intro h r hr
    exact (kind_alone_eq_contextFree_iff _).mp (h r hr)

/-- Any other type is the one that some rule has alone. -/
theorem exists_kind_alone_eq (h : g.kind ≠ .contextFree) :
    ∃ r, ∃ hr : r ∈ g.rules, (r.alone (g.headed r hr)).kind = g.kind := by
  rw [g.kind_eq_elim] at h ⊢
  cases hfirst : g.rules.findSome? Rule.shape? with
  | none =>
    rw [hfirst] at h
    exact absurd rfl h
  | some s =>
    obtain ⟨r, hr, hs⟩ := List.exists_of_findSome?_eq_some hfirst
    refine ⟨r, hr, ?_⟩
    rw [kind_alone, hs]

/-- A rule that has another type alone decides when it comes first. -/
theorem kind_eq_of_first {r : Rule} {rs : List Rule} (hg : g.rules = r :: rs)
    (hr : r.head ≠ []) (h : (r.alone hr).kind ≠ .contextFree) :
    g.kind = (r.alone hr).kind := by
  rw [kind_alone] at h ⊢
  rw [g.kind_eq_elim, hg, List.findSome?_cons]
  cases hs : r.shape? with
  | none =>
    rw [hs] at h
    exact absurd rfl h
  | some s => rfl

/-! ### All orders -/

@[simp] theorem rules_reorder {rules : List Rule} (h : rules.Perm g.rules) :
    (g.reorder rules h).rules = rules :=
  Grammar.rules_ofRules _ _ _

/-- **How far the order of the rules can move the type.**  Some order of the
rules gives a type other than 2 if and only if some rule has that type alone.
An order gives type 2 if and only if every rule is of type 2 alone, whatever the
order. -/
theorem kind_reorder (g : Grammar) :
    (∀ k, k ≠ .contextFree →
      ((∃ rules, ∃ h : rules.Perm g.rules, (g.reorder rules h).kind = k) ↔
        ∃ r, ∃ hr : r ∈ g.rules, (r.alone (g.headed r hr)).kind = k)) ∧
    ∀ rules (h : rules.Perm g.rules), (g.reorder rules h).kind = .contextFree ↔
      ∀ r (hr : r ∈ g.rules), (r.alone (g.headed r hr)).kind = .contextFree := by
  constructor
  · intro k hk
    constructor
    · rintro ⟨rules, hperm, rfl⟩
      obtain ⟨r, hr, hkind⟩ := exists_kind_alone_eq hk
      rw [rules_reorder] at hr
      exact ⟨r, hperm.subset hr, hkind⟩
    · -- the rule is moved to the front
      rintro ⟨r, hr, rfl⟩
      exact ⟨r :: g.rules.erase r, (List.perm_cons_erase hr).symm,
        kind_eq_of_first (rules_reorder _) _ hk⟩
  · intro rules hperm
    rw [kind_eq_contextFree_iff]
    -- the two lists have the same members
    constructor
    · intro h r hr
      exact h r ((rules_reorder hperm).symm ▸ hperm.symm.subset hr)
    · intro h r hr
      exact h r (hperm.subset (rules_reorder hperm ▸ hr))

/-- A contextual rule before a left-linear one. -/
def contextualFirst : Grammar :=
  .ofRules ['G'] [⟨['a', '1'], ['b', 'c']⟩, ⟨['S'], ['S', 'a', 'b']⟩] (by decide)

/-- It is of type 1, of type 3 in another order, and of type 2 in none. -/
theorem kind_reorder_contextualFirst :
    contextualFirst.kind = .contextSensitive ∧
      (∃ rules, ∃ h : rules.Perm contextualFirst.rules,
        (contextualFirst.reorder rules h).kind = .regular) ∧
      ∀ rules (h : rules.Perm contextualFirst.rules),
        (contextualFirst.reorder rules h).kind ≠ .contextFree := by
  have hmem : ⟨['S'], ['S', 'a', 'b']⟩ ∈ contextualFirst.rules :=
    List.mem_cons_of_mem _ List.mem_cons_self
  refine ⟨rfl, ?_, fun rules h hkind => ?_⟩
  · exact ((kind_reorder contextualFirst).1 .regular (by decide)).mpr ⟨_, hmem, rfl⟩
  · have halone : Kind.regular = .contextFree :=
      ((kind_reorder contextualFirst).2 rules h).mp hkind _ hmem
    cases halone

end PhraseGrammar
