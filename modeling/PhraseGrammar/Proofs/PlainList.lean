/-
PhraseGrammar/Proofs/PlainList.lean

A grammar as a plain list.

Whatever happened to a grammar, what an operation makes of it is told by three
plain values, its name, its rules and the keys of its rules:

    add r           rules ++ [r]         keys ++ [next key]
    removeAt i      rules.eraseIdx i     keys.eraseIdx i
    replaceAt i r   rules.set i r        keys

and an operation by key is the one at the place of the key, which stands there
once.  These equations hold on the exact domain of each operation.  Outside it the
refusal is known as well, and where two reasons apply, which of them is told: an
unknown key before a position past the end before an empty head
(`Grammar.ActsAsList`).

Adding the rules of a list to a new grammar stops at the first that has no head,
and there is no other way for it to fail (`Grammar.addAll_eq_error_iff`).
-/
import PhraseGrammar.Proofs.Changes

namespace PhraseGrammar

namespace Grammar

/-- The three plain values of a grammar. -/
structure Lists (g : Grammar) (name : Text) (rules : List Rule) (keys : List (Key Rule)) :
    Prop where
  name : g.name = name
  rules : g.rules = rules
  keys : g.keys = keys

/-! ### Operations that are refused -/

theorem add_eq_error_iff {g : Grammar} {r : Rule} {why : EditError} :
    g.add r = .error why ↔ r.head = [] ∧ why = .emptyHead := by
  by_cases h : r.head = []
  · have hrefused : g.add r = .error .emptyHead := dif_pos h
    rw [hrefused]
    simp [h, eq_comm]
  · obtain ⟨g', hg', -⟩ := g.add_of_headed h
    rw [hg']
    simp [h]

theorem removeAt_eq_error_iff {g : Grammar} {i : Nat} {why : EditError} :
    g.removeAt i = .error why ↔ g.size ≤ i ∧ why = .outOfRange i g.size := by
  by_cases h : i < g.size
  · have hle : ¬ g.size ≤ i := Nat.not_le_of_lt h
    obtain ⟨g', hg', -⟩ := removeAt_of_lt h
    rw [hg']
    simp [hle]
  · have hrefused : g.removeAt i = .error (.outOfRange i g.size) := if_neg h
    rw [hrefused]
    simp [Nat.le_of_not_lt h, eq_comm]

/-- A position past the end is told before an empty head. -/
theorem replaceAt_eq_error_iff {g : Grammar} {i : Nat} {r : Rule} {why : EditError} :
    g.replaceAt i r = .error why ↔
      g.size ≤ i ∧ why = .outOfRange i g.size ∨
      i < g.size ∧ r.head = [] ∧ why = .emptyHead := by
  by_cases h : i < g.size
  · have hle : ¬ g.size ≤ i := Nat.not_le_of_lt h
    by_cases hr : r.head = []
    · have hrefused : g.replaceAt i r = .error .emptyHead := (if_pos h).trans (dif_pos hr)
      rw [hrefused]
      simp [h, hr, hle, eq_comm]
    · obtain ⟨g', hg', -⟩ := replaceAt_of_lt h hr
      rw [hg']
      simp [h, hr, hle]
  · have hrefused : g.replaceAt i r = .error (.outOfRange i g.size) := if_neg h
    rw [hrefused]
    simp [h, Nat.le_of_not_lt h, eq_comm]

/-- Rules are added one after the other until one has no head. -/
theorem addAll_eq_error_iff {g : Grammar} {rules : List Rule} {why : EditError} :
    g.addAll rules = .error why ↔ (∃ r ∈ rules, r.head = []) ∧ why = .emptyHead := by
  induction rules generalizing g with
  | nil => simp [addAll, pure, Except.pure]
  | cons r rules ih =>
    -- a rule without a head stops the fold, and any other leaves the rest to it
    by_cases h : r.head = []
    · have hrefused : g.addAll (r :: rules) = .error .emptyHead := by
        rw [addAll, List.foldlM_cons, add_eq_error_iff.mpr ⟨h, rfl⟩]
        rfl
      rw [hrefused]
      simp [h, eq_comm]
    · obtain ⟨g', hg', -⟩ := g.add_of_headed h
      have hrest : g.addAll (r :: rules) = g'.addAll rules := by
        rw [addAll, List.foldlM_cons, hg']
        rfl
      rw [hrest, ih]
      simp [h]

/-! ### Operations that are done -/

theorem exists_add_lists (g : Grammar) {r : Rule} (h : r.head ≠ []) :
    ∃ g', g.add r = .ok g' ∧
      g'.Lists g.name (g.rules ++ [r]) (g.keys ++ [g.register.nextKey]) := by
  obtain ⟨g', hg', hname, hreg⟩ := g.add_of_headed h
  refine ⟨g', hg', hname, ?_, ?_⟩
  · rw [rules, rules, hreg, Register.values_push]
  · rw [keys, keys, hreg, Register.keys_push]

theorem exists_removeAt_lists {g : Grammar} {i : Nat} (h : i < g.size) :
    ∃ g', g.removeAt i = .ok g' ∧ g'.Lists g.name (g.rules.eraseIdx i) (g.keys.eraseIdx i) := by
  obtain ⟨g', hg', hname, hreg⟩ := removeAt_of_lt h
  refine ⟨g', hg', hname, ?_, ?_⟩
  · rw [rules, rules, hreg, Register.values_removeAt]
  · rw [keys, keys, hreg, Register.keys_removeAt]

theorem exists_replaceAt_lists {g : Grammar} {i : Nat} {r : Rule} (h : i < g.size)
    (hr : r.head ≠ []) :
    ∃ g', g.replaceAt i r = .ok g' ∧ g'.Lists g.name (g.rules.set i r) g.keys := by
  obtain ⟨g', hg', hname, hreg⟩ := replaceAt_of_lt h hr
  refine ⟨g', hg', hname, ?_, ?_⟩
  · rw [rules, rules, hreg, Register.values_replaceAt]
  · rw [keys, keys, hreg, Register.keys_replaceAt]

theorem exists_addAll_lists (name : Text) {rules : List Rule} (h : ∀ r ∈ rules, r.head ≠ []) :
    ∃ g, (new name).addAll rules = .ok g ∧
      g.Lists name rules ((List.range rules.length).map Key.mk) := by
  refine ⟨ofRules name rules h, addAll_new name h, rfl, rules_ofRules _ _ _, ?_⟩
  exact Register.keys_ofList rules

/-! ### Operations by key -/

section ByKey

variable {g : Grammar} {k : Key Rule} {i : Nat}

theorem locate_of_not_mem (h : k ∉ g.keys) : g.locate k = .error (.unknownRule k) := by
  rw [locate, position?, Register.position?_eq_none_iff.mpr h]

/-- A key stands in one place. -/
theorem place_unique {j : Nat} (hi : g.keys[i]? = some k) (hj : g.keys[j]? = some k) : i = j := by
  have hlocated := locate_of_keys hi
  rw [locate_of_keys hj] at hlocated
  exact (Except.ok.inj hlocated).symm

theorem remove_eq_removeAt (h : g.keys[i]? = some k) : g.remove k = g.removeAt i := by
  rw [remove, locate_of_keys h]
  rfl

theorem replace_eq_replaceAt (h : g.keys[i]? = some k) (r : Rule) :
    g.replace k r = g.replaceAt i r := by
  rw [replace, locate_of_keys h]
  rfl

theorem remove_of_not_mem (h : k ∉ g.keys) : g.remove k = .error (.unknownRule k) := by
  rw [remove, locate_of_not_mem h]
  rfl

theorem replace_of_not_mem (h : k ∉ g.keys) (r : Rule) :
    g.replace k r = .error (.unknownRule k) := by
  rw [replace, locate_of_not_mem h]
  rfl

/-- The place of a key is never past the end. -/
theorem remove_eq_error_iff {why : EditError} :
    g.remove k = .error why ↔ k ∉ g.keys ∧ why = .unknownRule k := by
  by_cases h : k ∈ g.keys
  · obtain ⟨i, hi⟩ := List.mem_iff_getElem?.mp h
    -- the place of a key is in range, so that refusal drops out
    have hle := Nat.not_le_of_lt (lt_size_of_keys hi)
    rw [remove_eq_removeAt hi, removeAt_eq_error_iff]
    simp [h, hle]
  · rw [remove_of_not_mem h]
    simp [h, eq_comm]

/-- An unknown key is told before an empty head. -/
theorem replace_eq_error_iff {r : Rule} {why : EditError} :
    g.replace k r = .error why ↔
      k ∉ g.keys ∧ why = .unknownRule k ∨ k ∈ g.keys ∧ r.head = [] ∧ why = .emptyHead := by
  by_cases h : k ∈ g.keys
  · obtain ⟨i, hi⟩ := List.mem_iff_getElem?.mp h
    have hlt := lt_size_of_keys hi
    have hle := Nat.not_le_of_lt hlt
    rw [replace_eq_replaceAt hi, replaceAt_eq_error_iff]
    simp [h, hlt, hle]
  · rw [replace_of_not_mem h]
    simp [h, eq_comm]

end ByKey

/-! ### A grammar and its list -/

/-- What the operations make of the list of a grammar, and when each is refused. -/
structure ActsAsList (g : Grammar) : Prop where
  add_refused : ∀ r why, g.add r = .error why ↔ r.head = [] ∧ why = .emptyHead
  add : ∀ r : Rule, r.head ≠ [] → ∃ g', g.add r = .ok g' ∧
    g'.Lists g.name (g.rules ++ [r]) (g.keys ++ [g.register.nextKey])
  removeAt_refused : ∀ i why,
    g.removeAt i = .error why ↔ g.rules.length ≤ i ∧ why = .outOfRange i g.rules.length
  removeAt : ∀ i < g.rules.length, ∃ g', g.removeAt i = .ok g' ∧
    g'.Lists g.name (g.rules.eraseIdx i) (g.keys.eraseIdx i)
  replaceAt_refused : ∀ i r why, g.replaceAt i r = .error why ↔
    g.rules.length ≤ i ∧ why = .outOfRange i g.rules.length ∨
    i < g.rules.length ∧ r.head = [] ∧ why = .emptyHead
  replaceAt : ∀ i < g.rules.length, ∀ r : Rule, r.head ≠ [] → ∃ g', g.replaceAt i r = .ok g' ∧
    g'.Lists g.name (g.rules.set i r) g.keys
  remove_refused : ∀ k why, g.remove k = .error why ↔ k ∉ g.keys ∧ why = .unknownRule k
  replace_refused : ∀ k r why, g.replace k r = .error why ↔
    k ∉ g.keys ∧ why = .unknownRule k ∨ k ∈ g.keys ∧ r.head = [] ∧ why = .emptyHead
  byKey_inRange : ∀ k r index size, g.remove k ≠ .error (.outOfRange index size) ∧
    g.replace k r ≠ .error (.outOfRange index size)
  only_place : ∀ k ∈ g.keys, ∃! i : Nat, g.keys[i]? = some k
  byKey : ∀ i k, g.keys[i]? = some k →
    g.remove k = g.removeAt i ∧ ∀ r, g.replace k r = g.replaceAt i r

/-- **A grammar is a list of rules.**  On every grammar, each operation makes of the
list what its name says and leaves the other rules, and all keys that stay, in
their order.  A key stands in one place only, and an operation by key is the one at
this place.  Each is refused for the reasons given and no others.  A new grammar
takes the rules of a list, under the keys from 0 on, if and only if all of them have
heads. -/
theorem acts_as_list :
    (∀ g : Grammar, g.ActsAsList) ∧
    ∀ (name : Text) (rules : List Rule),
      (∀ why, (new name).addAll rules = .error why ↔
        (∃ r ∈ rules, r.head = []) ∧ why = .emptyHead) ∧
      ((∀ r ∈ rules, r.head ≠ []) → ∃ g, (new name).addAll rules = .ok g ∧
        g.Lists name rules ((List.range rules.length).map Key.mk)) := by
  refine ⟨fun g => ?_, fun name rules => ⟨fun _ => addAll_eq_error_iff, exists_addAll_lists name⟩⟩
  constructor
  case add_refused => exact fun _ _ => add_eq_error_iff
  case add => exact fun _ h => g.exists_add_lists h
  case removeAt_refused =>
    intro i why
    rw [← size_eq_length_rules]
    exact removeAt_eq_error_iff
  case removeAt =>
    intro i hi
    rw [← size_eq_length_rules] at hi
    exact exists_removeAt_lists hi
  case replaceAt_refused =>
    intro i r why
    rw [← size_eq_length_rules]
    exact replaceAt_eq_error_iff
  case replaceAt =>
    intro i hi r hr
    rw [← size_eq_length_rules] at hi
    exact exists_replaceAt_lists hi hr
  case remove_refused => exact fun _ _ => remove_eq_error_iff
  case replace_refused => exact fun _ _ _ => replace_eq_error_iff
  case byKey_inRange =>
    intro k r index size
    rw [ne_eq, ne_eq, remove_eq_error_iff, replace_eq_error_iff]
    simp
  case only_place =>
    intro k hk
    obtain ⟨i, hi⟩ := List.mem_iff_getElem?.mp hk
    exact ⟨i, hi, fun _ hj => place_unique hj hi⟩
  case byKey => exact fun _ _ hi => ⟨remove_eq_removeAt hi, replace_eq_replaceAt hi⟩

end Grammar

end PhraseGrammar
