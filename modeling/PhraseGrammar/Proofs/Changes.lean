/-
PhraseGrammar/Proofs/Changes.lean

What one edit does to a grammar, told by keys.

An edit names a rule by its position or by its key.  Told by keys the two are
the same, and six edits come to four changes: nothing happens to the rules, a
rule is added under the next key, the rule under a key is removed, or another
rule is put under a key (`Edit.change`).

Everything an edit that succeeds can do is said once (`Edit.changed_apply`);
how keys and rules fare under a change is read off it, for each change by the
equation of one operation on registers (`Grammar.Changed.keys`,
`Grammar.Changed.get?`).
-/
import PhraseGrammar.Edit
import PhraseGrammar.Proofs.Lookup

namespace PhraseGrammar

/-- What happened to the rules of a grammar. -/
inductive Change
  | nothing
  | added (key : Key Rule) (rule : Rule)
  | removed (key : Key Rule)
  | replaced (key : Key Rule) (rule : Rule)
  deriving DecidableEq

namespace Change

/-- The key that was handed out. -/
def addedKey? : Change → Option (Key Rule)
  | .added key _ => some key
  | .nothing | .removed _ | .replaced _ _ => none

/-- The rule that was put under a key, in place of another. -/
def replacement? (k : Key Rule) : Change → Option Rule
  | .replaced key rule => if key = k then some rule else none
  | .nothing | .added _ _ | .removed _ => none

end Change

namespace Grammar

/-- The keys of the rules, in order. -/
def keys (g : Grammar) : List (Key Rule) :=
  g.register.keys

/-- What a change does to a grammar. -/
inductive Changed (g g' : Grammar) : Change → Prop
  | nothing : g'.register = g.register → Changed g g' .nothing
  | added {rule : Rule} :
      g'.register = g.register.push rule → Changed g g' (.added g.register.nextKey rule)
  | removed {i : Nat} {key : Key Rule} :
      g.keys[i]? = some key → g'.register = g.register.removeAt i → Changed g g' (.removed key)
  | replaced {i : Nat} {key : Key Rule} {rule : Rule} :
      g.keys[i]? = some key → g'.register = g.register.replaceAt i rule →
      Changed g g' (.replaced key rule)

end Grammar

/-- What an edit of a grammar changes; a position past the end has no key. -/
def Edit.change (g : Grammar) : Edit → Change
  | .rename _ => .nothing
  | .add rule => .added g.register.nextKey rule
  | .removeAt index => (g.keys[index]?).elim .nothing .removed
  | .replaceAt index rule => (g.keys[index]?).elim .nothing (.replaced · rule)
  | .remove key => .removed key
  | .replace key rule => .replaced key rule

/-! ### What an edit can do -/

namespace Grammar

theorem length_keys (g : Grammar) : g.keys.length = g.size := by
  simp [keys, Register.keys, size, Register.size]

theorem lt_size_of_keys {g : Grammar} {k : Key Rule} {i : Nat} (h : g.keys[i]? = some k) :
    i < g.size := by
  rw [← length_keys]
  exact (List.getElem?_eq_some_iff.mp h).1

/-- A key is found where it stands. -/
theorem locate_of_keys {g : Grammar} {k : Key Rule} {i : Nat} (h : g.keys[i]? = some k) :
    g.locate k = .ok i := by
  rw [locate, position?, Register.position?_eq_some_iff.mpr h]

/-- An edit by key finds the place of the key. -/
theorem keys_of_locate {g : Grammar} {k : Key Rule} {i : Nat} (h : g.locate k = .ok i) :
    g.keys[i]? = some k := by
  unfold locate at h
  cases hp : g.position? k with
  | none => rw [hp] at h; cases h
  | some j =>
    rw [hp] at h
    cases h
    exact Register.position?_eq_some_iff.mp hp

theorem removeAt_cases {g g' : Grammar} {i : Nat} (h : g.removeAt i = .ok g') :
    g'.name = g.name ∧ ∃ key, g.keys[i]? = some key ∧ g'.register = g.register.removeAt i := by
  unfold removeAt at h
  split at h
  · next hi =>
    cases h
    rw [← length_keys] at hi
    exact ⟨rfl, g.keys[i], List.getElem?_eq_getElem hi, rfl⟩
  · cases h

theorem replaceAt_cases {g g' : Grammar} {i : Nat} {r : Rule} (h : g.replaceAt i r = .ok g') :
    g'.name = g.name ∧ ∃ key, g.keys[i]? = some key ∧ g'.register = g.register.replaceAt i r := by
  unfold replaceAt at h
  split at h
  · next hi =>
    split at h
    · cases h
    · cases h
      rw [← length_keys] at hi
      exact ⟨rfl, g.keys[i], List.getElem?_eq_getElem hi, rfl⟩
  · cases h

/-- A rule with a head is added at the end, under the next key. -/
theorem exists_add (g : Grammar) {r : Rule} (h : r.head ≠ []) :
    ∃ g', g.add r = .ok g' ∧ g'.name = g.name ∧
      g'.entries = g.entries ++ [(g.register.nextKey, r)] ∧
      g'.register.next = g.register.next + 1 := by
  obtain ⟨g', hg', hname, hreg⟩ := g.add_of_headed h
  refine ⟨g', hg', hname, ?_, ?_⟩
  · rw [entries, hreg]
    rfl
  · rw [hreg]
    rfl

theorem removeAt_of_lt {g : Grammar} {i : Nat} (h : i < g.size) :
    ∃ g', g.removeAt i = .ok g' ∧ g'.name = g.name ∧ g'.register = g.register.removeAt i :=
  ⟨_, if_pos h, rfl, rfl⟩

theorem replaceAt_of_lt {g : Grammar} {i : Nat} {r : Rule} (h : i < g.size) (hr : r.head ≠ []) :
    ∃ g', g.replaceAt i r = .ok g' ∧ g'.name = g.name ∧ g'.register = g.register.replaceAt i r :=
  ⟨_, (if_pos h).trans (dif_neg hr), rfl, rfl⟩

/-- A key that is present is found at its place. -/
theorem exists_locate {g : Grammar} {k : Key Rule} (h : k ∈ g.keys) :
    ∃ i : Nat, g.keys[i]? = some k ∧ i < g.size ∧ g.locate k = .ok i := by
  obtain ⟨i, hi⟩ := List.mem_iff_getElem?.mp h
  exact ⟨i, hi, lt_size_of_keys hi, locate_of_keys hi⟩

end Grammar

/-- What is done after a step succeeds only if the step did. -/
theorem bind_eq_ok {ε α β : Type} {x : Except ε α} {f : α → Except ε β} {b : β}
    (h : x >>= f = .ok b) : ∃ a, x = .ok a ∧ f a = .ok b := by
  cases x with
  | error why => cases h
  | ok a => exact ⟨a, rfl, h⟩

/-- An edit by key is the edit at the place of the key. -/
theorem Grammar.cases_of_locate_bind {g g' : Grammar} {k : Key Rule}
    {f : Nat → Except EditError Grammar} (h : g.locate k >>= f = .ok g') :
    ∃ i : Nat, g.keys[i]? = some k ∧ f i = .ok g' := by
  obtain ⟨i, hl, hi⟩ := bind_eq_ok h
  exact ⟨i, keys_of_locate hl, hi⟩

/-- **What an edit can do.**  An edit that succeeds makes the change that it is,
told by keys. -/
theorem Edit.changed_apply {g g' : Grammar} {e : Edit} (h : e.apply g = .ok g') :
    g.Changed g' (e.change g) := by
  cases e with
  | rename name =>
    cases h
    exact .nothing rfl
  | add rule =>
    rw [Edit.apply, Grammar.add] at h
    split at h
    · cases h
    · cases h
      exact .added rfl
  | removeAt index =>
    obtain ⟨-, key, hkey, hr⟩ := Grammar.removeAt_cases h
    rw [Edit.change, hkey]
    exact .removed hkey hr
  | replaceAt index rule =>
    obtain ⟨-, key, hkey, hr⟩ := Grammar.replaceAt_cases h
    rw [Edit.change, hkey]
    exact .replaced hkey hr
  | remove key =>
    obtain ⟨i, hkey, hi⟩ := Grammar.cases_of_locate_bind (f := g.removeAt) h
    obtain ⟨-, -, -, hr⟩ := Grammar.removeAt_cases hi
    exact .removed hkey hr
  | replace key rule =>
    obtain ⟨i, hkey, hi⟩ := Grammar.cases_of_locate_bind (f := (g.replaceAt · rule)) h
    obtain ⟨-, -, -, hr⟩ := Grammar.replaceAt_cases hi
    exact .replaced hkey hr

/-! ### Keys and rules under a change -/

namespace Grammar.Changed

variable {g g' : Grammar} {c : Change}

/-- A key is handed out by counting on. -/
theorem next (h : g.Changed g' c) :
    g'.register.next = g.register.next + c.addedKey?.toList.length := by
  cases h with
  | nothing hr => rw [hr]; rfl
  | added hr => rw [hr]; rfl
  | removed _ hr => rw [hr]; rfl
  | replaced _ hr => rw [hr]; rfl

/-- The key that is handed out is the next one. -/
theorem eq_nextKey (h : g.Changed g' c) {k : Key Rule} (hk : c.addedKey? = some k) :
    k = g.register.nextKey := by
  cases h with
  | added => exact (Option.some.inj hk).symm
  | nothing | removed | replaced => cases hk

/-- Only a key that is present is removed. -/
theorem mem_keys_of_removed {k : Key Rule} (h : g.Changed g' (.removed k)) : k ∈ g.keys := by
  cases h with
  | removed hkey _ => exact List.mem_of_getElem? hkey

/-- The keys stay in order; one may be added at the end, and one may be taken
out. -/
theorem keys (h : g.Changed g' c) :
    g'.keys = (g.keys ++ c.addedKey?.toList).filter (.removed · ≠ c) := by
  cases h with
  | nothing hr => simp [Grammar.keys, hr, Change.addedKey?]
  | added hr => simp [Grammar.keys, hr, Change.addedKey?]
  | removed hkey hr =>
    rw [Grammar.keys, hr, Register.keys_removeAt_eq_filter hkey]
    simp [Grammar.keys, Change.addedKey?]
  | replaced _ hr => simp [Grammar.keys, hr, Change.addedKey?]

/-- A rule that stays is the one it was, unless another was put under its key. -/
theorem get? (h : g.Changed g' c) {k : Key Rule} (hk : k ∈ g.keys) (hk' : k ∈ g'.keys) :
    g'.register.get? k = (c.replacement? k).or (g.register.get? k) := by
  cases h with
  | nothing hr => rw [hr]; rfl
  | added hr =>
    have hne : k ≠ g.register.nextKey := by
      rintro rfl
      exact g.register.nextKey_not_mem_keys hk
    rw [hr, Register.get?_push, if_neg hne]
    rfl
  | @removed i key hkey hr =>
    have hi : g.register.keys[i]? = some key := hkey
    rw [Grammar.keys, hr, Register.keys_removeAt_eq_filter hi] at hk'
    have hne : ¬ some key = some k := by
      rintro ⟨⟩
      simp at hk'
    rw [hr, Register.get?_removeAt, hi, if_neg hne]
    rfl
  | @replaced i key rule hkey hr =>
    have hi : g.register.keys[i]? = some key := hkey
    rw [hr, Register.get?_replaceAt, hi, Change.replacement?]
    simp only [Option.some.injEq]
    split <;> rfl

end Grammar.Changed

end PhraseGrammar
