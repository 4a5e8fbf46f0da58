/-
PhraseGrammar/Proofs/EditOrder.lean

Edits by key, in any order.

An edit by key is carried out at a position, and positions shift under other
edits.  Keys do not: told by entries, an edit changes the one that has its key
and passes over all others (`KeyEdit.rewrites_apply`),

    g'.entries = g.entries.filterMap e.result?

So after edits with different keys, what has become of an entry is decided by
the one edit that names its key, if there is one (`outcome?`), and in which
order they were made cannot be told from that (`outcome?_perm`).

Main result: edits by key are done in any order, and with an addition or a
renaming before or after them, with one and the same result
(`key_edits_commute`).
-/
import PhraseGrammar.Proofs.Changes

namespace PhraseGrammar

/-- Edits one after the other, until one is refused. -/
def Grammar.applyAll (g : Grammar) (es : List Edit) : Except EditError Grammar :=
  es.foldlM Edit.apply g

/-- An edit of what is under a key: another rule is put there, or none is left. -/
structure KeyEdit where
  key : Key Rule
  rule? : Option Rule
  deriving DecidableEq

namespace KeyEdit

/-- The edit as one of all edits. -/
def toEdit : KeyEdit → Edit
  | ⟨key, none⟩ => .remove key
  | ⟨key, some rule⟩ => .replace key rule

/-- An edit that a grammar has no reason to refuse. -/
structure Fits (e : KeyEdit) (g : Grammar) : Prop where
  present : e.key ∈ g.keys
  headed : ∀ r, e.rule? = some r → r.head ≠ []

/-- What an edit makes of an entry. -/
def result? (e : KeyEdit) (x : Key Rule × Rule) : Option (Key Rule × Rule) :=
  if x.1 = e.key then e.rule?.map (x.1, ·) else some x

end KeyEdit

/-- What edits with different keys make of an entry, in no particular order. -/
def outcome? (es : List KeyEdit) (x : Key Rule × Rule) : Option (Key Rule × Rule) :=
  match es.find? (·.key = x.1) with
  | some e => e.rule?.map (x.1, ·)
  | none => some x

/-- A grammar with its entries rewritten, and nothing else. -/
structure Grammar.Rewrites (g g' : Grammar) (f : Key Rule × Rule → Option (Key Rule × Rule)) :
    Prop where
  name : g'.name = g.name
  entries : g'.entries = g.entries.filterMap f
  next : g'.register.next = g.register.next

namespace Grammar

theorem applyAll_cons {g g₁ : Grammar} {e : Edit} (h : e.apply g = .ok g₁) (es : List Edit) :
    g.applyAll (e :: es) = g₁.applyAll es := by
  rw [applyAll, List.foldlM_cons, h]
  rfl

theorem applyAll_pair {g g₁ g₂ : Grammar} {e₁ e₂ : Edit} (h₁ : e₁.apply g = .ok g₁)
    (h₂ : e₂.apply g₁ = .ok g₂) : g.applyAll [e₁, e₂] = .ok g₂ := by
  rw [applyAll_cons h₁, applyAll_cons h₂]
  rfl

theorem eq_of_entries {g g' : Grammar} (hname : g.name = g'.name) (hentries : g.entries = g'.entries)
    (hnext : g.register.next = g'.register.next) : g = g' :=
  Grammar.ext hname (Register.ext hentries hnext)

theorem Rewrites.unique {g g₁ g₂ : Grammar} {f : Key Rule × Rule → Option (Key Rule × Rule)}
    (h₁ : g.Rewrites g₁ f) (h₂ : g.Rewrites g₂ f) : g₁ = g₂ :=
  eq_of_entries (h₁.name.trans h₂.name.symm) (h₁.entries.trans h₂.entries.symm)
    (h₁.next.trans h₂.next.symm)

theorem mem_keys_iff {g : Grammar} {k : Key Rule} : k ∈ g.keys ↔ ∃ r, (k, r) ∈ g.entries := by
  rw [keys, Register.keys, List.mem_map]
  constructor
  · rintro ⟨x, hx, rfl⟩
    exact ⟨x.2, hx⟩
  · rintro ⟨r, hr⟩
    exact ⟨_, hr, rfl⟩

end Grammar

/-! ### One edit -/

namespace KeyEdit

variable {e e' : KeyEdit} {g g' : Grammar}

theorem result?_of_ne {x : Key Rule × Rule} (h : x.1 ≠ e.key) : e.result? x = some x :=
  if_neg h

/-- An edit that fits is done, and rewrites the entry with its key. -/
theorem rewrites_apply (h : e.Fits g) :
    ∃ g', e.toEdit.apply g = .ok g' ∧ g.Rewrites g' e.result? := by
  obtain ⟨key, rule?⟩ := e
  obtain ⟨hkey, hhead⟩ := h
  obtain ⟨i, hi, hlt, hlocate⟩ := Grammar.exists_locate hkey
  cases rule? with
  | none =>
    obtain ⟨g', hg', hname, hreg⟩ := Grammar.removeAt_of_lt hlt
    refine ⟨g', ?_, hname, ?_, ?_⟩
    · rw [toEdit, Edit.apply, Grammar.remove, hlocate]
      exact hg'
    · rw [Grammar.entries, hreg, Register.entries_removeAt hi, ← List.filterMap_eq_filter]
      refine List.filterMap_congr fun x _ => ?_
      by_cases hx : x.1 = key <;> simp [result?, Option.guard, hx]
    · rw [hreg]
      rfl
  | some rule =>
    obtain ⟨g', hg', hname, hreg⟩ := Grammar.replaceAt_of_lt hlt (hhead rule rfl)
    refine ⟨g', ?_, hname, ?_, ?_⟩
    · rw [toEdit, Edit.apply, Grammar.replace, hlocate]
      exact hg'
    · rw [Grammar.entries, hreg, Register.entries_replaceAt hi, ← List.filterMap_eq_map]
      refine List.filterMap_congr fun x _ => ?_
      by_cases hx : x.1 = key <;> simp [result?, hx]
    · rw [hreg]
      rfl

/-- An edit leaves the others to be done. -/
theorem Fits.of_rewrites (h : e'.Fits g) (hr : g.Rewrites g' e.result?) (hne : e.key ≠ e'.key) :
    e'.Fits g' := by
  refine ⟨?_, h.headed⟩
  obtain ⟨r, hmem⟩ := Grammar.mem_keys_iff.mp h.present
  refine Grammar.mem_keys_iff.mpr ⟨r, ?_⟩
  rw [hr.entries]
  exact List.mem_filterMap.mpr ⟨_, hmem, result?_of_ne hne.symm⟩

end KeyEdit

/-! ### Many edits -/

/-- An entry that no edit names stays. -/
theorem outcome?_of_not_mem {es : List KeyEdit} {x : Key Rule × Rule}
    (h : x.1 ∉ es.map (·.key)) : outcome? es x = some x := by
  have hfind : es.find? (·.key = x.1) = none := by
    rw [List.find?_eq_none]
    intro e he hkey
    exact h (List.mem_map.mpr ⟨e, he, of_decide_eq_true hkey⟩)
  rw [outcome?, hfind]

/-- The first edit, and then the others. -/
theorem outcome?_cons {e : KeyEdit} {es : List KeyEdit} (h : e.key ∉ es.map (·.key))
    (x : Key Rule × Rule) : outcome? (e :: es) x = (e.result? x).bind (outcome? es) := by
  rw [outcome?, List.find?_cons]
  by_cases hx : e.key = x.1
  · -- none of the others has the key
    rw [KeyEdit.result?, if_pos hx.symm]
    cases hr : e.rule? with
    | none => simp [hx, hr]
    | some rule =>
      have hrest : outcome? es (x.1, rule) = some (x.1, rule) := outcome?_of_not_mem (hx ▸ h)
      simp [hx, hr, hrest]
  · rw [KeyEdit.result?_of_ne (Ne.symm hx)]
    simp [hx, outcome?]

/-- An entry that an edit names becomes what this edit makes of it. -/
theorem outcome?_of_mem {es : List KeyEdit} (hkeys : (es.map (·.key)).Nodup) {e : KeyEdit}
    (he : e ∈ es) {x : Key Rule × Rule} (hx : x.1 = e.key) :
    outcome? es x = e.rule?.map (x.1, ·) := by
  induction es with
  | nil => cases he
  | cons e' es ih =>
    rw [List.map_cons, List.nodup_cons] at hkeys
    obtain rfl | he := List.mem_cons.mp he
    · simp [outcome?, hx]
    · have hne : x.1 ≠ e'.key := by
        intro hkey
        exact hkeys.1 (List.mem_map.mpr ⟨e, he, hx.symm.trans hkey⟩)
      rw [outcome?_cons hkeys.1, KeyEdit.result?_of_ne hne]
      exact ih hkeys.2 he

/-- The order of the edits does not count. -/
theorem outcome?_perm {es es' : List KeyEdit} (hp : es'.Perm es)
    (hkeys : (es.map (·.key)).Nodup) : outcome? es' = outcome? es := by
  have hkeys' : (es'.map (·.key)).Nodup := (hp.map _).nodup_iff.mpr hkeys
  funext x
  by_cases hx : x.1 ∈ es.map (·.key)
  · obtain ⟨e, he, hkey⟩ := List.mem_map.mp hx
    rw [outcome?_of_mem hkeys he hkey.symm, outcome?_of_mem hkeys' (hp.mem_iff.mpr he) hkey.symm]
  · have hx' : x.1 ∉ es'.map (·.key) := (hp.map _).mem_iff.not.mpr hx
    rw [outcome?_of_not_mem hx, outcome?_of_not_mem hx']

/-- Edits with different keys that fit are done one after the other, and rewrite
the entries with their keys. -/
theorem rewrites_applyAll {es : List KeyEdit} (hkeys : (es.map (·.key)).Nodup) {g : Grammar}
    (hfits : ∀ e ∈ es, e.Fits g) :
    ∃ g', g.applyAll (es.map (·.toEdit)) = .ok g' ∧ g.Rewrites g' (outcome? es) := by
  induction es generalizing g with
  | nil => exact ⟨g, rfl, rfl, List.filterMap_some.symm, rfl⟩
  | cons e es ih =>
    rw [List.map_cons, List.nodup_cons] at hkeys
    obtain ⟨g₁, hg₁, hr₁⟩ := KeyEdit.rewrites_apply (hfits e List.mem_cons_self)
    have hfits₁ : ∀ e' ∈ es, e'.Fits g₁ := by
      intro e' he'
      refine (hfits e' (List.mem_cons_of_mem e he')).of_rewrites hr₁ ?_
      intro heq
      exact hkeys.1 (List.mem_map.mpr ⟨e', he', heq.symm⟩)
    obtain ⟨g₂, hg₂, hr₂⟩ := ih hkeys.2 hfits₁
    refine ⟨g₂, ?_, hr₂.name.trans hr₁.name, ?_, hr₂.next.trans hr₁.next⟩
    · rw [List.map_cons, Grammar.applyAll_cons hg₁, hg₂]
    · rw [hr₂.entries, hr₁.entries, List.filterMap_filterMap]
      exact List.filterMap_congr fun x _ => (outcome?_cons hkeys.1 x).symm

/-- Edits with different keys come to the same grammar in any order. -/
theorem applyAll_perm {g g' : Grammar} {es es' : List KeyEdit} (hkeys : (es.map (·.key)).Nodup)
    (hfits : ∀ e ∈ es, e.Fits g) (hg' : g.Rewrites g' (outcome? es)) (hp : es'.Perm es) :
    g.applyAll (es'.map (·.toEdit)) = .ok g' := by
  obtain ⟨g₁, hg₁, hr₁⟩ := rewrites_applyAll ((hp.map _).nodup_iff.mpr hkeys)
    fun e he => hfits e (hp.mem_iff.mp he)
  rw [outcome?_perm hp hkeys] at hr₁
  rw [hg₁, hr₁.unique hg']

/-! ### With an addition or a renaming -/

namespace KeyEdit

variable {e : KeyEdit} {g : Grammar}

/-- An edit and an addition, in this order and in the other, come to one grammar,
with the rule under the same key. -/
theorem apply_add (h : e.Fits g) {r : Rule} (hr : r.head ≠ []) :
    ∃ g', g.applyAll [e.toEdit, .add r] = .ok g' ∧ g.applyAll [.add r, e.toEdit] = .ok g' ∧
      (g.register.nextKey, r) ∈ g'.entries := by
  obtain ⟨g₁, hg₁, hr₁⟩ := rewrites_apply h
  obtain ⟨g₂, hg₂, hn₂, he₂, hx₂⟩ := g.exists_add hr
  obtain ⟨g₁₂, hg₁₂, hn₁₂, he₁₂, hx₁₂⟩ := g₁.exists_add hr
  have hfits : e.Fits g₂ := by
    obtain ⟨q, hq⟩ := Grammar.mem_keys_iff.mp h.present
    refine ⟨Grammar.mem_keys_iff.mpr ⟨q, ?_⟩, h.headed⟩
    rw [he₂]
    exact List.mem_append_left _ hq
  obtain ⟨g₂₁, hg₂₁, hr₂₁⟩ := rewrites_apply hfits
  have hnext : g₁.register.nextKey = g.register.nextKey := congrArg Key.mk hr₁.next
  -- the edit passes over the rule that was added
  have hnew : e.result? (g.register.nextKey, r) = some (g.register.nextKey, r) := by
    have hne : g.register.nextKey ≠ e.key := by
      intro hkey
      exact g.register.nextKey_not_mem_keys (hkey ▸ h.present)
    exact result?_of_ne hne
  have hsame : g₂₁ = g₁₂ := by
    refine Grammar.eq_of_entries ?_ ?_ ?_
    · rw [hr₂₁.name, hn₂, hn₁₂, hr₁.name]
    · rw [hr₂₁.entries, he₂, List.filterMap_append, he₁₂, hr₁.entries, hnext,
        List.filterMap_cons_some hnew, List.filterMap_nil]
    · rw [hr₂₁.next, hx₂, hx₁₂, hr₁.next]
  refine ⟨g₁₂, Grammar.applyAll_pair hg₁ hg₁₂, Grammar.applyAll_pair hg₂ (hsame ▸ hg₂₁), ?_⟩
  rw [he₁₂, hnext]
  exact List.mem_append_right _ List.mem_cons_self

/-- An edit and a renaming, in this order and in the other, come to one
grammar. -/
theorem apply_rename (h : e.Fits g) (name : Text) :
    ∃ g', g.applyAll [e.toEdit, .rename name] = .ok g' ∧
      g.applyAll [.rename name, e.toEdit] = .ok g' ∧ g'.name = name := by
  obtain ⟨g₁, hg₁, hr₁⟩ := rewrites_apply h
  have hfits : e.Fits (g.rename name) := ⟨h.present, h.headed⟩
  obtain ⟨g₂, hg₂, hr₂⟩ := rewrites_apply hfits
  have hsame : g₂ = g₁.rename name :=
    Grammar.eq_of_entries hr₂.name (hr₂.entries.trans hr₁.entries.symm)
      (hr₂.next.trans hr₁.next.symm)
  exact ⟨_, Grammar.applyAll_pair hg₁ rfl, Grammar.applyAll_pair rfl (hsame ▸ hg₂), rfl⟩

end KeyEdit

/-- **Edits by key are done in any order.**  Edits of rules under different keys,
all of them present, succeed in every order and come to the same grammar: each
entry that an edit names is gone or has the new rule, each other entry is as it
was, and so are the name and the next key.  Each of the edits can also change
places with the addition of a rule, which gets the same key, and with a
renaming. -/
theorem key_edits_commute {g : Grammar} {es : List KeyEdit} (hkeys : (es.map (·.key)).Nodup)
    (hfits : ∀ e ∈ es, e.Fits g) :
    (∃ g', g.Rewrites g' (outcome? es) ∧
      ∀ es' : List KeyEdit, es'.Perm es → g.applyAll (es'.map (·.toEdit)) = .ok g') ∧
    ∀ e ∈ es,
      (∀ r : Rule, r.head ≠ [] →
        ∃ g', g.applyAll [e.toEdit, .add r] = .ok g' ∧ g.applyAll [.add r, e.toEdit] = .ok g' ∧
          (g.register.nextKey, r) ∈ g'.entries) ∧
      ∀ name, ∃ g', g.applyAll [e.toEdit, .rename name] = .ok g' ∧
        g.applyAll [.rename name, e.toEdit] = .ok g' ∧ g'.name = name := by
  constructor
  · obtain ⟨g', -, hr⟩ := rewrites_applyAll hkeys hfits
    exact ⟨g', hr, fun es' hp => applyAll_perm hkeys hfits hr hp⟩
  · intro e he
    exact ⟨fun r hr => KeyEdit.apply_add (hfits e he) hr, KeyEdit.apply_rename (hfits e he)⟩

/-- A rule is replaced by key and one before it is removed, in both orders. -/
theorem key_edits_commute_after_shift :
    ∃ g' : Grammar,
      (Grammar.ofRules ['G'] [⟨['S'], ['a']⟩, ⟨['A'], ['b']⟩, ⟨['B'], ['c']⟩]
        (by decide)).applyAll [.remove ⟨0⟩, .replace ⟨2⟩ ⟨['B'], ['d']⟩] = .ok g' ∧
      (Grammar.ofRules ['G'] [⟨['S'], ['a']⟩, ⟨['A'], ['b']⟩, ⟨['B'], ['c']⟩]
        (by decide)).applyAll [.replace ⟨2⟩ ⟨['B'], ['d']⟩, .remove ⟨0⟩] = .ok g' ∧
      g'.entries = [(⟨1⟩, ⟨['A'], ['b']⟩), (⟨2⟩, ⟨['B'], ['d']⟩)] ∧ g'.register.next = 3 := by
  have hkeys : (([⟨⟨0⟩, none⟩, ⟨⟨2⟩, some ⟨['B'], ['d']⟩⟩] : List KeyEdit).map (·.key)).Nodup := by
    decide
  obtain ⟨⟨g', hr, hall⟩, -⟩ := key_edits_commute hkeys (g := Grammar.ofRules ['G']
    [⟨['S'], ['a']⟩, ⟨['A'], ['b']⟩, ⟨['B'], ['c']⟩] (by decide)) (by
      simp only [List.forall_mem_cons]
      exact ⟨⟨by decide, by decide⟩, ⟨by decide, by simp⟩, List.forall_mem_nil _⟩)
  exact ⟨g', hall _ .rfl, hall _ (List.Perm.swap _ _ []), hr.entries, hr.next⟩

end PhraseGrammar
