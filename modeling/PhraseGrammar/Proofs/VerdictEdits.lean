/-
PhraseGrammar/Proofs/VerdictEdits.lean

How a verdict reacts to an edit.

A verdict is decided at the first place with a rule that has a shape, and what
stands after that place does not count (`DecidedAt.congr`).  An edit changes the
entries at one place, or moves those after it up by one:

    (es ++ [e])[j]?       = es[j]?    for j < es.length
    (es.eraseIdx i)[j]?   = es[j]?    for j < i,    es[j + 1]?  for j ≥ i
    (es.modify i f)[j]?   = es[j]?    for j ≠ i

so what becomes of the verdict depends on the place of the edit before, at or
after the place that decides.  A new rule is compared with what it would be
judged to be if it were alone (`Rule.alone`).

Main result: the verdict after an edit, for each kind of edit and each place of
it (`verdict_after_edit`).
-/
import PhraseGrammar.Proofs.Changes
import PhraseGrammar.Proofs.FirstMatch

namespace PhraseGrammar

/-! ### Verdicts in other places -/

/-- The grammar that has a rule and nothing else. -/
def Rule.alone (r : Rule) (headed : r.head ≠ []) : Grammar :=
  .ofRules [] [r] (by simpa using headed)

/-- The same shape found at another place. -/
def Verdict.movedTo (position : Nat) (key : Key Rule) : Verdict → Verdict
  | .decided shape _ _ => .decided shape position key
  | .undecided => .undecided

/-- What edits make of a verdict that is decided at a place: those after the
place leave it alone, those before it can move it or come first. -/
structure Grammar.EditsOfDecided (g : Grammar) (s : Shape) (p : Nat) (d : Key Rule) : Prop where
  add : ∀ r : Rule, r.head ≠ [] → ∃ g', g.add r = .ok g' ∧ g'.verdict = g.verdict
  removeAfter : ∀ i, p < i → i < g.size →
    ∃ g', g.removeAt i = .ok g' ∧ g'.verdict = g.verdict
  replaceAfter : ∀ i (r : Rule), p < i → i < g.size → r.head ≠ [] →
    ∃ g', g.replaceAt i r = .ok g' ∧ g'.verdict = g.verdict
  removeBefore : ∀ i, i < p →
    ∃ g', g.removeAt i = .ok g' ∧ g'.verdict = .decided s (p - 1) d
  removeHere : ∃ g', g.removeAt p = .ok g' ∧
    (g'.verdict = .undecided ∨ ∃ q, g'.verdict.position? = some q ∧ p ≤ q)
  replaceBefore : ∀ i (r : Rule) (hr : r.head ≠ []), i < p →
    ∃ g' key, g.replaceAt i r = .ok g' ∧ g.keys[i]? = some key ∧
      ((r.alone hr).verdict = .undecided → g'.verdict = g.verdict) ∧
      ((r.alone hr).verdict ≠ .undecided → g'.verdict = (r.alone hr).verdict.movedTo i key)

/-- What edits make of a verdict that is undecided: only a rule that is added can
decide it. -/
structure Grammar.EditsOfUndecided (g : Grammar) : Prop where
  remove : ∀ i, i < g.size → ∃ g', g.removeAt i = .ok g' ∧ g'.verdict = .undecided
  add : ∀ (r : Rule) (hr : r.head ≠ []), ∃ g' key, g.add r = .ok g' ∧
    g'.entries[g.size]? = some (key, r) ∧
    g'.verdict = (r.alone hr).verdict.movedTo g.size key

/-! ### The place that decides -/

/-- The entry at a place has a key and a rule with a shape, and no rule before it
has any. -/
structure DecidedAt (es : List (Key Rule × Rule)) (s : Shape) (p : Nat) (d : Key Rule) : Prop where
  here : ∃ q, es[p]? = some (d, q) ∧ q.shape? = some s
  before : ∀ j e, j < p → es[j]? = some e → e.2.shape? = none

theorem scan_eq_decided_iff {es : List (Key Rule × Rule)} {s : Shape} {p : Nat} {d : Key Rule} :
    Verdict.scan 0 es = .decided s p d ↔ DecidedAt es s p d := by
  constructor
  · intro h
    obtain ⟨passed, q, rest, rfl, hp, hpassed, hq⟩ := scan_eq_decided h
    rw [Nat.zero_add] at hp
    refine ⟨⟨q, by simp [hp], hq⟩, fun j e hj he => ?_⟩
    rw [List.getElem?_append_left (hp ▸ hj)] at he
    exact hpassed e (List.mem_of_getElem? he)
  · rintro ⟨⟨q, hentry, hq⟩, hbefore⟩
    obtain ⟨hlt, hget⟩ := List.getElem?_eq_some_iff.mp hentry
    have hpassed : ∀ e ∈ es.take p, e.2.shape? = none := by
      intro e he
      obtain ⟨j, hj, hje⟩ := List.mem_take_iff_getElem.mp he
      refine hbefore j e (by omega) ?_
      rw [← hje]
      exact List.getElem?_eq_getElem _
    rw [← List.take_append_drop p es, List.drop_eq_getElem_cons hlt, hget,
      Verdict.scan_append 0 hpassed, Verdict.scan, hq, List.length_take,
      Nat.min_eq_left (Nat.le_of_lt hlt), Nat.zero_add]

theorem verdict_eq_decided_iff {g : Grammar} {s : Shape} {p : Nat} {d : Key Rule} :
    g.verdict = .decided s p d ↔ DecidedAt g.entries s p d :=
  scan_eq_decided_iff

theorem verdict_alone {r : Rule} (hr : r.head ≠ []) :
    (r.alone hr).verdict = (r.shape?).elim .undecided (.decided · 0 ⟨0⟩) := by
  show Verdict.scan 0 [(⟨0⟩, r)] = _
  rw [Verdict.scan]
  cases r.shape? <;> rfl

/-- Alone, a rule is judged by the first shape that it fits, if it fits any. -/
theorem verdict_alone_cases {r : Rule} (hr : r.head ≠ []) :
    ((r.alone hr).verdict = .undecided ∧ ∀ s, ¬ r.Fits s) ∨
      ∃ s level, (r.alone hr).verdict = .decided s 0 ⟨0⟩ ∧ r.FirstFits s level := by
  rw [verdict_alone]
  obtain ⟨hnone, hfits⟩ | ⟨s, hshape, hfits⟩ := shape?_cases r
  · rw [hnone]
    exact Or.inl ⟨rfl, hfits⟩
  · rw [hshape]
    exact Or.inr ⟨s, _, rfl, hfits⟩

namespace DecidedAt

variable {es es' : List (Key Rule × Rule)} {s s' : Shape} {p q : Nat} {d d' : Key Rule}

theorem lt_length (h : DecidedAt es s p d) : p < es.length := by
  obtain ⟨_, hentry, -⟩ := h.here
  exact (List.getElem?_eq_some_iff.mp hentry).1

/-- What stands after the place does not count. -/
theorem congr (h : DecidedAt es s p d) (hes : ∀ j ≤ p, es'[j]? = es[j]?) :
    DecidedAt es' s p d := by
  refine ⟨?_, fun j e hj he => ?_⟩
  · rw [hes p (Nat.le_refl p)]
    exact h.here
  · rw [hes j (Nat.le_of_lt hj)] at he
    exact h.before j e hj he

/-- Where nothing changed before the place, nothing before it decides. -/
theorem le (h : DecidedAt es s p d) (hes : ∀ j < p, es'[j]? = es[j]?)
    (h' : DecidedAt es' s' q d') : p ≤ q := by
  by_contra hlt
  rw [Nat.not_le] at hlt
  obtain ⟨r, hentry, hr⟩ := h'.here
  rw [hes q hlt] at hentry
  have hnone := h.before q (d', r) hlt hentry
  rw [hr] at hnone
  cases hnone

/-- Without an entry before the place, the place is one less. -/
theorem eraseIdx {i : Nat} (h : DecidedAt es s p d) (hi : i < p) :
    DecidedAt (es.eraseIdx i) s (p - 1) d := by
  refine ⟨?_, fun j e hj he => ?_⟩
  · have hge : ¬ p - 1 < i := by omega
    have hsucc : p - 1 + 1 = p := by omega
    rw [List.getElem?_eraseIdx, if_neg hge, hsucc]
    exact h.here
  · -- the places from `i` on have what stood one place further
    rw [List.getElem?_eraseIdx] at he
    split at he
    · exact h.before j e (by omega) he
    · exact h.before (j + 1) e (by omega) he

/-- A rule without a shape that is put before the place is passed over. -/
theorem passOver {i : Nat} {k : Key Rule} {r : Rule} (h : DecidedAt es s p d) (hi : i < p)
    (hput : es'[i]? = some (k, r)) (hother : ∀ j, j ≠ i → es'[j]? = es[j]?)
    (hr : r.shape? = none) : DecidedAt es' s p d := by
  refine ⟨?_, fun j e hj he => ?_⟩
  · rw [hother p (by omega)]
    exact h.here
  · by_cases hji : j = i
    · subst hji
      rw [hput] at he
      cases he
      exact hr
    · rw [hother j hji] at he
      exact h.before j e hj he

/-- A rule with a shape that is put before the place decides instead. -/
theorem comeFirst {i : Nat} {k : Key Rule} {r : Rule} (h : DecidedAt es s p d) (hi : i < p)
    (hput : es'[i]? = some (k, r)) (hother : ∀ j, j ≠ i → es'[j]? = es[j]?)
    (hr : r.shape? = some s') : DecidedAt es' s' i k := by
  refine ⟨⟨r, hput, hr⟩, fun j e hj he => ?_⟩
  rw [hother j (Nat.ne_of_lt hj)] at he
  exact h.before j e (Nat.lt_trans hj hi) he

end DecidedAt

/-! ### Entries after an edit -/

namespace Grammar

variable {g : Grammar} {i : Nat}

theorem exists_removeAt (h : i < g.size) :
    ∃ g', g.removeAt i = .ok g' ∧ g'.entries = g.entries.eraseIdx i := by
  obtain ⟨g', hg', -, hreg⟩ := removeAt_of_lt h
  refine ⟨g', hg', ?_⟩
  rw [entries, hreg]
  rfl

/-- A rule is put in one place under the key there, and the other places keep
what they have. -/
theorem exists_replaceAt {r : Rule} (h : i < g.size) (hr : r.head ≠ []) :
    ∃ g' key, g.replaceAt i r = .ok g' ∧ g.keys[i]? = some key ∧
      g'.entries[i]? = some (key, r) ∧ ∀ j, j ≠ i → g'.entries[j]? = g.entries[j]? := by
  obtain ⟨g', hg', -, hreg⟩ := replaceAt_of_lt h hr
  have hentry : g.entries[i]? = some g.entries[i] := List.getElem?_eq_getElem h
  refine ⟨g', g.entries[i].1, hg', ?_, ?_, fun j hj => ?_⟩
  · rw [keys, Register.keys, List.getElem?_map]
    exact congrArg (Option.map _) hentry
  · rw [entries, hreg, Register.replaceAt, List.getElem?_modify_eq]
    exact congrArg (Option.map _) hentry
  · rw [entries, hreg, Register.replaceAt, List.getElem?_modify_ne _ _ (Ne.symm hj)]
    rfl

end Grammar

/-! ### The verdict after an edit -/

variable {g : Grammar} {s : Shape} {p : Nat} {d : Key Rule}

theorem editsOfDecided (h : g.verdict = .decided s p d) : g.EditsOfDecided s p d where
  add r hr := by
    obtain ⟨g', hg', -, hentries, -⟩ := g.exists_add hr
    have hd := verdict_eq_decided_iff.mp h
    refine ⟨g', hg', ?_⟩
    rw [h, verdict_eq_decided_iff, hentries]
    exact hd.congr fun j hj => List.getElem?_append_left (Nat.lt_of_le_of_lt hj hd.lt_length)
  removeAfter i hi hlt := by
    obtain ⟨g', hg', hentries⟩ := Grammar.exists_removeAt hlt
    refine ⟨g', hg', ?_⟩
    rw [h, verdict_eq_decided_iff, hentries]
    refine (verdict_eq_decided_iff.mp h).congr fun j hj => ?_
    exact List.getElem?_eraseIdx_of_lt (Nat.lt_of_le_of_lt hj hi)
  replaceAfter i r hi hlt hr := by
    obtain ⟨g', -, hg', -, -, hother⟩ := Grammar.exists_replaceAt hlt hr
    refine ⟨g', hg', ?_⟩
    rw [h, verdict_eq_decided_iff]
    refine (verdict_eq_decided_iff.mp h).congr fun j hj => hother j ?_
    exact Nat.ne_of_lt (Nat.lt_of_le_of_lt hj hi)
  removeBefore i hi := by
    have hd := verdict_eq_decided_iff.mp h
    obtain ⟨g', hg', hentries⟩ := Grammar.exists_removeAt (Nat.lt_trans hi hd.lt_length)
    refine ⟨g', hg', ?_⟩
    rw [verdict_eq_decided_iff, hentries]
    exact hd.eraseIdx hi
  removeHere := by
    have hd := verdict_eq_decided_iff.mp h
    obtain ⟨g', hg', hentries⟩ := Grammar.exists_removeAt hd.lt_length
    refine ⟨g', hg', ?_⟩
    cases hv : g'.verdict with
    | undecided => exact Or.inl rfl
    | decided s' q d' =>
      -- what stands before the place is as it was, and had no shape
      rw [verdict_eq_decided_iff, hentries] at hv
      exact Or.inr ⟨q, rfl, hd.le (fun j hj => List.getElem?_eraseIdx_of_lt hj) hv⟩
  replaceBefore i r hr hi := by
    have hd := verdict_eq_decided_iff.mp h
    obtain ⟨g', key, hg', hkey, hput, hother⟩ :=
      Grammar.exists_replaceAt (Nat.lt_trans hi hd.lt_length) hr
    refine ⟨g', key, hg', hkey, ?_⟩
    rw [verdict_alone, h]
    cases hshape : r.shape? with
    | none =>
      refine ⟨fun _ => ?_, fun hne => absurd rfl hne⟩
      exact verdict_eq_decided_iff.mpr (hd.passOver hi hput hother hshape)
    | some s' =>
      refine ⟨fun heq => absurd heq (by simp), fun _ => ?_⟩
      exact verdict_eq_decided_iff.mpr (hd.comeFirst hi hput hother hshape)

theorem editsOfUndecided (h : g.verdict = .undecided) : g.EditsOfUndecided where
  remove i hi := by
    obtain ⟨g', hg', hentries⟩ := Grammar.exists_removeAt hi
    refine ⟨g', hg', ?_⟩
    rw [Grammar.verdict, Verdict.scan_eq_undecided_iff] at h ⊢
    rw [hentries]
    exact fun e he => h e (List.mem_of_mem_eraseIdx he)
  add r hr := by
    obtain ⟨g', hg', -, hentries, -⟩ := g.exists_add hr
    refine ⟨g', g.register.nextKey, hg', ?_, ?_⟩
    · rw [hentries]
      exact List.getElem?_concat_length
    · rw [Grammar.verdict, Verdict.scan_eq_undecided_iff] at h
      rw [verdict_alone, Grammar.verdict, hentries, Verdict.scan_append 0 h, Verdict.scan,
        Nat.zero_add]
      cases r.shape? <;> rfl

/-- **How a verdict reacts to an edit.**  If it is decided at a place, adding a
rule, and removing or replacing one after the place, leave it alone; removing
one before the place moves it one place up; without the rule that decided,
nothing before the place decides; and a rule put before the place decides by
its own shape, under the key that is there, or is passed over.  If it is
undecided, it stays so when a rule is removed, and a rule that is added decides
by its own shape or not at all.  A rule alone has the first shape that it fits,
or none. -/
theorem verdict_after_edit (g : Grammar) :
    (∀ s p d, g.verdict = .decided s p d → g.EditsOfDecided s p d) ∧
    (g.verdict = .undecided → g.EditsOfUndecided) ∧
    ∀ (r : Rule) (hr : r.head ≠ []),
      ((r.alone hr).verdict = .undecided ∧ ∀ s, ¬ r.Fits s) ∨
        ∃ s level, (r.alone hr).verdict = .decided s 0 ⟨0⟩ ∧ r.FirstFits s level :=
  ⟨fun _ _ _ => editsOfDecided, editsOfUndecided, fun _ => verdict_alone_cases⟩

/-- The rule that decides is found one place up when the one before it is
removed; where no rule decides, one that is added can. -/
theorem verdict_after_edit_found :
    (∃ g', (Grammar.ofRules ['G'] [⟨['S'], ['a', 'S', 'b']⟩, ⟨['A'], ['A', 'b']⟩]
        (by decide)).removeAt 0 = .ok g' ∧ g'.verdict = .decided (.linear .left) 0 ⟨1⟩) ∧
    ∃ g', (Grammar.ofRules ['G'] [⟨['S'], ['a', 'S', 'b']⟩] (by decide)).add
        ⟨['A'], ['b', 'A']⟩ = .ok g' ∧ g'.verdict = .decided (.linear .right) 1 ⟨1⟩ := by
  constructor
  · have hv : (Grammar.ofRules ['G'] [⟨['S'], ['a', 'S', 'b']⟩, ⟨['A'], ['A', 'b']⟩]
        (by decide)).verdict = .decided (.linear .left) 1 ⟨1⟩ := rfl
    exact ((verdict_after_edit _).1 _ _ _ hv).removeBefore 0 Nat.zero_lt_one
  · have hv : (Grammar.ofRules ['G'] [⟨['S'], ['a', 'S', 'b']⟩] (by decide)).verdict =
        .undecided := rfl
    obtain ⟨g', key, hg', hkey, hv'⟩ :=
      ((verdict_after_edit _).2.1 hv).add ⟨['A'], ['b', 'A']⟩ (by decide)
    cases hg'
    cases hkey
    exact ⟨_, rfl, hv'⟩

end PhraseGrammar
