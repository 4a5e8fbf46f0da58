/-
PhraseGrammar/Proofs/Accepted.lean

What an edit brings into a grammar, and which edits of a file are accepted.

The rules after an edit are rules from before and the rule that the edit came
with (`Edit.mem_rules_apply`).  So a grammar without hazards stays one if the
edit has none of its own (`Edit.encodable_apply`): what is in a file already
is no reason to refuse an edit of it.  What remains to be refused is what the
user typed, and a command of which that is sound succeeds on every file that
can be read and written back (`Command.run_of_sound`).
-/
import PhraseGrammar.Proofs.Changes
import PhraseGrammar.Proofs.RoundTrip
import PhraseGrammar.Proofs.Plans

namespace PhraseGrammar

/-! ### What an edit brings in -/

namespace Edit

/-- The rule that an edit comes with. -/
def rule? : Edit → Option Rule
  | .add rule | .replaceAt _ rule | .replace _ rule => some rule
  | .rename _ | .removeAt _ | .remove _ => none

/-- The hazards that an edit comes with. -/
def hazards : Edit → List Hazard
  | .rename name => nameHazards name
  | .add rule | .replaceAt _ rule | .replace _ rule => rule.hazards
  | .removeAt _ | .remove _ => []

/-- The name that an edit leaves to a grammar. -/
def nameAfter (g : Grammar) : Edit → Text
  | .rename name => name
  | .add _ | .removeAt _ | .replaceAt _ _ | .remove _ | .replace _ _ => g.name

variable {e : Edit} {g g' : Grammar}

theorem name_apply (h : e.apply g = .ok g') : g'.name = e.nameAfter g := by
  cases e with
  | rename name =>
    cases h
    rfl
  | add rule =>
    rw [apply, Grammar.add] at h
    split at h
    · cases h
    · cases h
      rfl
  | removeAt index => exact (Grammar.removeAt_cases h).1
  | replaceAt index rule => exact (Grammar.replaceAt_cases h).1
  | remove key =>
    obtain ⟨i, -, hi⟩ := Grammar.cases_of_locate_bind (f := g.removeAt) h
    exact (Grammar.removeAt_cases hi).1
  | replace key rule =>
    obtain ⟨i, -, hi⟩ := Grammar.cases_of_locate_bind (f := (g.replaceAt · rule)) h
    exact (Grammar.replaceAt_cases hi).1

/-- What is added or put under a key is the rule of the edit. -/
theorem rule?_of_change {key : Key Rule} {rule : Rule}
    (h : e.change g = .added key rule ∨ e.change g = .replaced key rule) :
    e.rule? = some rule := by
  cases e with
  | rename | remove => simp [change] at h
  | add | replace =>
    simp only [change, Change.added.injEq, Change.replaced.injEq, reduceCtorEq, or_false,
      false_or] at h
    rw [rule?, h.2]
  | removeAt index => cases hk : g.keys[index]? <;> simp [change, hk] at h
  | replaceAt index r =>
    cases hk : g.keys[index]? with
    | none => simp [change, hk] at h
    | some k =>
      simp only [change, hk, Option.elim_some, Change.replaced.injEq, reduceCtorEq, false_or] at h
      rw [rule?, h.2]

/-- Every rule after an edit was there before, or came with the edit. -/
theorem mem_rules_apply (h : e.apply g = .ok g') {r : Rule} (hr : r ∈ g'.rules) :
    r ∈ g.rules ∨ e.rule? = some r := by
  have hc := changed_apply h
  generalize hchange : e.change g = c at hc
  cases hc with
  | nothing hreg =>
    left
    rwa [Grammar.rules, hreg] at hr
  | added hreg =>
    rw [Grammar.rules, hreg, Register.values_push] at hr
    rcases List.mem_append.mp hr with hr | hr
    · exact Or.inl hr
    · obtain rfl := List.mem_singleton.mp hr
      exact Or.inr (rule?_of_change (Or.inl hchange))
  | removed _ hreg =>
    left
    rw [Grammar.rules, hreg, Register.values_removeAt] at hr
    exact List.mem_of_mem_eraseIdx hr
  | replaced _ hreg =>
    rw [Grammar.rules, hreg, Register.values_replaceAt] at hr
    rcases List.mem_or_eq_of_mem_set hr with hr | rfl
    · exact Or.inl hr
    · exact Or.inr (rule?_of_change (Or.inr hchange))

/-- A grammar without hazards has none after an edit that comes with none. -/
theorem encodable_apply (hg : g.Encodable) (he : e.hazards = []) (h : e.apply g = .ok g') :
    g'.Encodable := by
  obtain ⟨hname, hrules⟩ := Grammar.encodable_iff.mp hg
  refine Grammar.encodable_iff.mpr ⟨?_, fun r hr => ?_⟩
  · rw [name_apply h]
    cases e with
    | rename name => exact he
    | add | removeAt | replaceAt | remove | replace => exact hname
  · rcases mem_rules_apply h hr with hr | hr
    · exact hrules r hr
    · cases e with
      | rename | removeAt | remove => cases hr
      | add | replaceAt | replace =>
        obtain rfl := Option.some.inj hr
        exact he

end Edit

/-! ### What a user can type -/

/-- A typed rule that can be stored, under a rule for heads. -/
structure IsSoundRule (strict : Bool) (head body : Text) : Prop where
  letter : strict = true → isSingleLetter head = true
  headed : head ≠ []
  noHazards : (Rule.mk head (typedBody body)).hazards = []

/-- A command that edits a file in which there are a number of rules, with a
rule that can be stored and at a position that is there. -/
inductive Command.Sound (strict : Bool) (file : Text) (size : Nat) : Command → Prop
  | add {head body : Text} :
      IsSoundRule strict head body → Sound strict file size (.add file head body)
  | edit {position : Nat} {head body : Text} :
      1 ≤ position → position ≤ size → IsSoundRule strict head body →
      Sound strict file size (.edit file position head body)
  | remove {position : Nat} :
      1 ≤ position → position ≤ size → Sound strict file size (.remove file position)

theorem IsSoundRule.typedRule_eq {strict : Bool} {head body : Text}
    (h : IsSoundRule strict head body) :
    typedRule strict head body = .ok ⟨head, typedBody body⟩ := by
  have hletter : (strict && !isSingleLetter head) = false := by
    cases strict with
    | false => rfl
    | true => rw [h.letter rfl, Bool.not_true, Bool.and_false]
  rw [typedRule, hletter, if_neg Bool.false_ne_true]

variable {strict : Bool} {file : Text} {g : Grammar} {c : Command}

/-- What is sound comes to an edit that brings no hazard and that the grammar
takes. -/
theorem Command.Sound.plan (h : c.Sound strict file g.size) (read : Reader) :
    ∃ e g', c.plan strict read = read.edit file e ∧ e.hazards = [] ∧ e.apply g = .ok g' := by
  cases h with
  | @add head body hr =>
    refine ⟨.add ⟨head, typedBody body⟩, _, ?_, hr.noHazards, dif_neg hr.headed⟩
    simp only [Command.plan, hr.typedRule_eq]
  | @edit position head body hpos hsize hr =>
    have hi : position - 1 < g.size := by omega
    refine ⟨.replaceAt (position - 1) ⟨head, typedBody body⟩, _, ?_, hr.noHazards,
      (if_pos hi).trans (dif_neg hr.headed)⟩
    simp only [Command.plan, typedIndex_of_pos hpos, hr.typedRule_eq]
  | @remove position hpos hsize =>
    have hi : position - 1 < g.size := by omega
    refine ⟨.removeAt (position - 1), _, ?_, rfl, if_pos hi⟩
    simp only [Command.plan, typedIndex_of_pos hpos]

/-- **What is sound is accepted.**  A command that edits the grammar in a file
succeeds if what was typed is sound and the file can be written back. -/
theorem Command.run_of_sound {t : FileTree} (hg : t.stored? file = some g)
    (hw : ∀ bytes, ∃ t', t.overwrite file bytes = .ok t') (h : c.Sound strict file g.size) :
    (c.run strict t).1.exitStatus = 0 := by
  obtain ⟨e, g', hplan, he, hg'⟩ := h.plan t.read
  obtain ⟨bytes, hread, hdecode⟩ := stored?_eq_some_iff.mp hg
  have hgrammar : Reader.grammar t.read file =
      ([.fileRead file bytes.length, .decoded g.name g.size], .ok g) := by
    simp only [Reader.grammar, hread, hdecode]
  have hencodable := Edit.encodable_apply (encodable_of_decodeBytes hdecode) he hg'
  obtain ⟨t', ht'⟩ := hw g'.encodeBytes
  have hwrite : t.write ⟨file, g'.encodeBytes, .replace⟩ = .ok t' := ht'
  rw [Command.run, hplan, Reader.edit, hgrammar]
  simp only [hg', Grammar.saveTo, if_pos hencodable, Plan.run, Plan.report, hwrite]
  rfl

end PhraseGrammar
