/-
PhraseGrammar/Proofs/Sameness.lean

Grammars that are the same look the same.

Two grammars are the same when name and rules agree (`g ≈ h`).  Each of them also
has keys, and a key to hand out next, and these tell how it was made.  Whatever is
done with a grammar without naming a key does not see the difference:

* its text, its bytes, its hazards, its listing and the report on it are equal;
* the verdicts on it differ in the key of the deciding rule alone
  (`Verdict.Alike`);
* edits by position are refused for the same reason, or give grammars that are the
  same again, and so do any number of them in turn (`SameOutcome`).

The verdict carries a key out of the scan, so there equality is not to be had.  What
carries the induction is that the scan looks at rules only (`Verdict.scan_alike`).

A grammar without hazards is read back from its bytes as the same grammar, so
saving changes nothing of this (`Grammar.saved_looksLike`).
-/
import PhraseGrammar.Proofs.EditOrder
import PhraseGrammar.Proofs.PlainList
import PhraseGrammar.Proofs.Refinement

namespace PhraseGrammar

/-! ### Verdicts up to the key -/

/-- Verdicts that differ in the key of the deciding rule at most. -/
inductive Verdict.Alike : Verdict → Verdict → Prop
  | decided (shape : Shape) (position : Nat) (key key' : Key Rule) :
      Alike (.decided shape position key) (.decided shape position key')
  | undecided : Alike .undecided .undecided

namespace Verdict

variable {v w : Verdict}

theorem Alike.kind_eq (h : v.Alike w) : v.kind = w.kind := by
  cases h <;> rfl

theorem Alike.reason_eq (h : v.Alike w) : v.reason = w.reason := by
  cases h <;> rfl

theorem Alike.position?_eq (h : v.Alike w) : v.position? = w.position? := by
  cases h <;> rfl

/-- A scan sees the rules of entries and carries the keys along. -/
theorem scan_alike {es fs : List (Key Rule × Rule)} (h : es.map (·.2) = fs.map (·.2))
    (position : Nat) : (scan position es).Alike (scan position fs) := by
  induction es generalizing fs position with
  | nil =>
    obtain rfl : fs = [] := List.map_eq_nil_iff.mp h.symm
    exact .undecided
  | cons e es ih =>
    cases fs with
    | nil => cases h
    | cons f fs =>
      obtain ⟨hrule, hrest⟩ := List.cons.inj h
      have hshape : e.2.shape? = f.2.shape? := congrArg Rule.shape? hrule
      rw [scan, scan, ← hshape]
      cases e.2.shape? with
      | none => exact ih hrest (position + 1)
      | some shape => exact .decided shape position e.1 f.1

end Verdict

/-! ### Outcomes up to the keys -/

/-- Two edits are refused for one reason, or their results are the same grammar. -/
inductive SameOutcome : Except EditError Grammar → Except EditError Grammar → Prop
  | refused (why : EditError) : SameOutcome (.error why) (.error why)
  | done {g h : Grammar} : g ≈ h → SameOutcome (.ok g) (.ok h)

/-- What is done next with the results does not see the difference either. -/
theorem SameOutcome.bind {a b : Except EditError Grammar} (hab : SameOutcome a b)
    {next : Grammar → Except EditError Grammar}
    (hnext : ∀ g h, g ≈ h → SameOutcome (next g) (next h)) :
    SameOutcome (a >>= next) (b >>= next) := by
  cases hab with
  | refused why => exact .refused why
  | done hsame => exact hnext _ _ hsame

section Edits

variable {g h : Grammar}

theorem Grammar.size_congr (hgh : g ≈ h) : g.size = h.size := by
  rw [size_eq_length_rules, size_eq_length_rules, (equiv_iff.mp hgh).2]

/-- An edit by position is refused for what it is and for the number of rules. -/
theorem Edit.refused_congr {e : Edit} (he : e.IsPositional) (hgh : g ≈ h) (why : EditError) :
    e.apply g = .error why ↔ e.apply h = .error why := by
  have hsize := Grammar.size_congr hgh
  cases he with
  | rename name =>
    show Except.ok (g.rename name) = .error why ↔ Except.ok (h.rename name) = .error why
    simp
  | add rule =>
    show g.add rule = .error why ↔ h.add rule = .error why
    rw [Grammar.add_eq_error_iff, Grammar.add_eq_error_iff]
  | removeAt index =>
    show g.removeAt index = .error why ↔ h.removeAt index = .error why
    rw [Grammar.removeAt_eq_error_iff, Grammar.removeAt_eq_error_iff, hsize]
  | replaceAt index rule =>
    show g.replaceAt index rule = .error why ↔ h.replaceAt index rule = .error why
    rw [Grammar.replaceAt_eq_error_iff, Grammar.replaceAt_eq_error_iff, hsize]

/-- An edit by position does the same to grammars that are the same. -/
theorem Edit.sameOutcome_apply {e : Edit} (he : e.IsPositional) (hgh : g ≈ h) :
    SameOutcome (e.apply g) (e.apply h) := by
  cases hg : e.apply g with
  | error why =>
    rw [(Edit.refused_congr he hgh why).mp hg]
    exact .refused why
  | ok g' =>
    obtain ⟨h', hh, hsame⟩ := Edit.apply_congr he hgh hg
    rw [hh]
    exact .done hsame

/-- So do edits by position one after the other. -/
theorem Grammar.sameOutcome_applyAll {es : List Edit} (hes : ∀ e ∈ es, e.IsPositional)
    (hgh : g ≈ h) : SameOutcome (g.applyAll es) (h.applyAll es) := by
  induction es generalizing g h with
  | nil => exact .done hgh
  | cons e es ih =>
    have hrest : ∀ d ∈ es, d.IsPositional := fun d hd => hes d (List.mem_cons_of_mem e hd)
    show SameOutcome (e.apply g >>= (·.applyAll es)) (e.apply h >>= (·.applyAll es))
    apply (Edit.sameOutcome_apply (hes e List.mem_cons_self) hgh).bind
    intro g' h' hsame
    exact ih hrest hsame

end Edits

/-! ### What is seen of a grammar -/

namespace Grammar

variable {g h : Grammar}

theorem encode_congr (hgh : g ≈ h) : g.encode = h.encode := by
  obtain ⟨hname, hrules⟩ := equiv_iff.mp hgh
  rw [encode, encode, hname, hrules]

theorem hazards_congr (hgh : g ≈ h) : g.hazards = h.hazards := by
  obtain ⟨hname, hrules⟩ := equiv_iff.mp hgh
  rw [hazards, hazards, hname, hrules]

theorem verdict_alike (hgh : g ≈ h) : g.verdict.Alike h.verdict :=
  Verdict.scan_alike (equiv_iff.mp hgh).2 0

/-- The report shows the deciding rule by its place and not by its key. -/
theorem report_congr (hgh : g ≈ h) (file : Text) (explain : Bool) :
    g.report file explain = h.report file explain := by
  obtain ⟨hname, hrules⟩ := equiv_iff.mp hgh
  have hverdict := verdict_alike hgh
  have hrule : ∀ p, g.ruleAt? p = h.ruleAt? p := by
    intro p
    rw [ruleAt?_eq_getElem?, ruleAt?_eq_getElem?, hrules]
  simp only [report, hname, hverdict.kind_eq, hverdict.position?_eq, hverdict.reason_eq, hrule]

/-- Nothing tells two grammars apart that does not name a key. -/
structure LooksLike (g h : Grammar) : Prop where
  encode : g.encode = h.encode
  encodeBytes : g.encodeBytes = h.encodeBytes
  hazards : g.hazards = h.hazards
  listing : g.listing = h.listing
  kind : g.verdict.kind = h.verdict.kind
  reason : g.verdict.reason = h.verdict.reason
  position : g.verdict.position? = h.verdict.position?
  report : ∀ file explain, g.report file explain = h.report file explain
  edit : ∀ e : Edit, e.IsPositional → SameOutcome (e.apply g) (e.apply h)
  edits : ∀ es : List Edit, (∀ e ∈ es, e.IsPositional) → SameOutcome (g.applyAll es) (h.applyAll es)

theorem looksLike_of_equiv (hgh : g ≈ h) : g.LooksLike h where
  encode := encode_congr hgh
  encodeBytes := congrArg Utf8.encode (encode_congr hgh)
  hazards := hazards_congr hgh
  listing := listing_congr hgh
  kind := (verdict_alike hgh).kind_eq
  reason := (verdict_alike hgh).reason_eq
  position := (verdict_alike hgh).position?_eq
  report := report_congr hgh
  edit := fun _ he => Edit.sameOutcome_apply he hgh
  edits := fun _ hes => sameOutcome_applyAll hes hgh

/-- What was saved is read back, and looks as it did. -/
theorem saved_looksLike (hg : g.Encodable) :
    ∃ k, decodeBytes g.encodeBytes = .ok k ∧ k.LooksLike g :=
  ⟨_, decodeBytes_encodeBytes hg, looksLike_of_equiv g.ofRules_equiv⟩

/-- **Sameness is respected by everything that names no key.**  Two grammars with one
name and the same rules are written, listed, reported and refused for hazards alike;
the verdicts on them have one type, reason and position; and edits by position, one
or many, are refused on both for one reason or give the same grammars again.  So a
grammar that can be saved has after saving the verdict that it had before. -/
theorem same_looks_alike (hgh : g ≈ h) :
    g.LooksLike h ∧
      (g.Encodable → ∃ k, decodeBytes g.encodeBytes = .ok k ∧ k.LooksLike g) :=
  ⟨looksLike_of_equiv hgh, saved_looksLike⟩

/-- Two rules, the second of which decides that the type is 1. -/
def twoRules : Grammar :=
  .ofRules ['G'] [⟨['S'], ['a', 'B']⟩, ⟨['x'], ['y']⟩] (by decide)

/-- The first rule is taken out, the second added again and replaced by the first. -/
def replacing : List Edit :=
  [.removeAt 0, .add ⟨['x'], ['y']⟩, .replaceAt 0 ⟨['S'], ['a', 'B']⟩]

/-- After this the rules are what they were, under other keys, and the verdict has
another key in it. -/
theorem same_looks_alike_replacing : ∃ g, twoRules.applyAll replacing = .ok g ∧ g ≈ twoRules ∧
    g.keys ≠ twoRules.keys ∧ g.verdict ≠ twoRules.verdict ∧ g.verdict.position? = some 1 ∧
    g.LooksLike twoRules ∧ ∃ k, decodeBytes g.encodeBytes = .ok k ∧ k.LooksLike g := by
  have hmade : ∃ g, twoRules.applyAll replacing = .ok g ∧ g ≈ twoRules ∧
      g.keys ≠ twoRules.keys ∧ g.verdict ≠ twoRules.verdict ∧
      g.verdict.position? = some 1 ∧ g.Encodable :=
    ⟨_, rfl, ⟨rfl, rfl⟩, by decide, by decide, rfl, by decide⟩
  obtain ⟨g, hg, hsame, hkeys, hverdict, hposition, hclean⟩ := hmade
  obtain ⟨hlooks, hsaved⟩ := same_looks_alike hsame
  exact ⟨g, hg, hsame, hkeys, hverdict, hposition, hlooks, hsaved hclean⟩

end Grammar

end PhraseGrammar
