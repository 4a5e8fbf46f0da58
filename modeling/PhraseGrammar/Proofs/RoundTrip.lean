/-
PhraseGrammar/Proofs/RoundTrip.lean

What comes back from the text of a grammar.

The hazards of a grammar test, piece by piece, for one property: the name and
both sides of every rule are tidy, the name is not empty, and no head holds
an arrow (`encodable_iff_tidy`).  Two facts meet in it.

* A grammar of this kind is written as lines that say what it is, and there is
  nothing to trim, so it is read back with its rules in order and renumbered
  from 0 (`decode_encode`).
* Whatever is read from any text is of this kind (`encodable_of_decode`):
  what was trimmed off a line is tidy, and what stands before the first arrow
  of a line holds no arrow.

Main result: a grammar has no hazard exactly if reading its bytes gives it
back (`encodable_iff_decode_encode`).  Neither half needs a hypothesis on the
grammar; that heads are not empty is part of its type.
-/
import PhraseGrammar.Format.Hazard
import PhraseGrammar.Proofs.Legible

namespace PhraseGrammar

/-! ### Hazards as one property -/

theorem nameHazards_eq_nil_iff {name : Text} :
    nameHazards name = [] ↔ Tidy name ∧ name ≠ [] := by
  simp only [nameHazards, List.append_eq_nil_iff, onlyIf_eq_nil, isBlankText_eq_false_iff]
  constructor
  · rintro ⟨⟨hb, hn⟩, hp⟩
    have hp' : isPadded name = false := by
      simpa [isBlankText_eq_false_iff.mpr hb] using hp
    refine ⟨⟨by simpa using hn, isPadded_eq_false_iff.mp hp'⟩, ?_⟩
    rintro rfl
    exact hb allBlank_nil
  · rintro ⟨ht, hne⟩
    refine ⟨⟨ht.not_allBlank hne, by simpa using ht.oneLine⟩, ?_⟩
    rw [isPadded_eq_false_iff.mpr ht.unpadded, Bool.false_and]

theorem sideHazards_eq_nil_iff {r : Rule} {side : Side} :
    sideHazards r side = [] ↔ Tidy (r.side side) := by
  simp only [sideHazards, List.append_eq_nil_iff, onlyIf_eq_nil, isPadded_eq_false_iff]
  constructor
  · rintro ⟨hn, hp⟩
    exact ⟨by simpa using hn, hp⟩
  · rintro ⟨hn, hp⟩
    exact ⟨by simpa using hn, hp⟩

theorem hasArrow_eq_false_iff {s : Text} : hasArrow s = false ↔ ¬ arrow <:+: s := by
  rw [hasArrow, Option.isSome_eq_false_iff, Option.isNone_iff_eq_none, splitArrow?_eq_none_iff]

/-- Both sides of a rule are tidy, and its head holds no arrow. -/
structure Rule.IsTidy (r : Rule) : Prop where
  head : Tidy r.head
  body : Tidy r.body
  arrowless : ¬ arrow <:+: r.head

theorem Rule.hazards_eq_nil_iff {r : Rule} : r.hazards = [] ↔ r.IsTidy := by
  simp only [Rule.hazards, List.append_eq_nil_iff, sideHazards_eq_nil_iff, onlyIf_eq_nil,
    hasArrow_eq_false_iff]
  constructor
  · rintro ⟨⟨hh, ha⟩, hb⟩
    exact ⟨hh, hb, ha⟩
  · rintro ⟨hh, hb, ha⟩
    exact ⟨⟨hh, ha⟩, hb⟩

/-- A grammar has no hazard where its name and rules are tidy. -/
theorem Grammar.encodable_iff_tidy {g : Grammar} :
    g.Encodable ↔ (Tidy g.name ∧ g.name ≠ []) ∧ ∀ r ∈ g.rules, r.IsTidy := by
  simp only [Grammar.encodable_iff, nameHazards_eq_nil_iff, Rule.hazards_eq_nil_iff]

/-- Grammars that are the same have the same hazards. -/
theorem Grammar.encodable_congr {g h : Grammar} (hgh : g ≈ h) : g.Encodable ↔ h.Encodable := by
  obtain ⟨hn, hr⟩ := Grammar.equiv_iff.mp hgh
  rw [Grammar.encodable_iff, Grammar.encodable_iff, hn, hr]

/-! ### Reading what was written -/

/-- A tidy rule has a line that says it, and nothing to trim. -/
theorem Rule.IsTidy.legible {r : Rule} (h : r.IsTidy) (hne : r.head ≠ []) : r.Legible where
  head_oneLine := h.head.oneLine
  body_oneLine := h.body.oneLine
  head_notBlank := h.head.not_allBlank hne
  head_arrowless := h.arrowless

theorem Rule.IsTidy.trimmed_eq {r : Rule} (h : r.IsTidy) : r.trimmed = r := by
  rw [Rule.trimmed, h.head.unpadded, h.body.unpadded]

theorem Grammar.Encodable.legible {g : Grammar} (h : g.Encodable) : g.Legible := by
  obtain ⟨⟨hname, hne⟩, hrules⟩ := Grammar.encodable_iff_tidy.mp h
  exact ⟨hname.oneLine, hname.not_allBlank hne, fun r hr => (hrules r hr).legible (g.headed r hr)⟩

/-- A grammar without hazards is read back from its text, its rules numbered
anew. -/
theorem decode_encode {g : Grammar} (h : g.Encodable) :
    decode g.encode = .ok (.ofRules g.name g.rules g.headed) := by
  obtain ⟨⟨hname, -⟩, hrules⟩ := Grammar.encodable_iff_tidy.mp h
  have htrimmed : g.rules.map Rule.trimmed = g.rules := by
    refine (List.map_congr_left fun r hr => ?_).trans (List.map_id g.rules)
    exact (hrules r hr).trimmed_eq
  rw [h.legible.decode_encode]
  exact congrArg Except.ok (Grammar.ofRules_congr hname.unpadded htrimmed)

/-! ### What can be read at all -/

/-- A text that is read has no bad line and stands for what is read. -/
theorem standsFor_of_decode {text : Text} {g : Grammar} (h : decode text = .ok g) :
    (∀ n why, ¬ BadLine text n why) ∧ StandsFor text g := by
  have hreads := reads_decode text
  rw [h] at hreads
  cases hreads with
  | read _ hgood hg => exact ⟨hgood, hg⟩

/-- Every rule of the grammar is on some line. -/
theorem StandsFor.exists_line {text : Text} {g : Grammar} (h : StandsFor text g) {r : Rule}
    (hr : r ∈ g.rules) : ∃ l ∈ laterLines text, RuleLine l r := by
  obtain ⟨i, hi, rfl⟩ := List.getElem_of_mem hr
  obtain ⟨hlen, hget⟩ := List.forall₂_iff_get.mp h.rules
  refine ⟨_, ?_, hget i (hlen ▸ hi) hi⟩
  exact (List.mem_filter.mp (List.get_mem _ _)).1

/-- Whatever was read can be written. -/
theorem encodable_of_decode {text : Text} {g : Grammar} (h : decode text = .ok g) :
    g.Encodable := by
  obtain ⟨hgood, hg⟩ := standsFor_of_decode h
  have hline : ∀ l ∈ lines text, '\n' ∉ l := fun l hl => sep_not_mem_of_mem_pieces hl
  rw [lines_eq_cons] at hline
  rw [Grammar.encodable_iff_tidy, hg.name]
  refine ⟨⟨tidy_trim List.infix_rfl (hline _ List.mem_cons_self), ?_⟩, ?_⟩
  · -- an empty name would make the first line a bad one
    intro hnil
    exact hgood 1 _ (.name (trim_eq_nil_iff.mp hnil))
  · intro r hr
    obtain ⟨l, hl, hlr⟩ := hg.exists_line hr
    obtain ⟨hh, hb, ha⟩ := hlr.tidy (hline l (List.mem_cons_of_mem _ hl))
    exact ⟨hh, hb, ha⟩

/-! ### Through the bytes of a file -/

/-- Bytes that are read are those of a text that is read. -/
theorem exists_text_of_decodeBytes {bytes : Bytes} {g : Grammar} (h : decodeBytes bytes = .ok g) :
    ∃ text, bytes = Utf8.encode text ∧ decode text = .ok g := by
  rw [decodeBytes] at h
  cases ht : Utf8.decode? bytes with
  | none => rw [ht] at h; cases h
  | some text =>
    rw [ht] at h
    exact ⟨text, Utf8.eq_encode_of_decode? ht, h⟩

/-- Whatever was read from bytes can be written. -/
theorem encodable_of_decodeBytes {bytes : Bytes} {g : Grammar} (h : decodeBytes bytes = .ok g) :
    g.Encodable := by
  obtain ⟨text, -, ht⟩ := exists_text_of_decodeBytes h
  exact encodable_of_decode ht

/-- A grammar without hazards is read back from its bytes. -/
theorem decodeBytes_encodeBytes {g : Grammar} (h : g.Encodable) :
    decodeBytes g.encodeBytes = .ok (.ofRules g.name g.rules g.headed) := by
  rw [Grammar.encodeBytes, decodeBytes_encode, decode_encode h]

/-- A grammar with its rules numbered anew is the same grammar. -/
theorem Grammar.ofRules_equiv (g : Grammar) : Grammar.ofRules g.name g.rules g.headed ≈ g :=
  Grammar.equiv_iff.mpr ⟨rfl, Grammar.rules_ofRules _ _ _⟩

/-- **Hazards decide the round trip.**  A grammar has no hazard if and only if
its bytes are read and what is read is the same grammar: nothing that looks
writable is spoilt by writing it, and nothing that would come back is
refused. -/
theorem encodable_iff_decode_encode (g : Grammar) :
    g.Encodable ↔ ∃ h, decodeBytes g.encodeBytes = .ok h ∧ h ≈ g := by
  constructor
  · intro hg
    exact ⟨_, decodeBytes_encodeBytes hg, g.ofRules_equiv⟩
  · rintro ⟨h, hread, hsame⟩
    exact (Grammar.encodable_congr hsame).mp (encodable_of_decodeBytes hread)

end PhraseGrammar
