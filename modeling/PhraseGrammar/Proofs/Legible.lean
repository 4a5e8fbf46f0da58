/-
PhraseGrammar/Proofs/Legible.lean

What comes back from a text that was written whatever the hazards.

A grammar is *legible* when every line of its text still says what it was
written for: nothing in it breaks a line, the name and the heads are not blank,
and no head holds an arrow.  Blanks may stand at every end, and a body may hold
anything but a line break; so a legible grammar can have hazards, and then
something else is read than was written.  It is the same with the ends trimmed:

    name, head, body   ↦   trim name, trim head, trim body

and nothing more (`written_comes_back_trimmed`).  The arrow that is written is
the first one on its line, because a blank stands before it that can complete no
dash at the end of the head (`ruleLine_render`).  The blanks of the head are then
in part at the end of a line and in part at the end of a side, but either way
they are lost.
-/
import PhraseGrammar.Proofs.Reading

namespace PhraseGrammar

/-- The line of a rule says where its head ends, and is one line. -/
structure Rule.Legible (r : Rule) : Prop where
  head_oneLine : '\n' ∉ r.head
  body_oneLine : '\n' ∉ r.body
  head_notBlank : ¬ AllBlank r.head
  head_arrowless : ¬ arrow <:+: r.head

/-- The first line is the name, and the rules are legible. -/
structure Grammar.Legible (g : Grammar) : Prop where
  name_oneLine : '\n' ∉ g.name
  name_notBlank : ¬ AllBlank g.name
  rules : ∀ r ∈ g.rules, r.Legible

/-- A rule with the blanks off the ends of its sides. -/
def Rule.trimmed (r : Rule) : Rule :=
  ⟨trim r.head, trim r.body⟩

theorem Rule.Legible.trimmed_headed {r : Rule} (h : r.Legible) : r.trimmed.head ≠ [] :=
  fun hnil => h.head_notBlank (trim_eq_nil_iff.mp hnil)

theorem Grammar.Legible.trimmed_headed {g : Grammar} (h : g.Legible) :
    ∀ r ∈ g.rules.map Rule.trimmed, r.head ≠ [] := by
  rw [List.forall_mem_map]
  exact fun r hr => (h.rules r hr).trimmed_headed

/-! ### The lines of a written grammar -/

/-- A line says the rule that was written on it, but for the blanks at the ends. -/
theorem ruleLine_render {r : Rule} (harrow : ¬ arrow <:+: r.head) (hblank : ¬ AllBlank r.head) :
    RuleLine r.render r.trimmed := by
  have hspace : AllBlank [' '] := by
    intro c hc
    obtain rfl := List.mem_singleton.mp hc
    rfl
  -- the blank before the arrow belongs to neither it nor the head
  have hhead : ¬ arrow <:+: r.head ++ [' '] := by
    rw [← splitArrow?_eq_none_iff, splitArrow?_append_blank hspace,
      splitArrow?_eq_none_iff.mpr harrow]
    rfl
  have hfirst : FirstArrow r.render (r.head ++ [' ']) ([' '] ++ r.body) := by
    have := firstArrow_append hhead ([' '] ++ r.body)
    rwa [← List.append_assoc] at this
  have hline := RuleLine.intro hfirst fun hb => hblank (allBlank_append.mp hb).1
  rwa [trim_append_blank hspace, trim_blank_append hspace] at hline

theorem newline_not_mem_render {r : Rule} (hh : '\n' ∉ r.head) (hb : '\n' ∉ r.body) :
    '\n' ∉ r.render := by
  simp [Rule.render, arrow, hh, hb]

namespace Grammar.Legible

variable {g : Grammar}

/-- A grammar is written with its name on the first line, an empty line, and
its rules on the lines after; where there is no rule, that is an empty line. -/
theorem lines_encode (h : g.Legible) :
    lines g.encode =
      g.name :: [] :: (if g.rules = [] then [[]] else g.rules.map Rule.render) := by
  have hcut : lines g.encode = g.name :: [] :: lines (joinLines (g.rules.map Rule.render)) := by
    rw [encode, List.append_assoc]
    -- the two line breaks after the name, each at the end of a piece without one
    show pieces '\n' (g.name ++ '\n' :: ([] ++ '\n' :: _)) = _
    rw [pieces_append_sep h.name_oneLine, pieces_append_sep List.not_mem_nil]
    rfl
  rw [hcut]
  split
  · next hnil => rw [hnil]; rfl
  · next hne =>
    have hrules : ∀ r ∈ g.rules, '\n' ∉ r.render := fun r hr =>
      newline_not_mem_render (h.rules r hr).head_oneLine (h.rules r hr).body_oneLine
    have hglue : lines (joinLines (g.rules.map Rule.render)) = g.rules.map Rule.render :=
      pieces_glue (by simpa using hne) (List.forall_mem_map.mpr hrules)
    rw [hglue]

theorem ruleLine (h : g.Legible) {r : Rule} (hr : r ∈ g.rules) : RuleLine r.render r.trimmed :=
  ruleLine_render (h.rules r hr).head_arrowless (h.rules r hr).head_notBlank

end Grammar.Legible

/-! ### Reading what was written -/

theorem rulesOf_map_render {rs : List Rule} (h : ∀ r ∈ rs, RuleLine r.render r.trimmed) :
    rulesOf (rs.map Rule.render) = rs.map Rule.trimmed := by
  induction rs with
  | nil => rfl
  | cons r rs ih =>
    rw [List.map_cons, rulesOf_cons_of_ruleLine (h r List.mem_cons_self), List.map_cons,
      ih fun s hs => h s (List.mem_cons_of_mem r hs)]

namespace Grammar.Legible

variable {g : Grammar}

/-- The lines of a legible grammar are read: after the first each holds nothing, or one
of the rules. -/
theorem readable (h : g.Legible) :
    Readable g.name ([] :: (if g.rules = [] then [[]] else g.rules.map Rule.render)) where
  oneLine := by
    rw [← h.lines_encode]
    exact fun l hl => sep_not_mem_of_mem_pieces hl
  named := h.name_notBlank
  faultless := by
    intro l hl why hw
    have hfault := ofLine?_of_lineFault hw
    have hline : l = [] ∨ ∃ r ∈ g.rules, r.render = l := by
      -- without rules there is a second empty line in place of theirs
      split at hl
      · exact Or.inl (by simpa using hl)
      · simpa using hl
    rcases hline with rfl | ⟨r, hr, rfl⟩
    · cases hfault
    · rw [ofLine?_of_ruleLine (h.ruleLine hr)] at hfault
      cases hfault

/-- The rules on the lines of a written grammar are its own, trimmed. -/
theorem rulesOf_lines (h : g.Legible) :
    rulesOf ([] :: (if g.rules = [] then [[]] else g.rules.map Rule.render)) =
      g.rules.map Rule.trimmed := by
  rw [rulesOf_cons_of_allBlank allBlank_nil]
  split
  · next hnil => rw [hnil]; rfl
  · exact rulesOf_map_render fun r hr => h.ruleLine hr

/-- A legible grammar is read from its text with the ends trimmed, its rules
numbered anew. -/
theorem decode_encode (h : g.Legible) :
    decode g.encode = .ok (.ofRules (trim g.name) (g.rules.map Rule.trimmed) h.trimmed_headed) := by
  rw [h.readable.decode_of_lines h.lines_encode]
  exact congrArg Except.ok (Grammar.ofRules_congr rfl h.rulesOf_lines)

end Grammar.Legible

@[simp] theorem decodeBytes_encode (text : Text) : decodeBytes (Utf8.encode text) = decode text := by
  rw [decodeBytes, Utf8.decode?_encode]

/-- **Writing without looking at hazards trims and does nothing else.**  The
bytes of a legible grammar are read, and what is read has the trimmed name and,
in the same order and number, the rules with both sides trimmed. -/
theorem written_comes_back_trimmed {g : Grammar} (h : g.Legible) :
    ∃ g', decodeBytes g.encodeBytes = .ok g' ∧ g'.name = trim g.name ∧
      g'.rules = g.rules.map fun r => ⟨trim r.head, trim r.body⟩ := by
  refine ⟨.ofRules (trim g.name) (g.rules.map Rule.trimmed) h.trimmed_headed, ?_, rfl,
    Grammar.rules_ofRules _ _ _⟩
  rw [Grammar.encodeBytes, decodeBytes_encode, h.decode_encode]

/-- A padded name, a head that ends in a dash before a body that starts like the
end of an arrow, and a body of blanks. -/
def paddedAtEnds : Grammar :=
  .ofRules [' ', 'G', '\t'] [⟨['S', '-'], ['>', ' ', '-', '>', '\r']⟩, ⟨['\u00a0', 'A'], [' ']⟩]
    (by decide)

/-- The dash stays with the head, and the arrow in the body with the body. -/
theorem written_comes_back_trimmed_at_ends :
    paddedAtEnds.Legible ∧ ∃ g, decodeBytes paddedAtEnds.encodeBytes = .ok g ∧ g.name = ['G'] ∧
      g.rules = [⟨['S', '-'], ['>', ' ', '-', '>']⟩, ⟨['A'], []⟩] := by
  have hlegible : paddedAtEnds.Legible := by
    refine ⟨by decide, by decide, List.forall_mem_cons.mpr ⟨?_, List.forall_mem_singleton.mpr ?_⟩⟩
    · exact ⟨by decide, by decide, by decide, by decide⟩
    · exact ⟨by decide, by decide, by decide, by decide⟩
  exact ⟨hlegible, written_comes_back_trimmed hlegible⟩

end PhraseGrammar
