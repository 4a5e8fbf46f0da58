/-
PhraseGrammar/Proofs/LineEdits.lean

Editing a grammar by editing the lines of its text.

A text that is read need not look like one that is written: blank lines may stand
between its rules, blanks at the ends of its lines, and a line feed at its end or
none.  So the line of a rule is not known from the position of the rule, but from
what stands above it after the first line:

    number of the line   = 2 + the lines above it,
    position of the rule = those of the lines above it that are not blank

(`YieldsRule`).  Every rule has one such line and every line that is not blank is
one (`yieldsRule_iff`, `YieldsRule.unique`).

Taking out the line of a rule takes out the rule, and putting a written rule in
its place replaces it, up to the keys: reading counts them anew.  A line at the end
is a rule at the end, and there the keys agree as well, since a grammar that was
read has been given its keys in order (`Grammar.add_ofRules`).
-/
import PhraseGrammar.Proofs.HazardLines
import PhraseGrammar.Proofs.PlainList

namespace PhraseGrammar

/-! ### Surgery on lines -/

/-- A text without the line with a number. -/
def deleteLine (number : Nat) (text : Text) : Text :=
  joinLines ((lines text).eraseIdx (number - 1))

/-- A text with another line in place of the one with a number. -/
def replaceLine (number : Nat) (line text : Text) : Text :=
  joinLines ((lines text).set (number - 1) line)

/-- A text with a line more at its end. -/
def appendLine (line text : Text) : Text :=
  text ++ '\n' :: line

/-! ### The line of a rule -/

/-- The line with a number holds a rule, and a number of lines above it after the
first are not blank: that is the position of the rule. -/
inductive YieldsRule (text : Text) : Nat → Nat → Rule → Prop
  | intro {above below : List Text} {line : Text} {r : Rule} :
      laterLines text = above ++ line :: below → RuleLine line r →
      YieldsRule text (above.length + 2) (above.countP (¬ AllBlank ·)) r

theorem RuleLine.not_allBlank {line : Text} {r : Rule} (h : RuleLine line r) : ¬ AllBlank line := by
  obtain ⟨hfirst, -⟩ := h
  exact hfirst.not_allBlank

/-- The rules on lines around one that holds a rule. -/
theorem rulesOf_cut {line : Text} {r : Rule} (h : RuleLine line r) (above below : List Text) :
    rulesOf (above ++ line :: below) = rulesOf above ++ r :: rulesOf below := by
  rw [rulesOf_append, rulesOf_cons_of_ruleLine h]

/-- Among lines without faults those that are not blank have a rule each. -/
theorem length_rulesOf {ls : List Text} (h : ∀ l ∈ ls, ∀ why, ¬ LineFault l why) :
    (rulesOf ls).length = ls.countP (¬ AllBlank ·) := by
  rw [← (forall₂_rulesOf h).length_eq, List.countP_eq_length_filter]

/-- A rule that is read off lines is on one of them, below as many that are not
blank as there are rules before it. -/
theorem exists_cut_of_rulesOf {ls : List Text} (h : ∀ l ∈ ls, ∀ why, ¬ LineFault l why) {k : Nat}
    {r : Rule} (hk : (rulesOf ls)[k]? = some r) :
    ∃ above line below, ls = above ++ line :: below ∧ RuleLine line r ∧
      above.countP (¬ AllBlank ·) = k := by
  induction ls generalizing k with
  | nil => cases hk
  | cons l ls ih =>
    have ih := fun {k} => @ih (fun m hm => h m (List.mem_cons_of_mem l hm)) k
    -- a blank line is passed over, and a rule takes one off the position
    obtain ⟨hb, -⟩ | ⟨why, hw, -⟩ | ⟨s, hs, -⟩ := ofLine?_cases l
    · rw [rulesOf_cons_of_allBlank hb] at hk
      obtain ⟨above, line, below, rfl, hline, hcount⟩ := ih hk
      refine ⟨l :: above, line, below, rfl, hline, ?_⟩
      rw [List.countP_cons_of_neg (by simpa using hb), hcount]
    · exact absurd hw (h l List.mem_cons_self why)
    · rw [rulesOf_cons_of_ruleLine hs] at hk
      cases k with
      | zero =>
        obtain rfl : s = r := by simpa using hk
        exact ⟨[], l, ls, rfl, hs, rfl⟩
      | succ k =>
        obtain ⟨above, line, below, rfl, hline, hcount⟩ := ih hk
        refine ⟨l :: above, line, below, rfl, hline, ?_⟩
        rw [List.countP_cons_of_pos (by simpa using hs.not_allBlank), hcount]

/-- Of two cuts of a list at elements that are counted, the later has more of them
before it. -/
theorem countP_lt_of_cut {α : Type} {p : α → Bool} {xs ys xs' ys' : List α} {x y : α}
    (h : xs ++ x :: ys = xs' ++ y :: ys') (hx : p x) (hlt : xs.length < xs'.length) :
    xs.countP p < xs'.countP p := by
  obtain ⟨zs, rfl, hzs⟩ | ⟨zs, rfl, -⟩ := List.append_eq_append_iff.mp h
  · cases zs with
    | nil => simp at hlt
    | cons z zs =>
      -- the element of the first cut stands before the second
      obtain ⟨rfl, -⟩ := List.cons.inj hzs
      rw [List.countP_append, List.countP_cons_of_pos hx]
      omega
  · rw [List.length_append] at hlt
    omega

/-- A rule has one line. -/
theorem YieldsRule.unique {text : Text} {m n k : Nat} {r s : Rule} (h : YieldsRule text m k r)
    (h' : YieldsRule text n k s) : m = n := by
  -- both positions are counts, so the equation between them is kept apart
  generalize hk : k = k' at h'
  obtain @⟨above, below, line, r, hcut, hline⟩ := h
  obtain @⟨above', below', line', s, hcut', hline'⟩ := h'
  have hcuts := hcut.symm.trans hcut'
  obtain hlt | heq | hlt := Nat.lt_trichotomy above.length above'.length
  · have := countP_lt_of_cut (p := (¬ AllBlank ·)) hcuts (decide_eq_true hline.not_allBlank) hlt
    omega
  · rw [heq]
  · have := countP_lt_of_cut (p := (¬ AllBlank ·)) hcuts.symm
      (decide_eq_true hline'.not_allBlank) hlt
    omega

/-! ### Texts that are read -/

/-- Lines are read when each was read before or holds a rule. -/
theorem Readable.edited {first : Text} {later later' : List Text} (h : Readable first later)
    (hnew : ∀ l ∈ later', l ∈ later ∨ '\n' ∉ l ∧ ∃ s, RuleLine l s) : Readable first later' where
  oneLine := by
    refine List.forall_mem_cons.mpr ⟨h.oneLine first List.mem_cons_self, fun l hl => ?_⟩
    rcases hnew l hl with hold | ⟨hline, -⟩
    · exact h.oneLine l (List.mem_cons_of_mem first hold)
    · exact hline
  named := h.named
  faultless := by
    intro l hl why hw
    rcases hnew l hl with hold | ⟨-, s, hs⟩
    · exact h.faultless l hold why hw
    · have hread := ofLine?_of_ruleLine hs
      rw [ofLine?_of_lineFault hw] at hread
      cases hread

/-- The lines of a text that is read, and what is read. -/
theorem readable_of_decode {text : Text} {g : Grammar} (h : decode text = .ok g) :
    Readable (firstLine text) (laterLines text) ∧
      g = .ofRules (trim (firstLine text)) (rulesOf (laterLines text))
        fun _ => head_ne_nil_of_mem_rulesOf := by
  obtain ⟨hgood, -⟩ := standsFor_of_decode h
  have hreadable : Readable (firstLine text) (laterLines text) := by
    refine ⟨fun l hl => ?_, fun hb => hgood 1 _ (.name hb), fun l hl why hw => ?_⟩
    · rw [← lines_eq_cons] at hl
      exact sep_not_mem_of_mem_pieces hl
    · obtain ⟨i, hi⟩ := List.getElem?_of_mem hl
      exact hgood (i + 2) why (.rule hi hw)
  have hread := hreadable.decode_of_lines (lines_eq_cons text)
  rw [h] at hread
  exact ⟨hreadable, Except.ok.inj hread⟩

/-! ### Each surgery and its edit -/

section Surgery

variable {text first line : Text} {above below : List Text}

theorem deleteLine_eq (h : lines text = first :: (above ++ line :: below)) :
    deleteLine (above.length + 2) text = joinLines (first :: (above ++ below)) := by
  rw [deleteLine, h]
  show joinLines (first :: (above ++ line :: below).eraseIdx above.length) = _
  rw [List.eraseIdx_append_of_length_le (Nat.le_refl _), Nat.sub_self]
  rfl

theorem replaceLine_eq (h : lines text = first :: (above ++ line :: below)) (new : Text) :
    replaceLine (above.length + 2) new text = joinLines (first :: (above ++ new :: below)) := by
  rw [replaceLine, h]
  show joinLines (first :: (above ++ line :: below).set above.length new) = _
  rw [List.set_append_right _ _ (Nat.le_refl _), Nat.sub_self]
  rfl

theorem appendLine_eq (text new : Text) :
    appendLine new text = joinLines (firstLine text :: (laterLines text ++ [new])) := by
  have hglue : joinLines (firstLine text :: laterLines text) = text := by
    rw [← lines_eq_cons, joinLines, glue_pieces]
  rw [joinLines, glue_cons_eq_flatMap] at hglue ⊢
  rw [List.flatMap_append, ← List.append_assoc, hglue, appendLine, List.flatMap_singleton]

end Surgery

/-- A rule that is added to rules numbered from 0 gets the number that it has among
them all. -/
theorem Grammar.add_ofRules {name : Text} {rules : List Rule} {h : ∀ r ∈ rules, r.head ≠ []}
    {s : Rule} (hs : s.head ≠ []) (h' : ∀ r ∈ rules ++ [s], r.head ≠ []) :
    (Grammar.ofRules name rules h).add s = .ok (.ofRules name (rules ++ [s]) h') := by
  obtain ⟨g, hg, hname, hreg⟩ := (Grammar.ofRules name rules h).add_of_headed hs
  rw [hg]
  refine congrArg Except.ok (Grammar.ext hname ?_)
  rw [hreg]
  show (Register.ofList rules).push s = Register.ofList (rules ++ [s])
  rw [Register.ofList, Register.ofList, List.foldl_append]
  rfl

section Edits

variable {text line : Text} {g : Grammar} {number k : Nat} {r s : Rule}

/-- The rules above the line of a rule, and those below. -/
theorem YieldsRule.rules_cut (hy : YieldsRule text number k r) (h : decode text = .ok g) :
    ∃ above line below, laterLines text = above ++ line :: below ∧ number = above.length + 2 ∧
      k = (rulesOf above).length ∧ g.rules = rulesOf above ++ r :: rulesOf below := by
  obtain ⟨hread, rfl⟩ := readable_of_decode h
  obtain @⟨above, below, line, r, hcut, hline⟩ := hy
  have habove : ∀ l ∈ above, ∀ why, ¬ LineFault l why := by
    intro l hl
    apply hread.faultless
    rw [hcut]
    exact List.mem_append_left _ hl
  refine ⟨above, line, below, hcut, rfl, (length_rulesOf habove).symm, ?_⟩
  rw [Grammar.rules_ofRules, hcut, rulesOf_cut hline]

/-- The rules of a grammar are on the lines of its text, each on one. -/
theorem yieldsRule_iff (h : decode text = .ok g) :
    g.rules[k]? = some r ↔ ∃ number, YieldsRule text number k r := by
  constructor
  · intro hk
    obtain ⟨hread, rfl⟩ := readable_of_decode h
    rw [Grammar.rules_ofRules] at hk
    obtain ⟨above, line, below, hcut, hline, rfl⟩ := exists_cut_of_rulesOf hread.faultless hk
    exact ⟨_, .intro hcut hline⟩
  · rintro ⟨number, hy⟩
    obtain ⟨above, line, below, -, -, rfl, hrules⟩ := hy.rules_cut h
    simp [hrules]

/-- Without the line of a rule the rule is not read. -/
theorem decode_deleteLine (h : decode text = .ok g) (hy : YieldsRule text number k r) :
    ∃ g', decode (deleteLine number text) = .ok g' ∧ g'.name = g.name ∧
      g'.rules = g.rules.eraseIdx k := by
  obtain ⟨above, line, below, hcut, rfl, rfl, hrules⟩ := hy.rules_cut h
  obtain ⟨hread, rfl⟩ := readable_of_decode h
  have hlines : lines text = firstLine text :: (above ++ line :: below) := by
    rw [lines_eq_cons, hcut]
  have hfewer : Readable (firstLine text) (above ++ below) := by
    refine hread.edited fun l hl => Or.inl ?_
    rw [hcut]
    exact ((List.sublist_cons_self line below).append_left above).subset hl
  refine ⟨_, (congrArg decode (deleteLine_eq hlines)).trans hfewer.decode_joinLines, rfl, ?_⟩
  rw [Grammar.rules_ofRules, rulesOf_append, hrules,
    List.eraseIdx_append_of_length_le (Nat.le_refl _), Nat.sub_self]
  rfl

/-- With another rule on the line of a rule the other is read. -/
theorem decode_replaceLine (h : decode text = .ok g) (hy : YieldsRule text number k r)
    (hline : '\n' ∉ line) (hs : RuleLine line s) :
    ∃ g', decode (replaceLine number line text) = .ok g' ∧ g'.name = g.name ∧
      g'.rules = g.rules.set k s := by
  obtain ⟨above, old, below, hcut, rfl, rfl, hrules⟩ := hy.rules_cut h
  obtain ⟨hread, rfl⟩ := readable_of_decode h
  have hlines : lines text = firstLine text :: (above ++ old :: below) := by
    rw [lines_eq_cons, hcut]
  have hnew : Readable (firstLine text) (above ++ line :: below) := by
    refine hread.edited fun l hl => ?_
    rw [hcut]
    simp only [List.mem_append, List.mem_cons] at hl ⊢
    rcases hl with habove | rfl | hbelow
    · exact Or.inl (Or.inl habove)
    · exact Or.inr ⟨hline, s, hs⟩
    · exact Or.inl (Or.inr (Or.inr hbelow))
  refine ⟨_, (congrArg decode (replaceLine_eq hlines line)).trans hnew.decode_joinLines, rfl, ?_⟩
  rw [Grammar.rules_ofRules, rulesOf_cut hs, hrules, List.set_append_right _ _ (Nat.le_refl _),
    Nat.sub_self]
  rfl

/-- With a rule on a line more the rule is read last, and its key is the next. -/
theorem decode_appendLine (h : decode text = .ok g) (hline : '\n' ∉ line) (hs : RuleLine line s) :
    ∃ g', g.add s = .ok g' ∧ decode (appendLine line text) = .ok g' := by
  obtain ⟨hread, rfl⟩ := readable_of_decode h
  have hnew : Readable (firstLine text) (laterLines text ++ [line]) := by
    refine hread.edited fun l hl => ?_
    rcases List.mem_append.mp hl with hold | hl
    · exact Or.inl hold
    · rw [List.mem_singleton.mp hl]
      exact Or.inr ⟨hline, s, hs⟩
  have hrules : rulesOf (laterLines text ++ [line]) = rulesOf (laterLines text) ++ [s] := by
    rw [rulesOf_cut hs]
    rfl
  have hhead : ∀ r ∈ rulesOf (laterLines text) ++ [s], r.head ≠ [] := by
    rw [← hrules]
    exact fun r => head_ne_nil_of_mem_rulesOf
  -- the grammar is numbered from 0, so what `add` hands out is what reading does
  have hs' : s.head ≠ [] := hhead s (List.mem_append_right _ List.mem_cons_self)
  refine ⟨_, Grammar.add_ofRules hs' hhead, ?_⟩
  rw [appendLine_eq, hnew.decode_joinLines]
  exact congrArg Except.ok (Grammar.ofRules_congr rfl hrules)

end Edits

/-! ### A text as the grammar it holds -/

/-- A written rule without hazards is one line, which holds the rule. -/
theorem ruleLine_render_of_hazards {s : Rule} (hhead : s.head ≠ []) (hs : s.hazards = []) :
    '\n' ∉ s.render ∧ RuleLine s.render s := by
  have htidy := Rule.hazards_eq_nil_iff.mp hs
  have hlegible := htidy.legible hhead
  refine ⟨newline_not_mem_render hlegible.head_oneLine hlegible.body_oneLine, ?_⟩
  have hline := ruleLine_render hlegible.head_arrowless hlegible.head_notBlank
  rwa [htidy.trimmed_eq] at hline

/-- A text can be edited by lines in place of its grammar. -/
structure LineEdits (text : Text) (g : Grammar) : Prop where
  yields : ∀ k r, g.rules[k]? = some r ↔ ∃ number, YieldsRule text number k r
  once : ∀ m n k r s, YieldsRule text m k r → YieldsRule text n k s → m = n
  delete : ∀ number k r, YieldsRule text number k r →
    ∃ g₁ g₂, g.removeAt k = .ok g₁ ∧ decode (deleteLine number text) = .ok g₂ ∧ g₂ ≈ g₁
  replace : ∀ number k r, YieldsRule text number k r → ∀ s : Rule, s.head ≠ [] → s.hazards = [] →
    ∃ g₁ g₂, g.replaceAt k s = .ok g₁ ∧ decode (replaceLine number s.render text) = .ok g₂ ∧
      g₂ ≈ g₁
  append : ∀ s : Rule, s.head ≠ [] → s.hazards = [] →
    ∃ g', g.add s = .ok g' ∧ decode (appendLine s.render text) = .ok g'

/-- The position of a rule is one of the grammar. -/
theorem lt_size_of_yieldsRule {text : Text} {g : Grammar} {number k : Nat} {r : Rule}
    (h : decode text = .ok g) (hy : YieldsRule text number k r) : k < g.size := by
  rw [Grammar.size_eq_length_rules]
  exact (List.getElem?_eq_some_iff.mp ((yieldsRule_iff h).mpr ⟨number, hy⟩)).1

/-- **Editing the lines of a text is editing its grammar.**  Whatever the layout of a
text that is read, each of its rules has one line.  Without that line the text is
read as the grammar without the rule, and with another rule written there as the
grammar with the other rule in its place.  With a rule written on a line more it is
read as the grammar with the rule added, the keys included. -/
theorem edited_by_lines {text : Text} {g : Grammar} (h : decode text = .ok g) :
    LineEdits text g where
  yields := fun _ _ => yieldsRule_iff h
  once := fun _ _ _ _ _ hm hn => hm.unique hn
  delete := by
    intro number k r hy
    obtain ⟨g₁, hg₁, hlist⟩ := Grammar.exists_removeAt_lists (lt_size_of_yieldsRule h hy)
    obtain ⟨g₂, hg₂, hname, hrules⟩ := decode_deleteLine h hy
    exact ⟨g₁, g₂, hg₁, hg₂, hname.trans hlist.name.symm, hrules.trans hlist.rules.symm⟩
  replace := by
    intro number k r hy s hhead hs
    obtain ⟨hline, hrule⟩ := ruleLine_render_of_hazards hhead hs
    obtain ⟨g₁, hg₁, hlist⟩ := Grammar.exists_replaceAt_lists (lt_size_of_yieldsRule h hy) hhead
    obtain ⟨g₂, hg₂, hname, hrules⟩ := decode_replaceLine h hy hline hrule
    exact ⟨g₁, g₂, hg₁, hg₂, hname.trans hlist.name.symm, hrules.trans hlist.rules.symm⟩
  append := by
    intro s hhead hs
    obtain ⟨hline, hrule⟩ := ruleLine_render_of_hazards hhead hs
    exact decode_appendLine h hline hrule

/-- Two rules between blank lines, the first with blanks around it, and a line feed at
the end. -/
def looseText : Text :=
  "G\n\n S->a \n\nA -> b\n".toList

/-- The second rule is on line 5.  Without it one rule is left; with another in its
place, and with one on a line more at the end, that one is read. -/
theorem edited_by_lines_loose : ∃ g, decode looseText = .ok g ∧
    YieldsRule looseText 5 1 ⟨['A'], ['b']⟩ ∧
    (∃ g₁ g₂, g.removeAt 1 = .ok g₁ ∧ decode "G\n\n S->a \n\n".toList = .ok g₂ ∧ g₂ ≈ g₁) ∧
    (∃ g₁ g₂, g.replaceAt 1 ⟨['B'], ['-', '>']⟩ = .ok g₁ ∧
      decode "G\n\n S->a \n\nB -> ->\n".toList = .ok g₂ ∧ g₂ ≈ g₁) ∧
    ∃ g', g.add ⟨['C'], []⟩ = .ok g' ∧
      decode "G\n\n S->a \n\nA -> b\n\nC -> ".toList = .ok g' := by
  have hread : ∃ g, decode looseText = .ok g := ⟨_, rfl⟩
  obtain ⟨g, hg⟩ := hread
  obtain ⟨-, -, hdelete, hreplace, happend⟩ := edited_by_lines hg
  have hline : RuleLine "A -> b".toList ⟨['A'], ['b']⟩ := ofLine?_eq_rule_iff.mp rfl
  have hy : YieldsRule looseText 5 1 ⟨['A'], ['b']⟩ :=
    @YieldsRule.intro looseText [[], " S->a ".toList, []] [[]] _ _ rfl hline
  refine ⟨g, hg, hy, hdelete 5 1 _ hy, ?_, ?_⟩
  · exact hreplace 5 1 _ hy ⟨['B'], ['-', '>']⟩ (by decide) (by decide)
  · exact happend ⟨['C'], []⟩ (by decide) (by decide)

end PhraseGrammar
