/-
PhraseGrammar/Proofs/HazardLines.lean

The line a hazard is reported on, and the line its rule begins on.

What is written before the rule at a position is the name, two line breaks,
and every earlier rule with a line break after it (`encode_eq_at`).  Counting
the line breaks in that gives the line on which the rule begins:

    g.lineOf i = 3 + i + g.breaksAbove i                (`lineOf_eq`),

where `breaksAbove` counts those inside the name and inside earlier rules.  A
report adds the position to 3 and knows nothing of the last summand.  So it is
short by exactly the line breaks above the rule (`hazards_located`), and names
the line on which the rule begins if and only if nothing above breaks a line.

A line break above is itself a hazard.  Where one rule alone can have hazards,
as after an edit of a grammar that was read, its line is the one reported
(`CleanBut.lineOf_eq`, `CleanBut.hazards_eq`).
-/
import PhraseGrammar.Proofs.RoundTrip

namespace PhraseGrammar

/-! ### Glued pieces around one of them -/

section Glue

variable {α : Type} {sep : α}

theorem glue_cons_eq_flatMap (p : List α) (ps : List (List α)) :
    glue sep (p :: ps) = p ++ ps.flatMap (sep :: ·) := by
  induction ps generalizing p with
  | nil => rw [glue, List.flatMap_nil, List.append_nil]
  | cons q ps ih => rw [glue, ih q, List.flatMap_cons, List.cons_append]

/-- A piece stands behind those before it, each with a separator after it. -/
theorem glue_eq_at {ps : List (List α)} {i : Nat} {p : List α} (h : ps[i]? = some p) :
    glue sep ps =
      (ps.take i).flatMap (· ++ [sep]) ++ p ++ (ps.drop (i + 1)).flatMap (sep :: ·) := by
  induction ps generalizing i with
  | nil => cases h
  | cons q ps ih =>
    cases i with
    | zero =>
      obtain rfl : q = p := Option.some.inj h
      exact glue_cons_eq_flatMap q ps
    | succ i =>
      cases ps with
      | nil => cases h
      | cons q' ps =>
        -- something follows, so there is a separator after the first piece
        rw [glue, ih h, List.take_succ_cons, List.flatMap_cons, List.drop_succ_cons (a := q)]
        simp only [List.append_assoc, List.nil_append, List.cons_append]

/-- A separator after each piece, and those inside the pieces. -/
theorem count_flatMap_append_sep [DecidableEq α] (ps : List (List α)) :
    (ps.flatMap (· ++ [sep])).count sep = ps.length + ps.flatten.count sep := by
  induction ps with
  | nil => rfl
  | cons p ps ih =>
    rw [List.flatMap_cons, List.count_append, ih, List.count_append, List.count_singleton_self,
      List.length_cons, List.flatten_cons, List.count_append]
    omega

end Glue

/-! ### Reports put together -/

/-- What is nothing but at one element of a list. -/
theorem flatMap_eq_of_mem {α β : Type} {l : List α} {a : α} {f : α → List β} (hl : l.Nodup)
    (ha : a ∈ l) (hf : ∀ b ∈ l, b ≠ a → f b = []) : l.flatMap f = f a := by
  obtain ⟨s, t, rfl⟩ := List.append_of_mem ha
  obtain ⟨-, ht, hst⟩ := List.nodup_append.mp hl
  have hs : s.flatMap f = [] := by
    refine List.flatMap_eq_nil_iff.mpr fun b hb => hf b (List.mem_append_left _ hb) ?_
    exact hst b hb a List.mem_cons_self
  have htl : t.flatMap f = [] := by
    refine List.flatMap_eq_nil_iff.mpr fun b hb => ?_
    refine hf b (List.mem_append_right _ (List.mem_cons_of_mem a hb)) ?_
    rintro rfl
    exact (List.nodup_cons.mp ht).1 hb
  rw [List.flatMap_append, List.flatMap_cons, hs, htl, List.nil_append, List.append_nil]

/-- The hazards of rules are reported rule by rule. -/
theorem hazardsFrom_eq_flatMap (line : Nat) (rs : List Rule) :
    hazardsFrom line rs = (List.range rs.length).flatMap fun i =>
      (rs[i]?.elim [] Rule.hazards).map (.atLine (line + i)) := by
  induction rs generalizing line with
  | nil => rfl
  | cons r rs ih =>
    -- further down both the line and the position have counted on
    rw [hazardsFrom, ih, List.length_cons, List.range_succ_eq_map, List.flatMap_cons,
      List.flatMap_map]
    simp only [List.getElem?_cons_zero, List.getElem?_cons_succ, Option.elim_some, Nat.add_zero,
      Nat.succ_eq_add_one, Nat.add_right_comm, ← Nat.add_assoc]

namespace Grammar

variable {g : Grammar} {i : Nat} {r : Rule}

/-! ### Where a rule begins -/

/-- What is written before the rule at a position. -/
def textBefore (g : Grammar) (i : Nat) : Text :=
  g.name ++ ['\n', '\n'] ++ ((g.rules.take i).map Rule.render).flatMap (· ++ ['\n'])

/-- What is written after the rule at a position. -/
def textAfter (g : Grammar) (i : Nat) : Text :=
  ((g.rules.drop (i + 1)).map Rule.render).flatMap ('\n' :: ·)

/-- The line of the text, from 1, on which the rule at a position begins. -/
def lineOf (g : Grammar) (i : Nat) : Nat :=
  (g.textBefore i).count '\n' + 1

/-- The line breaks inside the name and inside the rules before a position. -/
def breaksAbove (g : Grammar) (i : Nat) : Nat :=
  (g.name ++ ((g.rules.take i).map Rule.render).flatten).count '\n'

/-- The text of a grammar, cut around one of its rules. -/
theorem encode_eq_at (h : g.rules[i]? = some r) :
    g.encode = g.textBefore i ++ r.render ++ g.textAfter i := by
  have hi : (g.rules.map Rule.render)[i]? = some r.render := by
    rw [List.getElem?_map, h, Option.map_some]
  rw [encode, joinLines, glue_eq_at hi, textBefore, textAfter, List.map_take, List.map_drop]
  simp only [List.append_assoc]

/-- A rule begins below the lines of the name, those of the rules before it,
and one more for every line break inside any of these. -/
theorem lineOf_eq (h : i ≤ g.rules.length) :
    g.lineOf i = firstRuleLine + i + g.breaksAbove i := by
  have hname : List.count '\n' ['\n', '\n'] = 2 := rfl
  rw [lineOf, textBefore, List.count_append, List.count_append, hname, count_flatMap_append_sep,
    List.length_map, List.length_take, Nat.min_eq_left h, breaksAbove, List.count_append,
    firstRuleLine]
  omega

/-- No line breaks are counted above a rule where there are none. -/
theorem breaksAbove_eq_zero_iff :
    g.breaksAbove i = 0 ↔ '\n' ∉ g.name ∧ ∀ s ∈ g.rules.take i, '\n' ∉ s.render := by
  rw [breaksAbove, List.count_eq_zero, List.mem_append, not_or]
  refine and_congr_right fun _ => ?_
  simp only [List.mem_flatten, List.mem_map, exists_exists_and_eq_and, not_exists, not_and]

/-! ### What is reported for a rule -/

/-- The report for the rule at a position. -/
def reportFor (g : Grammar) (i : Nat) : List (Located Hazard) :=
  (g.rules[i]?.elim [] Rule.hazards).map (.atLine (firstRuleLine + i))

theorem reportFor_eq (h : g.rules[i]? = some r) :
    g.reportFor i = r.hazards.map (.atLine (firstRuleLine + i)) := by
  rw [reportFor, h, Option.elim_some]

theorem line_of_mem_reportFor {z : Located Hazard} (h : z ∈ g.reportFor i) :
    z.place.line = firstRuleLine + i := by
  obtain ⟨hazard, -, rfl⟩ := List.mem_map.mp h
  rfl

/-- A report is that for the name and then those for the rules in order. -/
theorem hazards_eq_flatMap (g : Grammar) :
    g.hazards = (nameHazards g.name).map (.atLine 1) ++
      (List.range g.rules.length).flatMap g.reportFor := by
  rw [hazards, hazardsFrom_eq_flatMap]
  rfl

/-! ### A single rule with hazards -/

/-- Nothing has a hazard but the rule at a position. -/
structure CleanBut (g : Grammar) (i : Nat) : Prop where
  name : nameHazards g.name = []
  others : ∀ j s, j ≠ i → g.rules[j]? = some s → s.hazards = []

namespace CleanBut

/-- A rule with nothing above it that has a hazard begins on the line that its
position gives. -/
theorem lineOf_eq (h : g.CleanBut i) (hi : i ≤ g.rules.length) :
    g.lineOf i = firstRuleLine + i := by
  have hbreaks : g.breaksAbove i = 0 := by
    refine breaksAbove_eq_zero_iff.mpr ⟨(nameHazards_eq_nil_iff.mp h.name).1.oneLine, ?_⟩
    intro s hs
    -- a line break in a rule above would be a hazard of that rule
    obtain ⟨j, hj, rfl⟩ := List.mem_take_iff_getElem.mp hs
    obtain ⟨hlt, hlen⟩ := Nat.lt_min.mp hj
    have hclean := h.others j _ (Nat.ne_of_lt hlt) (List.getElem?_eq_getElem hlen)
    have htidy := Rule.hazards_eq_nil_iff.mp hclean
    exact newline_not_mem_render htidy.head.oneLine htidy.body.oneLine
  rw [Grammar.lineOf_eq hi, hbreaks, Nat.add_zero]

/-- All that is reported is reported for that rule. -/
theorem hazards_eq (h : g.CleanBut i) (hi : i < g.rules.length) : g.hazards = g.reportFor i := by
  have hothers : ∀ j ∈ List.range g.rules.length, j ≠ i → g.reportFor j = [] := by
    intro j hj hne
    have hget := List.getElem?_eq_getElem (List.mem_range.mp hj)
    rw [reportFor_eq hget, h.others j _ hne hget, List.map_nil]
  rw [hazards_eq_flatMap, h.name, List.map_nil, List.nil_append,
    flatMap_eq_of_mem List.nodup_range (List.mem_range.mpr hi) hothers]

end CleanBut

/-! ### All that is reported -/

/-- **Where hazards are reported.**  A report is made up of the hazards of the
name, on line 1, and of the hazards of each rule.  The line given for a rule
falls short of the line on which the rule begins by the number of line breaks
inside the name and inside earlier rules, and is that line if and only if there
are none. -/
theorem hazards_located (g : Grammar) :
    g.hazards = (nameHazards g.name).map (.atLine 1) ++
        (List.range g.rules.length).flatMap g.reportFor ∧
      ∀ i r, g.rules[i]? = some r →
        g.encode = g.textBefore i ++ r.render ++ g.textAfter i ∧
        (g.reportFor i).map Located.fault = r.hazards ∧
        ∀ z ∈ g.reportFor i,
          z.place.line + g.breaksAbove i = g.lineOf i ∧
          (z.place.line = g.lineOf i ↔
            '\n' ∉ g.name ∧ ∀ s ∈ g.rules.take i, '\n' ∉ s.render) := by
  refine ⟨g.hazards_eq_flatMap, fun i r hr => ⟨encode_eq_at hr, ?_, fun z hz => ?_⟩⟩
  · rw [reportFor_eq hr, List.map_map]
    exact List.map_id r.hazards
  · have hi : i < g.rules.length := (List.getElem?_eq_some_iff.mp hr).1
    have hline := lineOf_eq (g := g) (Nat.le_of_lt hi)
    rw [line_of_mem_reportFor hz, ← breaksAbove_eq_zero_iff]
    omega

/-- A rule whose body breaks a line, above a rule with a padded head. -/
def brokenAbove : Grammar :=
  .ofRules ['G'] [⟨['S'], ['a', '\n', 'b']⟩, ⟨['S', ' '], ['a']⟩] (by decide)

/-- The padded head is reported on line 4 and stands on line 5. -/
theorem reported_too_high :
    brokenAbove.reportFor 1 = [.atLine 4 (.paddedRule .head)] ∧
      brokenAbove.textBefore 1 = "G\n\nS -> a\nb\n".toList ∧ brokenAbove.lineOf 1 = 5 ∧
      ¬ ∀ (g : Grammar) (i : Nat), ∀ z ∈ g.reportFor i, z.place.line = g.lineOf i := by
  have hreport : brokenAbove.reportFor 1 = [.atLine 4 (.paddedRule .head)] := by decide +kernel
  have hline : brokenAbove.lineOf 1 = 5 := by decide +kernel
  refine ⟨hreport, by decide +kernel, hline, fun hall => ?_⟩
  have hz := hall brokenAbove 1 (.atLine 4 (.paddedRule .head)) (by simp [hreport])
  rw [hline] at hz
  exact absurd hz (by decide)

end Grammar

end PhraseGrammar
