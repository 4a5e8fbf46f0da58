/-
PhraseGrammar/Proofs/Culprits.lean

Hazards blame the parts that would not come back, and no others.

A grammar comes back when its bytes are read as the same grammar.  A name can be
put to this test without any rule, and a rule as the only one under a clean name;
what is reported for them in any grammar is what they would fail by alone:

    name hazards reported   ↔  the name alone does not come back
    something on line 3 + i ↔  rule i alone does not come back

(`culprits_blamed`).  So the test of a grammar is that of its parts, although a
line break or an arrow in one part would be read into its neighbours.  The reason
is that a report is put together from reports on the parts (`mem_hazards_iff`),
each of which sees its part only (`hazardsOn_rule`), while coming back asks for
the same parts to be tidy (`comesBack_iff_encodable`).
-/
import PhraseGrammar.Proofs.HazardLines
import PhraseGrammar.Proofs.VerdictEdits

namespace PhraseGrammar

/-- The bytes are read, and as the same grammar. -/
def Grammar.ComesBack (g : Grammar) : Prop :=
  ∃ h, decodeBytes g.encodeBytes = .ok h ∧ h ≈ g

/-- Whether a hazard is one that a name can have. -/
def Hazard.ofName : Hazard → Bool
  | .blankName | .newlineInName | .paddedName => true
  | .newlineInRule _ | .arrowInHead | .paddedRule _ => false

/-- The hazards that are reported on a line. -/
def Grammar.hazardsOn (g : Grammar) (line : Nat) : List Hazard :=
  (g.hazards.filter (·.place.line = line)).map Located.fault

/-! ### Coming back -/

/-- What comes back is what has no hazard. -/
theorem comesBack_iff_encodable {g : Grammar} : g.ComesBack ↔ g.Encodable := by
  constructor
  · rintro ⟨h, hread, hsame⟩
    exact (Grammar.encodable_congr hsame).mp (encodable_of_decodeBytes hread)
  · intro hg
    exact ⟨_, decodeBytes_encodeBytes hg, g.ofRules_equiv⟩

/-- A name without rules is tested for its own hazards. -/
theorem comesBack_new_iff {name : Text} :
    (Grammar.new name).ComesBack ↔ nameHazards name = [] := by
  rw [comesBack_iff_encodable, Grammar.encodable_iff, Grammar.rules_new]
  exact and_iff_left (List.forall_mem_nil _)

/-- Under a clean name a rule is tested for its own hazards. -/
theorem comesBack_alone_iff {r : Rule} (hr : r.head ≠ []) {name : Text}
    (hname : nameHazards name = []) :
    ((r.alone hr).rename name).ComesBack ↔ r.hazards = [] := by
  have hrules : (r.alone hr).rules = [r] := Grammar.rules_ofRules _ _ _
  rw [comesBack_iff_encodable, Grammar.encodable_iff, Grammar.rules_rename, hrules,
    List.forall_mem_singleton]
  exact and_iff_right hname

/-! ### Reports taken apart -/

theorem Hazard.ofName_of_mem_nameHazards {name : Text} {x : Hazard} (h : x ∈ nameHazards name) :
    x.ofName = true := by
  simp only [nameHazards, List.mem_append, mem_onlyIf] at h
  obtain (⟨-, rfl⟩ | ⟨-, rfl⟩) | ⟨-, rfl⟩ := h <;> rfl

theorem Hazard.ofName_of_mem_hazards {r : Rule} {x : Hazard} (h : x ∈ r.hazards) :
    x.ofName = false := by
  simp only [Rule.hazards, sideHazards, List.mem_append, mem_onlyIf] at h
  obtain ((⟨-, rfl⟩ | ⟨-, rfl⟩) | ⟨-, rfl⟩) | (⟨-, rfl⟩ | ⟨-, rfl⟩) := h <;> rfl

namespace Grammar

variable {g : Grammar} {i : Nat} {r : Rule}

theorem mem_reportFor_iff {z : Located Hazard} :
    z ∈ g.reportFor i ↔
      ∃ r, g.rules[i]? = some r ∧ ∃ x ∈ r.hazards, z = .atLine (firstRuleLine + i) x := by
  rw [reportFor, List.mem_map]
  cases g.rules[i]? with
  | none => simp
  | some r => simp [eq_comm]

/-- A hazard is reported of the name, on line 1, or of the rule at some place, on
the line that goes with the place. -/
theorem mem_hazards_iff {z : Located Hazard} :
    z ∈ g.hazards ↔ (∃ x ∈ nameHazards g.name, z = .atLine 1 x) ∨
      ∃ i r, g.rules[i]? = some r ∧ ∃ x ∈ r.hazards, z = .atLine (firstRuleLine + i) x := by
  rw [hazards_eq_flatMap, List.mem_append, List.mem_map, List.mem_flatMap]
  simp only [mem_reportFor_iff, List.mem_range, eq_comm (b := z)]
  refine or_congr_right ⟨fun ⟨i, _, h⟩ => ⟨i, h⟩, fun ⟨i, r, hr, h⟩ => ⟨i, ?_, r, hr, h⟩⟩
  exact (List.getElem?_eq_some_iff.mp hr).1

theorem filter_reportFor_self :
    (g.reportFor i).filter (·.place.line = firstRuleLine + i) = g.reportFor i :=
  List.filter_eq_self.mpr fun _ hz => decide_eq_true (line_of_mem_reportFor hz)

/-- The lines of two rules are as far apart as their places. -/
theorem filter_reportFor_of_ne {j : Nat} (h : j ≠ i) :
    (g.reportFor j).filter (·.place.line = firstRuleLine + i) = [] := by
  refine List.filter_eq_nil_iff.mpr fun z hz => ?_
  rw [line_of_mem_reportFor hz, decide_eq_true_eq, Nat.add_right_inj]
  exact h

/-- The line of the name is above those of the rules. -/
theorem filter_nameHazards (name : Text) (i : Nat) :
    ((nameHazards name).map (Located.atLine 1)).filter (·.place.line = firstRuleLine + i) = [] := by
  refine List.filter_eq_nil_iff.mpr (List.forall_mem_map.mpr fun x _ => ?_)
  have hline : (1 : Nat) ≠ firstRuleLine + i := by simp only [firstRuleLine]; omega
  exact fun h => hline (of_decide_eq_true h)

/-- What is reported on the line of a rule are its own hazards. -/
theorem hazardsOn_rule (h : g.rules[i]? = some r) :
    g.hazardsOn (firstRuleLine + i) = r.hazards := by
  have hi : i ∈ List.range g.rules.length :=
    List.mem_range.mpr (List.getElem?_eq_some_iff.mp h).1
  rw [hazardsOn, hazards_eq_flatMap, List.filter_append, filter_nameHazards, List.nil_append,
    List.filter_flatMap, flatMap_eq_of_mem List.nodup_range hi fun _ _ => filter_reportFor_of_ne,
    filter_reportFor_self, reportFor_eq h, List.map_map]
  exact List.map_id r.hazards

/-- A name is clean where no hazard of a name is reported. -/
theorem nameHazards_eq_nil_iff_report :
    nameHazards g.name = [] ↔ ∀ z ∈ g.hazards, z.fault.ofName = false := by
  constructor
  · intro h z hz
    obtain ⟨x, hx, -⟩ | ⟨i, r, -, x, hx, rfl⟩ := mem_hazards_iff.mp hz
    · rw [h] at hx
      cases hx
    · exact Hazard.ofName_of_mem_hazards hx
  · intro h
    refine List.eq_nil_iff_forall_not_mem.mpr fun x hx => ?_
    have hz : x.ofName = false := h _ (mem_hazards_iff.mpr (Or.inl ⟨x, hx, rfl⟩))
    rw [Hazard.ofName_of_mem_nameHazards hx] at hz
    cases hz

/-! ### Blame -/

/-- **Hazards blame exactly the culprits.**  A hazard of the name is reported if
and only if the name alone does not come back, and something is reported on the
line of a rule if and only if the rule does not come back alone, under any clean
name.  So a grammar comes back if and only if its name and each of its rules do;
and what is reported for a rule is the same wherever it stands. -/
theorem culprits_blamed (g : Grammar) :
    ((∃ z ∈ g.hazards, z.fault.ofName = true) ↔ ¬ (new g.name).ComesBack) ∧
    (∀ name, nameHazards name = [] →
      (∀ i r (h : g.rules[i]? = some r), g.hazardsOn (firstRuleLine + i) ≠ [] ↔
        ¬ ((r.alone (g.headed r (List.mem_of_getElem? h))).rename name).ComesBack) ∧
      (g.ComesBack ↔ (new g.name).ComesBack ∧
        ∀ r (h : r ∈ g.rules), ((r.alone (g.headed r h)).rename name).ComesBack)) ∧
    (∀ z ∈ g.hazards, z.fault.ofName = true ∧ z.place.line = 1 ∨
      z.fault.ofName = false ∧ ∃ i < g.rules.length, z.place.line = firstRuleLine + i) ∧
    ∀ (g' : Grammar) i j r, g.rules[i]? = some r → g'.rules[j]? = some r →
      g.hazardsOn (firstRuleLine + i) = g'.hazardsOn (firstRuleLine + j) := by
  refine ⟨?_, fun name hname => ⟨fun i r h => ?_, ?_⟩, fun z hz => ?_, fun g' i j r h h' => ?_⟩
  · rw [comesBack_new_iff, nameHazards_eq_nil_iff_report]
    simp
  · rw [comesBack_alone_iff _ hname, hazardsOn_rule h]
  · simp only [comesBack_iff_encodable (g := g), encodable_iff, comesBack_new_iff,
      comesBack_alone_iff _ hname]
  · -- nothing is reported but of the name and of the rules
    obtain ⟨x, hx, rfl⟩ | ⟨i, r, hi, x, hx, rfl⟩ := mem_hazards_iff.mp hz
    · exact Or.inl ⟨Hazard.ofName_of_mem_nameHazards hx, rfl⟩
    · exact Or.inr ⟨Hazard.ofName_of_mem_hazards hx, i, (List.getElem?_eq_some_iff.mp hi).1, rfl⟩
  · rw [hazardsOn_rule h, hazardsOn_rule h']

/-- A body that holds what reads as a rule on a line of its own. -/
def lineInBody : Rule :=
  ⟨['S'], ['a', '\n', 'S', '-', '>', 'b']⟩

/-- Such a rule, before a clean one. -/
def lineInBodyFirst : Grammar :=
  ofRules ['G'] [lineInBody, ⟨['A'], ['a']⟩] (by decide)

/-- The body alone is to blame, and neither the name nor the rule after it. -/
theorem culprits_blamed_lineInBody :
    nameHazards ['H'] = [] ∧ lineInBodyFirst.hazardsOn 3 = [.newlineInRule .body] ∧
      lineInBodyFirst.hazardsOn 4 = [] ∧
      ¬ ((lineInBody.alone (by decide)).rename ['H']).ComesBack ∧
      (((⟨['A'], ['a']⟩ : Rule).alone (by decide)).rename ['H']).ComesBack ∧
      ¬ lineInBodyFirst.ComesBack := by
  have hclean : nameHazards ['H'] = [] := by decide
  have hfirst : lineInBodyFirst.rules[0]? = some lineInBody := rfl
  have hblamed : lineInBodyFirst.hazardsOn 3 = [.newlineInRule .body] := by decide
  have hspared : lineInBodyFirst.hazardsOn 4 = [] := by decide
  obtain ⟨hrule, hall⟩ := (culprits_blamed lineInBodyFirst).2.1 ['H'] hclean
  have hculprit := (hrule 0 _ hfirst).mp fun hnil => by cases hblamed.symm.trans hnil
  refine ⟨hclean, hblamed, hspared, hculprit, ?_, fun h => ?_⟩
  · exact not_not.mp (mt (hrule 1 _ rfl).mpr (not_not_intro hspared))
  · exact hculprit ((hall.mp h).2 _ (List.mem_of_getElem? hfirst))

end Grammar

end PhraseGrammar
