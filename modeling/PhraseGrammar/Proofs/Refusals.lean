/-
PhraseGrammar/Proofs/Refusals.lean

What an edit of a stored grammar can be refused for.

A grammar that was read has no hazard in it, and an edit puts at most one rule
somewhere (`Edit.place?`), so afterwards that rule alone can have any
(`Edit.cleanBut_apply`).  What comes of an edit is then one of three things
(`Command.run_stored`):

* the words are refused before the file is looked at,
* the edit is refused for its position or its empty head,
* the edit is done, and it is saved unless there are hazards.

Main result: an edit succeeds if and only if what was typed is sound, and
hazards that are reported are those of the typed rule, on the line on which it
would begin (`refused_for_what_is_typed`).  No hypothesis says that the file can
be written: permissions are left out of the tree, as are links and paths that
come back into the working directory by its own name (`Files.lean`), and what
can be read can be written over (`FileTree.exists_overwrite`).
-/
import PhraseGrammar.Proofs.Accepted
import PhraseGrammar.Proofs.HazardLines

namespace PhraseGrammar

/-! ### Where an edit puts its rule -/

namespace Grammar

variable {g g' : Grammar} {i : Nat} {r : Rule}

theorem getElem?_rules_add (h : g.add r = .ok g') (j : Nat) :
    g'.rules[j]? = if j = g.size then some r else g.rules[j]? := by
  have hrules : g'.rules = g.rules ++ [r] := by
    rw [add] at h
    split at h
    · cases h
    · cases h
      exact Register.values_push _ _
  rw [hrules, size_eq_length_rules]
  rcases lt_trichotomy j g.rules.length with hlt | rfl | hgt
  · rw [if_neg hlt.ne, List.getElem?_append_left hlt]
  · rw [if_pos rfl, List.getElem?_concat_length]
  · have hlen : (g.rules ++ [r]).length ≤ j := by
      rw [List.length_append, List.length_singleton]
      exact hgt
    rw [if_neg hgt.ne', List.getElem?_eq_none hlen, List.getElem?_eq_none hgt.le]

theorem getElem?_rules_replaceAt (h : g.replaceAt i r = .ok g') (j : Nat) :
    g'.rules[j]? = if j = i then some r else g.rules[j]? := by
  obtain ⟨-, key, hkey, hreg⟩ := replaceAt_cases h
  have hrules : g'.rules = g.rules.set i r := by
    rw [rules, hreg, Register.values_replaceAt]
    rfl
  have hlt : i < g.rules.length := g.size_eq_length_rules ▸ lt_size_of_keys hkey
  rw [hrules]
  rcases eq_or_ne j i with rfl | hj
  · rw [if_pos rfl, List.getElem?_set_self hlt]
  · rw [if_neg hj, List.getElem?_set_ne hj.symm]

end Grammar

namespace Edit

variable {e : Edit} {g g' : Grammar} {i : Nat} {r : Rule}

/-- The position at which an edit puts a rule, and the rule. -/
def place? (g : Grammar) : Edit → Option (Nat × Rule)
  | .add rule => some (g.size, rule)
  | .replaceAt index rule => some (index, rule)
  | .replace key rule => (g.position? key).map (·, rule)
  | .rename _ | .removeAt _ | .remove _ => none

/-- An edit that succeeds puts its rule somewhere. -/
theorem exists_place? (hr : e.rule? = some r) (h : e.apply g = .ok g') :
    ∃ i, e.place? g = some (i, r) := by
  cases e with
  | rename | removeAt | remove => cases hr
  | add | replaceAt =>
    cases hr
    exact ⟨_, rfl⟩
  | replace key rule =>
    cases hr
    obtain ⟨i, hi, -⟩ := Grammar.cases_of_locate_bind (f := (g.replaceAt · r)) h
    exact ⟨i, by rw [place?, Grammar.position?, Register.position?_eq_some_iff.mpr hi]; rfl⟩

/-- A rule that is put at a position is there, and all others are where they
were. -/
theorem getElem?_rules_apply (hp : e.place? g = some (i, r)) (h : e.apply g = .ok g') (j : Nat) :
    g'.rules[j]? = if j = i then some r else g.rules[j]? := by
  cases e with
  | rename | removeAt | remove => cases hp
  | add rule =>
    cases hp
    exact Grammar.getElem?_rules_add h j
  | replaceAt index rule =>
    cases hp
    exact Grammar.getElem?_rules_replaceAt h j
  | replace key rule =>
    obtain ⟨k, hk, hkr⟩ := Option.map_eq_some_iff.mp hp
    cases hkr
    -- what is put under a key is put at the position of the key
    obtain ⟨i', hi', hrep⟩ := Grammar.cases_of_locate_bind (f := (g.replaceAt · r)) h
    obtain rfl : i' = i := by
      rw [Grammar.position?, Register.position?_eq_some_iff.mpr hi'] at hk
      exact Option.some.inj hk
    exact Grammar.getElem?_rules_replaceAt hrep j

/-- After an edit that puts a rule somewhere, that rule alone can have
hazards. -/
theorem cleanBut_apply (hg : g.Encodable) (hp : e.place? g = some (i, r))
    (h : e.apply g = .ok g') : g'.rules[i]? = some r ∧ g'.CleanBut i := by
  obtain ⟨hname, hrules⟩ := Grammar.encodable_iff.mp hg
  have hget := getElem?_rules_apply hp h
  refine ⟨by rw [hget, if_pos rfl], ?_, ?_⟩
  · rw [name_apply h]
    cases e with
    | rename => cases hp
    | add | removeAt | replaceAt | remove | replace => exact hname
  · intro j s hj hs
    rw [hget, if_neg hj] at hs
    exact hrules s (List.mem_of_getElem? hs)

/-- The rule of an edit that succeeds is in the grammar. -/
theorem mem_rules_of_rule? (hr : e.rule? = some r) (h : e.apply g = .ok g') : r ∈ g'.rules := by
  obtain ⟨i, hp⟩ := exists_place? hr h
  refine List.mem_of_getElem? (i := i) ?_
  rw [getElem?_rules_apply hp h, if_pos rfl]

end Edit

/-! ### What comes of an edit -/

section Run

variable {strict : Bool} {t : FileTree} {file : Text} {g : Grammar} {c : Command} {e : Edit}

/-- What can come of editing a stored grammar. -/
theorem Command.run_stored (hg : t.stored? file = some g) (he : c.edit? = some (file, e))
    (strict : Bool) :
    (¬ c.Admitted strict ∧ ∃ why, (c.run strict t).1.failures = [.input why]) ∨
    (c.Admitted strict ∧ ∃ why, e.apply g = .error why ∧
      (c.run strict t).1.failures = [.edit why]) ∨
    c.Admitted strict ∧ ∃ g', e.apply g = .ok g' ∧
      (c.run strict t).1.failures =
        if g'.Encodable then [] else [.unencodable (g'.hazards.map (·.inFile file))] := by
  obtain ⟨bytes, hread, hdecode⟩ := stored?_eq_some_iff.mp hg
  have hgrammar : Reader.grammar t.read file =
      ([.fileRead file bytes.length, .decoded g.name g.size], .ok g) := by
    simp only [Reader.grammar, hread, hdecode]
  obtain ⟨hno, why, hplan⟩ | ⟨hyes, hplan⟩ := Command.plan_of_words he strict t.read
  · exact Or.inl ⟨hno, why, by rw [Command.run, hplan]; rfl⟩
  · rw [Command.run, hplan, Reader.edit, hgrammar]
    cases ha : e.apply g with
    | error why => exact Or.inr (Or.inl ⟨hyes, why, rfl, by simp only [ha]; rfl⟩)
    | ok g' =>
      refine Or.inr (Or.inr ⟨hyes, g', rfl, ?_⟩)
      simp only [ha, Grammar.saveTo]
      split
      · -- the file is there, so it can be written
        obtain ⟨t', ht'⟩ := FileTree.exists_overwrite hread g'.encodeBytes
        have hwrite : t.write ⟨file, g'.encodeBytes, .replace⟩ = .ok t' := ht'
        simp only [Plan.run, Plan.report, hwrite]
      · rfl

/-- What succeeds was sound. -/
theorem Command.sound_of_run (hg : t.stored? file = some g) (he : c.edit? = some (file, e))
    (h : (c.run strict t).1.exitStatus = 0) : c.Sound strict file g.size := by
  have hfail : (c.run strict t).1.failures = [] := by
    rw [Report.exitStatus] at h
    split at h
    · next hnil => exact List.isEmpty_iff.mp hnil
    · cases h
  obtain ⟨-, why, hw⟩ | ⟨-, why, -, hw⟩ | ⟨hyes, g', ha, hw⟩ := Command.run_stored hg he strict
  · rw [hw] at hfail
    cases hfail
  · rw [hw] at hfail
    cases hfail
  · have hg' : g'.Encodable := by
      by_contra hno
      rw [hw, if_neg hno] at hfail
      cases hfail
    -- heads in a grammar are not empty, and its rules have no hazards
    have hrule : ∀ r, e.rule? = some r → r.head ≠ [] ∧ r.hazards = [] := by
      intro r hr
      have hmem := Edit.mem_rules_of_rule? hr ha
      exact ⟨g'.headed r hmem, (Grammar.encodable_iff.mp hg').2 r hmem⟩
    cases c with
    | new | list | classify => cases he
    | add file' head body =>
      cases he
      obtain ⟨hhead, hclean⟩ := hrule _ rfl
      exact .add ⟨hyes, hhead, hclean⟩
    | edit file' position head body =>
      cases he
      obtain ⟨hhead, hclean⟩ := hrule _ rfl
      obtain ⟨-, key, hkey, -⟩ := Grammar.replaceAt_cases ha
      have hlt := Grammar.lt_size_of_keys hkey
      exact .edit hyes.1 (by omega) ⟨hyes.2, hhead, hclean⟩
    | remove file' position =>
      cases he
      obtain ⟨-, key, hkey, -⟩ := Grammar.removeAt_cases ha
      have hlt := Grammar.lt_size_of_keys hkey
      exact .remove hyes (by omega)

/-- Editing a stored grammar succeeds exactly if what was typed is sound. -/
theorem Command.exitStatus_eq_zero_iff (hg : t.stored? file = some g)
    (he : c.edit? = some (file, e)) :
    (c.run strict t).1.exitStatus = 0 ↔ c.Sound strict file g.size := by
  obtain ⟨bytes, hread, -⟩ := stored?_eq_some_iff.mp hg
  exact ⟨Command.sound_of_run hg he, Command.run_of_sound hg (FileTree.exists_overwrite hread)⟩

/-! ### Hazards that are reported -/

/-- Where an edit is refused for hazards, the words were admitted and the
hazards are those of the grammar after the edit. -/
theorem Command.unencodable_cases (hg : t.stored? file = some g) (he : c.edit? = some (file, e))
    {hazards : List (Located Hazard)} (h : .unencodable hazards ∈ (c.run strict t).1.failures) :
    c.Admitted strict ∧ ∃ g', e.apply g = .ok g' ∧ ¬ g'.Encodable ∧
      hazards = g'.hazards.map (·.inFile file) := by
  obtain ⟨-, why, hw⟩ | ⟨-, why, -, hw⟩ | ⟨hyes, g', ha, hw⟩ := Command.run_stored hg he strict
  · rw [hw, List.mem_singleton] at h
    cases h
  · rw [hw, List.mem_singleton] at h
    cases h
  · rw [hw] at h
    split at h
    · cases h
    · next hno =>
      cases List.mem_singleton.mp h
      exact ⟨hyes, g', ha, hno, rfl⟩

/-- Hazards in a file are those of one rule of a grammar, each on the line on
which the rule begins in the text. -/
structure Blames (file : Text) (g : Grammar) (i : Nat) (r : Rule) (line : Nat)
    (hazards : List (Located Hazard)) : Prop where
  rule : g.rules[i]? = some r
  text : g.encode = g.textBefore i ++ r.render ++ g.textAfter i
  begins : g.lineOf i = line
  hazards : hazards = r.hazards.map fun hazard => ⟨⟨some file, line⟩, hazard⟩

/-- What is reported of an edit that puts a rule somewhere is about that rule. -/
theorem Command.blames_of_unencodable (hg : t.stored? file = some g)
    (he : c.edit? = some (file, e)) {i : Nat} {r : Rule} (hp : e.place? g = some (i, r))
    {hazards : List (Located Hazard)} (h : .unencodable hazards ∈ (c.run strict t).1.failures) :
    ∃ g', e.apply g = .ok g' ∧ Blames file g' i r (firstRuleLine + i) hazards := by
  obtain ⟨bytes, -, hdecode⟩ := stored?_eq_some_iff.mp hg
  obtain ⟨-, g', ha, -, rfl⟩ := Command.unencodable_cases hg he h
  obtain ⟨hrule, hclean⟩ := Edit.cleanBut_apply (encodable_of_decodeBytes hdecode) hp ha
  have hi : i < g'.rules.length := (List.getElem?_eq_some_iff.mp hrule).1
  refine ⟨g', ha, hrule, Grammar.encode_eq_at hrule, hclean.lineOf_eq hi.le, ?_⟩
  rw [hclean.hazards_eq hi, Grammar.reportFor_eq hrule, List.map_map]
  rfl

/-- An edit that brings in no hazards is not refused for any. -/
theorem Command.not_unencodable (hg : t.stored? file = some g) (he : c.edit? = some (file, e))
    (hclean : e.hazards = []) (strict : Bool) (hazards : List (Located Hazard)) :
    .unencodable hazards ∉ (c.run strict t).1.failures := by
  intro h
  obtain ⟨bytes, -, hdecode⟩ := stored?_eq_some_iff.mp hg
  obtain ⟨-, g', ha, hno, -⟩ := Command.unencodable_cases hg he h
  exact hno (Edit.encodable_apply (encodable_of_decodeBytes hdecode) hclean ha)

/-- Edits of the grammar in a file are refused for what was typed.  `add`, `edit`
and `remove` say when they succeed; the rest say what hazards are reported. -/
structure RefusesTyped (strict : Bool) (t : FileTree) (file : Text) (g : Grammar) : Prop where
  add : ∀ head body, ((Command.add file head body).run strict t).1.exitStatus = 0 ↔
    IsSoundRule strict head body
  edit : ∀ position head body,
    ((Command.edit file position head body).run strict t).1.exitStatus = 0 ↔
      1 ≤ position ∧ position ≤ g.size ∧ IsSoundRule strict head body
  remove : ∀ position, ((Command.remove file position).run strict t).1.exitStatus = 0 ↔
    1 ≤ position ∧ position ≤ g.size
  removeHazards : ∀ position hazards,
    .unencodable hazards ∉ ((Command.remove file position).run strict t).1.failures
  addHazards : ∀ head body hazards,
    .unencodable hazards ∈ ((Command.add file head body).run strict t).1.failures →
      ∃ g', g.add ⟨head, typedBody body⟩ = .ok g' ∧
        Blames file g' g.size ⟨head, typedBody body⟩ (g.size + 3) hazards
  editHazards : ∀ position head body hazards,
    .unencodable hazards ∈ ((Command.edit file position head body).run strict t).1.failures →
      ∃ g', g.replaceAt (position - 1) ⟨head, typedBody body⟩ = .ok g' ∧
        Blames file g' (position - 1) ⟨head, typedBody body⟩ (position + 2) hazards

/-- **An edit is refused only for what was typed.**  Whatever is in a file that
can be read as a grammar, neither its name nor its rules keep it from being
edited, and no hazard that is reported is about them. -/
theorem refused_for_what_is_typed (strict : Bool) (hg : t.stored? file = some g) :
    RefusesTyped strict t file g where
  add head body := by
    rw [Command.exitStatus_eq_zero_iff hg rfl]
    exact ⟨fun h => (by cases h with | add hr => exact hr), .add⟩
  edit position head body := by
    rw [Command.exitStatus_eq_zero_iff hg rfl]
    exact ⟨fun h => (by cases h with | edit hpos hsize hr => exact ⟨hpos, hsize, hr⟩),
      fun ⟨hpos, hsize, hr⟩ => .edit hpos hsize hr⟩
  remove position := by
    rw [Command.exitStatus_eq_zero_iff hg rfl]
    exact ⟨fun h => (by cases h with | remove hpos hsize => exact ⟨hpos, hsize⟩),
      fun ⟨hpos, hsize⟩ => .remove hpos hsize⟩
  removeHazards position := Command.not_unencodable hg rfl rfl strict
  addHazards head body hazards h := by
    rw [Nat.add_comm g.size]
    exact Command.blames_of_unencodable hg rfl rfl h
  editHazards position head body hazards h := by
    have hpos : 1 ≤ position := (Command.unencodable_cases hg rfl h).1.1
    have hline : position + 2 = firstRuleLine + (position - 1) := by
      rw [firstRuleLine]
      omega
    rw [hline]
    exact Command.blames_of_unencodable hg rfl rfl h

/-- A rule with a padded body is typed for a file in which there is one rule: it
is reported on line 4, where it would stand. -/
theorem refused_for_padded_body :
    ∃ (t : FileTree) (g : Grammar), t.read ['g'] = .ok (Utf8.encode "G\n\nS -> a".toList) ∧
      t.stored? ['g'] = some g ∧
      ((Command.add ['g'] ['B'] ['b', ' ']).run false t).1.message =
        "\x1b[31;49;1m[g:4]\x1b[39;49;1m  Rule body starts or ends with whitespace\x1b[0m" ∧
      RefusesTyped false t ['g'] g := by
  have hread : (FileTree.ofEntries [(['g'], .file (Utf8.encode "G\n\nS -> a".toList))]).read ['g'] =
      .ok (Utf8.encode "G\n\nS -> a".toList) := rfl
  have hstored := stored?_eq_some_iff.mpr ⟨_, hread, decodeBytes_encodeBytes
    (g := .ofRules ['G'] [⟨['S'], ['a']⟩] (by decide)) (by decide +kernel)⟩
  exact ⟨_, _, hread, hstored, by decide +kernel, refused_for_what_is_typed false hstored⟩

end Run

end PhraseGrammar
