/-
PhraseGrammar/Proofs/CanonicalFiles.lean

What the program leaves in its own directory.

A session that starts in an empty directory fills it with files of one kind:
each is written of a grammar without hazards, and every rule in it was typed in
some command that succeeded.  So a property that all typed rules have holds of
all stored rules, at every step of a session of any length (`wellKept_session`).
The invariant needs no name to be plain: a path may lead anywhere, but what is
put in the directory is put there under a name that can be used as a path.

Typed bodies are never a spelling of the empty body, so neither are stored
ones.  This is what makes the `λ` of a listing unambiguous, and with it every
file in the directory is its own canonical form, can be edited and can be
shown (`files_are_canonical`).
-/
import PhraseGrammar.Proofs.Accepted
import PhraseGrammar.Proofs.Canonical
import PhraseGrammar.Proofs.Entries
import PhraseGrammar.Proofs.ListingLines
import PhraseGrammar.Proofs.Refinement

namespace PhraseGrammar

/-- The rule that a command asks to store. -/
def Command.rule? (c : Command) : Option Rule :=
  c.edit?.bind fun p => p.2.rule?

/-- What the program leaves under a name: a file that is written of a grammar
without hazards, all of whose rules have a property. -/
inductive Made (Q : Rule → Prop) (name : Text) : Node → Prop
  | file {g : Grammar} :
      IsUsableName name → g.Encodable → (∀ r ∈ g.rules, Q r) → Made Q name (.file g.encodeBytes)

/-- Every entry of the working directory was left there by the program, and
none is listed twice. -/
structure FileTree.WellKept (Q : Rule → Prop) (t : FileTree) : Prop where
  once : t.NamedOnce
  made : ∀ name n, t.node? (FileLocation.working.child name) = some n → Made Q name n

/-- The rules that a command line can store have a property. -/
def Line.Brings (Q : Rule → Prop) (l : Line) : Prop :=
  ∀ i, readCommandLine l.headSetting l.words = .ok i →
    ∀ t r, (i.command.run i.strict t).1.exitStatus = 0 → i.command.rule? = some r → Q r

/-! ### The rules that are stored -/

/-- Every rule that is saved is the one that was typed, or was in the file. -/
theorem Saves.mem_rules {t : FileTree} {c : Command} {s : Saving} (h : Saves t c s) {r : Rule}
    (hr : r ∈ s.grammar.rules) :
    c.rule? = some r ∨ ∃ g, t.stored? s.file = some g ∧ r ∈ g.rules := by
  cases h with
  | new file name force => cases hr
  | @edit _ file e bytes g g' hc hread hg hg' =>
    obtain hr | hr := Edit.mem_rules_apply hg' hr
    · exact Or.inr ⟨g, stored?_eq_some_iff.mpr ⟨bytes, hread, hg⟩, hr⟩
    · left
      rw [Command.rule?, hc]
      exact hr

section Invariant

variable {Q : Rule → Prop} {t t' : FileTree}

/-- A file that the program left is read as the grammar it was written of. -/
theorem Made.of_decodeBytes {name : Text} {bytes : Bytes} (h : Made Q name (.file bytes))
    {g : Grammar} (hg : decodeBytes bytes = .ok g) : ∀ r ∈ g.rules, Q r := by
  cases h with
  | @file k _ hk hq =>
    rw [decodeBytes_encodeBytes hk] at hg
    have hrules : g.rules = k.rules := Except.ok.inj hg ▸ (Grammar.equiv_iff.mp k.ofRules_equiv).2
    rwa [hrules]

/-! ### One step -/

theorem FileTree.WellKept.put (h : t.WellKept Q) {directory : FileLocation} {name : Text}
    {bytes : Bytes} (hm : directory = .working → Made Q name (.file bytes)) :
    (t.put (directory.child name) bytes).WellKept Q where
  once := h.once.put _ bytes
  made f n hn := by
    by_cases hl : FileLocation.working.child f = directory.child name
    · obtain ⟨hd, rfl⟩ := child_eq_child_iff.mp hl
      rw [hl, node?_put_self t (names_child_ne_nil _ _)] at hn
      cases hn
      exact hm hd.symm
    · rw [node?_put_of_ne t hl] at hn
      exact h.made f n hn

/-- What is saved is well kept: its rules are the typed one and those that were
in the file, and a file of the directory had only rules with the property. -/
theorem Saves.wellKept {c : Command} {s : Saving} (hs : Saves t c s) (h : t.WellKept Q)
    (hc : ∀ r, c.rule? = some r → Q r) (he : s.grammar.Encodable)
    (hw : t.write s.write = .ok t') : t'.WellKept Q := by
  obtain ⟨directory, name, ht, -, -, rfl⟩ := FileTree.write_cases hw
  refine h.put fun hd => .file (FileTree.isUsableName_of_write hw ht) he fun r hr => ?_
  obtain hr | ⟨g, hg, hr⟩ := hs.mem_rules hr
  · exact hc r hr
  · obtain ⟨bytes, hread, hdecode⟩ := stored?_eq_some_iff.mp hg
    have hn := FileTree.node?_of_read ht hread
    rw [hd] at hn
    exact (h.made name _ hn).of_decodeBytes hdecode r hr

theorem Command.wellKept_run {c : Command} {strict : Bool} (h : t.WellKept Q)
    (hc : (c.run strict t).1.exitStatus = 0 → ∀ r, c.rule? = some r → Q r) :
    (c.run strict t).2.WellKept Q := by
  obtain ⟨events, why, hr⟩ | ⟨-, hr⟩ | ⟨s, t', hs, he, hw, hr⟩ := c.run_cases strict t
  · rw [hr]
    exact h
  · rw [hr]
    exact h
  · rw [hr] at hc ⊢
    exact hs.wellKept h (hc rfl) he hw

theorem Line.wellKept_run {l : Line} (hl : l.Brings Q) (h : t.WellKept Q) :
    (l.run t).2.WellKept Q := by
  unfold Line.run
  cases hread : readCommandLine l.headSetting l.words with
  | error why => exact h
  | ok i => exact Command.wellKept_run h fun h0 r hr => hl i hread t r h0 hr

/-! ### Sessions -/

/-- **A directory stays well kept.**  After every step of a session of any
length whose command lines only bring rules with a property, the stored rules
have it. -/
theorem wellKept_session {ls : List Line} (hls : ∀ l ∈ ls, l.Brings Q) (h : t.WellKept Q)
    {outcome : Outcome} (hstep : (outcome, t') ∈ runSession t ls) : t'.WellKept Q := by
  induction ls generalizing t with
  | nil => cases hstep
  | cons l ls ih =>
    have hrun := Line.wellKept_run (hls l List.mem_cons_self) h
    obtain hhere | hlater := List.mem_cons.mp hstep
    · rwa [← hhere] at hrun
    · exact ih (fun k hk => hls k (List.mem_cons_of_mem l hk)) hrun hlater

/-- Nothing is badly kept where nothing is. -/
theorem FileTree.wellKept_of_entries_eq_nil (h : t.entries = []) : t.WellKept Q where
  once := by
    rw [NamedOnce, h]
    exact List.nodup_nil
  made name n hn := by
    have hmem := mem_entries_of_node? hn
    rw [h] at hmem
    cases hmem

end Invariant

/-! ### Bodies -/

/-- No way to type an empty body is ever stored. -/
theorem typedBody_not_mem (body : Text) : typedBody body ∉ lambdaSpellings := by
  rw [typedBody]
  split
  · decide
  · next h => exact h

theorem Command.body_not_mem_of_rule? {c : Command} {r : Rule} (h : c.rule? = some r) :
    r.body ∉ lambdaSpellings := by
  cases c with
  | new | remove | list | classify => cases h
  | add | edit =>
    cases h
    exact typedBody_not_mem _

/-! ### The files of a session -/

/-- A file of a tree that is written of a grammar.  `canonical`: reading it and
writing it again gives its own bytes.  `editable`: what a user asks of it is done
if it makes sense.  `lambda`: what is shown as the body of a rule is `λ` alone
exactly when the body is empty. -/
structure FileTree.KeepsGrammar (t : FileTree) (name : Text) (bytes : Bytes) (g : Grammar) :
    Prop where
  encoded : bytes = g.encodeBytes
  encodable : g.Encodable
  headed : ∀ r ∈ g.rules, r.head ≠ []
  unspelled : ∀ r ∈ g.rules, r.body ≠ ['λ'] ∧ r.body ≠ ['ε']
  decoded : decodeBytes bytes = .ok g
  canonical : canonical bytes = .ok bytes
  editable : ∀ (strict : Bool) (c : Command), c.Sound strict name g.size → (c.run strict t).1.exitStatus = 0
  shown : t.Shows name (g.listing ++ "\n")
  lambda : ∀ i r, g.rules[i]? = some r →
    ((lines (g.listing ++ "\n").toList)[i + 2]? =
      some (s!"{i + 1}. " ++ String.ofList r.head ++ " → λ").toList ↔ r.body = [])

/-- What the program left under a name is such a file. -/
theorem FileTree.keepsGrammar_of_made {t : FileTree} {name : Text} {n : Node}
    (h : Made (·.body ∉ lambdaSpellings) name n)
    (hn : t.node? (FileLocation.working.child name) = some n) :
    ∃ bytes g, n = .file bytes ∧ t.KeepsGrammar name bytes g := by
  cases h with
  | @file k hname hk hq =>
    obtain ⟨g, hg⟩ : ∃ g, decodeBytes k.encodeBytes = .ok g := ⟨_, decodeBytes_encodeBytes hk⟩
    have hbytes : k.encodeBytes = g.encodeBytes := (encodeBytes_of_decodeBytes hk hg).symm
    have hgk := encodable_of_decodeBytes hg
    have hbodies : ∀ r ∈ g.rules, r.body ∉ lambdaSpellings :=
      (Made.file hname hk hq).of_decodeBytes hg
    have hread := read_of_isUsableName hname hn
    have hstored := stored?_eq_some_iff.mpr ⟨_, hread, hg⟩
    refine ⟨k.encodeBytes, g, rfl, {
      encoded := hbytes
      encodable := hgk
      headed := g.headed
      unspelled := fun r hr => by simpa [lambdaSpellings] using hbodies r hr
      decoded := hg
      canonical := canonical_encodeBytes hk
      editable := fun strict c hc => ?_
      shown := ?_
      lambda := fun i r hr => ?_ }⟩
    · exact Command.run_of_sound hstored
        (fun bytes => ⟨_, overwrite_of_isUsableName hname hn bytes⟩) hc
    · exact FileTree.Holds.shows ⟨hbytes ▸ hread, g, hstored, Setoid.refl g⟩
    · have hbody : r.body ≠ lambdaSign := by
        rintro hbody
        exact hbodies r (List.mem_of_getElem? hr) (hbody ▸ List.mem_cons_self)
      rw [Grammar.line_eq_lambda_iff hgk hr]
      exact or_iff_left hbody

/-- **The files of a directory that was empty are canonical, and stay so.**
After every step of a session of any length, with any words and settings, that
started in an empty directory, each entry of the directory is a file, and its
bytes are those of a grammar without hazards in which no body is a spelling of
the empty one. -/
theorem files_are_canonical {t : FileTree} (hempty : t.entries = []) {ls : List Line}
    {outcome : Outcome} {t' : FileTree} (hstep : (outcome, t') ∈ runSession t ls)
    {name : Text} {n : Node} (hn : (name, n) ∈ t'.entries) :
    ∃ bytes g, n = .file bytes ∧ t'.KeepsGrammar name bytes g := by
  have hkept : t'.WellKept (·.body ∉ lambdaSpellings) :=
    wellKept_session (fun l _ i _ _ r _ hr => Command.body_not_mem_of_rule? hr)
      (FileTree.wellKept_of_entries_eq_nil hempty) hstep
  have hnode := FileTree.node?_of_mem_entries hkept.once hn
  exact FileTree.keepsGrammar_of_made (hkept.made name n hnode) hnode

/-- A grammar is made and a rule is typed with the body `λ`: what is in the file
is an empty body. -/
theorem files_are_canonical_typed_lambda :
    ∃ outcome t' g,
      (outcome, t') ∈ runSession (.ofEntries [])
        [⟨["new".toList, ['g'], ['G']], none, none⟩,
          ⟨["add".toList, ['g'], ['S'], ['λ']], none, none⟩] ∧
      (['g'], .file (Utf8.encode "G\n\nS -> ".toList)) ∈ t'.entries ∧
      t'.KeepsGrammar ['g'] (Utf8.encode "G\n\nS -> ".toList) g := by
  have hnew := Line.run_of_toOption (l := ⟨["new".toList, ['g'], ['G']], none, none⟩)
    (i := ⟨false, 0, .new ['g'] ['G'] false⟩) (by decide +kernel) (.ofEntries [])
  have hadd := Line.run_of_toOption (l := ⟨["add".toList, ['g'], ['S'], ['λ']], none, none⟩)
    (i := ⟨false, 0, .add ['g'] ['S'] ['λ']⟩) (by decide +kernel)
    ((Command.new ['g'] ['G'] false).run false (.ofEntries [])).2
  have hname : IsUsableName ['g'] :=
    ⟨⟨by decide, by decide, by decide, by decide⟩, by decide, by decide⟩
  have hread : (((Command.add ['g'] ['S'] ['λ']).run false
      ((Command.new ['g'] ['G'] false).run false (.ofEntries [])).2).2.read ['g']).toOption =
        some (Utf8.encode "G\n\nS -> ".toList) := by
    decide +kernel
  have hentry := FileTree.mem_entries_of_read hname hread
  have hstep := List.mem_of_getElem? (i := 1) (l := runSession (.ofEntries [])
    [⟨["new".toList, ['g'], ['G']], none, none⟩,
      ⟨["add".toList, ['g'], ['S'], ['λ']], none, none⟩])
    (by rw [runSession, hnew, runSession, hadd]; rfl)
  obtain ⟨bytes, g, hbytes, hg⟩ := files_are_canonical rfl hstep hentry
  cases hbytes
  exact ⟨_, _, g, hstep, hentry, hg⟩

end PhraseGrammar
