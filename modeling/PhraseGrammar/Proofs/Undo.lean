/-
PhraseGrammar/Proofs/Undo.lean

Edits that are taken back by edits.

On grammars this is a fact about lists: a rule that was added is the last one, and
one that was replaced can be put in its place again,

    (rules ++ [r]).eraseIdx rules.length  =  rules
    (rules.set i r).set i old             =  rules     if  rules[i]? = some old
    (rules.set i r).set i r               =  rules.set i r

For files, two more things are needed.  The second command has to be accepted.  It
is, because old rules have heads and no hazards, and what is sound succeeds
(`Command.run_of_sound`).  And writing twice comes to writing once
(`FileTree.overwrite_trans`), so that two edits leave what one write of the last
grammar leaves, which is nothing new if the bytes were in the file before
(`FileTree.overwrite_of_read`).  Both are put together in `Command.leads_next`.

Main result: `undoable`.  It speaks of the whole tree, and so of the exact bytes of
the file and of all others.
-/
import Mathlib.Logic.Function.Iterate
import PhraseGrammar.Proofs.Refusals
import PhraseGrammar.Proofs.Sameness

namespace PhraseGrammar

namespace FileTree

/-! ### Writing twice -/

theorem putNode_putNode (l : FileLocation) (n n' : Node) (es : List (FileLocation × Node)) :
    putNode l n' (putNode l n es) = putNode l n' es := by
  induction es with
  | nil => simp [putNode]
  | cons e es ih =>
    by_cases h : e.1 = l
    · simp [putNode, h]
    · simp [putNode, h, ih]

/-- What is put where it was already changes nothing. -/
theorem putNode_of_find? {l : FileLocation} {n : Node} {es : List (FileLocation × Node)}
    (h : (es.find? (·.1 = l)).map (·.2) = some n) : putNode l n es = es := by
  induction es with
  | nil => cases h
  | cons e es ih =>
    by_cases he : e.1 = l
    · rw [List.find?_cons_of_pos (by simpa using he)] at h
      obtain rfl : e.2 = n := Option.some.inj h
      rw [putNode, if_pos he, ← he]
    · rw [List.find?_cons_of_neg (by simpa using he)] at h
      rw [putNode, if_neg he, ih h]

theorem put_put (t : FileTree) (l : FileLocation) (bytes bytes' : Bytes) :
    (t.put l bytes).put l bytes' = t.put l bytes' :=
  congrArg FileTree.mk (putNode_putNode l _ _ t.nodes)

variable {t t₁ t₂ : FileTree} {file : Text} {bytes bytes' : Bytes}

/-- Writing the bytes that are in a file leaves the tree as it is. -/
theorem overwrite_of_read (hread : t.read file = .ok bytes)
    (hwrite : t.overwrite file bytes = .ok t₁) : t₁ = t := by
  obtain ⟨directory, name, ht, -, hx⟩ := read_cases hread
  obtain ⟨directory', name', ht', -, -, rfl⟩ := overwrite_cases hwrite
  rw [ht] at ht'
  cases ht'
  rw [node?, if_neg (names_child_ne_nil directory name)] at hx
  exact congrArg FileTree.mk (putNode_of_find? hx)

/-- Of two writes to a file the second alone is left. -/
theorem overwrite_trans (h₁ : t.overwrite file bytes = .ok t₁)
    (h₂ : t₁.overwrite file bytes' = .ok t₂) : t.overwrite file bytes' = .ok t₂ := by
  obtain ⟨directory, name, ht, hn, hx, rfl⟩ := overwrite_cases h₁
  obtain ⟨directory', name', ht', -, -, rfl⟩ := overwrite_cases h₂
  rw [target_put hx ht] at ht'
  cases ht'
  rw [put_put, overwrite, ht]
  simp only [bind, Except.bind, hn]
  cases hnode : t.node? (directory.child name) with
  | none => rfl
  | some n =>
    cases n with
    | file old => rfl
    | directory => exact absurd hnode hx

end FileTree

/-! ### One edit after another -/

/-- A command succeeds on a tree, prints an output and leaves another tree. -/
structure Command.Leads (c : Command) (strict : Bool) (t : FileTree) (output : String)
    (t' : FileTree) : Prop where
  exits : (c.run strict t).1.exitStatus = 0
  prints : (c.run strict t).1.output = output
  leaves : (c.run strict t).2 = t'

/-- The tree after a command was run a number of times. -/
def Command.repeated (c : Command) (strict : Bool) (times : Nat) (t : FileTree) : FileTree :=
  (fun u => (c.run strict u).2)^[times] t

/-- What leads from a tree to itself does so any number of times. -/
theorem Command.Leads.repeated_eq {c : Command} {strict : Bool} {t t₁ : FileTree} {output : String}
    (h : c.Leads strict t output t₁) (hfixed : c.Leads strict t₁ output t₁) (times : Nat) :
    c.repeated strict (times + 1) t = t₁ := by
  rw [repeated, Function.iterate_succ_apply, h.leaves]
  exact Function.iterate_fixed hfixed.leaves times

section Edits

variable {strict : Bool} {t t₁ : FileTree} {file : Text} {g g₁ k : Grammar} {c : Command} {e : Edit}

/-- An edit that succeeds writes the edited grammar over the file and prints its
listing. -/
theorem Command.exists_leads (hg : t.stored? file = some g) (he : c.edit? = some (file, e))
    (hexit : (c.run strict t).1.exitStatus = 0) :
    ∃ g₁ t₁, e.apply g = .ok g₁ ∧ g₁.Encodable ∧ t.overwrite file g₁.encodeBytes = .ok t₁ ∧
      c.Leads strict t (g₁.listing ++ "\n") t₁ := by
  obtain ⟨events, why, hr⟩ | ⟨hlooks, -⟩ | ⟨s, t₁, hs, hclean, hwrite, hr⟩ := c.run_cases strict t
  · rw [hr] at hexit
    cases hexit
  · cases hlooks <;> cases he
  · cases hs with
    | new => cases he
    | @edit _ file' e' bytes g' g₁ he' hread hdecode happly =>
      obtain ⟨rfl, rfl⟩ := Prod.mk.inj (Option.some.inj (he'.symm.trans he))
      obtain rfl : g' = g :=
        Option.some.inj ((stored?_eq_some_iff.mpr ⟨bytes, hread, hdecode⟩).symm.trans hg)
      refine ⟨g₁, t₁, happly, hclean, hwrite, hexit, ?_, ?_⟩
      · rw [hr]
        simp [Report.output]
      · rw [hr]

/-- After an edit, another that is sound for the edited grammar succeeds, and both
leave what one write of the last grammar leaves. -/
theorem Command.leads_next (hwrite : t.overwrite file g₁.encodeBytes = .ok t₁)
    (hclean : g₁.Encodable) (he : c.edit? = some (file, e)) (hsound : c.Sound strict file g₁.size)
    (happly : e.apply g₁ = .ok k) :
    ∃ t₂, t.overwrite file k.encodeBytes = .ok t₂ ∧
      c.Leads strict t₁ (k.listing ++ "\n") t₂ := by
  obtain ⟨-, h, hstored, hsame⟩ :=
    FileTree.Holds.of_write (s := ⟨file, g₁, .replace, [], []⟩) hclean hwrite
  have hexit : (c.run strict t₁).1.exitStatus = 0 := by
    rw [Command.exitStatus_eq_zero_iff hstored he, Grammar.size_congr hsame]
    exact hsound
  obtain ⟨k', t₂, happly', -, hwrite', hleads⟩ := Command.exists_leads hstored he hexit
  -- what is in the file has other keys than the grammar that was written
  have hlooks : k'.LooksLike k := by
    obtain ⟨k'', hk'', hequiv⟩ :=
      Edit.apply_congr (Command.isPositional_of_edit? he) (Setoid.symm hsame) happly
    obtain rfl := Except.ok.inj (happly'.symm.trans hk'')
    exact Grammar.looksLike_of_equiv (Setoid.symm hequiv)
  rw [hlooks.encodeBytes] at hwrite'
  rw [hlooks.listing] at hleads
  exact ⟨t₂, FileTree.overwrite_trans hwrite hwrite', hleads⟩

/-- An edit after which a file with canonical bytes holds its grammar again leaves the
tree as it was before the file was written to. -/
theorem Command.Leads.back {t₂ : FileTree} (hread : t.read file = .ok g.encodeBytes)
    (hsame : k ≈ g) (hwrite : t.overwrite file k.encodeBytes = .ok t₂)
    (h : c.Leads strict t₁ (k.listing ++ "\n") t₂) :
    c.Leads strict t₁ (g.listing ++ "\n") t := by
  have hlooks := Grammar.looksLike_of_equiv hsame
  rw [hlooks.encodeBytes] at hwrite
  rw [hlooks.listing, FileTree.overwrite_of_read hread hwrite] at h
  exact h

end Edits

/-! ### Rules that are put back -/

namespace Grammar

variable {g g₁ : Grammar} {i : Nat} {r old : Rule}

/-- A rule that was added is the last one, and can be taken out again. -/
theorem removeAt_of_add (h : g.add r = .ok g₁) :
    g₁.size = g.size + 1 ∧ ∃ k, g₁.removeAt g.size = .ok k ∧ k ≈ g := by
  have hhead : r.head ≠ [] := by
    intro hnil
    rw [add_eq_error_iff.mpr ⟨hnil, rfl⟩] at h
    cases h
  obtain ⟨g', hg', hlists⟩ := g.exists_add_lists hhead
  obtain rfl := Except.ok.inj (hg'.symm.trans h)
  have hsize : g'.size = g.size + 1 := by
    rw [size_eq_length_rules, hlists.rules, List.length_append, size_eq_length_rules]
    rfl
  obtain ⟨k, hk, hback⟩ := exists_removeAt_lists (g := g') (i := g.size) (by omega)
  refine ⟨hsize, k, hk, equiv_iff.mpr ⟨hback.name.trans hlists.name, ?_⟩⟩
  rw [hback.rules, hlists.rules, size_eq_length_rules, List.eraseIdx_append_of_length_le le_rfl]
  simp

/-- A rule is only replaced where there is one. -/
theorem lists_of_replaceAt (h : g.replaceAt i r = .ok g₁) :
    i < g.size ∧ g₁.Lists g.name (g.rules.set i r) g.keys := by
  obtain ⟨-, key, hkey, -⟩ := replaceAt_cases h
  have hlt : i < g.size := lt_size_of_keys hkey
  have hhead : r.head ≠ [] := by
    intro hnil
    rw [replaceAt_eq_error_iff.mpr (.inr ⟨hlt, hnil, rfl⟩)] at h
    cases h
  obtain ⟨g', hg', hlists⟩ := exists_replaceAt_lists hlt hhead
  obtain rfl := Except.ok.inj (hg'.symm.trans h)
  exact ⟨hlt, hlists⟩

/-- A replaced rule can be replaced again, and then nothing is left of the first
replacement. -/
theorem replaceAt_of_replaceAt (h : g.replaceAt i r = .ok g₁) {r' : Rule} (hr' : r'.head ≠ []) :
    ∃ k, g₁.replaceAt i r' = .ok k ∧ k.Lists g.name (g.rules.set i r') g.keys := by
  obtain ⟨hlt, hlists⟩ := lists_of_replaceAt h
  have hlt₁ : i < g₁.size := by
    rwa [size_eq_length_rules, hlists.rules, List.length_set, ← size_eq_length_rules]
  obtain ⟨k, hk, hagain⟩ := exists_replaceAt_lists hlt₁ hr'
  refine ⟨k, hk, hagain.name.trans hlists.name, ?_, hagain.keys.trans hlists.keys⟩
  rw [hagain.rules, hlists.rules, List.set_set]

end Grammar

/-- A word that stands for a body when it is typed: the body itself, and any way to
type an empty one. -/
def Types (typed body : Text) : Prop :=
  typed = body ∨ body = [] ∧ typed ∈ lambdaSpellings

/-- A body that is not itself a way to type an empty one is what is meant by any
word that stands for it. -/
theorem typedBody_of_types {typed body : Text} (hbody : body ∉ lambdaSpellings)
    (h : Types typed body) : typedBody typed = body := by
  rw [typedBody]
  obtain rfl | ⟨rfl, hlambda⟩ := h
  · rw [if_neg hbody]
  · rw [if_pos hlambda]

/-! ### Canonical files -/

/-- What can be taken back in a file, and what can be done again.  `strict` is the
rule for heads that the commands are run under; it matters for an old rule alone,
which was stored without regard to it. -/
structure Undoable (strict : Bool) (t : FileTree) (file : Text) (g : Grammar) : Prop where
  add : ∀ head body t₁ shown, (Command.add file head body).Leads strict t shown t₁ →
    (Command.remove file (g.size + 1)).Leads strict t₁ (g.listing ++ "\n") t
  edit : ∀ position head body t₁ shown,
    (Command.edit file position head body).Leads strict t shown t₁ →
    ∃ old, g.rules[position - 1]? = some old ∧
      ∀ typed, Types typed old.body → old.body ∉ lambdaSpellings →
        (strict = true → isSingleLetter old.head = true) →
        (Command.edit file position old.head typed).Leads strict t₁ (g.listing ++ "\n") t
  again : ∀ position head body t₁ shown,
    (Command.edit file position head body).Leads strict t shown t₁ → ∀ times,
      (Command.edit file position head body).Leads strict
        ((Command.edit file position head body).repeated strict (times + 1) t) shown t₁

section Canonical

variable {strict : Bool} {t t₁ : FileTree} {file head body : Text} {position : Nat} {g : Grammar}
  {shown : String}

/-- A rule that was added is removed again. -/
theorem Command.leads_remove_of_add (hread : t.read file = .ok g.encodeBytes)
    (hg : t.stored? file = some g) (h : (Command.add file head body).Leads strict t shown t₁) :
    (Command.remove file (g.size + 1)).Leads strict t₁ (g.listing ++ "\n") t := by
  obtain ⟨g₁, t', happly, hclean, hwrite, hleads⟩ := Command.exists_leads hg rfl h.exits
  obtain rfl : t' = t₁ := hleads.leaves.symm.trans h.leaves
  obtain ⟨hsize, k, hk, hsame⟩ := Grammar.removeAt_of_add happly
  have hsound : (Command.remove file (g.size + 1)).Sound strict file g₁.size :=
    .remove (Nat.le_add_left 1 g.size) hsize.ge
  obtain ⟨t₂, hwrite₂, hback⟩ :=
    Command.leads_next (e := .removeAt g.size) hwrite hclean rfl hsound hk
  exact hback.back hread hsame hwrite₂

/-- After a rule was replaced, any rule that may be typed is put in its place, and
what is left is as if it had been put there at once. -/
theorem Command.leads_edit_of_edit {head' body' : Text} (hg : t.stored? file = some g)
    (h : (Command.edit file position head body).Leads strict t shown t₁)
    (hr : IsSoundRule strict head' body') :
    ∃ (k : Grammar) (t₂ : FileTree),
      k.Lists g.name (g.rules.set (position - 1) ⟨head', typedBody body'⟩) g.keys ∧
      t.overwrite file k.encodeBytes = .ok t₂ ∧
      (Command.edit file position head' body').Leads strict t₁ (k.listing ++ "\n") t₂ := by
  obtain ⟨g₁, t', happly, hclean, hwrite, hleads⟩ := Command.exists_leads hg rfl h.exits
  obtain rfl : t' = t₁ := hleads.leaves.symm.trans h.leaves
  let r : Rule := ⟨head', typedBody body'⟩
  obtain ⟨k, hk, hlists⟩ : ∃ k, g₁.replaceAt (position - 1) r = .ok k ∧
      k.Lists g.name (g.rules.set (position - 1) r) g.keys :=
    Grammar.replaceAt_of_replaceAt happly hr.headed
  have hsize : g₁.size = g.size := by
    rw [Grammar.size_eq_length_rules, (Grammar.lists_of_replaceAt happly).2.rules,
      List.length_set, Grammar.size_eq_length_rules]
  have hsound : (Command.edit file position head' body').Sound strict file g₁.size := by
    cases Command.sound_of_run hg rfl h.exits with
    | edit hpos hle _ => exact .edit hpos (hsize.symm ▸ hle) hr
  obtain ⟨t₂, hwrite₂, hback⟩ :=
    Command.leads_next (e := .replaceAt (position - 1) r) hwrite hclean rfl hsound hk
  exact ⟨k, t₂, hlists, hwrite₂, hback⟩

/-- A rule that was replaced is put back. -/
theorem Command.leads_edit_back (hread : t.read file = .ok g.encodeBytes)
    (hg : t.stored? file = some g)
    (h : (Command.edit file position head body).Leads strict t shown t₁) {old : Rule} {typed : Text}
    (hold : g.rules[position - 1]? = some old) (htyped : Types typed old.body)
    (hbody : old.body ∉ lambdaSpellings) (hletter : strict = true → isSingleLetter old.head = true) :
    (Command.edit file position old.head typed).Leads strict t₁ (g.listing ++ "\n") t := by
  have hmeant := typedBody_of_types hbody htyped
  -- the old rule was read, so it can be stored
  have hsound : IsSoundRule strict old.head typed := by
    obtain ⟨bytes, -, hdecode⟩ := stored?_eq_some_iff.mp hg
    have hmem := List.mem_of_getElem? hold
    refine ⟨hletter, g.headed old hmem, ?_⟩
    rw [hmeant]
    exact (Grammar.encodable_iff.mp (encodable_of_decodeBytes hdecode)).2 old hmem
  obtain ⟨k, t₂, hlists, hwrite, hback⟩ := Command.leads_edit_of_edit hg h hsound
  have hsame : k ≈ g := by
    obtain ⟨hlt, hget⟩ := List.getElem?_eq_some_iff.mp hold
    refine Grammar.equiv_iff.mpr ⟨hlists.name, ?_⟩
    rw [hlists.rules, hmeant, ← hget]
    exact List.set_getElem_self hlt
  exact hback.back hread hsame hwrite

/-- A rule that was replaced is replaced by the same rule again, and nothing
changes. -/
theorem Command.leads_edit_again (hg : t.stored? file = some g)
    (h : (Command.edit file position head body).Leads strict t shown t₁) :
    (Command.edit file position head body).Leads strict t₁ shown t₁ := by
  have hsound : IsSoundRule strict head body := by
    cases Command.sound_of_run hg rfl h.exits with
    | edit _ _ hr => exact hr
  obtain ⟨k, t₂, hlists, hwrite, hback⟩ := Command.leads_edit_of_edit hg h hsound
  obtain ⟨g₁, t', happly, -, hwrite₁, hleads⟩ := Command.exists_leads hg rfl h.exits
  obtain rfl : t' = t₁ := hleads.leaves.symm.trans h.leaves
  have hsame : k ≈ g₁ := by
    obtain ⟨-, hlists₁⟩ := Grammar.lists_of_replaceAt happly
    exact Grammar.equiv_iff.mpr
      ⟨hlists.name.trans hlists₁.name.symm, hlists.rules.trans hlists₁.rules.symm⟩
  have hlooks := Grammar.looksLike_of_equiv hsame
  rw [hlooks.encodeBytes, hwrite₁] at hwrite
  rw [hlooks.listing] at hback
  obtain rfl := Except.ok.inj hwrite
  obtain rfl : g₁.listing ++ "\n" = shown := hleads.prints.symm.trans h.prints
  exact hback

/-- **Edits are taken back exactly.**  In a tree in which a file has the canonical
bytes of a grammar: after a rule was added, removing the last one succeeds and
leaves the tree as it was, every byte of it; after a rule was replaced, so does
putting the old rule back, unless its body is a word that cannot be typed for
itself; and a replacement that is repeated, any number of times, succeeds, prints
and leaves each time what it did at first. -/
theorem undoable {bytes : Bytes} (strict : Bool) (hread : t.read file = .ok bytes)
    (hdecode : decodeBytes bytes = .ok g) (hcanonical : g.encodeBytes = bytes) :
    Undoable strict t file g := by
  have hg : t.stored? file = some g := stored?_eq_some_iff.mpr ⟨bytes, hread, hdecode⟩
  rw [← hcanonical] at hread
  constructor
  case add =>
    intro head body t₁ shown h
    exact Command.leads_remove_of_add hread hg h
  case edit =>
    intro position head body t₁ shown h
    have hrange : position - 1 < g.rules.length := by
      rw [← Grammar.size_eq_length_rules]
      cases Command.sound_of_run hg rfl h.exits with
      | edit hpos hle _ => omega
    refine ⟨g.rules[position - 1], List.getElem?_eq_getElem hrange, ?_⟩
    intro typed htyped hbody hletter
    exact Command.leads_edit_back hread hg h (List.getElem?_eq_getElem hrange) htyped hbody hletter
  case again =>
    intro position head body t₁ shown h times
    have hagain := Command.leads_edit_again hg h
    rw [h.repeated_eq hagain times]
    exact hagain

/-- Of two rules the second, whose body is empty, is replaced, and put back with its
body typed as `λ`. -/
theorem undoable_empty_body :
    ∃ (t : FileTree) (g : Grammar), t.read ['g'] = .ok (Utf8.encode "G\n\nS -> a\nS -> ".toList) ∧
      decodeBytes (Utf8.encode "G\n\nS -> a\nS -> ".toList) = .ok g ∧
      g.encodeBytes = Utf8.encode "G\n\nS -> a\nS -> ".toList ∧
      Undoable false t ['g'] g ∧
      ∃ t₁ shown, (Command.edit ['g'] 2 ['B'] ['b']).Leads false t shown t₁ ∧
        t₁.read ['g'] = .ok (Utf8.encode "G\n\nS -> a\nB -> b".toList) ∧
        (Command.edit ['g'] 2 ['S'] ['λ']).Leads false t₁ (g.listing ++ "\n") t := by
  let g : Grammar := .ofRules ['G'] [⟨['S'], ['a']⟩, ⟨['S'], []⟩] (by decide)
  let t : FileTree := .ofEntries [(['g'], .file (Utf8.encode "G\n\nS -> a\nS -> ".toList))]
  have hread : t.read ['g'] = .ok (Utf8.encode "G\n\nS -> a\nS -> ".toList) := rfl
  have hcanonical : g.encodeBytes = Utf8.encode "G\n\nS -> a\nS -> ".toList := rfl
  have hdecode : decodeBytes (Utf8.encode "G\n\nS -> a\nS -> ".toList) = .ok g :=
    decodeBytes_encodeBytes (g := g) (by decide +kernel)
  have hundo : Undoable false t ['g'] g := undoable false hread hdecode hcanonical
  have hedit : (Command.edit ['g'] 2 ['B'] ['b']).Leads false t _ _ := ⟨by decide +kernel, rfl, rfl⟩
  obtain ⟨old, hold, hback⟩ := hundo.edit 2 ['B'] ['b'] _ _ hedit
  obtain rfl : ⟨['S'], []⟩ = old := Option.some.inj hold
  refine ⟨t, g, hread, hdecode, hcanonical, hundo, _, _, hedit, by decide +kernel, ?_⟩
  apply hback ['λ']
  · exact Or.inr ⟨rfl, List.mem_cons_self⟩
  · decide
  · intro hstrict
    cases hstrict

end Canonical

end PhraseGrammar
