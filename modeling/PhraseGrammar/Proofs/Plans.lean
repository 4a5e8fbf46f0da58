/-
PhraseGrammar/Proofs/Plans.lean

Everything a run of a command can do, said once.

A run ends in one of three ways (`Command.run_cases`):

* it fails, and then nothing is written;
* the command is one that only looks, `list` or `classify`, and nothing is
  written either;
* it saves one grammar to one file and succeeds.

What is saved depends on the command alone and on what the file held before:
`Saves t c s` says that on the tree `t` the command `c` comes to the saving
`s`, by making a grammar without rules or by one edit of the grammar that was
stored.  The three commands that edit are one case, since an edit is data
(`Command.edit?`).

Everything about what commands write is read off these two, so no later proof
opens `Command.plan`.
-/
import PhraseGrammar.Session

namespace PhraseGrammar

/-! ### Which commands write, and what -/

/-- The edit of the grammar in a file that a command asks for. -/
def Command.edit? : Command → Option (Text × Edit)
  | .add file head body => some (file, .add ⟨head, typedBody body⟩)
  | .edit file position head body =>
    some (file, .replaceAt (position - 1) ⟨head, typedBody body⟩)
  | .remove file position => some (file, .removeAt (position - 1))
  | _ => none

/-- Commands that only look at files. -/
inductive Command.Looks : Command → Prop
  | list (file : Text) : Looks (.list file)
  | classify (files : List Text) (explain : Bool) : Looks (.classify files explain)

/-- The grammar that is stored in a file. -/
def FileTree.stored? (t : FileTree) (file : Text) : Option Grammar :=
  match t.read file with
  | .ok bytes => (decodeBytes bytes).toOption
  | .error _ => none

/-- One grammar to be saved, what was logged on the way there, and what is
printed when it is saved. -/
structure Saving where
  file : Text
  grammar : Grammar
  mode : WriteMode
  events : List Event
  printed : List String

/-- The file as it is to be written. -/
def Saving.write (s : Saving) : Write :=
  ⟨s.file, s.grammar.encodeBytes, s.mode⟩

/-- The event of a saving that is done. -/
def Saving.saved (s : Saving) : Event :=
  match s.mode with
  | .create => .created s.file s.grammar.name
  | .replace => .wrote s.file s.grammar.name s.grammar.size

/-- What a command saves if all goes well. -/
inductive Saves (t : FileTree) : Command → Saving → Prop
  | new (file name : Text) (force : Bool) :
      Saves t (.new file name force)
        ⟨file, .new name, if force then .replace else .create, [], []⟩
  | edit {c : Command} {file : Text} {e : Edit} {bytes : Bytes} {g g' : Grammar} :
      c.edit? = some (file, e) → t.read file = .ok bytes → decodeBytes bytes = .ok g →
      e.apply g = .ok g' →
      Saves t c
        ⟨file, g', .replace, [.fileRead file bytes.length, .decoded g.name g.size], [g'.listing]⟩

/-! ### Writes -/

namespace FileTree

/-- What a write does when it succeeds: it puts its bytes where its path
points, and that was not a directory; in a new file, it was nothing. -/
theorem write_cases {t t' : FileTree} {w : Write} (h : t.write w = .ok t') :
    ∃ directory name, t.target w.file = .ok (.named directory name false) ∧
      t.node? (directory.child name) ≠ some .directory ∧
      (w.mode = .create → t.node? (directory.child name) = none) ∧
      t' = t.put (directory.child name) w.bytes := by
  obtain ⟨file, bytes, mode⟩ := w
  cases mode with
  | create =>
    obtain ⟨directory, name, ht, -, hx, ht'⟩ := create_cases h
    exact ⟨directory, name, ht, by simp [hx], fun _ => hx, ht'⟩
  | replace =>
    obtain ⟨directory, name, ht, -, hx, ht'⟩ := overwrite_cases h
    exact ⟨directory, name, ht, hx, fun hm => (by cases hm), ht'⟩

/-- What was written is what is read. -/
theorem read_write {t t' : FileTree} {w : Write} (h : t.write w = .ok t') :
    t'.read w.file = .ok w.bytes := by
  obtain ⟨file, bytes, mode⟩ := w
  cases mode with
  | create => exact read_create h
  | replace => exact read_overwrite h

end FileTree

/-! ### Typed words -/

/-- What is asked of the words of an edit before any file is read. -/
def Command.Admitted (strict : Bool) : Command → Prop
  | .add _ head _ => strict = true → isSingleLetter head = true
  | .edit _ position head _ => 1 ≤ position ∧ (strict = true → isSingleLetter head = true)
  | .remove _ position => 1 ≤ position
  | .new .. | .list _ | .classify .. => True

theorem typedRule_cases (strict : Bool) (head body : Text) :
    (¬ (strict = true → isSingleLetter head = true) ∧
      ∃ why, typedRule strict head body = .error why) ∨
    (strict = true → isSingleLetter head = true) ∧
      typedRule strict head body = .ok ⟨head, typedBody body⟩ := by
  unfold typedRule
  split
  · next h => exact Or.inl ⟨by simpa using h, _, rfl⟩
  · next h => exact Or.inr ⟨by simpa using h, rfl⟩

theorem typedIndex_of_pos {position : Nat} (h : 1 ≤ position) :
    typedIndex position = .ok (position - 1) := by
  rw [typedIndex, if_neg (Nat.ne_of_gt h)]

/-! ### Plans -/

/-- Reading a grammar gives a failure, or what is stored in the file. -/
theorem grammar_cases (t : FileTree) (file : Text) :
    (t.stored? file = none ∧
      ∃ events why, (Reader.grammar t.read file) = (events, .error why)) ∨
    ∃ bytes g, t.read file = .ok bytes ∧ decodeBytes bytes = .ok g ∧
      Reader.grammar t.read file =
        ([.fileRead file bytes.length, .decoded g.name g.size], .ok g) := by
  unfold Reader.grammar FileTree.stored?
  cases hr : t.read file with
  | error why => exact Or.inl ⟨rfl, [], .noFile file why, rfl⟩
  | ok bytes =>
    cases hd : decodeBytes bytes with
    | error faults =>
      refine Or.inl ⟨?_, [.fileRead file bytes.length], .format (faults.map (·.inFile file)), ?_⟩
      · simp only [hd, Except.toOption]
      · simp only [hd]
    | ok g => exact Or.inr ⟨bytes, g, rfl, hd, by simp only [hd]⟩

theorem stored?_eq_some_iff {t : FileTree} {file : Text} {g : Grammar} :
    t.stored? file = some g ↔ ∃ bytes, t.read file = .ok bytes ∧ decodeBytes bytes = .ok g := by
  unfold FileTree.stored?
  cases hr : t.read file with
  | error why => simp
  | ok bytes => cases hd : decodeBytes bytes <;> simp [hd, Except.toOption]

/-- A command that edits goes on to the edit exactly if its words are admitted. -/
theorem Command.plan_of_words {c : Command} {file : Text} {e : Edit}
    (he : c.edit? = some (file, e)) (strict : Bool) (read : Reader) :
    (¬ c.Admitted strict ∧ ∃ why, c.plan strict read = .fail [] (.input why)) ∨
    c.Admitted strict ∧ c.plan strict read = read.edit file e := by
  cases c with
  | new | list | classify => cases he
  | add file' head body =>
    cases he
    obtain ⟨hno, why, hw⟩ | ⟨hyes, hr⟩ := typedRule_cases strict head body
    · exact Or.inl ⟨hno, why, by simp only [Command.plan, hw]⟩
    · exact Or.inr ⟨hyes, by simp only [Command.plan, hr]⟩
  | edit file' position head body =>
    cases he
    rcases Nat.eq_zero_or_pos position with rfl | hpos
    · exact Or.inl ⟨fun h => absurd h.1 (by decide), .positionZero, rfl⟩
    · obtain ⟨hno, why, hw⟩ | ⟨hyes, hr⟩ := typedRule_cases strict head body
      · refine Or.inl ⟨fun h => hno h.2, why, ?_⟩
        simp only [Command.plan, typedIndex_of_pos hpos, hw]
      · refine Or.inr ⟨⟨hpos, hyes⟩, ?_⟩
        simp only [Command.plan, typedIndex_of_pos hpos, hr]
  | remove file' position =>
    cases he
    rcases Nat.eq_zero_or_pos position with rfl | hpos
    · exact Or.inl ⟨by simp [Command.Admitted], .positionZero, rfl⟩
    · exact Or.inr ⟨hpos, by simp only [Command.plan, typedIndex_of_pos hpos]⟩

/-- A command that edits is refused for what was typed, or goes on to the edit. -/
theorem plan_of_edit? {c : Command} {file : Text} {e : Edit} (h : c.edit? = some (file, e))
    (strict : Bool) (read : Reader) :
    (∃ why, c.plan strict read = .fail [] (.input why)) ∨ c.plan strict read = read.edit file e :=
  (Command.plan_of_words h strict read).imp And.right And.right

/-- Listing a grammar that is stored prints its listing. -/
theorem plan_list {t : FileTree} {file : Text} {g : Grammar} (h : t.stored? file = some g)
    (strict : Bool) :
    ∃ events, (Command.list file).plan strict t.read = .done ⟨events, [g.listing], []⟩ := by
  obtain ⟨hnone, -⟩ | ⟨bytes, k, hr, hd, hg⟩ := grammar_cases t file
  · rw [hnone] at h
    cases h
  · obtain rfl : k = g := by
      rw [stored?_eq_some_iff.mpr ⟨bytes, hr, hd⟩] at h
      exact Option.some.inj h
    exact ⟨_, by simp only [Command.plan, hg]; rfl⟩

/-- A plan fails, or only looks, or comes to a saving. -/
theorem plan_cases (c : Command) (strict : Bool) (t : FileTree) :
    (∃ events why, c.plan strict t.read = .fail events why) ∨
    (c.Looks ∧ ∃ r, c.plan strict t.read = .done r) ∨
    ∃ s, Saves t c s ∧
      c.plan strict t.read = s.grammar.saveTo s.file s.mode s.events s.printed := by
  -- the commands that edit are one case, the others are three
  cases he : c.edit? with
  | none =>
    cases c with
    | new file name force => exact Or.inr (Or.inr ⟨_, .new file name force, rfl⟩)
    | add file head body => cases he
    | edit file position head body => cases he
    | remove file position => cases he
    | list file =>
      obtain ⟨-, events, why, hg⟩ | ⟨bytes, g, -, -, hg⟩ := grammar_cases t file
      · exact Or.inl ⟨events, why, by simp only [Command.plan, hg]⟩
      · refine Or.inr (Or.inl ⟨.list file, ?_⟩)
        exact ⟨_, by simp only [Command.plan, hg]; rfl⟩
    | classify files explain =>
      exact Or.inr (Or.inl ⟨.classify files explain, Reader.classify t.read files explain, rfl⟩)
  | some p =>
    obtain ⟨file, e⟩ := p
    obtain ⟨why, hw⟩ | hplan := plan_of_edit? he strict t.read
    · exact Or.inl ⟨_, _, hw⟩
    · obtain ⟨-, events, why, hg⟩ | ⟨bytes, g, hr, hd, hg⟩ := grammar_cases t file
      · refine Or.inl ⟨events, why, ?_⟩
        rw [hplan, Reader.edit, hg]
      · cases ha : e.apply g with
        | error why =>
          refine Or.inl ⟨[.fileRead file bytes.length, .decoded g.name g.size], .edit why, ?_⟩
          simp only [hplan, Reader.edit, hg, ha]
        | ok g' =>
          refine Or.inr (Or.inr ⟨_, .edit he hr hd ha, ?_⟩)
          simp only [hplan, Reader.edit, hg, ha]

/-! ### Runs -/

/-- **What a run can do.**  It fails and changes nothing, or it is a look and
changes nothing, or it saves one grammar that can be read back, and then it
succeeds. -/
theorem Command.run_cases (c : Command) (strict : Bool) (t : FileTree) :
    (∃ events why, c.run strict t = (⟨events, [], [why]⟩, t)) ∨
    (c.Looks ∧ (c.run strict t).2 = t) ∨
    ∃ s t', Saves t c s ∧ s.grammar.Encodable ∧ t.write s.write = .ok t' ∧
      c.run strict t = (⟨s.events ++ [s.saved], s.printed, []⟩, t') := by
  obtain ⟨events, why, hp⟩ | ⟨hl, r, hp⟩ | ⟨s, hs, hp⟩ := plan_cases c strict t
  · exact Or.inl ⟨events, why, by rw [Command.run, hp]; rfl⟩
  · exact Or.inr (Or.inl ⟨hl, by rw [Command.run, hp]; rfl⟩)
  · by_cases he : s.grammar.Encodable
    · rw [Grammar.saveTo.eq_def, if_pos he] at hp
      cases hw : t.write s.write with
      | error why =>
        refine Or.inl ⟨s.events, s.write.failure why, ?_⟩
        have hw' : t.write ⟨s.file, s.grammar.encodeBytes, s.mode⟩ = .error why := hw
        simp only [Command.run, hp, Plan.run, Plan.report, hw', Except.toOption]
        rfl
      | ok t' =>
        refine Or.inr (Or.inr ⟨s, t', hs, he, hw, ?_⟩)
        have hw' : t.write ⟨s.file, s.grammar.encodeBytes, s.mode⟩ = .ok t' := hw
        simp only [Command.run, hp, Plan.run, Plan.report, hw', Except.toOption]
        rfl
    · -- refused before anything is written
      rw [Grammar.saveTo.eq_def, if_neg he] at hp
      exact Or.inl ⟨_, _, by rw [Command.run, hp]; rfl⟩

end PhraseGrammar
