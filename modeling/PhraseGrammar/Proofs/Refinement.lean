/-
PhraseGrammar/Proofs/Refinement.lean

Sessions on files do what the same edits do in memory.

Between two commands a grammar exists only as the bytes of a file: each step
reads them, edits what it read, checks it, and writes it back, and the rules
are numbered anew every time.  None of that shows:

* after a step that succeeds, the file holds the edited grammar, and what was
  printed is what showing the file prints
  (`mem_sessionSteps_refines`);
* along a session, a file holds what its own commands, carried out one after
  the other on a grammar in memory, would have made of it
  (`session_agrees`).

Both rest on one fact, that a grammar which was saved is read back as the same
grammar (`FileTree.Holds.of_write`).  The second also needs that edits by
position cannot tell two equal grammars apart (`Edit.apply_congr`), since the
numbers of the rules in memory and in the file soon differ.
-/
import PhraseGrammar.Proofs.Frame
import PhraseGrammar.Proofs.RoundTrip

namespace PhraseGrammar

/-! ### Equal grammars -/

/-- Edits that address rules by position, or not at all. -/
inductive Edit.IsPositional : Edit → Prop
  | rename (name : Text) : IsPositional (.rename name)
  | add (rule : Rule) : IsPositional (.add rule)
  | removeAt (index : Nat) : IsPositional (.removeAt index)
  | replaceAt (index : Nat) (rule : Rule) : IsPositional (.replaceAt index rule)

/-- Edits by position do the same to equal grammars. -/
theorem Edit.apply_congr {e : Edit} (he : e.IsPositional) {g h g' : Grammar} (hgh : g ≈ h)
    (hg : e.apply g = .ok g') : ∃ h', e.apply h = .ok h' ∧ g' ≈ h' := by
  obtain ⟨hname, hrules⟩ := Grammar.equiv_iff.mp hgh
  have hsize : g.size = h.size := by
    rw [Grammar.size_eq_length_rules, Grammar.size_eq_length_rules, hrules]
  have hvalues : g.register.values = h.register.values := hrules
  -- each edit tests and changes only the list of rules and the name
  cases he with
  | rename name =>
    cases hg
    exact ⟨h.rename name, rfl, Grammar.equiv_iff.mpr ⟨rfl, hrules⟩⟩
  | add rule =>
    rw [Edit.apply, Grammar.add] at hg ⊢
    split at hg
    · cases hg
    · next hne =>
      cases hg
      refine ⟨_, dif_neg hne, Grammar.equiv_iff.mpr ⟨hname, ?_⟩⟩
      show (g.register.push rule).values = (h.register.push rule).values
      rw [Register.values_push, Register.values_push, hvalues]
  | removeAt index =>
    rw [Edit.apply, Grammar.removeAt] at hg ⊢
    split at hg
    · next hi =>
      cases hg
      refine ⟨_, if_pos (hsize ▸ hi), Grammar.equiv_iff.mpr ⟨hname, ?_⟩⟩
      show (g.register.removeAt index).values = (h.register.removeAt index).values
      rw [Register.values_removeAt, Register.values_removeAt, hvalues]
    · cases hg
  | replaceAt index rule =>
    rw [Edit.apply, Grammar.replaceAt] at hg ⊢
    split at hg
    · next hi =>
      split at hg
      · cases hg
      · next hne =>
        cases hg
        rw [if_pos (hsize ▸ hi)]
        refine ⟨_, dif_neg hne, Grammar.equiv_iff.mpr ⟨hname, ?_⟩⟩
        show (g.register.replaceAt index rule).values = (h.register.replaceAt index rule).values
        rw [Register.values_replaceAt, Register.values_replaceAt, hvalues]
    · cases hg

/-- The edits that commands ask for are by position. -/
theorem Command.isPositional_of_edit? {c : Command} {file : Text} {e : Edit}
    (h : c.edit? = some (file, e)) : e.IsPositional := by
  cases c with
  | new | list | classify => cases h
  | add | edit | remove => cases h; constructor

theorem Grammar.listing_congr {g h : Grammar} (hgh : g ≈ h) : g.listing = h.listing := by
  obtain ⟨hname, hrules⟩ := Grammar.equiv_iff.mp hgh
  rw [Grammar.listing, Grammar.listing, hname, hrules]

/-! ### What a file holds -/

/-- The bytes of a file are those of a grammar, and what they are read as is
the same grammar. -/
structure FileTree.Holds (t : FileTree) (file : Text) (g : Grammar) : Prop where
  bytes : t.read file = .ok g.encodeBytes
  stored : ∃ h, t.stored? file = some h ∧ h ≈ g

/-- Showing a file prints this, whatever the rule for heads, and changes
nothing. -/
def FileTree.Shows (t : FileTree) (file : Text) (output : String) : Prop :=
  ∀ strict, ∃ report, (Command.list file).run strict t = (report, t) ∧
    report.exitStatus = 0 ∧ report.output = output

/-- A grammar that was saved is in the file. -/
theorem FileTree.Holds.of_write {t t' : FileTree} {s : Saving} (he : s.grammar.Encodable)
    (h : t.write s.write = .ok t') : t'.Holds s.file s.grammar where
  bytes := read_write h
  stored := by
    refine ⟨_, ?_, s.grammar.ofRules_equiv⟩
    rw [stored?_eq_some_iff]
    exact ⟨_, read_write h, decodeBytes_encodeBytes he⟩

/-- Showing a file prints the listing of the grammar it holds. -/
theorem FileTree.Holds.shows {t : FileTree} {file : Text} {g : Grammar} (h : t.Holds file g) :
    t.Shows file (g.listing ++ "\n") := by
  intro strict
  obtain ⟨k, hk, hkg⟩ := h.stored
  obtain ⟨events, hplan⟩ := plan_list hk strict
  refine ⟨⟨events, [k.listing], []⟩, ?_, rfl, ?_⟩
  · rw [Command.run, hplan]
    rfl
  · rw [← Grammar.listing_congr hkg]
    simp [Report.output]

/-! ### One step -/

/-- What a command that succeeded has done to a tree, in terms of grammars in
memory.  A new grammar is without rules, and nothing is printed; an edit is
applied to the grammar that was in the file, and what is printed is what
showing the file prints. -/
structure Command.Refines (c : Command) (before : FileTree) (report : Report)
    (after : FileTree) : Prop where
  new : ∀ file name force, c = .new file name force →
    after.Holds file (.new name) ∧ report.output = ""
  edit : ∀ file e, c.edit? = some (file, e) →
    ∃ g g', before.stored? file = some g ∧ e.apply g = .ok g' ∧ after.Holds file g' ∧
      after.Shows file report.output

/-- A command that succeeds refines its edit in memory. -/
theorem Command.refines_run {c : Command} {strict : Bool} {t : FileTree}
    (h : (c.run strict t).1.exitStatus = 0) :
    c.Refines t (c.run strict t).1 (c.run strict t).2 := by
  obtain ⟨events, why, hr⟩ | ⟨hl, -⟩ | ⟨s, t', hs, he, hw, hr⟩ := c.run_cases strict t
  · rw [hr] at h
    cases h
  · constructor
    · rintro file name force rfl
      cases hl
    · intro file e hc
      cases hl <;> cases hc
  · have hholds := FileTree.Holds.of_write he hw
    rw [hr]
    cases hs with
    | new file name force =>
      constructor
      · rintro _ _ _ ⟨⟩
        exact ⟨hholds, rfl⟩
      · intro _ _ hc
        cases hc
    | @edit _ file e bytes g g' hc hread hg hg' =>
      constructor
      · rintro _ _ _ rfl
        cases hc
      · intro file' e' hc'
        obtain ⟨rfl, rfl⟩ := Prod.mk.inj (Option.some.inj (hc.symm.trans hc'))
        refine ⟨g, g', stored?_eq_some_iff.mpr ⟨bytes, hread, hg⟩, hg', hholds, ?_⟩
        simpa [Report.output] using hholds.shows

/-! ### Sessions, step by step -/

/-- The steps of a session: the tree a command line meets, what comes of it and
the tree it leaves. -/
def sessionSteps (t : FileTree) : List Line → List (FileTree × Outcome × FileTree)
  | [] => []
  | l :: ls => (t, l.run t) :: sessionSteps (l.run t).2 ls

/-- The steps are those of the run, each with the tree it started from. -/
theorem map_snd_sessionSteps (t : FileTree) (ls : List Line) :
    (sessionSteps t ls).map (·.2) = runSession t ls := by
  induction ls generalizing t with
  | nil => rfl
  | cons l ls ih => rw [sessionSteps, List.map_cons, ih, runSession]

/-- The first step, if its command line can be read. -/
theorem mem_sessionSteps_cons {l : Line} {i : Invocation}
    (h : (readCommandLine l.headSetting l.words).toOption = some i) (t : FileTree)
    (ls : List Line) :
    (t, .ran i (i.command.run i.strict t).1, (i.command.run i.strict t).2) ∈
      sessionSteps t (l :: ls) := by
  rw [sessionSteps, Line.run_of_toOption h]
  exact List.mem_cons_self

theorem exists_line_of_mem_sessionSteps {t : FileTree} {ls : List Line}
    {step : FileTree × Outcome × FileTree} (h : step ∈ sessionSteps t ls) :
    ∃ l ∈ ls, step.2 = l.run step.1 := by
  induction ls generalizing t with
  | nil => cases h
  | cons l ls ih =>
    obtain rfl | h := List.mem_cons.mp h
    · exact ⟨l, List.mem_cons_self, rfl⟩
    · obtain ⟨k, hk, hs⟩ := ih h
      exact ⟨k, List.mem_cons_of_mem l hk, hs⟩

/-- **Sessions refine editing in memory, step by step.**  In a session of any
length on any tree, after every step that exits with 0: a new file holds the
grammar without rules; a file that was edited holds exactly the bytes of the
grammar that the edit makes of the one the file held before the step, and what
was printed is what showing the file prints next. -/
theorem mem_sessionSteps_refines {t : FileTree} {ls : List Line} {before after : FileTree}
    {invocation : Invocation} {report : Report}
    (hstep : (before, .ran invocation report, after) ∈ sessionSteps t ls)
    (hexit : report.exitStatus = 0) :
    invocation.command.Refines before report after := by
  obtain ⟨l, -, hl⟩ := exists_line_of_mem_sessionSteps hstep
  have hrun : l.run before = (.ran invocation report, after) := hl.symm
  unfold Line.run at hrun
  cases hread : readCommandLine l.headSetting l.words with
  | error why => rw [hread] at hrun; cases hrun
  | ok i =>
    rw [hread] at hrun
    cases hrun
    exact Command.refines_run hexit

/-- A rule is added to a file that was written by hand, without an end of line. -/
theorem refines_add_by_hand :
    ∃ report after,
      (.ofEntries [(['g'], .file [71])], .ran ⟨false, 0, .add ['g'] ['S'] ['b']⟩ report, after) ∈
        sessionSteps (.ofEntries [(['g'], .file [71])])
          [⟨["add".toList, ['g'], ['S'], ['b']], none, none⟩] ∧
      report.exitStatus = 0 ∧
      (Command.add ['g'] ['S'] ['b']).Refines (.ofEntries [(['g'], .file [71])]) report after := by
  have hstep := mem_sessionSteps_cons
    (l := ⟨["add".toList, ['g'], ['S'], ['b']], none, none⟩)
    (i := ⟨false, 0, .add ['g'] ['S'] ['b']⟩) (by decide +kernel)
    (.ofEntries [(['g'], .file [71])]) []
  have hexit : ((Command.add ['g'] ['S'] ['b']).run false
      (.ofEntries [(['g'], .file [71])])).1.exitStatus = 0 := by decide +kernel
  exact ⟨_, _, hstep, hexit, mem_sessionSteps_refines hstep hexit⟩

/-- A step that makes a new grammar does not print what showing the file prints:
it prints nothing. -/
theorem not_shows_new :
    ∃ report after,
      (.ofEntries [], .ran ⟨false, 0, .new ['g'] ['G'] false⟩ report, after) ∈
        sessionSteps (.ofEntries []) [⟨["new".toList, ['g'], ['G']], none, none⟩] ∧
      report.exitStatus = 0 ∧ ¬ after.Shows ['g'] report.output := by
  have hstep := mem_sessionSteps_cons (l := ⟨["new".toList, ['g'], ['G']], none, none⟩)
    (i := ⟨false, 0, .new ['g'] ['G'] false⟩) (by decide +kernel) (.ofEntries []) []
  refine ⟨_, _, hstep, by decide +kernel, ?_⟩
  intro hshows
  obtain ⟨report, hrun, -, hout⟩ := hshows false
  have hlist : ((Command.list ['g']).run false
      ((Command.new ['g'] ['G'] false).run false (.ofEntries [])).2).1.output = "G\n-\n" := by
    decide +kernel
  have hnew : ((Command.new ['g'] ['G'] false).run false (.ofEntries [])).1.output = "" := rfl
  have hsame : "G\n-\n" = "" := by
    rw [← hlist, ← hnew, ← hout]
    exact congrArg (Report.output ∘ Prod.fst) hrun
  exact absurd hsame (by decide)

/-! ### Sessions as a whole -/

/-- Grammars kept in memory, under the names of their files. -/
abbrev Memory := Text → Option Grammar

namespace Memory

/-- The memory with a grammar under a name. -/
def keep (m : Memory) (file : Text) (g : Grammar) : Memory :=
  fun f => if f = file then some g else m f

theorem keep_self (m : Memory) (file : Text) (g : Grammar) : m.keep file g file = some g :=
  if_pos rfl

theorem keep_of_ne (m : Memory) {file f : Text} (h : f ≠ file) (g : Grammar) :
    m.keep file g f = m f :=
  if_neg h

/-- A command carried out in memory alone. -/
def after (m : Memory) (c : Command) : Memory :=
  match c with
  | .new file name _ => m.keep file (.new name)
  | _ =>
    match c.edit? with
    | none => m
    | some (file, e) =>
      match (m file).map e.apply with
      | some (.ok g) => m.keep file g
      | _ => m

/-- The command of a command line that succeeded, carried out in memory. -/
def afterOutcome (m : Memory) : Outcome → Memory
  | .notRun _ => m
  | .ran invocation report =>
    if report.exitStatus = 0 then m.after invocation.command else m

end Memory

theorem Memory.after_of_looks (m : Memory) {c : Command} (h : c.Looks) : m.after c = m := by
  cases h <;> rfl

theorem Memory.after_of_edit? {m : Memory} {c : Command} {file : Text} {e : Edit} {g g' : Grammar}
    (hc : c.edit? = some (file, e)) (hg : m file = some g) (he : e.apply g = .ok g') :
    m.after c = m.keep file g' := by
  cases c with
  | new | list | classify => cases hc
  | add | edit | remove =>
    cases hc
    simp only [Memory.after, Command.edit?, hg, Option.map_some, he]

/-- The files with plain names hold what is in memory. -/
def FileTree.Agrees (t : FileTree) (m : Memory) : Prop :=
  ∀ file, IsPlainName file → Option.Rel (· ≈ ·) (t.stored? file) (m file)

/-- A tree agrees with what is read from it. -/
theorem FileTree.Agrees.stored? (t : FileTree) : t.Agrees t.stored? := by
  intro file _
  cases t.stored? file with
  | none => exact .none
  | some g => exact .some (Setoid.refl g)

/-- What is stored under a plain name does not depend on the other entries. -/
theorem FileTree.SameBut.stored?_eq {t t' : FileTree} {file f : Text} (h : t.SameBut file t')
    (hf : IsPlainName f) (hne : f ≠ file) : t'.stored? f = t.stored? f := by
  have hread : t'.read f = t.read f :=
    read_of_isPlainName hf (h.node _ fun hc => hne (child_injective hc))
  rw [FileTree.stored?, FileTree.stored?, hread]

/-- The in-memory counterpart of a saving. -/
theorem Saves.after_eq {t : FileTree} {m : Memory} {c : Command} {s : Saving} (h : t.Agrees m)
    (hf : IsPlainName s.file) (hs : Saves t c s) :
    ∃ g, m.after c = m.keep s.file g ∧ s.grammar ≈ g := by
  cases hs with
  | new file name force => exact ⟨.new name, rfl, Setoid.refl _⟩
  | @edit _ file e bytes g g' hc hread hg hg' =>
    -- memory has an equal grammar, so the same edit is not refused there
    have hrel := h file hf
    rw [stored?_eq_some_iff.mpr ⟨bytes, hread, hg⟩] at hrel
    cases hm : m file with
    | none => rw [hm] at hrel; cases hrel
    | some k =>
      rw [hm] at hrel
      cases hrel with
      | some hgk =>
        obtain ⟨k', hk', hgk'⟩ := Edit.apply_congr (Command.isPositional_of_edit? hc) hgk hg'
        exact ⟨k', Memory.after_of_edit? hc hm hk', hgk'⟩

/-- One command line keeps files and memory in agreement. -/
theorem Line.agrees_run {l : Line} {t : FileTree} {m : Memory} (hl : l.WritesPlain)
    (h : t.Agrees m) : (l.run t).2.Agrees (m.afterOutcome (l.run t).1) := by
  unfold Line.run
  cases hread : readCommandLine l.headSetting l.words with
  | error why => exact h
  | ok i =>
    show (i.command.run i.strict t).2.Agrees
      (if (i.command.run i.strict t).1.exitStatus = 0 then m.after i.command else m)
    obtain ⟨events, why, hr⟩ | ⟨hlooks, hr⟩ | ⟨s, t', hs, he, hw, hr⟩ :=
      i.command.run_cases i.strict t
    · rw [hr]
      exact h
    · rw [hr, m.after_of_looks hlooks, ite_self]
      exact h
    · rw [hr]
      show t'.Agrees (m.after i.command)
      have hplain : IsPlainName s.file := hl s.file ⟨i, hread, hs.file?⟩
      obtain ⟨g, hafter, hsg⟩ := hs.after_eq h hplain
      intro f hf
      rw [hafter]
      -- the file that was written holds what was kept, the others are untouched
      by_cases hfs : f = s.file
      · obtain ⟨k, hk, hks⟩ := (FileTree.Holds.of_write he hw).stored
        rw [hfs, Memory.keep_self, hk]
        exact .some (Setoid.trans hks hsg)
      · rw [Memory.keep_of_ne m hfs, (FileTree.SameBut.write hplain hw).stored?_eq hf hfs]
        exact h f hf

/-- **Files keep pace with memory.**  Where a tree agrees with grammars in
memory, it goes on to: after a session of any length whose command lines write
to plain names, each file holds the grammar that the commands which succeeded
have made in memory. -/
theorem session_agrees {t : FileTree} {m : Memory} {ls : List Line}
    (hls : ∀ l ∈ ls, l.WritesPlain) (h : t.Agrees m) :
    (ls.foldl (fun t l => (l.run t).2) t).Agrees
      (((runSession t ls).map (·.1)).foldl Memory.afterOutcome m) := by
  induction ls generalizing t m with
  | nil => exact h
  | cons l ls ih =>
    rw [runSession, List.map_cons, List.foldl_cons, List.foldl_cons]
    exact ih (fun k hk => hls k (List.mem_cons_of_mem l hk))
      (Line.agrees_run (hls l List.mem_cons_self) h)

end PhraseGrammar
