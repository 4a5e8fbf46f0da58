/-
PhraseGrammar/Proofs/Interleaving.lean

Two sessions in one directory.

A command line on plain file names looks at the entries it names and at
nothing else, and leaves everything else alone.  The second half is the frame
of `Frame.lean`; the first is the step here: on two trees that have the same
under its names a command line has the same outcome, and the trees still have
the same wherever they had (`Line.run_local`).

So two sessions that have no name in common do not notice each other.  Let
`cs` be `as` and `bs` taken in turns, in the order of a pattern `p` of turns:

    Woven p as bs cs  →  Woven p (outcomes t as) (outcomes t bs) (outcomes t cs)

Each command has the outcome it has when its own session runs alone, and each
file ends as its own session leaves it (`sessions_do_not_interfere`).  The
induction is on the turns, over three trees at once: the shared one agrees
with the tree of either session on that session's own names.

Links, permissions and names that are one but for their case are left out of the
tree (`Files.lean`), so two plain names are two entries.  Through a link, or
where case is folded, two sessions could meet in one file.  They could also by
longer paths, among them those that come back into the working directory by its
own name, which the tree does not see; the hypothesis excludes all longer paths.
-/
import Mathlib.Data.List.Basic
import PhraseGrammar.Proofs.Frame

namespace PhraseGrammar

/-! ### What a command line names -/

/-- The files that a command names, to read or to write. -/
def Command.files : Command → List Text
  | .new file .. | .add file .. | .edit file .. | .remove file .. | .list file => [file]
  | .classify files _ => files

/-- A command line is read as a command that names a file. -/
def Line.Names (l : Line) (file : Text) : Prop :=
  ∃ i, readCommandLine l.headSetting l.words = .ok i ∧ file ∈ i.command.files

/-- Whatever a command line names is an entry of the working directory. -/
def Line.NamesPlain (l : Line) : Prop :=
  ∀ file, l.Names file → IsPlainName file

/-- What comes of the command lines of a session. -/
def outcomes (t : FileTree) (ls : List Line) : List Outcome :=
  (runSession t ls).map (·.1)

namespace FileTree

/-- The tree that a session leaves. -/
abbrev after (t : FileTree) (ls : List Line) : FileTree :=
  ls.foldl (fun t l => (l.run t).2) t

/-- Two trees have the same under a name. -/
def AgreeAt (file : Text) (t t' : FileTree) : Prop :=
  t'.node? (FileLocation.working.child file) = t.node? (FileLocation.working.child file)

/-- Two trees differ at most in entries of the working directory that have a
property of names. -/
structure SameBeyond (Named : Text → Prop) (t t' : FileTree) : Prop where
  node : ∀ l, (∀ f, Named f → l ≠ FileLocation.working.child f) → t'.node? l = t.node? l
  entries : ∀ f n, ¬ Named f → ((f, n) ∈ t'.entries ↔ (f, n) ∈ t.entries)

end FileTree

/-- The third list is the first two taken in turns; the pattern tells, turn by
turn, whether it is the first one's. -/
inductive Woven {α : Type} : List Bool → List α → List α → List α → Prop
  | nil : Woven [] [] [] []
  | first {p : List Bool} {a : α} {as bs cs : List α} :
      Woven p as bs cs → Woven (true :: p) (a :: as) bs (a :: cs)
  | second {p : List Bool} {b : α} {as bs cs : List α} :
      Woven p as bs cs → Woven (false :: p) as (b :: bs) (b :: cs)

theorem Line.names_iff {l : Line} {i : Invocation}
    (h : (readCommandLine l.headSetting l.words).toOption = some i) {f : Text} :
    l.Names f ↔ f ∈ i.command.files := by
  unfold Line.Names
  cases hr : readCommandLine l.headSetting l.words with
  | error why => rw [hr] at h; cases h
  | ok j =>
    rw [hr] at h
    cases h
    simp

theorem Command.mem_files_of_file? {c : Command} {f : Text} (h : c.file? = some f) :
    f ∈ c.files := by
  cases c with
  | new | add | edit | remove => cases h; exact List.mem_cons_self
  | list | classify => cases h

/-- What a command line may write, it names. -/
theorem Line.MayWrite.names {l : Line} {f : Text} (h : l.MayWrite f) : l.Names f := by
  obtain ⟨i, hi, hf⟩ := h
  exact ⟨i, hi, Command.mem_files_of_file? hf⟩

theorem Line.NamesPlain.writesPlain {l : Line} (h : l.NamesPlain) : l.WritesPlain :=
  fun f hf => h f hf.names

/-! ### What a command line looks at -/

namespace FileTree

theorem AgreeAt.trans {f : Text} {t t' t'' : FileTree} (h : AgreeAt f t t')
    (h' : AgreeAt f t' t'') : AgreeAt f t t'' :=
  Eq.trans h' h

/-- Why no tree can have a plain name. -/
def plainFault? (file : Text) : Option FileFault :=
  if '\x00' ∈ file then some .hasNul
  else if pathBytesLimit ≤ (Utf8.encode file).length then some .nameTooLong
  else if isTooLongName file then some .nameTooLong
  else none

/-- A write to a plain name comes to what is decided at the entry of that name. -/
theorem write_at_isPlainName {file : Text} (hf : IsPlainName file) (t : FileTree)
    (why : FileFault) (k : FileLocation → Text → Except FileFault FileTree) :
    (do
      match ← t.target file with
      | .through => throw why
      | .named directory name slash =>
        if slash then throw .isADirectory
        if isTooLongName name then throw .nameTooLong
        k directory name) = (plainFault? file).elim (k .working file) .error := by
  rw [target_of_isPlainName hf, plainFault?]
  split
  · rfl
  split
  · rfl
  cases hlong : isTooLongName file with
  | true =>
    simp only [bind, Except.bind, hlong, Bool.false_eq_true, if_false, if_true]
    rfl
  | false =>
    simp only [bind, Except.bind, hlong, Bool.false_eq_true, if_false]
    rfl

/-- Creating a file with a plain name: there must be no entry of that name. -/
theorem create_of_isPlainName {file : Text} (hf : IsPlainName file) (t : FileTree)
    (bytes : Bytes) :
    t.create file bytes = (plainFault? file).elim
      (match t.node? (FileLocation.working.child file) with
        | some _ => .error .alreadyExists
        | none => .ok (t.put (FileLocation.working.child file) bytes)) .error :=
  write_at_isPlainName hf t .alreadyExists fun directory name =>
    match t.node? (directory.child name) with
    | some _ => .error .alreadyExists
    | none => .ok (t.put (directory.child name) bytes)

/-- Overwriting a file with a plain name: the entry must not be a directory. -/
theorem overwrite_of_isPlainName {file : Text} (hf : IsPlainName file) (t : FileTree)
    (bytes : Bytes) :
    t.overwrite file bytes = (plainFault? file).elim
      (match t.node? (FileLocation.working.child file) with
        | some .directory => .error .isADirectory
        | _ => .ok (t.put (FileLocation.working.child file) bytes)) .error :=
  write_at_isPlainName hf t .isADirectory fun directory name =>
    match t.node? (directory.child name) with
    | some .directory => .error .isADirectory
    | _ => .ok (t.put (directory.child name) bytes)

/-- Writing to a plain name looks at the entry of that name alone. -/
theorem AgreeAt.write {t t' : FileTree} {w : Write} (hf : IsPlainName w.file)
    (h : AgreeAt w.file t t') :
    (∃ why, t.write w = .error why ∧ t'.write w = .error why) ∨
      (t.write w = .ok (t.put (FileLocation.working.child w.file) w.bytes) ∧
        t'.write w = .ok (t'.put (FileLocation.working.child w.file) w.bytes)) := by
  obtain ⟨file, bytes, mode⟩ := w
  have hsame : t'.node? (FileLocation.working.child file) =
      t.node? (FileLocation.working.child file) := h
  cases mode with
  | create =>
    simp only [FileTree.write, create_of_isPlainName hf, hsame]
    cases plainFault? file with
    | some why => exact Or.inl ⟨why, rfl, rfl⟩
    | none =>
      cases t.node? (FileLocation.working.child file) with
      | none => exact Or.inr ⟨rfl, rfl⟩
      | some n => exact Or.inl ⟨.alreadyExists, rfl, rfl⟩
  | replace =>
    simp only [FileTree.write, overwrite_of_isPlainName hf, hsame]
    cases plainFault? file with
    | some why => exact Or.inl ⟨why, rfl, rfl⟩
    | none =>
      cases t.node? (FileLocation.working.child file) with
      | none => exact Or.inr ⟨rfl, rfl⟩
      | some n =>
        cases n with
        | directory => exact Or.inl ⟨.isADirectory, rfl, rfl⟩
        | file old => exact Or.inr ⟨rfl, rfl⟩

theorem AgreeAt.put {t t' : FileTree} {f : Text} (h : AgreeAt f t t') (file : Text)
    (bytes : Bytes) :
    AgreeAt f (t.put (FileLocation.working.child file) bytes)
      (t'.put (FileLocation.working.child file) bytes) := by
  unfold AgreeAt at h ⊢
  -- both hold the bytes where they were put, and what they held elsewhere
  by_cases hfile : FileLocation.working.child f = FileLocation.working.child file
  · rw [hfile, node?_put_self _ (names_child_ne_nil _ _), node?_put_self _ (names_child_ne_nil _ _)]
  · rw [node?_put_of_ne t hfile, node?_put_of_ne t' hfile, h]

end FileTree

section Plans

variable {read read' : Reader} {file : Text}

theorem Reader.grammar_congr (h : read' file = read file) :
    read'.grammar file = read.grammar file := by
  rw [Reader.grammar, Reader.grammar, h]

theorem Reader.edit_congr (h : read' file = read file) (e : Edit) :
    read'.edit file e = read.edit file e := by
  rw [Reader.edit, Reader.edit, Reader.grammar_congr h]

/-- A plan is made from what the files of the command hold. -/
theorem Command.plan_congr {c : Command} (h : ∀ f ∈ c.files, read' f = read f) (strict : Bool) :
    c.plan strict read' = c.plan strict read := by
  cases c with
  | new file name force => rfl
  | add file head body =>
    have hfile := h file List.mem_cons_self
    simp only [Command.plan, Reader.edit_congr hfile]
  | edit file position head body =>
    have hfile := h file List.mem_cons_self
    simp only [Command.plan, Reader.edit_congr hfile]
  | remove file position =>
    have hfile := h file List.mem_cons_self
    simp only [Command.plan, Reader.edit_congr hfile]
  | list file =>
    have hfile := h file List.mem_cons_self
    simp only [Command.plan, Reader.grammar_congr hfile]
  | classify files explain =>
    have hloaded : read'.load files = read.load files := by
      refine List.foldl_ext _ _ _ fun l f hf => ?_
      rw [Loaded.load, Loaded.load, Reader.grammar_congr (h f hf)]
    simp only [Command.plan, Reader.classify, hloaded]

end Plans

/-- The file that is left to be written is one that the command names. -/
theorem Command.file_mem_of_plan {c : Command} {strict : Bool} {t : FileTree}
    {events : List Event} {w : Write} {saved : Event} {printed : List String}
    (h : c.plan strict t.read = .save events w saved printed) : w.file ∈ c.files := by
  obtain ⟨events', why, hp⟩ | ⟨-, r, hp⟩ | ⟨s, hs, hp⟩ := plan_cases c strict t
  · rw [hp] at h
    cases h
  · rw [hp] at h
    cases h
  · rw [hp, Grammar.saveTo.eq_def] at h
    split at h
    · cases h
      exact mem_files_of_file? hs.file?
    · cases h

/-- A plan that is carried out on two trees reports the same, if they have the
same where it writes. -/
theorem Plan.run_local {p : Plan} {t t' : FileTree}
    (h : ∀ events w saved printed, p = .save events w saved printed →
      IsPlainName w.file ∧ t.AgreeAt w.file t') :
    (p.run t').1 = (p.run t).1 ∧ ∀ f, t.AgreeAt f t' → (p.run t).2.AgreeAt f (p.run t').2 := by
  cases p with
  | done r => exact ⟨rfl, fun f hf => hf⟩
  | save events w saved printed =>
    obtain ⟨hplain, hagree⟩ := h events w saved printed rfl
    obtain ⟨why, hw, hw'⟩ | ⟨hw, hw'⟩ := hagree.write hplain
    · simp only [Plan.run, Plan.report, hw, hw', true_and]
      exact fun f hf => hf
    · simp only [Plan.run, Plan.report, hw, hw', true_and]
      exact fun f hf => hf.put w.file w.bytes

theorem Command.run_local {c : Command} {t t' : FileTree}
    (hplain : ∀ f ∈ c.files, IsPlainName f) (h : ∀ f ∈ c.files, t.AgreeAt f t') (strict : Bool) :
    (c.run strict t').1 = (c.run strict t).1 ∧
      ∀ f, t.AgreeAt f t' → (c.run strict t).2.AgreeAt f (c.run strict t').2 := by
  have hread : ∀ f ∈ c.files, t'.read f = t.read f := fun f hf =>
    FileTree.read_of_isPlainName (hplain f hf) (h f hf)
  rw [Command.run, Command.run, Command.plan_congr hread strict]
  refine Plan.run_local fun events w saved printed hp => ?_
  have hmem := Command.file_mem_of_plan hp
  exact ⟨hplain _ hmem, h _ hmem⟩

/-- **A command line looks only at what it names.**  On two trees that have the
same under its names its outcome is the same, and what the trees had in common
they have in common afterwards. -/
theorem Line.run_local {l : Line} {t t' : FileTree} (hl : l.NamesPlain)
    (h : ∀ f, l.Names f → t.AgreeAt f t') :
    (l.run t').1 = (l.run t).1 ∧ ∀ f, t.AgreeAt f t' → (l.run t).2.AgreeAt f (l.run t').2 := by
  unfold Line.run
  cases hread : readCommandLine l.headSetting l.words with
  | error why => exact ⟨rfl, fun f hf => hf⟩
  | ok i =>
    obtain ⟨hreport, hagree⟩ := Command.run_local (c := i.command)
      (fun f hf => hl f ⟨i, hread, hf⟩) (fun f hf => h f ⟨i, hread, hf⟩) i.strict
    exact ⟨congrArg (Outcome.ran i) hreport, hagree⟩

/-! ### What a command line leaves alone -/

theorem Line.agreeAt_run {l : Line} (hl : l.NamesPlain) {f : Text} (hf : ¬ l.Names f)
    (t : FileTree) : t.AgreeAt f (l.run t).2 :=
  Line.node?_run hl.writesPlain fun h => hf h.names

namespace FileTree.SameBeyond

variable {Named Named' : Text → Prop} {t t' t'' : FileTree}

theorem refl (Named : Text → Prop) (t : FileTree) : SameBeyond Named t t :=
  ⟨fun _ _ => rfl, fun _ _ _ => Iff.rfl⟩

theorem trans (h : SameBeyond Named t t') (h' : SameBeyond Named t' t'') :
    SameBeyond Named t t'' where
  node l hl := (h'.node l hl).trans (h.node l hl)
  entries f n hf := (h'.entries f n hf).trans (h.entries f n hf)

theorem mono (hsub : ∀ f, Named f → Named' f) (h : SameBeyond Named t t') :
    SameBeyond Named' t t' where
  node l hl := h.node l fun f hf => hl f (hsub f hf)
  entries f n hf := h.entries f n fun hn => hf (hsub f hn)

/-- A tree that differs in one entry differs in the entries of that name. -/
theorem of_sameBut {file : Text} (h : t.SameBut file t') (hfile : Named file) :
    SameBeyond Named t t' where
  node l hl := h.node l (hl file hfile)
  entries f n hf := by
    have hne : f ≠ file := by
      rintro rfl
      exact hf hfile
    have hbut : ∀ s : FileTree, (f, n) ∈ s.entriesBut file ↔ (f, n) ∈ s.entries := by
      intro s
      simp [entriesBut, hne]
    rw [← hbut t', h.entries, hbut t]

end FileTree.SameBeyond

/-- A command line leaves alone what it does not name, wherever it is. -/
theorem Line.sameBeyond_run {l : Line} (hl : l.NamesPlain) (t : FileTree) :
    FileTree.SameBeyond l.Names t (l.run t).2 := by
  unfold Line.run
  cases hread : readCommandLine l.headSetting l.words with
  | error why => exact .refl _ t
  | ok i =>
    show FileTree.SameBeyond _ t (i.command.run i.strict t).2
    have hframe := i.command.frame_run i.strict t
    cases hfile : i.command.file? with
    | none =>
      rw [hframe.looks (file?_eq_none_iff.mp hfile)]
      exact .refl _ t
    | some file =>
      have hnames : l.Names file := ⟨i, hread, Command.mem_files_of_file? hfile⟩
      exact .of_sameBut (hframe.file file hfile (hl file hnames)) hnames

/-- A session leaves alone what none of its command lines names. -/
theorem sameBeyond_session {ls : List Line} (hls : ∀ l ∈ ls, l.NamesPlain) (t : FileTree) :
    FileTree.SameBeyond (fun f => ∃ l ∈ ls, l.Names f) t (t.after ls) := by
  induction ls generalizing t with
  | nil => exact .refl _ t
  | cons l ls ih =>
    have hstep := Line.sameBeyond_run (hls l List.mem_cons_self) t
    have hrest := ih (fun k hk => hls k (List.mem_cons_of_mem l hk)) (l.run t).2
    refine .trans (hstep.mono fun f hf => ⟨l, List.mem_cons_self, hf⟩) ?_
    exact hrest.mono fun f ⟨k, hk, hf⟩ => ⟨k, List.mem_cons_of_mem l hk, hf⟩

/-! ### Sessions in turns -/

theorem outcomes_cons (t : FileTree) (l : Line) (ls : List Line) :
    outcomes t (l :: ls) = (l.run t).1 :: outcomes (l.run t).2 ls := rfl

theorem Woven.mem_iff {α : Type} {p : List Bool} {as bs cs : List α} (h : Woven p as bs cs)
    {x : α} : x ∈ cs ↔ x ∈ as ++ bs := by
  induction h with
  | nil => rfl
  | first _ ih => simp [ih]
  | second _ ih => simp [ih, or_left_comm]

/-- A command line keeps to names of its own. -/
structure Line.KeepsTo (Own : Text → Prop) (l : Line) : Prop where
  plain : l.NamesPlain
  own : ∀ f, l.Names f → Own f

variable {Own Other : Text → Prop}

/-- One turn.  The shared tree agreed with that of the session whose turn it is
on the names of this session, and with that of the other session on the names
of the other; it still does when both of the former have run the command line. -/
theorem Line.KeepsTo.turn {l : Line} (hl : l.KeepsTo Own) (hapart : ∀ f, Own f → ¬ Other f)
    {own other shared : FileTree} (hown : ∀ f, Own f → own.AgreeAt f shared)
    (hother : ∀ f, Other f → other.AgreeAt f shared) :
    (l.run shared).1 = (l.run own).1 ∧
      (∀ f, Own f → (l.run own).2.AgreeAt f (l.run shared).2) ∧
      ∀ f, Other f → other.AgreeAt f (l.run shared).2 := by
  obtain ⟨hout, hagree⟩ := Line.run_local hl.plain fun f hf => hown f (hl.own f hf)
  refine ⟨hout, fun f hf => hagree f (hown f hf), fun f hf => ?_⟩
  exact (hother f hf).trans (Line.agreeAt_run hl.plain (fun hn => hapart f (hl.own f hn) hf) shared)

/-- All turns, from three trees on which the sessions agree. -/
theorem Woven.outcomes {First Second : Text → Prop} (hapart : ∀ f, First f → ¬ Second f)
    {p : List Bool} {as bs cs : List Line} (h : Woven p as bs cs)
    (has : ∀ l ∈ as, l.KeepsTo First) (hbs : ∀ l ∈ bs, l.KeepsTo Second) {ta tb t : FileTree}
    (hta : ∀ f, First f → ta.AgreeAt f t) (htb : ∀ f, Second f → tb.AgreeAt f t) :
    Woven p (outcomes ta as) (outcomes tb bs) (outcomes t cs) ∧
      (∀ f, First f → (ta.after as).AgreeAt f (t.after cs)) ∧
      ∀ f, Second f → (tb.after bs).AgreeAt f (t.after cs) := by
  -- the session whose turn it is takes a step, and so does the shared tree
  induction h generalizing ta tb t with
  | nil => exact ⟨.nil, hta, htb⟩
  | @first p a as bs cs _ ih =>
    obtain ⟨hout, hta', htb'⟩ := (has a List.mem_cons_self).turn hapart hta htb
    obtain ⟨hw, hfirst, hsecond⟩ := ih (fun l hl => has l (List.mem_cons_of_mem a hl)) hbs hta' htb'
    refine ⟨?_, hfirst, hsecond⟩
    rw [outcomes_cons, outcomes_cons, hout]
    exact .first hw
  | @second p b as bs cs _ ih =>
    have hapart' : ∀ f, Second f → ¬ First f := fun f hs hf => hapart f hf hs
    obtain ⟨hout, htb', hta'⟩ := (hbs b List.mem_cons_self).turn hapart' htb hta
    obtain ⟨hw, hfirst, hsecond⟩ := ih has (fun l hl => hbs l (List.mem_cons_of_mem b hl)) hta' htb'
    refine ⟨?_, hfirst, hsecond⟩
    rw [outcomes_cons, outcomes_cons, hout]
    exact .second hw

/-- **Sessions on different files do not interfere.**  Take two sessions whose
command lines name entries of the working directory, none of them in both, and
run their command lines in turns, in any order of turns, on any tree.  The
outcomes are those of the two sessions run alone on that tree, in the same
turns: exit status, output, errors and messages, and what is logged.  Each name
of a session ends with what it ends with when that session runs alone, and all
else, in the working directory or elsewhere, is as it was. -/
theorem sessions_do_not_interfere {p : List Bool} {as bs cs : List Line} (h : Woven p as bs cs)
    (hplain : ∀ l ∈ as ++ bs, l.NamesPlain)
    (hapart : ∀ a ∈ as, ∀ b ∈ bs, ∀ f, a.Names f → ¬ b.Names f) (t : FileTree) :
    Woven p (outcomes t as) (outcomes t bs) (outcomes t cs) ∧
      (∀ a ∈ as, ∀ f, a.Names f → (t.after as).AgreeAt f (t.after cs)) ∧
      (∀ b ∈ bs, ∀ f, b.Names f → (t.after bs).AgreeAt f (t.after cs)) ∧
      FileTree.SameBeyond (fun f => ∃ l ∈ as ++ bs, l.Names f) t (t.after cs) := by
  have has : ∀ l ∈ as, l.KeepsTo fun f => ∃ a ∈ as, a.Names f := fun l hl =>
    ⟨hplain l (List.mem_append_left bs hl), fun f hf => ⟨l, hl, hf⟩⟩
  have hbs : ∀ l ∈ bs, l.KeepsTo fun f => ∃ b ∈ bs, b.Names f := fun l hl =>
    ⟨hplain l (List.mem_append_right as hl), fun f hf => ⟨l, hl, hf⟩⟩
  have hapart' : ∀ f, (∃ a ∈ as, a.Names f) → ¬ ∃ b ∈ bs, b.Names f := by
    rintro f ⟨a, ha, haf⟩ ⟨b, hb, hbf⟩
    exact hapart a ha b hb f haf hbf
  obtain ⟨hw, hfirst, hsecond⟩ :=
    h.outcomes hapart' has hbs (t := t) (fun _ _ => rfl) fun _ _ => rfl
  refine ⟨hw, fun a ha f hf => hfirst f ⟨a, ha, hf⟩, fun b hb f hf => hsecond f ⟨b, hb, hf⟩, ?_⟩
  have hcs := sameBeyond_session (fun l hl => hplain l (h.mem_iff.mp hl)) t
  exact hcs.mono fun f ⟨l, hl, hf⟩ => ⟨l, h.mem_iff.mp hl, hf⟩

/-- While one session makes a grammar and adds a rule to it, another makes a
second grammar in between. -/
theorem sessions_do_not_interfere_in_between :
    ∃ newG addG newH : Line,
      newG.words = ["new".toList, ['g'], ['G']] ∧
      addG.words = ["add".toList, ['g'], ['S'], ['a']] ∧
      newH.words = ["new".toList, ['h'], ['H']] ∧
      (∀ l ∈ [newG, addG] ++ [newH], l.NamesPlain) ∧
      (∀ a ∈ [newG, addG], ∀ b ∈ [newH], ∀ f, a.Names f → ¬ b.Names f) ∧
      Woven [true, false, true] (outcomes (.ofEntries []) [newG, addG])
        (outcomes (.ofEntries []) [newH]) (outcomes (.ofEntries []) [newG, newH, addG]) ∧
      ((FileTree.ofEntries []).after [newG, addG]).AgreeAt ['g']
        ((FileTree.ofEntries []).after [newG, newH, addG]) := by
  obtain ⟨newG, hnewG, hG⟩ : ∃ l : Line, l.words = ["new".toList, ['g'], ['G']] ∧
      ∀ f, l.Names f ↔ f ∈ [['g']] :=
    ⟨⟨_, none, none⟩, rfl, fun _ => Line.names_iff (i := ⟨false, 0, .new ['g'] ['G'] false⟩)
      (by decide +kernel)⟩
  obtain ⟨addG, haddG, hG'⟩ : ∃ l : Line, l.words = ["add".toList, ['g'], ['S'], ['a']] ∧
      ∀ f, l.Names f ↔ f ∈ [['g']] :=
    ⟨⟨_, none, none⟩, rfl, fun _ => Line.names_iff (i := ⟨false, 0, .add ['g'] ['S'] ['a']⟩)
      (by decide +kernel)⟩
  obtain ⟨newH, hnewH, hH⟩ : ∃ l : Line, l.words = ["new".toList, ['h'], ['H']] ∧
      ∀ f, l.Names f ↔ f ∈ [['h']] :=
    ⟨⟨_, none, none⟩, rfl, fun _ => Line.names_iff (i := ⟨false, 0, .new ['h'] ['H'] false⟩)
      (by decide +kernel)⟩
  have hplain : ∀ l ∈ [newG, addG] ++ [newH], l.NamesPlain := by
    have hg : IsPlainName ['g'] := ⟨by decide, by decide, by decide, by decide⟩
    have hh : IsPlainName ['h'] := ⟨by decide, by decide, by decide, by decide⟩
    simp [Line.NamesPlain, hG, hG', hH, hg, hh]
  have hapart : ∀ a ∈ [newG, addG], ∀ b ∈ [newH], ∀ f, a.Names f → ¬ b.Names f := by
    simp [hG, hG', hH]
  obtain ⟨hwoven, hfirst, -, -⟩ := sessions_do_not_interfere (.first (.second (.first .nil)))
    hplain hapart (.ofEntries [])
  exact ⟨newG, addG, newH, hnewG, haddG, hnewH, hplain, hapart, hwoven,
    hfirst newG List.mem_cons_self ['g'] ((hG _).mpr List.mem_cons_self)⟩

end PhraseGrammar
