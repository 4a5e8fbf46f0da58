/-
PhraseGrammar/Proofs/Frame.lean

What a command line leaves as it was.

A command line writes at most one file and only when it succeeds.  So a tree
can change in one way: one location, which held a file or nothing, holds a new
file (`FileTree.write_cases`), and everything here is about that one change:

* at every other location the tree is the same (`node?_put_of_ne`), and in the
  working directory so is the list of the other entries
  (`entriesBut_put`);
* a path that led to something leads to the same thing, if the one location
  was free (`Keeps.put`).

A plain name, one without slashes that is not `.` or `..`, always points at the
entry of that name in the working directory (`target_of_isPlainName`); through
other names, such as `dir/../g.txt`, a file has many paths.

Main results: what one command line may change (`Line.run_frame`), and that a
session of them leaves alone what none of them names (`node?_session`).
-/
import PhraseGrammar.Proofs.Plans

namespace PhraseGrammar

/-! ### Names, places and what may change -/

/-- A name of an entry of the working directory, as opposed to a longer path. -/
structure IsPlainName (file : Text) : Prop where
  ne_nil : file ≠ []
  slash : '/' ∉ file
  ne_here : file ≠ ['.']
  ne_above : file ≠ ['.', '.']

namespace FileTree

/-- What stands where a path points, if anything does. -/
def at? (t : FileTree) (path : Text) : Option Node :=
  match t.target path with
  | .error _ => none
  | .ok .through => some .directory
  | .ok (.named directory name _) => t.node? (directory.child name)

/-- The entries of the working directory, in order, without the one of a name. -/
def entriesBut (t : FileTree) (file : Text) : List (Text × Node) :=
  t.entries.filter (·.1 ≠ file)

/-- Two trees differ at most in one entry of the working directory. -/
structure SameBut (file : Text) (t t' : FileTree) : Prop where
  node : ∀ l, l ≠ FileLocation.working.child file → t'.node? l = t.node? l
  entries : t'.entriesBut file = t.entriesBut file

/-- Every path that points at something in the first tree points at the same
thing in the second. -/
def Keeps (t t' : FileTree) : Prop :=
  ∀ path n, t.at? path = some n → t'.at? path = some n

end FileTree

/-- The file a command may write. -/
def Command.file? : Command → Option Text
  | .new file .. | .add file .. | .edit file .. | .remove file .. => some file
  | .list _ | .classify .. => none

/-- Whether a command line was run and nothing failed. -/
def Outcome.Succeeded : Outcome → Prop
  | .notRun _ => False
  | .ran _ report => report.exitStatus = 0

/-- The file that a command line may write. -/
def Line.MayWrite (l : Line) (file : Text) : Prop :=
  ∃ i, readCommandLine l.headSetting l.words = .ok i ∧ i.command.file? = some file

/-- A command line writes to a plain name, if it writes. -/
def Line.WritesPlain (l : Line) : Prop :=
  ∀ file, l.MayWrite file → IsPlainName file

/-! ### One file put in place -/

theorem child_injective {l : FileLocation} {name name' : Text} (h : l.child name = l.child name') :
    name = name' := by
  simpa [FileLocation.child] using h

namespace FileTree

theorem SameBut.refl (file : Text) (t : FileTree) : SameBut file t t :=
  ⟨fun _ _ => rfl, rfl⟩

theorem Keeps.refl (t : FileTree) : Keeps t t :=
  fun _ _ h => h

/-- What is directly in the working directory: a location's name, if it has just
the one. -/
theorem entries_cons (e : FileLocation × Node) (es : List (FileLocation × Node)) :
    (FileTree.mk (e :: es)).entries = (FileTree.mk [e]).entries ++ (FileTree.mk es).entries := by
  unfold entries
  rw [← List.filterMap_append, List.singleton_append]

theorem entriesBut_cons (file : Text) (e : FileLocation × Node) (es : List (FileLocation × Node)) :
    (FileTree.mk (e :: es)).entriesBut file =
      (FileTree.mk [e]).entriesBut file ++ (FileTree.mk es).entriesBut file := by
  unfold entriesBut
  rw [entries_cons, List.filter_append]

theorem entriesBut_child (file : Text) (n : Node) :
    (FileTree.mk [(FileLocation.working.child file, n)]).entriesBut file = [] := by
  have he : (FileTree.mk [(FileLocation.working.child file, n)]).entries = [(file, n)] := rfl
  rw [entriesBut, he]
  simp

/-- Putting a file at a name leaves the list of the other entries alone. -/
theorem entriesBut_put (t : FileTree) (file : Text) (bytes : Bytes) :
    (t.put (FileLocation.working.child file) bytes).entriesBut file = t.entriesBut file := by
  obtain ⟨es⟩ := t
  show (FileTree.mk (putNode _ _ es)).entriesBut file = (FileTree.mk es).entriesBut file
  -- follows `putNode`: the location is met at the head, or later, or not at all
  induction es with
  | nil => exact entriesBut_child file _
  | cons e es ih =>
    by_cases he : e.1 = FileLocation.working.child file
    · rw [putNode, if_pos he, entriesBut_cons, entriesBut_child, entriesBut_cons file e]
      obtain ⟨l, n⟩ := e
      obtain rfl : l = FileLocation.working.child file := he
      rw [entriesBut_child]
    · rw [putNode, if_neg he, entriesBut_cons, ih, ← entriesBut_cons]

theorem SameBut.put (t : FileTree) (file : Text) (bytes : Bytes) :
    SameBut file t (t.put (FileLocation.working.child file) bytes) where
  node _ h := node?_put_of_ne t h bytes
  entries := entriesBut_put t file bytes

/-- A file that is put where nothing was is in nobody's way. -/
theorem Keeps.put {t : FileTree} {x : FileLocation} (hx : t.node? x = none) (bytes : Bytes) :
    Keeps t (t.put x bytes) := by
  intro path n h
  unfold at? at h ⊢
  cases ht : t.target path with
  | error why => rw [ht] at h; cases h
  | ok g =>
    rw [ht] at h
    rw [target_put (by simp [hx]) ht]
    cases g with
    | through => exact h
    | named directory name slash =>
      -- something was here, so this is not the place that was free
      have hn : t.node? (directory.child name) = some n := h
      have hne : directory.child name ≠ x := by
        rintro rfl
        rw [hx] at hn
        cases hn
      show (t.put x bytes).node? (directory.child name) = some n
      rw [node?_put_of_ne t hne]
      exact hn

/-! ### Writes -/

/-- A plain name points at the entry of that name in every tree, unless no tree
can have it. -/
theorem target_of_isPlainName {file : Text} (hf : IsPlainName file) (t : FileTree) :
    t.target file =
      if '\x00' ∈ file then .error .hasNul
      else if pathBytesLimit ≤ (Utf8.encode file).length then .error .nameTooLong
      else .ok (.named .working file false) := by
  have hnames : pathNames file = [file] := by
    rw [pathNames, pieces_eq_singleton hf.slash]
    simp [hf.ne_nil]
  have hstart : file.head? ≠ some '/' := fun hs => hf.slash (List.mem_of_head? hs)
  have hend : file.getLast? ≠ some '/' := fun hs => hf.slash (List.mem_of_getLast? hs)
  have hdots : ¬ (file = ['.'] ∨ file = ['.', '.']) := by
    rintro (hd | hd)
    · exact hf.ne_here hd
    · exact hf.ne_above hd
  rw [target, if_neg hf.ne_nil, hnames]
  simp only [List.getLast?_singleton, List.dropLast_singleton, List.foldlM_nil, pathStart,
    if_neg hstart, if_neg hdots, hend, decide_false, bind, Except.bind, pure, Except.pure]

theorem eq_named_of_isPlainName {t : FileTree} {file : Text} {g : Target} (hf : IsPlainName file)
    (h : t.target file = .ok g) : g = .named .working file false := by
  rw [target_of_isPlainName hf] at h
  split at h
  · cases h
  · split at h
    · cases h
    · exact (Except.ok.inj h).symm

/-- What is read under a plain name depends on that entry alone. -/
theorem read_of_isPlainName {t t' : FileTree} {file : Text} (hf : IsPlainName file)
    (h : t'.node? (FileLocation.working.child file) = t.node? (FileLocation.working.child file)) :
    t'.read file = t.read file := by
  rw [read, read, target_of_isPlainName hf, target_of_isPlainName hf]
  split
  · rfl
  · split
    · rfl
    · simp only [bind, Except.bind, h]

/-- A write to a plain name changes that entry and no other. -/
theorem SameBut.write {t t' : FileTree} {w : Write} (hf : IsPlainName w.file)
    (h : t.write w = .ok t') : SameBut w.file t t' := by
  obtain ⟨directory, name, ht, -, -, rfl⟩ := write_cases h
  obtain ⟨rfl, rfl, -⟩ := Target.named.inj (eq_named_of_isPlainName hf ht)
  exact SameBut.put t w.file w.bytes

/-- Writing a new file takes nothing away, and there was nothing at its path. -/
theorem Keeps.write {t t' : FileTree} {w : Write} (hm : w.mode = .create)
    (h : t.write w = .ok t') : Keeps t t' ∧ t.at? w.file = none := by
  obtain ⟨directory, name, ht, -, hx, rfl⟩ := write_cases h
  refine ⟨Keeps.put (hx hm) w.bytes, ?_⟩
  rw [at?, ht]
  exact hx hm

end FileTree

/-! ### Commands -/

theorem file?_eq_none_iff {c : Command} : c.file? = none ↔ c.Looks := by
  constructor
  · intro h
    cases c with
    | list file => exact .list file
    | classify files explain => exact .classify files explain
    | new | add | edit | remove => cases h
  · rintro (_ | _) <;> rfl

/-- A command saves to the file it may write. -/
theorem Saves.file? {t : FileTree} {c : Command} {s : Saving} (h : Saves t c s) :
    c.file? = some s.file := by
  cases h with
  | new file name force => rfl
  | edit he _ _ _ =>
    cases c with
    | add | edit | remove => cases he; rfl
    | new | list | classify => cases he

/-- Without force, a new grammar is only saved to a new file. -/
theorem Saves.mode_of_new {t : FileTree} {file name : Text} {s : Saving}
    (h : Saves t (.new file name false) s) : s.mode = .create := by
  cases h with
  | new => rfl
  | edit he _ _ _ => cases he

/-- A run that leaves the tree as it was, or that saves and succeeds. -/
theorem Command.run_unchanged_or (c : Command) (strict : Bool) (t : FileTree) :
    (c.run strict t).2 = t ∨
    ¬ c.Looks ∧ (c.run strict t).1.exitStatus = 0 ∧
      ∃ s, Saves t c s ∧ t.write s.write = .ok (c.run strict t).2 := by
  obtain ⟨events, why, hr⟩ | ⟨-, hr⟩ | ⟨s, t', hs, -, hw, hr⟩ := c.run_cases strict t
  · exact Or.inl (by rw [hr])
  · exact Or.inl hr
  · refine Or.inr ⟨?_, by rw [hr]; rfl, s, hs, by rw [hr]; exact hw⟩
    rw [← file?_eq_none_iff, hs.file?]
    simp

/-- What a command may change.  `looks`: one that only looks changes nothing.
`file`: one on a plain file name changes that entry and no other, in the working
directory and everywhere else.  `new`: without force, a path that points at
something goes on pointing at it, and if that is the path of the command,
nothing is changed at all. -/
structure Command.Frame (c : Command) (t t' : FileTree) : Prop where
  looks : c.Looks → t' = t
  file : ∀ file, c.file? = some file → IsPlainName file → t.SameBut file t'
  new : ∀ file name, c = .new file name false → t.Keeps t' ∧ (t.at? file ≠ none → t' = t)

theorem Command.Frame.refl (c : Command) (t : FileTree) : c.Frame t t where
  looks _ := rfl
  file file _ _ := FileTree.SameBut.refl file t
  new _ _ _ := ⟨FileTree.Keeps.refl t, fun _ => rfl⟩

/-- Every run keeps to what its command may change. -/
theorem Command.frame_run (c : Command) (strict : Bool) (t : FileTree) :
    c.Frame t (c.run strict t).2 := by
  obtain hr | ⟨hl, -, s, hs, hw⟩ := c.run_unchanged_or strict t
  · rw [hr]
    exact Command.Frame.refl c t
  · constructor
    · intro h
      exact absurd h hl
    · -- the file that was saved to is the one the command names
      intro file hc hf
      obtain rfl : s.file = file := by
        rw [hs.file?] at hc
        exact Option.some.inj hc
      exact FileTree.SameBut.write hf hw
    · rintro file name rfl
      obtain ⟨hk, hn⟩ := FileTree.Keeps.write hs.mode_of_new hw
      obtain rfl : s.file = file := (Option.some.inj hs.file?).symm
      exact ⟨hk, fun h => absurd hn h⟩

/-! ### Command lines -/

/-- A command line that can be read runs its command. -/
theorem Line.run_of_toOption {l : Line} {i : Invocation}
    (h : (readCommandLine l.headSetting l.words).toOption = some i) (t : FileTree) :
    l.run t = (.ran i (i.command.run i.strict t).1, (i.command.run i.strict t).2) := by
  unfold Line.run
  cases hr : readCommandLine l.headSetting l.words with
  | error why => rw [hr] at h; cases h
  | ok j =>
    rw [hr] at h
    cases h
    rfl

/-- **A command line that fails changes nothing, and one that succeeds changes
its own file.**  Whatever the tree, the words and the settings: unless the
command line was run and its exit status is 0, the tree it leaves is the one it
met, and in every case it keeps to what its command may change. -/
theorem Line.run_frame (l : Line) (t : FileTree) :
    (¬ (l.run t).1.Succeeded → (l.run t).2 = t) ∧
    ∀ invocation report, (l.run t).1 = .ran invocation report →
      invocation.command.Frame t (l.run t).2 := by
  unfold Line.run
  cases readCommandLine l.headSetting l.words with
  | error why => exact ⟨fun _ => rfl, fun _ _ h => by cases h⟩
  | ok i =>
    constructor
    · intro hs
      obtain hr | ⟨-, h0, -⟩ := i.command.run_unchanged_or i.strict t
      · exact hr
      · exact absurd h0 hs
    · rintro _ _ ⟨⟩
      exact i.command.frame_run i.strict t

/-- Where a directory has the name, a new grammar is not written; where another
file is beside it, it is, and that file stays. -/
theorem Line.run_frame_new :
    (Line.run ⟨["new".toList, ['g'], ['G']], none, none⟩ (.ofEntries [(['g'], .directory)])).2 =
      .ofEntries [(['g'], .directory)] ∧
    (Line.run ⟨["new".toList, ['g'], ['G']], none, none⟩ (.ofEntries [(['h'], .file [])])).2.node?
      (FileLocation.working.child ['h']) = some (.file []) := by
  have hran : ∀ t : FileTree, (Line.run ⟨["new".toList, ['g'], ['G']], none, none⟩ t).1 =
      .ran ⟨false, 0, .new ['g'] ['G'] false⟩ ((Command.new ['g'] ['G'] false).run false t).1 := by
    intro t
    rw [Line.run_of_toOption (i := ⟨false, 0, .new ['g'] ['G'] false⟩) (by decide +kernel)]
  constructor
  · refine (Line.run_frame _ _).1 ?_
    rw [hran]
    show ¬ ((Command.new ['g'] ['G'] false).run false _).1.exitStatus = 0
    decide
  · have hframe := (Line.run_frame ⟨["new".toList, ['g'], ['G']], none, none⟩
      (.ofEntries [(['h'], .file [])])).2 _ _ (hran _)
    exact (hframe.file ['g'] rfl ⟨by decide, by decide, by decide, by decide⟩).node _ (by decide)

/-! ### Sessions -/

/-- A command line leaves an entry alone that it may not write. -/
theorem Line.node?_run {l : Line} {t : FileTree} {f : Text} (hl : l.WritesPlain)
    (hf : ¬ l.MayWrite f) :
    (l.run t).2.node? (FileLocation.working.child f) = t.node? (FileLocation.working.child f) := by
  unfold Line.run
  cases hread : readCommandLine l.headSetting l.words with
  | error why => rfl
  | ok i =>
    have hframe := i.command.frame_run i.strict t
    show (i.command.run i.strict t).2.node? _ = _
    cases hfile : i.command.file? with
    | none => rw [hframe.looks (file?_eq_none_iff.mp hfile)]
    | some file =>
      have hmay : l.MayWrite file := ⟨i, hread, hfile⟩
      refine (hframe.file file hfile (hl file hmay)).node _ ?_
      intro hc
      exact hf (child_injective hc ▸ hmay)

/-- **A session leaves alone what it does not name.**  However many command
lines there are, and however they end, an entry that none of them may write is
as it was. -/
theorem node?_session {t : FileTree} {ls : List Line} {f : Text}
    (hls : ∀ l ∈ ls, l.WritesPlain) (hf : ∀ l ∈ ls, ¬ l.MayWrite f) :
    (ls.foldl (fun t l => (l.run t).2) t).node? (FileLocation.working.child f) =
      t.node? (FileLocation.working.child f) := by
  induction ls generalizing t with
  | nil => rfl
  | cons l ls ih =>
    rw [List.foldl_cons]
    have hstep := Line.node?_run (t := t) (hls l List.mem_cons_self) (hf l List.mem_cons_self)
    rw [← hstep]
    exact ih (fun k hk => hls k (List.mem_cons_of_mem l hk))
      fun k hk => hf k (List.mem_cons_of_mem l hk)

end PhraseGrammar
