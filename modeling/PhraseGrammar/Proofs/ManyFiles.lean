/-
PhraseGrammar/Proofs/ManyFiles.lean

Classifying many files is classifying each one.

The grammars that can be read go through a catalog: a first pass enters them
and keeps the keys beside the names of the files, a second looks each of them up
again.  The detour loses nothing, since a key that was handed out stays good
while others are (`Loads.load`, the step; `loads_load`, the run).  So a report is
made of one piece for each file, which the other files have no part in:

    printed  = the report of each file that can be read,
    failures = the failure of each file that cannot    (both in the order given)

(`printed_classify`, `failures_classify`).

Main result: what is printed, the exit status, the message and the failure can
be told from running the command on each file alone (`classifies_each`).
-/
import Mathlib.Data.List.Induction
import PhraseGrammar.Proofs.Lookup
import PhraseGrammar.Proofs.Plans

namespace PhraseGrammar

/-! ### Lists of parts that may be missing -/

section Parts

variable {α β γ : Type}

/-- What is there is named by the elements that have it. -/
theorem map_filter_isSome {part? : α → Option β} {f : α → γ} {g : β → γ}
    (h : ∀ a b, part? a = some b → f a = g b) (as : List α) :
    (as.filter fun a => (part? a).isSome).map f = (as.filterMap part?).map g := by
  induction as with
  | nil => rfl
  | cons a as ih =>
    cases ha : part? a with
    | none => simpa [ha] using ih
    | some b => simpa [ha, h a b ha] using ih

/-- Where each element has one of two parts, there are as many parts as elements. -/
theorem length_filterMap_add_length_filterMap {one? : α → Option β} {other? : α → Option γ}
    (h : ∀ a, (one? a).isSome = !(other? a).isSome) (as : List α) :
    (as.filterMap one?).length + (as.filterMap other?).length = as.length := by
  induction as with
  | nil => rfl
  | cons a as ih =>
    have ha := h a
    cases h₁ : one? a <;> cases h₂ : other? a <;> simp [h₁, h₂] at ha ⊢ <;> omega

end Parts

/-! ### What reading one file gives -/

namespace Reader

/-- The grammar in a file, if it can be read. -/
def grammar? (read : Reader) (file : Text) : Option Grammar :=
  (read.grammar file).2.toOption

/-- Why the grammar in a file cannot be read, if it cannot. -/
def failure? (read : Reader) (file : Text) : Option CommandError :=
  match (read.grammar file).2 with
  | .ok _ => none
  | .error why => some why

theorem isSome_grammar? (read : Reader) (file : Text) :
    (read.grammar? file).isSome = !(read.failure? file).isSome := by
  rw [grammar?, failure?]
  cases (read.grammar file).2 <;> rfl

end Reader

theorem grammar?_eq_stored? (t : FileTree) (file : Text) :
    Reader.grammar? t.read file = t.stored? file := by
  obtain ⟨hnone, events, why, hg⟩ | ⟨bytes, g, hr, hd, hg⟩ := grammar_cases t file
  · rw [Reader.grammar?, hg, hnone]
    rfl
  · rw [Reader.grammar?, hg, stored?_eq_some_iff.mpr ⟨bytes, hr, hd⟩]
    rfl

/-! ### The first pass -/

/-- Everything is in place after some files: under each key is the grammar that
its file gives, and each file has a key or a failure. -/
structure Loads (read : Reader) (files : List Text) (l : Loaded) : Prop where
  found : ∀ s ∈ l.sources, ∃ g, l.catalog.get? s.1 = some g ∧ read.grammar? s.2 = some g
  sources : l.sources.map (·.2) = files.filter fun file => (read.grammar? file).isSome
  failures : l.failures = files.filterMap read.failure?

namespace Loads

variable {read : Reader} {files : List Text} {l : Loaded}

/-- One more file leaves everything in place. -/
theorem load (h : Loads read files l) (file : Text) :
    Loads read (files ++ [file]) (l.load read file) := by
  cases hg : read.grammar file with
  | mk events result =>
    cases result with
    | error why =>
      have hload : l.load read file =
          { l with events := l.events ++ events, failures := l.failures ++ [why] } := by
        rw [Loaded.load, hg]
      have hgrammar : read.grammar? file = none := by rw [Reader.grammar?, hg]; rfl
      have hfailure : read.failure? file = some why := by rw [Reader.failure?, hg]
      rw [hload]
      refine ⟨h.found, ?_, ?_⟩
      · simpa [List.filter_append, hgrammar] using h.sources
      · simpa [List.filterMap_append, hfailure] using h.failures
    | ok g =>
      have hload : l.load read file =
          { l with
            catalog := l.catalog.push g
            sources := l.sources ++ [(l.catalog.nextKey, file)]
            events := l.events ++ events } := by
        rw [Loaded.load, hg]
        rfl
      have hgrammar : read.grammar? file = some g := by rw [Reader.grammar?, hg]; rfl
      have hfailure : read.failure? file = none := by rw [Reader.failure?, hg]
      rw [hload]
      refine ⟨?_, ?_, ?_⟩
      · intro s hs
        rcases List.mem_append.mp hs with hs | hs
        · -- a key that was handed out before is not the one handed out now
          obtain ⟨k, hk, hread⟩ := h.found s hs
          have hne : s.1 ≠ l.catalog.nextKey := by
            intro heq
            rw [heq, Register.get?_eq_none_iff.mpr l.catalog.nextKey_not_mem_keys] at hk
            cases hk
          exact ⟨k, by rw [Register.get?_push, if_neg hne, hk], hread⟩
        · obtain rfl := List.mem_singleton.mp hs
          exact ⟨g, by rw [Register.get?_push, if_pos rfl], hgrammar⟩
      · simpa [List.filter_append, hgrammar] using h.sources
      · simpa [List.filterMap_append, hfailure] using h.failures

/-- What is looked up again is what the files give, in their order. -/
theorem grammars (h : Loads read files l) :
    l.grammars = files.filterMap fun file => (read.grammar? file).map (file, ·) := by
  calc l.grammars
      = l.sources.filterMap fun s => (read.grammar? s.2).map (s.2, ·) := by
        refine List.filterMap_congr fun s hs => ?_
        obtain ⟨g, hkey, hfile⟩ := h.found s hs
        rw [hkey, hfile]
    _ = (files.filter fun file => (read.grammar? file).isSome).filterMap
          fun file => (read.grammar? file).map (file, ·) := by
        rw [← h.sources, List.filterMap_map]
        rfl
    _ = files.filterMap fun file => (read.grammar? file).map (file, ·) := by
        rw [List.filterMap_filter]
        refine List.filterMap_congr fun file _ => ?_
        cases read.grammar? file <;> rfl

end Loads

/-- Reading all the files leaves everything in place. -/
theorem loads_load (read : Reader) (files : List Text) : Loads read files (read.load files) := by
  induction files using List.reverseRecOn with
  | nil => exact ⟨List.forall_mem_nil _, rfl, rfl⟩
  | append_singleton files file ih =>
    rw [Reader.load, List.foldl_append]
    exact ih.load file

/-! ### The report -/

namespace Reader

variable (read : Reader) (files : List Text) (explain : Bool)

/-- What is printed has one piece for each file that can be read. -/
theorem printed_classify : (read.classify files explain).printed =
    files.filterMap fun file => (read.grammar? file).map (Grammar.report file explain) := by
  show (read.load files).grammars.map (fun p => p.2.report p.1 explain) = _
  rw [(loads_load read files).grammars, List.map_filterMap]
  refine List.filterMap_congr fun file _ => ?_
  cases read.grammar? file <;> rfl

/-- What fails is one failure for each file that cannot be read. -/
theorem failures_classify :
    (read.classify files explain).failures = files.filterMap read.failure? :=
  (loads_load read files).failures

/-- Each file adds what is printed of it alone. -/
theorem printed_classify_eq_flatMap : (read.classify files explain).printed =
    files.flatMap fun file => (read.classify [file] explain).printed := by
  rw [printed_classify, List.filterMap_eq_flatMap_toList]
  refine List.flatMap_congr fun file _ => ?_
  rw [printed_classify]
  cases h : read.grammar? file <;> simp [h]

theorem failures_classify_singleton (file : Text) :
    (read.classify [file] explain).failures = (read.failure? file).toList := by
  rw [failures_classify]
  cases h : read.failure? file <;> simp [h]

/-- There is a piece or a failure for each file. -/
theorem length_printed_add_length_failures :
    (read.classify files explain).printed.length +
      (read.classify files explain).failures.length = files.length := by
  rw [printed_classify, failures_classify]
  refine length_filterMap_add_length_filterMap (fun file => ?_) files
  rw [Option.isSome_map, isSome_grammar?]

end Reader

namespace Report

theorem exitStatus_eq_one_iff {r : Report} : r.exitStatus = 1 ↔ r.failures ≠ [] := by
  rw [exitStatus]
  cases r.failures <;> simp

/-- What is printed piece by piece is the pieces one after the other. -/
theorem output_of_printed_eq_flatMap {α : Type} {r : Report} {as : List α} {part : α → Report}
    (h : r.printed = as.flatMap fun a => (part a).printed) :
    r.output = String.join (as.map fun a => (part a).output) := by
  rw [output, h]
  clear h
  induction as with
  | nil => rfl
  | cons a as ih =>
    rw [List.flatMap_cons, List.map_append, String.join_append, ih, List.map_cons,
      String.join_cons, output]

end Report

/-! ### One run and many -/

/-- What classifying files reports. -/
def FileTree.classified (t : FileTree) (strict explain : Bool) (files : List Text) : Report :=
  ((Command.classify files explain).run strict t).1

/-- The files among these that cannot be classified even alone. -/
def FileTree.failing (t : FileTree) (strict explain : Bool) (files : List Text) : List Text :=
  files.filter fun file => (t.classified strict explain [file]).exitStatus = 1

/-- Classifying files comes to classifying each of them alone.  `output` to
`many` are about what a user sees; `found`, `sources` and `counted` say that
nothing is lost on the way. -/
structure ClassifiesEach (t : FileTree) (strict explain : Bool) (files : List Text) : Prop where
  output : (t.classified strict explain files).output =
    String.join (files.map fun file => (t.classified strict explain [file]).output)
  exitStatus : (t.classified strict explain files).exitStatus = 1 ↔
    ∃ file ∈ files, (t.classified strict explain [file]).exitStatus = 1
  message : (t.classified strict explain files).message =
    "\n".intercalate ((t.failing strict explain files).map fun file =>
      (t.classified strict explain [file]).message)
  one : ∀ file, t.failing strict explain files = [file] →
    (t.classified strict explain files).failure? = (t.classified strict explain [file]).failure?
  many : 2 ≤ (t.failing strict explain files).length →
    ∃ whys, (t.classified strict explain files).failure? = some (.many whys) ∧
      whys.map (some <| .one ·) = (t.failing strict explain files).map fun file =>
        (t.classified strict explain [file]).failure?
  found : ∀ s ∈ (Reader.load t.read files).sources,
    ∃ g, (Reader.load t.read files).catalog.get? s.1 = some g ∧ t.stored? s.2 = some g
  sources : (Reader.load t.read files).sources.map (·.2) =
    files.filter fun file => (t.stored? file).isSome
  counted : (t.classified strict explain files).printed.length +
    (t.classified strict explain files).failures.length = files.length

section Failing

variable (t : FileTree) (strict explain : Bool) (files : List Text)

theorem FileTree.classified_eq :
    t.classified strict explain files = Reader.classify t.read files explain :=
  rfl

theorem FileTree.failing_eq :
    t.failing strict explain files = files.filter fun file =>
      (Reader.failure? t.read file).isSome := by
  refine List.filter_congr fun file _ => ?_
  rw [classified_eq, Bool.eq_iff_iff, decide_eq_true_eq, Report.exitStatus_eq_one_iff,
    Reader.failures_classify_singleton]
  cases Reader.failure? t.read file <;> simp

/-- What is told of each failure is told of the file alone. -/
theorem FileTree.map_failing {γ : Type} {f : Report → γ} {g : CommandError → γ}
    (h : ∀ r why, r.failures = [why] → f r = g why) :
    (t.failing strict explain files).map (fun file => f (t.classified strict explain [file])) =
      (t.classified strict explain files).failures.map g := by
  rw [failing_eq, classified_eq, Reader.failures_classify]
  refine map_filter_isSome (fun file why hwhy => h _ _ ?_) files
  rw [classified_eq, Reader.failures_classify_singleton, hwhy]
  rfl

/-- As many files fail as there are failures. -/
theorem FileTree.length_failing : (t.failing strict explain files).length =
    (t.classified strict explain files).failures.length := by
  have hmap := t.map_failing strict explain files (f := fun _ => ()) (g := fun _ => ())
    fun _ _ _ => rfl
  simpa using congrArg List.length hmap

end Failing

theorem Report.message_of_failures {r : Report} {why : CommandError} (h : r.failures = [why]) :
    r.message = why.message := by
  rw [message, h]
  exact String.intercalate_singleton

theorem Report.failure?_of_failures {r : Report} {why : CommandError} (h : r.failures = [why]) :
    r.failure? = some (.one why) := by
  rw [failure?, h]

theorem Report.failure?_of_two_le {r : Report} (h : 2 ≤ r.failures.length) :
    r.failure? = some (.many r.failures) := by
  rw [failure?]
  split
  · next hnil => simp [hnil] at h
  · next hone => simp [hone] at h
  · rfl

/-- **Classifying many files is classifying each one.**  Whatever is in the
directory and however often a file is named, the run on all files prints what
the runs on each print, one after the other, and fails as those that fail, with
one failure alone as itself.  Every key that was handed out for a grammar is
found again. -/
theorem classifies_each (t : FileTree) (strict explain : Bool) (files : List Text) :
    ClassifiesEach t strict explain files where
  output := Report.output_of_printed_eq_flatMap (Reader.printed_classify_eq_flatMap _ _ _)
  exitStatus := by
    rw [Report.exitStatus_eq_one_iff, ← List.length_pos_iff, ← FileTree.length_failing,
      FileTree.failing, List.length_pos_iff_exists_mem]
    simp only [List.mem_filter, decide_eq_true_eq]
  message := by
    rw [t.map_failing strict explain files fun _ _ => Report.message_of_failures]
    rfl
  one file h := by
    have hmap := t.map_failing strict explain files fun _ _ => Report.failure?_of_failures
    rw [h, List.map_singleton] at hmap
    obtain ⟨why, hwhy, hone⟩ := List.map_eq_singleton_iff.mp hmap.symm
    rw [Report.failure?_of_failures hwhy, hone]
  many h := by
    have hmap := t.map_failing strict explain files fun _ _ => Report.failure?_of_failures
    rw [FileTree.length_failing] at h
    exact ⟨_, Report.failure?_of_two_le h, hmap.symm⟩
  found s hs := by
    obtain ⟨g, hkey, hfile⟩ := (loads_load t.read files).found s hs
    exact ⟨g, hkey, grammar?_eq_stored? t s.2 ▸ hfile⟩
  sources := by
    rw [(loads_load t.read files).sources]
    exact List.filter_congr fun file _ => by rw [grammar?_eq_stored?]
  counted := Reader.length_printed_add_length_failures _ _ _

/-- A missing file that is named twice fails twice. -/
example : (FileTree.ofEntries [(['g'], .file (Utf8.encode "G\n\nS -> a".toList))]).failing
    false true [['x'], ['g'], ['x']] = [['x'], ['x']] := by decide +kernel

end PhraseGrammar
