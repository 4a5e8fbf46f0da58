/-
PhraseGrammar/Proofs/EventLog.lean

What the log says, and what happened.

A command logs what it read, then what it judged, and last what it wrote; only the
last is more than a detail.  So a plan is *quiet*: before its write, whatever that
comes to, all is of level debug (`Command.quiet_plan`).  The event of the write is
added when the write is done and not before, and the level info tells the runs that
changed something from all others.

What is logged of reading and of judging is one piece for each file, in the order of
the files (`Reader.events_load`, by induction on the files); the detour through the
catalog does not show here either (`Loads.grammars`).

Main result: `log_tells_what_happened`.
-/
import PhraseGrammar.Proofs.ManyFiles
import PhraseGrammar.Proofs.Sameness

namespace PhraseGrammar

/-! ### What is logged -/

/-- The events of a command line that are shown. -/
def Line.logged (l : Line) (t : FileTree) : List Event :=
  match (l.run t).1 with
  | .notRun _ => []
  | .ran i report => report.events.filter (Filter.choose l.logSetting i.verbosity).shows

/-- Whether all events of a command line are shown. -/
def Line.LogsAll (l : Line) : Prop :=
  ∀ i, readCommandLine l.headSetting l.words = .ok i →
    ∀ e, (Filter.choose l.logSetting i.verbosity).shows e = true

/-- Asking twice for more shows all events, if nothing else is set. -/
theorem Line.logsAll_of_verbosity {l : Line} (hset : l.logSetting = none)
    (h : ∀ i, readCommandLine l.headSetting l.words = .ok i → 2 ≤ i.verbosity) : l.LogsAll := by
  intro i hi e
  obtain ⟨n, hn⟩ := Nat.exists_eq_add_of_le' (h i hi)
  have hfilter : Filter.choose l.logSetting i.verbosity = Filter.upTo .debug := by
    rw [hset, hn]
    rfl
  rw [hfilter, Filter.shows_upTo]
  cases e <;> rfl

/-- A command line is not run, or its command is. -/
theorem Line.run_cases (l : Line) (t : FileTree) :
    (∃ why, l.run t = (.notRun why, t)) ∨
      ∃ i, readCommandLine l.headSetting l.words = .ok i ∧
        l.run t = (.ran i (i.command.run i.strict t).1, (i.command.run i.strict t).2) := by
  unfold Line.run
  cases h : readCommandLine l.headSetting l.words with
  | error why => exact Or.inl ⟨why, rfl⟩
  | ok i => exact Or.inr ⟨i, rfl, rfl⟩

theorem Line.logged_eq {l : Line} {t t' : FileTree} {i : Invocation} {report : Report}
    (hall : l.LogsAll) (hrun : l.run t = (.ran i report, t')) :
    i.command.run i.strict t = (report, t') ∧ l.logged t = report.events := by
  obtain ⟨why, hnot⟩ | ⟨i', hread, hran⟩ := l.run_cases t
  · rw [hnot] at hrun
    cases hrun
  · rw [hran] at hrun
    cases hrun
    refine ⟨rfl, ?_⟩
    rw [Line.logged, hran]
    exact List.filter_eq_self.mpr fun e _ => hall i hread e

/-! ### Nothing of note before the write -/

/-- All events are of level debug. -/
def IsQuiet (events : List Event) : Prop :=
  ∀ e ∈ events, e.level = .debug

theorem isQuiet_append {es fs : List Event} : IsQuiet (es ++ fs) ↔ IsQuiet es ∧ IsQuiet fs :=
  List.forall_mem_append

theorem IsQuiet.filter_info {events : List Event} (h : IsQuiet events) :
    events.filter (fun e => e.level = .info) = [] := by
  rw [List.filter_eq_nil_iff]
  intro e he
  simp [h e he]

/-- All events of a plan are of level debug, but for the one of its write. -/
def Plan.Quiet : Plan → Prop
  | .done report => IsQuiet report.events
  | .save events .. => IsQuiet events

/-- The event of the write is not one of those before it. -/
theorem Grammar.quiet_saveTo {g : Grammar} {file : Text} {mode : WriteMode} {events : List Event}
    {printed : List String} (h : IsQuiet events) : (g.saveTo file mode events printed).Quiet := by
  unfold Grammar.saveTo
  split
  · exact h
  · exact h

namespace Reader

variable (read : Reader)

theorem isQuiet_grammar (file : Text) : IsQuiet (read.grammar file).1 := by
  unfold Reader.grammar
  split
  · exact List.forall_mem_nil _
  · split
    · exact List.forall_mem_singleton.mpr rfl
    · exact List.forall_mem_cons.mpr ⟨rfl, List.forall_mem_singleton.mpr rfl⟩

theorem quiet_edit (file : Text) (e : Edit) : (read.edit file e).Quiet := by
  have hread := read.isQuiet_grammar file
  unfold Reader.edit
  split
  · next events why hg =>
    rw [hg] at hread
    exact hread
  · next events g hg =>
    rw [hg] at hread
    split
    · exact hread
    · exact Grammar.quiet_saveTo hread

/-- Each file adds the events of reading it. -/
theorem events_load (files : List Text) :
    (read.load files).events = files.flatMap fun file => (read.grammar file).1 := by
  induction files using List.reverseRecOn with
  | nil => rfl
  | append_singleton files file ih =>
    have hload : read.load (files ++ [file]) = (read.load files).load read file := by
      rw [Reader.load, List.foldl_append]
      rfl
    have hevents : ((read.load files).load read file).events =
        (read.load files).events ++ (read.grammar file).1 := by
      unfold Loaded.load
      split <;> next hg => rw [hg]
    rw [hload, hevents, ih, List.flatMap_append, List.flatMap_singleton]

theorem isQuiet_classify (files : List Text) (explain : Bool) :
    IsQuiet (read.classify files explain).events := by
  have hverdict : ∀ g : Grammar, g.verdictEvent.level = .debug := by
    intro g
    unfold Grammar.verdictEvent
    split <;> rfl
  show IsQuiet ((read.load files).events ++ _)
  rw [isQuiet_append, events_load]
  constructor
  · intro e he
    obtain ⟨file, -, hfile⟩ := List.mem_flatMap.mp he
    exact read.isQuiet_grammar file e hfile
  · intro e he
    obtain ⟨p, -, rfl⟩ := List.mem_map.mp he
    exact hverdict p.2

end Reader

theorem Command.quiet_plan (c : Command) (strict : Bool) (read : Reader) :
    (c.plan strict read).Quiet := by
  cases he : c.edit? with
  | some p =>
    obtain ⟨file, e⟩ := p
    obtain ⟨why, hplan⟩ | hplan := plan_of_edit? he strict read
    · rw [hplan]
      exact List.forall_mem_nil _
    · rw [hplan]
      exact read.quiet_edit file e
  | none =>
    cases c with
    | add | edit | remove => cases he
    | new file name force => exact Grammar.quiet_saveTo (List.forall_mem_nil _)
    | list file =>
      have hread := read.isQuiet_grammar file
      simp only [Command.plan]
      split
      · next events why hg =>
        rw [hg] at hread
        exact hread
      · next events g hg =>
        rw [hg] at hread
        exact hread
    | classify files explain => exact read.isQuiet_classify files explain

/-! ### The event of a write -/

/-- A command that writes was run and succeeded. -/
inductive Outcome.Changed : Outcome → Prop
  | ran {i : Invocation} {report : Report} :
      ¬ i.command.Looks → report.exitStatus = 0 → Changed (.ran i report)

theorem Outcome.changed_iff {i : Invocation} {report : Report} :
    (Outcome.ran i report).Changed ↔ ¬ i.command.Looks ∧ report.exitStatus = 0 := by
  constructor
  · intro h
    cases h with
    | ran hlooks hexit => exact ⟨hlooks, hexit⟩
  · rintro ⟨hlooks, hexit⟩
    exact .ran hlooks hexit

theorem Saving.level_saved (s : Saving) : s.saved.level = .info := by
  unfold Saving.saved
  split <;> rfl

theorem Saves.isQuiet_events {t : FileTree} {c : Command} {s : Saving} (h : Saves t c s) :
    IsQuiet s.events := by
  cases h with
  | new => exact List.forall_mem_nil _
  | edit => exact List.forall_mem_cons.mpr ⟨rfl, List.forall_mem_singleton.mpr rfl⟩

/-- What only looks has nothing left to write. -/
theorem Command.Looks.exists_plan_eq_done {c : Command} (h : c.Looks) (strict : Bool)
    (read : Reader) : ∃ report, c.plan strict read = .done report := by
  cases h with
  | list file =>
    simp only [Command.plan]
    split <;> exact ⟨_, rfl⟩
  | classify files explain => exact ⟨_, rfl⟩

namespace Command

variable {c : Command} {strict : Bool} {t : FileTree}

/-- A run that changes nothing is quiet. -/
theorem isQuiet_run (h : c.Looks ∨ (c.run strict t).1.exitStatus ≠ 0) :
    IsQuiet (c.run strict t).1.events := by
  have hquiet := c.quiet_plan strict t.read
  cases hplan : c.plan strict t.read with
  | done report =>
    rw [hplan] at hquiet
    rw [Command.run, hplan]
    exact hquiet
  | save events write saved printed =>
    rw [hplan] at hquiet
    have hrun : (c.run strict t).1 = (Plan.save events write saved printed).report t.write := by
      rw [Command.run, hplan]
      rfl
    rw [hrun] at h ⊢
    cases hwrite : t.write write with
    | error why =>
      simp only [Plan.report, hwrite]
      exact hquiet
    | ok t' =>
      obtain hlooks | hexit := h
      · obtain ⟨report, hdone⟩ := hlooks.exists_plan_eq_done strict t.read
        rw [hplan] at hdone
        cases hdone
      · -- a write that is done leaves no failure
        simp only [Plan.report, hwrite] at hexit
        exact absurd rfl hexit

/-- A run that changes something ends with the event of its write. -/
theorem events_run_of_exit (hlooks : ¬ c.Looks) (hexit : (c.run strict t).1.exitStatus = 0) :
    ∃ s : Saving, (c.run strict t).1.events = s.events ++ [s.saved] ∧ IsQuiet s.events ∧
      (c.run strict t).2.Holds s.file s.grammar := by
  obtain ⟨events, why, hr⟩ | ⟨hl, -⟩ | ⟨s, t', hs, hclean, hwrite, hr⟩ := c.run_cases strict t
  · rw [hr] at hexit
    cases hexit
  · exact absurd hl hlooks
  · rw [hr]
    exact ⟨s, rfl, hs.isQuiet_events, FileTree.Holds.of_write hclean hwrite⟩

end Command

theorem Event.eq_wrote_of_message {e : Event} (h : e.message = "wrote grammar") :
    ∃ file name rules, e = .wrote file name rules := by
  cases e with
  | wrote file name rules => exact ⟨file, name, rules, rfl⟩
  | fileRead | decoded | created | ruleDecided | noneDecided => simp [Event.message] at h

/-- What is logged as written is what is read back. -/
theorem Command.holds_of_wrote {c : Command} {strict : Bool} {t : FileTree} {e : Event}
    (he : e ∈ (c.run strict t).1.events) (hmessage : e.message = "wrote grammar") :
    ∃ file g, (c.run strict t).2.stored? file = some g ∧ e = .wrote file g.name g.size := by
  obtain ⟨file, name, rules, rfl⟩ := Event.eq_wrote_of_message hmessage
  by_cases hquiet : c.Looks ∨ (c.run strict t).1.exitStatus ≠ 0
  · have hlevel := Command.isQuiet_run hquiet _ he
    cases hlevel
  · rw [not_or, not_not] at hquiet
    obtain ⟨s, hevents, hbefore, hholds⟩ := Command.events_run_of_exit hquiet.1 hquiet.2
    rw [hevents] at he
    obtain he | he := List.mem_append.mp he
    · have hlevel := hbefore _ he
      cases hlevel
    · have hsaved : .wrote file name rules = s.saved := List.mem_singleton.mp he
      unfold Saving.saved at hsaved
      obtain ⟨h, hstored, hsame⟩ := hholds.stored
      split at hsaved
      · cases hsaved
      · cases hsaved
        refine ⟨s.file, h, hstored, ?_⟩
        rw [(Grammar.equiv_iff.mp hsame).1, Grammar.size_congr hsame]

/-! ### Reading and judging -/

/-- What is logged of reading a file: that it was read, if there is one, and then that
it was decoded, if it can be. -/
def FileTree.readingEvents (t : FileTree) (file : Text) : List Event :=
  match t.read file with
  | .error _ => []
  | .ok bytes =>
    match decodeBytes bytes with
    | .error _ => [.fileRead file bytes.length]
    | .ok g => [.fileRead file bytes.length, .decoded g.name g.size]

/-- An event tells the verdict on a grammar: it is the event of the rule that decides,
or the one for none, and a rule is shown with its key, the type and the reason. -/
structure Tells (g : Grammar) (e : Event) : Prop where
  source : e.source = "chomsky::classifier"
  decided_iff : e.message = "rule decided grammar type" ↔ g.verdict ≠ .undecided
  decided : ∀ shape position key, g.verdict = .decided shape position key →
    e = .ruleDecided g.name shape key ∧
      e.fields = [("grammar", String.ofList (quoted g.name)),
        ("rule", s!"Some(RuleId({key.number}))"), ("kind", g.verdict.kind.display),
        ("reason", g.verdict.reason)]
  undecided : g.verdict = .undecided → e = .noneDecided g.name g.size

theorem tells_verdictEvent (g : Grammar) : Tells g g.verdictEvent := by
  unfold Grammar.verdictEvent
  cases hv : g.verdict with
  | decided shape position key =>
    refine ⟨rfl, ⟨fun _ => by simp [hv], fun _ => rfl⟩, ?_, ?_⟩
    · intro shape' position' key' h
      rw [hv] at h ⊢
      cases h
      exact ⟨rfl, rfl⟩
    · intro h
      rw [hv] at h
      cases h
  | undecided =>
    refine ⟨rfl, ⟨fun h => ?_, fun h => absurd hv h⟩, ?_, fun _ => rfl⟩
    · simp [Event.message] at h
    · intro shape position key h
      rw [hv] at h
      cases h

section Classify

variable (t : FileTree) (files : List Text)

theorem grammar_fst (file : Text) : (Reader.grammar t.read file).1 = t.readingEvents file := by
  unfold Reader.grammar FileTree.readingEvents
  cases t.read file with
  | error why => rfl
  | ok bytes => cases hd : decodeBytes bytes <;> simp only [hd]

/-- The grammars that are judged are those that are stored, in the order of the files. -/
theorem map_grammars_load : (Reader.load t.read files).grammars.map (·.2) =
    files.filterMap t.stored? := by
  rw [(loads_load t.read files).grammars, List.map_filterMap]
  refine List.filterMap_congr fun file _ => ?_
  rw [grammar?_eq_stored?]
  cases t.stored? file <;> rfl

theorem events_classify (explain : Bool) : (Reader.classify t.read files explain).events =
    files.flatMap t.readingEvents ++ (files.filterMap t.stored?).map Grammar.verdictEvent := by
  show (Reader.load t.read files).events ++ _ = _
  rw [Reader.events_load, ← map_grammars_load, List.map_map]
  congr 1
  exact List.flatMap_congr fun file _ => grammar_fst t file

theorem length_printed_classify (explain : Bool) :
    (Reader.classify t.read files explain).printed.length = (files.filterMap t.stored?).length := by
  show ((Reader.load t.read files).grammars.map _).length = _
  rw [← map_grammars_load, List.length_map, List.length_map]

end Classify

/-! ### The log -/

/-- What the log of a command line says of its run.  `one_info` and `no_info` are about
all runs, `wrote` about those that write a file and `classify` about those that
classify: there, what is logged of reading the files comes first. -/
structure TruthfulLog (l : Line) (t : FileTree) : Prop where
  one_info : (l.run t).1.Changed → ∃ e, (l.logged t).filter (fun e => e.level = .info) = [e]
  no_info : ¬ (l.run t).1.Changed → (l.logged t).filter (fun e => e.level = .info) = []
  wrote : ∀ e ∈ l.logged t, e.message = "wrote grammar" →
    ∃ file g, (l.run t).2.stored? file = some g ∧ e = .wrote file g.name g.size ∧
      e.fields = [("path", String.ofList file), ("name", String.ofList (quoted g.name)),
        ("rules", toString g.size)]
  classify : ∀ i report files explain, (l.run t).1 = .ran i report →
    i.command = .classify files explain →
    ∃ verdicts, l.logged t = files.flatMap t.readingEvents ++ verdicts ∧
      List.Forall₂ Tells (files.filterMap t.stored?) verdicts ∧
      verdicts.length = report.printed.length

section Log

variable {l : Line} {t t' : FileTree} {i : Invocation} {report : Report}

/-- Of a command line that is not run nothing is logged, and nothing has happened. -/
theorem Line.truthfulLog_of_notRun {why : Usage} (h : l.run t = (.notRun why, t')) :
    TruthfulLog l t := by
  have hnone : l.logged t = [] := by rw [Line.logged, h]
  constructor
  case one_info =>
    intro hchanged
    rw [h] at hchanged
    cases hchanged
  case no_info => simp [hnone]
  case wrote => simp [hnone]
  case classify =>
    intro i report files explain hran
    rw [h] at hran
    cases hran

/-- Of a command that is run the log is what the command reports. -/
theorem Line.truthfulLog_of_ran (hall : l.LogsAll) (hrun : l.run t = (.ran i report, t')) :
    TruthfulLog l t := by
  obtain ⟨hcommand, hlogged⟩ := Line.logged_eq hall hrun
  have hreport : report = (i.command.run i.strict t).1 := by rw [hcommand]
  have houtcome : (l.run t).1 = .ran i report := congrArg Prod.fst hrun
  have hafter : (l.run t).2 = (i.command.run i.strict t).2 := by rw [hrun, hcommand]
  constructor
  case one_info =>
    intro hchanged
    rw [houtcome, Outcome.changed_iff, hreport] at hchanged
    obtain ⟨s, hevents, hquiet, -⟩ := Command.events_run_of_exit hchanged.1 hchanged.2
    refine ⟨s.saved, ?_⟩
    rw [hlogged, hreport, hevents, List.filter_append, hquiet.filter_info]
    simp [s.level_saved]
  case no_info =>
    intro hchanged
    rw [houtcome, Outcome.changed_iff, not_and_or, not_not, hreport] at hchanged
    rw [hlogged, hreport]
    exact (Command.isQuiet_run hchanged).filter_info
  case wrote =>
    intro e he hmessage
    rw [hlogged, hreport] at he
    obtain ⟨file, g, hstored, rfl⟩ := Command.holds_of_wrote he hmessage
    refine ⟨file, g, ?_, rfl, rfl⟩
    rw [hafter]
    exact hstored
  case classify =>
    intro i' report' files explain hran hclassify
    rw [houtcome] at hran
    cases hran
    have hreport' : report = Reader.classify t.read files explain := by
      rw [hreport, hclassify]
      rfl
    refine ⟨(files.filterMap t.stored?).map Grammar.verdictEvent, ?_, ?_, ?_⟩
    · rw [hlogged, hreport', events_classify]
    · rw [List.forall₂_map_right_iff, List.forall₂_same]
      exact fun g _ => tells_verdictEvent g
    · rw [hreport', length_printed_classify, List.length_map]

/-- **The log tells what happened.**  Where all events of a command line are shown:
there is exactly one of level info if a command that writes succeeded, and none
otherwise; what is said to be written is what is read back from the file; and where
files are classified, each that can be read is logged as read, directly followed by
its decoding exactly if it can be decoded, in the order given, and after all of these
comes one verdict for each that was decoded, in this order and as many as pieces are
printed, which names a rule exactly if one decides. -/
theorem log_tells_what_happened (hall : l.LogsAll) (t : FileTree) : TruthfulLog l t := by
  obtain ⟨why, hnot⟩ | ⟨i, -, hrun⟩ := l.run_cases t
  · exact Line.truthfulLog_of_notRun hnot
  · exact Line.truthfulLog_of_ran hall hrun

/-- One file is classified, one is missing and one cannot be decoded. -/
theorem log_tells_what_happened_to_three :
    ∃ (l : Line) (t : FileTree), l.words = ["-v", "-v", "classify", "g", "x", "h"].map String.toList ∧
      t.read ['g'] = .ok (Utf8.encode "G\n\nS -> aS".toList) ∧ t.read ['h'] = .ok [10] ∧
      l.LogsAll ∧ TruthfulLog l t ∧
      l.logged t = [.fileRead ['g'] 10, .decoded ['G'] 1, .fileRead ['h'] 1,
        .ruleDecided ['G'] (.linear .right) ⟨0⟩] := by
  let l : Line := ⟨["-v", "-v", "classify", "g", "x", "h"].map String.toList, none, none⟩
  let t : FileTree := .ofEntries
    [(['g'], .file (Utf8.encode "G\n\nS -> aS".toList)), (['h'], .file [10])]
  have hread : readCommandLine l.headSetting l.words =
      .ok ⟨false, 2, .classify [['g'], ['x'], ['h']] false⟩ := by decide +kernel
  have hall : l.LogsAll := by
    apply Line.logsAll_of_verbosity rfl
    intro i hi
    rw [hread] at hi
    cases hi
    decide
  exact ⟨l, t, rfl, rfl, rfl, hall, log_tells_what_happened hall t, by decide +kernel⟩

end Log

end PhraseGrammar
