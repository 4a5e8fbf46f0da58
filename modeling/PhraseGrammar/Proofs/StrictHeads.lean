/-
PhraseGrammar/Proofs/StrictHeads.lean

Heads that are single letters, along whole sessions.

The rule for heads is asked of what is typed and of nothing else: a file is read
whatever the heads in it, and `new` and `remove` bring no rule.  So if it is asked of
every rule that is typed, by the option or by the setting from the environment
(`Line.StrictHeads`), all heads in the directory are single letters
(`strict_heads_hold`).  Stored heads come back as they are, which is the invariant of
well kept directories.

Two facts on letters do the rest.

* No blank is a letter, and a line feed is a blank.  So a head of one letter is tidy,
  too short for an arrow and not empty, and of a typed rule the body alone can be
  refused (`Rule.LetterHead.ofBody`).  What was in the file before has no hazards.
* A body with fewer characters than one is empty.  So a rule with such a head makes a
  grammar unrestricted only if its body is empty.
-/
import PhraseGrammar.Proofs.CanonicalFiles
import PhraseGrammar.Proofs.PlainList
import PhraseGrammar.Proofs.Refusals
import PhraseGrammar.Proofs.VerdictEdits

namespace PhraseGrammar

/-- The head of a rule is one letter. -/
def Rule.LetterHead (r : Rule) : Prop :=
  ∃ c, r.head = [c] ∧ isLetter c = true

/-- Hazards of the body of a rule. -/
inductive Hazard.OfBody : Hazard → Prop
  | newline : OfBody (.newlineInRule .body)
  | padded : OfBody (.paddedRule .body)

/-- A rule that is typed on a command line has to have a single letter for its head:
the option says so, or the setting. -/
def Line.StrictHeads (l : Line) : Prop :=
  ∀ i r, readCommandLine l.headSetting l.words = .ok i → i.command.rule? = some r → i.strict = true

/-- What comes of a command line that asks to store a rule: if it fails, neither for an
empty head nor for a hazard of a head. -/
def Outcome.SparesHead : Outcome → Prop
  | .notRun _ => True
  | .ran i report => ∀ r, i.command.rule? = some r →
      .edit .emptyHead ∉ report.failures ∧
      ∀ hazards, .unencodable hazards ∈ report.failures → ∀ z ∈ hazards, z.fault.OfBody

/-- All heads are single letters, and only an empty body makes a grammar
unrestricted. -/
structure Grammar.HasLetterHeads (g : Grammar) : Prop where
  heads : ∀ r ∈ g.rules, r.LetterHead
  lambda : g.verdict.kind = .unrestricted →
    ∃ p r, g.verdict.position? = some p ∧ g.rules[p]? = some r ∧ r.body = []

/-! ### Rules with a letter for their head -/

namespace Rule

variable {r : Rule}

theorem letterHead_of_isSingleLetter (h : isSingleLetter r.head = true) : r.LetterHead := by
  obtain ⟨head, body⟩ := r
  match head, h with
  | [c], h => exact ⟨c, rfl, h⟩

theorem LetterHead.head_ne_nil (h : r.LetterHead) : r.head ≠ [] := by
  obtain ⟨c, hc, -⟩ := h
  rw [hc]
  exact List.cons_ne_nil c []

theorem LetterHead.tidy (h : r.LetterHead) : Tidy r.head := by
  obtain ⟨c, hc, hletter⟩ := h
  have hblank := not_isBlank_of_isLetter hletter
  rw [hc]
  refine ⟨fun hline => ?_, trim_eq_self ?_ ?_⟩
  · -- a line feed is a blank, and so no letter
    obtain rfl := List.mem_singleton.mp hline
    exact absurd hblank (by decide)
  · rintro d ⟨⟩
    exact hblank
  · rintro d ⟨⟩
    exact hblank

theorem LetterHead.arrowless (h : r.LetterHead) : ¬ arrow <:+: r.head := by
  intro hin
  obtain ⟨c, hc, -⟩ := h
  have hlength : 2 ≤ r.head.length := hin.length_le
  rw [hc, List.length_singleton] at hlength
  exact absurd hlength (by decide)

/-- Where the head is a letter the body alone has hazards. -/
theorem LetterHead.ofBody (h : r.LetterHead) {z : Hazard} (hz : z ∈ r.hazards) : z.OfBody := by
  have hside : sideHazards r .head = [] := sideHazards_eq_nil_iff.mpr h.tidy
  have harrow : hasArrow r.head = false := hasArrow_eq_false_iff.mpr h.arrowless
  rw [hazards, hside, harrow] at hz
  rcases List.mem_append.mp hz with hnone | hz
  · cases hnone
  · rcases List.mem_append.mp hz with hline | hpad
    · rw [(mem_onlyIf.mp hline).2]
      exact .newline
    · rw [(mem_onlyIf.mp hpad).2]
      exact .padded

/-- Only the empty body is shorter than a head of one letter. -/
theorem LetterHead.body_eq_nil_of_shrinking (h : r.LetterHead) (hs : r.shape? = some .shrinking) :
    r.body = [] := by
  obtain ⟨c, hc, -⟩ := h
  have hshorter : r.body.length < r.head.length := (firstFits_of_shape? hs).fits
  rw [hc, List.length_singleton] at hshorter
  exact List.length_eq_zero_iff.mp (Nat.lt_one_iff.mp hshorter)

end Rule

/-- The rule that decides for the unrestricted type is one that shrinks. -/
theorem Grammar.hasLetterHeads {g : Grammar} (h : ∀ r ∈ g.rules, r.LetterHead) :
    g.HasLetterHeads where
  heads := h
  lambda := by
    intro hkind
    cases hv : g.verdict with
    | undecided =>
      rw [hv] at hkind
      cases hkind
    | decided shape p key =>
      rw [hv] at hkind
      cases shape with
      | contextual | linear => cases hkind
      | shrinking =>
        -- the one shape of the four that makes the type unrestricted
        obtain ⟨⟨r, hentry, hshape⟩, -⟩ := verdict_eq_decided_iff.mp hv
        have hrule : g.rules[p]? = some r := by
          rw [rules_getElem?, hentry]
          rfl
        refine ⟨p, r, rfl, hrule, ?_⟩
        exact (h r (List.mem_of_getElem? hrule)).body_eq_nil_of_shrinking hshape

/-! ### Commands with a rule -/

/-- An edit with a head is not refused for an empty one. -/
theorem Edit.apply_ne_emptyHead {e : Edit} {r : Rule} (hr : e.rule? = some r) (hhead : r.head ≠ [])
    (g : Grammar) : e.apply g ≠ .error .emptyHead := by
  intro h
  cases e with
  | rename | removeAt | remove => cases hr
  | add rule =>
    cases hr
    exact hhead (Grammar.add_eq_error_iff.mp h).1
  | replaceAt index rule =>
    cases hr
    obtain ⟨-, hwhy⟩ | ⟨-, hnil, -⟩ := Grammar.replaceAt_eq_error_iff.mp h
    · cases hwhy
    · exact hhead hnil
  | replace key rule =>
    cases hr
    obtain ⟨-, hwhy⟩ | ⟨-, hnil, -⟩ := Grammar.replace_eq_error_iff.mp h
    · cases hwhy
    · exact hhead hnil

section Commands

variable {c : Command} {strict : Bool} {t : FileTree} {file : Text} {e : Edit} {r : Rule}

theorem Command.exists_edit_of_rule? (h : c.rule? = some r) :
    ∃ file e, c.edit? = some (file, e) ∧ e.rule? = some r := by
  obtain ⟨⟨file, e⟩, he, hr⟩ := Option.bind_eq_some_iff.mp h
  exact ⟨file, e, he, hr⟩

/-- Under the rule for heads, words that are admitted have a letter for the head. -/
theorem Command.letterHead_of_admitted (hr : c.rule? = some r) (h : c.Admitted true) :
    r.LetterHead := by
  cases c with
  | new | remove | list | classify => cases hr
  | add file head body =>
    cases hr
    exact Rule.letterHead_of_isSingleLetter (h rfl)
  | edit file position head body =>
    cases hr
    exact Rule.letterHead_of_isSingleLetter (h.2 rfl)

/-- An edit that is done was admitted. -/
theorem Command.admitted_of_run (he : c.edit? = some (file, e))
    (h : (c.run strict t).1.exitStatus = 0) : c.Admitted strict := by
  obtain ⟨-, why, hplan⟩ | ⟨hyes, -⟩ := Command.plan_of_words he strict t.read
  · rw [Command.run, hplan] at h
    cases h
  · exact hyes

/-- Where no grammar is stored an edit fails for the words, or for the file. -/
theorem Command.run_not_stored (hs : t.stored? file = none) (he : c.edit? = some (file, e))
    (strict : Bool) :
    (∃ why, (c.run strict t).1.failures = [.input why]) ∨
    (∃ why, (c.run strict t).1.failures = [.noFile file why]) ∨
    ∃ faults, (c.run strict t).1.failures = [.format faults] := by
  obtain ⟨-, why, hplan⟩ | ⟨-, hplan⟩ := Command.plan_of_words he strict t.read
  · left
    rw [Command.run, hplan]
    exact ⟨why, rfl⟩
  · right
    rw [Command.run, hplan, Reader.edit, Reader.grammar]
    rw [FileTree.stored?] at hs
    cases hread : t.read file with
    | error why => exact Or.inl ⟨why, rfl⟩
    | ok bytes =>
      cases hdecode : decodeBytes bytes with
      | error faults =>
        simp only [hdecode]
        exact Or.inr ⟨_, rfl⟩
      | ok g => simp [hread, hdecode, Except.toOption] at hs

/-- **What is typed under the rule for heads is refused for its body alone.** -/
theorem Command.sparesHead_run (hr : c.rule? = some r) (t : FileTree) :
    .edit .emptyHead ∉ (c.run true t).1.failures ∧
    ∀ hazards, .unencodable hazards ∈ (c.run true t).1.failures →
      ∀ z ∈ hazards, z.fault.OfBody := by
  obtain ⟨file, e, he, her⟩ := Command.exists_edit_of_rule? hr
  cases hs : t.stored? file with
  | none =>
    -- the words or the file are told, and no rule is looked at
    obtain ⟨why, hfail⟩ | ⟨why, hfail⟩ | ⟨faults, hfail⟩ := Command.run_not_stored hs he true
    all_goals
      rw [hfail]
      simp
  | some g =>
    constructor
    · intro hempty
      obtain ⟨-, why, hfail⟩ | ⟨hyes, why, ha, hfail⟩ | ⟨-, g', -, hfail⟩ :=
        Command.run_stored hs he true
      · rw [hfail] at hempty
        cases List.mem_singleton.mp hempty
      · rw [hfail] at hempty
        cases List.mem_singleton.mp hempty
        exact Edit.apply_ne_emptyHead her (letterHead_of_admitted hr hyes).head_ne_nil g ha
      · rw [hfail] at hempty
        split at hempty
        · cases hempty
        · cases List.mem_singleton.mp hempty
    · -- what is reported is about the typed rule, and its head is a letter
      intro hazards h z hz
      obtain ⟨hyes, g', ha, -⟩ := Command.unencodable_cases hs he h
      obtain ⟨i, hp⟩ := Edit.exists_place? her ha
      obtain ⟨g'', -, hblames⟩ := Command.blames_of_unencodable hs he hp h
      rw [hblames.hazards] at hz
      obtain ⟨hazard, hmem, rfl⟩ := List.mem_map.mp hz
      exact (letterHead_of_admitted hr hyes).ofBody hmem

end Commands

/-! ### Command lines -/

/-- A setting that says yes holds for every command line. -/
theorem strict_of_setting {setting : Text} (hs : switch? setting = some true) {words : List Text}
    {i : Invocation} (h : readCommandLine (some setting) words = .ok i) : i.strict = true := by
  obtain ⟨⟨before, verb⟩, -, h⟩ := bind_eq_ok h
  cases verb with
  | none =>
    obtain ⟨-, -, h⟩ := bind_eq_ok h
    split at h <;> cases h
  | some verb =>
    obtain ⟨⟨after, command⟩, -, h⟩ := bind_eq_ok h
    obtain ⟨-, -, h⟩ := bind_eq_ok h
    cases h
    simp [hs]

namespace Line

variable {l : Line}

theorem strictHeads_of_setting {setting : Text} (h : l.headSetting = some setting)
    (hs : switch? setting = some true) : l.StrictHeads := by
  intro i r hread _
  rw [h] at hread
  exact strict_of_setting hs hread

theorem strictHeads_of_toOption {i : Invocation}
    (h : (readCommandLine l.headSetting l.words).toOption = some i)
    (hi : i.strict = true ∨ i.command.rule? = none) : l.StrictHeads := by
  intro j r hread hr
  rw [hread] at h
  obtain rfl : j = i := Option.some.inj h
  rcases hi with hstrict | hnone
  · exact hstrict
  · rw [hnone] at hr
    cases hr

/-- What a command line stores under the rule for heads has a letter for its head. -/
theorem StrictHeads.brings (h : l.StrictHeads) : l.Brings Rule.LetterHead := by
  intro i hread t r hexit hr
  rw [h i r hread hr] at hexit
  obtain ⟨file, e, he, -⟩ := Command.exists_edit_of_rule? hr
  exact Command.letterHead_of_admitted hr (Command.admitted_of_run he hexit)

theorem StrictHeads.sparesHead (h : l.StrictHeads) (t : FileTree) : (l.run t).1.SparesHead := by
  unfold Line.run
  cases hread : readCommandLine l.headSetting l.words with
  | error why => exact trivial
  | ok i =>
    intro r hr
    rw [h i r hread hr]
    exact Command.sparesHead_run hr t

end Line

/-! ### Sessions -/

theorem exists_line_of_mem_runSession {t t' : FileTree} {ls : List Line} {outcome : Outcome}
    (h : (outcome, t') ∈ runSession t ls) : ∃ l ∈ ls, ∃ before, (outcome, t') = l.run before := by
  rw [← map_snd_sessionSteps] at h
  obtain ⟨step, hstep, hrun⟩ := List.mem_map.mp h
  obtain ⟨l, hl, hline⟩ := exists_line_of_mem_sessionSteps hstep
  exact ⟨l, hl, step.1, hrun ▸ hline⟩

/-- **Heads stay single letters.**  After every step of a session of any length that
started in an empty directory, if all rules that are typed have to have a single
letter for the head, then all stored heads are single letters, and where a grammar is
judged unrestricted the rule that decides has an empty body.  No step that asks to
store a rule fails for an empty head or for a hazard of a head. -/
theorem strict_heads_hold {t : FileTree} (hempty : t.entries = []) {ls : List Line}
    (hls : ∀ l ∈ ls, l.StrictHeads) {outcome : Outcome} {t' : FileTree}
    (hstep : (outcome, t') ∈ runSession t ls) :
    outcome.SparesHead ∧ ∀ name n, (name, n) ∈ t'.entries →
      ∃ bytes g, n = .file bytes ∧ decodeBytes bytes = .ok g ∧ g.HasLetterHeads := by
  constructor
  · obtain ⟨l, hl, before, hrun⟩ := exists_line_of_mem_runSession hstep
    have hspared := (hls l hl).sparesHead before
    rwa [← hrun] at hspared
  · intro name n hn
    have hkept : t'.WellKept Rule.LetterHead :=
      wellKept_session (fun l hl => (hls l hl).brings)
        (FileTree.wellKept_of_entries_eq_nil hempty) hstep
    have hmade := hkept.made name n (FileTree.node?_of_mem_entries hkept.once hn)
    obtain @⟨k, hname, hk, hheads⟩ := hmade
    have hread := decodeBytes_encodeBytes hk
    refine ⟨k.encodeBytes, _, rfl, hread, Grammar.hasLetterHeads ?_⟩
    exact (Made.file hname hk hheads).of_decodeBytes hread

/-- A grammar is made. -/
def madeLine : Line :=
  ⟨["new".toList, ['g'], ['G']], none, none⟩

/-- A rule is typed, with the option. -/
def addedLine : Line :=
  ⟨["--single-symbol-heads".toList, "add".toList, ['g'], ['É'], ['λ']], none, none⟩

/-- Another rule is typed for its place, under the setting. -/
def editedLine : Line :=
  ⟨["edit".toList, ['g'], ['1'], ['S'], ['b', ' ']], some ['O', 'n'], none⟩

/-- The files before the last of the three. -/
def typedFiles : FileTree :=
  ((Command.add ['g'] ['É'] ['λ']).run true
    ((Command.new ['g'] ['G'] false).run false (.ofEntries [])).2).2

/-- The second rule is refused for the blank at the end of its body, and the first stays:
its empty body makes the grammar unrestricted. -/
theorem strict_heads_hold_setting : (∀ l ∈ [madeLine, addedLine, editedLine], l.StrictHeads) ∧
    ∃ i report t' g,
      (.ran i report, t') ∈ runSession (.ofEntries []) [madeLine, addedLine, editedLine] ∧
      report.message =
        "\x1b[31;49;1m[g:3]\x1b[39;49;1m  Rule body starts or ends with whitespace\x1b[0m" ∧
      (Outcome.ran i report).SparesHead ∧
      (['g'], .file (Utf8.encode "G\n\nÉ -> ".toList)) ∈ t'.entries ∧
      decodeBytes (Utf8.encode "G\n\nÉ -> ".toList) = .ok g ∧ g.HasLetterHeads ∧
      g.verdict.kind = .unrestricted := by
  have hreadNew : (readCommandLine madeLine.headSetting madeLine.words).toOption =
      some ⟨false, 0, .new ['g'] ['G'] false⟩ := by
    decide +kernel
  have hreadAdd : (readCommandLine addedLine.headSetting addedLine.words).toOption =
      some ⟨true, 0, .add ['g'] ['É'] ['λ']⟩ := by
    decide +kernel
  have hreadEdit : (readCommandLine editedLine.headSetting editedLine.words).toOption =
      some ⟨true, 0, .edit ['g'] 1 ['S'] ['b', ' ']⟩ := by
    decide +kernel
  have hstrict : ∀ l ∈ [madeLine, addedLine, editedLine], l.StrictHeads := by
    intro l hl
    simp only [List.mem_cons, List.not_mem_nil, or_false] at hl
    rcases hl with rfl | rfl | rfl
    · exact Line.strictHeads_of_toOption hreadNew (Or.inr rfl)
    · exact Line.strictHeads_of_toOption hreadAdd (Or.inl rfl)
    · exact Line.strictHeads_of_setting rfl (by decide)
  have hnew := Line.run_of_toOption hreadNew (.ofEntries [])
  have hadd := Line.run_of_toOption hreadAdd
    ((Command.new ['g'] ['G'] false).run false (.ofEntries [])).2
  have hedit := Line.run_of_toOption hreadEdit typedFiles
  have hthird : (runSession (.ofEntries []) [madeLine, addedLine, editedLine])[2]? =
      some (editedLine.run typedFiles) := by
    rw [runSession, hnew, runSession, hadd, runSession]
    rfl
  rw [hedit] at hthird
  have hstep := List.mem_of_getElem? hthird
  have hread :
      (((Command.edit ['g'] 1 ['S'] ['b', ' ']).run true typedFiles).2.read ['g']).toOption =
        some (Utf8.encode "G\n\nÉ -> ".toList) := by
    decide +kernel
  have hmessage : ((Command.edit ['g'] 1 ['S'] ['b', ' ']).run true typedFiles).1.message =
      "\x1b[31;49;1m[g:3]\x1b[39;49;1m  Rule body starts or ends with whitespace\x1b[0m" := by
    decide +kernel
  have hname : IsUsableName ['g'] :=
    ⟨⟨by decide, by decide, by decide, by decide⟩, by decide, by decide⟩
  have hentry := FileTree.mem_entries_of_read hname hread
  obtain ⟨hspared, hstored⟩ := strict_heads_hold rfl hstrict hstep
  obtain ⟨bytes, g, hbytes, hg, hheads⟩ := hstored _ _ hentry
  cases hbytes
  have hkind : (decodeBytes (Utf8.encode "G\n\nÉ -> ".toList)).toOption.map (·.verdict.kind) =
      some .unrestricted := by
    decide +kernel
  rw [hg] at hkind
  exact ⟨hstrict, _, _, _, g, hstep, hmessage, hspared, hentry, hg, hheads, Option.some.inj hkind⟩

end PhraseGrammar
