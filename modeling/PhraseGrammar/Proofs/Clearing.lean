/-
PhraseGrammar/Proofs/Clearing.lean

Taking out the rules that decide, one by one.

A user who wants to know what is left of a grammar without the rules that give it
its type asks for the reason of the verdict, removes the rule that is named, and
asks again.  Here the user reads what is printed and nothing else: a rule is named
if the last line says so, by the number that is written there (`namedRule?`), and
this is the number that goes into the next command (`FileTree.clear`).

So three ways of counting meet, those of reports, of listings and of typed
positions.  They agree in every round (`names_of_decided`).  A round takes out one
rule that decides and leaves

    the rules that do not decide,  and all rules before the one taken out,

as they are.  The first carries the induction on what is left in the end, the second
the one on the numbers, which never go down (`FileTree.clearing_clear`).

Main result: `clears_to_remainder`.  It says that each removal is done, since what
can be read can be written: permissions are left out of the tree, as are links and
paths that come back into the working directory by its own name (`Files.lean`).
-/
import PhraseGrammar.Proofs.FirstMatch
import PhraseGrammar.Proofs.ListingLines
import PhraseGrammar.Proofs.ManyFiles
import PhraseGrammar.Proofs.PlainList
import PhraseGrammar.Proofs.Refinement
import PhraseGrammar.Proofs.Refusals

namespace PhraseGrammar

/-! ### Reading what was printed -/

section Reading

variable {α : Type} [DecidableEq α]

/-- A separator parts what is before it from what is after it. -/
theorem pieces_append_cons (sep : α) (s u : List α) :
    pieces sep (s ++ sep :: u) = pieces sep s ++ pieces sep u := by
  induction s with
  | nil => simp [pieces]
  | cons c s ih =>
    by_cases h : c = sep
    · simp [pieces, h, ih]
    · rw [List.cons_append, pieces, if_neg h, ih, pieces, if_neg h]
      cases hs : pieces sep s with
      | nil => exact absurd hs (pieces_ne_nil s)
      | cons p ps => rfl

end Reading

/-- The last line that was printed. -/
def lastLine? (output : String) : Option Text :=
  (lines output.toList).dropLast.getLast?

/-- How a line begins that names a rule; the number comes next. -/
def ruleMark : Text :=
  "  rule ".toList

/-- The number of the rule that an explanation names, if it names one. -/
def namedRule? (output : String) : Option Nat := do
  let line ← lastLine? output
  let rest ← line.dropPrefix? ruleMark
  digits? (rest.takeWhile Char.isDigit)

theorem lastLine?_eq (above : Text) {line : Text} {output : String} (h : '\n' ∉ line)
    (houtput : output.toList = above ++ '\n' :: (line ++ ['\n'])) : lastLine? output = some line := by
  rw [lastLine?, houtput, lines, pieces_append_cons, pieces_append_cons, pieces_eq_singleton h]
  simp [pieces]

theorem digitsFrom?_eq {s : Text} (h : ∀ c ∈ s, c.isDigit = true) (n : Nat) :
    digitsFrom? n s = some (Nat.ofDigitChars 10 s n) := by
  induction s generalizing n with
  | nil => rw [digitsFrom?, Nat.ofDigitChars_nil]
  | cons c s ih =>
    rw [List.forall_mem_cons] at h
    rw [digitsFrom?, if_pos h.1, ih h.2, Nat.ofDigitChars_cons, Nat.mul_comm]

theorem isDigit_of_mem_decimal {n : Nat} {c : Char} (h : c ∈ Nat.toDigits 10 n) :
    c.isDigit = true :=
  Nat.isDigit_of_mem_toDigits (by decide) (by decide) h

/-- A number that is written is read. -/
theorem digits?_toDigits (n : Nat) : digits? (Nat.toDigits 10 n) = some n := by
  have hread : digitsFrom? 0 (Nat.toDigits 10 n) = some n := by
    rw [digitsFrom?_eq fun c hc => isDigit_of_mem_decimal hc, Nat.ofDigitChars_ten_toDigits]
  cases hdigits : Nat.toDigits 10 n with
  | nil => exact absurd hdigits Nat.toDigits_ne_nil
  | cons c s =>
    rw [hdigits] at hread
    exact hread

/-- A last line that names a rule names the one with the number written there. -/
theorem namedRule?_eq_some (above : Text) {rest : Text} {n : Nat} {output : String} (h : '\n' ∉ rest)
    (houtput : output.toList =
      above ++ '\n' :: (ruleMark ++ (Nat.toDigits 10 n ++ ' ' :: rest) ++ ['\n'])) :
    namedRule? output = some n := by
  have hline : '\n' ∉ ruleMark ++ (Nat.toDigits 10 n ++ ' ' :: rest) := by
    have hmark : '\n' ∉ ruleMark := by decide
    simp [hmark, newline_not_mem_toDigits, h]
  have hrest : (ruleMark ++ (Nat.toDigits 10 n ++ ' ' :: rest)).dropPrefix? ruleMark =
      some (Nat.toDigits 10 n ++ ' ' :: rest) :=
    List.dropPrefix?_eq_some_iff.mpr ⟨ruleMark, rfl, BEq.rfl⟩
  have htake : (Nat.toDigits 10 n ++ ' ' :: rest).takeWhile Char.isDigit = Nat.toDigits 10 n := by
    rw [List.takeWhile_append_of_pos fun c hc => isDigit_of_mem_decimal hc,
      List.takeWhile_cons_of_neg (by decide), List.append_nil]
  rw [namedRule?, lastLine?_eq above hline houtput, Option.bind_eq_bind, Option.bind_some, hrest,
    Option.bind_some, htake, digits?_toDigits]

/-! ### Explanations -/

/-- What classifying one file with its reason prints. -/
def FileTree.explained (t : FileTree) (strict : Bool) (file : Text) : String :=
  (t.classified strict true [file]).output

/-- The first line of a report. -/
def Grammar.summary (g : Grammar) (file : Text) : String :=
  String.ofList file ++ ": " ++ String.ofList g.name ++ " is " ++ g.verdict.kind.display

theorem Shape.newline_not_mem_reason (s : Shape) : '\n' ∉ s.reason.toList := by
  cases s with
  | shrinking | contextual => decide
  | linear side => cases side <;> decide

section Explained

variable {t : FileTree} {file : Text} {g : Grammar}

theorem explained_eq (hg : t.stored? file = some g) (strict : Bool) :
    t.explained strict file = g.report file true ++ "\n" := by
  rw [FileTree.explained, FileTree.classified_eq, Report.output, Reader.printed_classify,
    List.filterMap_cons, grammar?_eq_stored?, hg]
  simp

theorem exitStatus_classified (hg : t.stored? file = some g) (strict explain : Bool) :
    (t.classified strict explain [file]).exitStatus = 0 := by
  have hsome : (Reader.grammar? t.read file).isSome := by
    rw [grammar?_eq_stored?, hg]
    rfl
  have hnone : Reader.failure? t.read file = none := by
    rwa [Reader.isSome_grammar?, Bool.not_eq_true', Option.isSome_eq_false_iff,
      Option.isNone_iff_eq_none] at hsome
  rw [FileTree.classified_eq, Report.exitStatus, Reader.failures_classify_singleton, hnone]
  rfl

/-- Where nothing decides, that is said, and no rule is named. -/
theorem explained_of_undecided (hg : t.stored? file = some g) (h : g.verdict = .undecided)
    (strict : Bool) :
    t.explained strict file = g.summary file ++ "\n  no rule matched a stricter shape\n" ∧
      namedRule? (t.explained strict file) = none := by
  have hprinted :
      t.explained strict file = g.summary file ++ "\n  no rule matched a stricter shape\n" := by
    rw [explained_eq hg, Grammar.report, Grammar.summary, h]
    simp [Verdict.position?, Verdict.reason, String.append_assoc]
  refine ⟨hprinted, ?_⟩
  have hline : lastLine? (t.explained strict file) =
      some "  no rule matched a stricter shape".toList := by
    apply lastLine?_eq (g.summary file).toList (by decide)
    rw [hprinted, String.toList_append]
    rfl
  rw [namedRule?, hline]
  rfl

/-- Where a rule decides, the report shows it, and it is named by its position from
1. -/
theorem explained_of_decided (hg : t.stored? file = some g) {s : Shape} {p : Nat} {key : Key Rule}
    (h : g.verdict = .decided s p key) {r : Rule} (hr : g.rules[p]? = some r) (strict : Bool) :
    t.explained strict file = g.summary file ++ s!"\n  rule {p + 1} (" ++
        String.ofList r.render ++ "): " ++ g.verdict.reason ++ "\n" ∧
      namedRule? (t.explained strict file) = some (p + 1) := by
  have hprinted : t.explained strict file = g.summary file ++ s!"\n  rule {p + 1} (" ++
      String.ofList r.render ++ "): " ++ g.verdict.reason ++ "\n" := by
    rw [explained_eq hg, Grammar.report, Grammar.summary, h]
    simp only [if_true, Verdict.position?, Option.bind_some, Grammar.ruleAt?_eq_getElem?, hr,
      Option.map_some]
  refine ⟨hprinted, ?_⟩
  -- the name, the rule and the reason are on one line
  have hrest : '\n' ∉ '(' :: (r.render ++ "): ".toList ++ g.verdict.reason.toList) := by
    obtain ⟨bytes, -, hdecode⟩ := stored?_eq_some_iff.mp hg
    obtain ⟨-, hrules⟩ := Grammar.encodable_iff_tidy.mp (encodable_of_decodeBytes hdecode)
    have htidy := hrules r (List.mem_of_getElem? hr)
    have hrender : '\n' ∉ r.render :=
      newline_not_mem_render htidy.head.oneLine htidy.body.oneLine
    have hreason : '\n' ∉ g.verdict.reason.toList := by
      rw [h]
      exact s.newline_not_mem_reason
    simp [hrender, hreason]
  apply namedRule?_eq_some (g.summary file).toList hrest
  have hmark : (toString "\n  rule ").toList = '\n' :: ruleMark := rfl
  have hopen : (toString " (").toList = [' ', '('] := rfl
  rw [hprinted]
  simp [hmark, hopen]

end Explained

/-! ### Rules that decide -/

/-- Whether a rule has a shape, so that it would decide the verdict if it were
alone. -/
def Rule.decides (r : Rule) : Bool :=
  r.shape?.isSome

namespace Grammar

/-- How many rules decide on their own. -/
def deciders (g : Grammar) : Nat :=
  g.rules.countP Rule.decides

/-- The rules that do not, in their order. -/
def remainder (g : Grammar) : List Rule :=
  g.rules.filter fun r => !r.decides

variable {g h : Grammar}

theorem deciders_le_size (g : Grammar) : g.deciders ≤ g.size := by
  rw [size_eq_length_rules]
  exact List.countP_le_length

/-- Where no rule decides, all of them are left. -/
theorem remainder_eq_rules (hzero : g.deciders = 0) : g.remainder = g.rules := by
  rw [deciders, List.countP_eq_zero] at hzero
  rw [remainder, List.filter_eq_self]
  intro r hr
  simpa using hzero r hr

/-- A verdict is decided by the first rule that decides, if there is one. -/
theorem verdict_split (g : Grammar) :
    (g.verdict = .undecided ∧ g.deciders = 0) ∨
      ∃ s key passed r rest, g.verdict = .decided s passed.length key ∧
        g.rules = passed ++ r :: rest ∧ (∀ q ∈ passed, q.decides = false) ∧ r.decides = true := by
  have hrules : g.rules = g.entries.map (·.2) := rfl
  cases hv : g.verdict with
  | undecided =>
    left
    refine ⟨rfl, List.countP_eq_zero.mpr fun r hr => ?_⟩
    obtain ⟨e, he, rfl⟩ := List.mem_map.mp (hrules ▸ hr)
    rw [Rule.decides, Verdict.scan_eq_undecided_iff.mp hv e he]
    exact Bool.false_ne_true
  | decided s p key =>
    right
    obtain ⟨passed, r, rest, hes, hp, hpassed, hr⟩ := scan_eq_decided hv
    rw [Nat.zero_add] at hp
    refine ⟨s, key, passed.map (·.2), r, rest.map (·.2), ?_, ?_, ?_, ?_⟩
    · rw [hp, List.length_map]
    · rw [hrules, hes, List.map_append, List.map_cons]
    · intro q hq
      obtain ⟨e, he, rfl⟩ := List.mem_map.mp hq
      rw [Rule.decides, hpassed e he]
      rfl
    · rw [Rule.decides, hr]
      rfl

/-- Without one of the rules that decide there is one less of them, and the same
remainder. -/
theorem remainder_of_rules {passed rest : List Rule} {r : Rule} (hr : r.decides = true)
    (hg : g.rules = passed ++ r :: rest) (hh : h.rules = passed ++ rest) :
    h.remainder = g.remainder ∧ g.deciders = h.deciders + 1 := by
  constructor
  · simp [remainder, hg, hh, hr]
  · simp only [deciders, hg, hh, List.countP_append, List.countP_cons_of_pos hr]
    omega

end Grammar

/-! ### One round -/

/-- What is seen of a rule that is named with a number, and what removing it does:
the explanation prints the rule that `list` shows under the number, and `remove`
drops this rule and keeps the others. -/
structure Names (strict : Bool) (t : FileTree) (file : Text) (g : Grammar) (n : Nat) (r : Rule) :
    Prop where
  one_le : 1 ≤ n
  le_size : n ≤ g.size
  rule : g.rules[n - 1]? = some r
  printed : t.explained strict file = g.summary file ++ s!"\n  rule {n} (" ++
    String.ofList r.render ++ "): " ++ g.verdict.reason ++ "\n"
  listed : (lines ((Command.list file).run strict t).1.output.toList)[n + 1]? =
    some (r.listed n).toList
  removed : ((Command.remove file n).run strict t).1.exitStatus = 0
  dropped : ∃ h, ((Command.remove file n).run strict t).2.stored? file = some h ∧
    h.name = g.name ∧ h.rules = g.rules.eraseIdx (n - 1)

section Rounds

variable {strict : Bool} {t : FileTree} {file : Text} {g : Grammar}

/-- The listing of a stored grammar shows a rule under its number. -/
theorem listed_of_stored? (hg : t.stored? file = some g) {i : Nat} {r : Rule}
    (hr : g.rules[i]? = some r) (strict : Bool) :
    (lines ((Command.list file).run strict t).1.output.toList)[i + 2]? =
      some (r.listed (i + 1)).toList := by
  obtain ⟨events, hplan⟩ := plan_list hg strict
  have hprinted : ((Command.list file).run strict t).1.output = g.listing ++ "\n" := by
    rw [Command.run, hplan]
    simp [Plan.run, Plan.report, Report.output]
  obtain ⟨bytes, -, hdecode⟩ := stored?_eq_some_iff.mp hg
  rw [hprinted]
  exact Grammar.getElem?_lines_listing (encodable_of_decodeBytes hdecode) hr

/-- Removing a rule of a stored grammar by its number succeeds, and what is stored
then is the rest. -/
theorem removed_of_stored? (hg : t.stored? file = some g) {i : Nat} (hi : i < g.size)
    (strict : Bool) :
    ((Command.remove file (i + 1)).run strict t).1.exitStatus = 0 ∧
      ∃ h, ((Command.remove file (i + 1)).run strict t).2.stored? file = some h ∧
        h.name = g.name ∧ h.rules = g.rules.eraseIdx i := by
  have hexit : ((Command.remove file (i + 1)).run strict t).1.exitStatus = 0 := by
    rw [Command.exitStatus_eq_zero_iff hg rfl]
    exact .remove (Nat.le_add_left 1 i) hi
  refine ⟨hexit, ?_⟩
  obtain ⟨g', k, hg', happly, hholds, -⟩ := (Command.refines_run hexit).edit file _ rfl
  obtain rfl : g' = g := Option.some.inj (hg'.symm.trans hg)
  obtain ⟨k', hk', hlists⟩ := Grammar.exists_removeAt_lists hi
  obtain rfl : k' = k := Except.ok.inj (hk'.symm.trans happly)
  obtain ⟨h, hstored, hsame⟩ := hholds.stored
  obtain ⟨hname, hrules⟩ := Grammar.equiv_iff.mp hsame
  exact ⟨h, hstored, hname.trans hlists.name, hrules.trans hlists.rules⟩

/-- The rule that decides is named, with the number it has in the listing. -/
theorem names_of_decided (hg : t.stored? file = some g) {s : Shape} {p : Nat} {key : Key Rule}
    (h : g.verdict = .decided s p key) {r : Rule} (hr : g.rules[p]? = some r) (strict : Bool) :
    namedRule? (t.explained strict file) = some (p + 1) ∧ Names strict t file g (p + 1) r := by
  obtain ⟨hprinted, hnamed⟩ := explained_of_decided hg h hr strict
  have hp : p < g.size := by
    rw [Grammar.size_eq_length_rules]
    exact (List.getElem?_eq_some_iff.mp hr).1
  obtain ⟨hexit, hdropped⟩ := removed_of_stored? hg hp strict
  exact ⟨hnamed, Nat.le_add_left 1 p, hp, hr, hprinted, listed_of_stored? hg hr strict, hexit,
    hdropped⟩

end Rounds

/-! ### Round after round -/

/-- Rules are asked for and removed, at most a number of times and as long as a rule
is named and can be removed: the numbers that were named, and the tree that is
left. -/
def FileTree.clear (strict : Bool) (file : Text) : Nat → FileTree → List Nat × FileTree
  | 0, t => ([], t)
  | times + 1, t =>
    match namedRule? (t.explained strict file) with
    | none => ([], t)
    | some n =>
      let removal := (Command.remove file n).run strict t
      if removal.1.exitStatus = 0 then
        let later := FileTree.clear strict file times removal.2
        (n :: later.1, later.2)
      else ([], t)

/-- What rounds come to in which the first `p` rules are not named. -/
structure Clearing (file : Text) (g : Grammar) (p times : Nat) (result : List Nat × FileTree) :
    Prop where
  above : ∀ n ∈ result.1, p < n
  ascending : result.1.Pairwise (· ≤ ·)
  length : result.1.length = min times g.deciders
  stored : ∃ h, result.2.stored? file = some h ∧ h.name = g.name ∧
    h.remainder = g.remainder ∧ h.deciders = g.deciders - times

section Clear

variable {strict : Bool} {t : FileTree} {file : Text} {g : Grammar}

theorem FileTree.clear_of_none (h : namedRule? (t.explained strict file) = none) (times : Nat) :
    t.clear strict file times = ([], t) := by
  cases times with
  | zero => rfl
  | succ times => rw [clear, h]

theorem FileTree.clear_of_some {n : Nat} (h : namedRule? (t.explained strict file) = some n)
    (hexit : ((Command.remove file n).run strict t).1.exitStatus = 0) (times : Nat) :
    t.clear strict file (times + 1) =
      (n :: (((Command.remove file n).run strict t).2.clear strict file times).1,
        (((Command.remove file n).run strict t).2.clear strict file times).2) := by
  rw [clear, h]
  exact if_pos hexit

/-- The rounds are a loop over the rules that decide.  Before each of them no rule
in front of the place where the last one was taken out decides. -/
theorem FileTree.clearing_clear (strict : Bool) (hg : t.stored? file = some g) {p : Nat}
    (hp : ∀ i < p, ∀ r, g.rules[i]? = some r → r.decides = false) (times : Nat) :
    Clearing file g p times (t.clear strict file times) := by
  induction times generalizing t g p with
  | zero => exact ⟨List.forall_mem_nil _, .nil, (Nat.zero_min _).symm, g, hg, rfl, rfl, rfl⟩
  | succ times ih =>
    obtain ⟨hv, hzero⟩ | ⟨s, key, passed, r, rest, hv, hrules, hpassed, hr⟩ := g.verdict_split
    · -- nothing decides, and nothing is named any more
      rw [FileTree.clear_of_none (explained_of_undecided hg hv strict).2]
      exact ⟨List.forall_mem_nil _, .nil, by simp [hzero], g, hg, rfl, rfl, by omega⟩
    · have hget : g.rules[passed.length]? = some r := by
        rw [hrules]
        simp
      obtain ⟨hnamed, hnames⟩ := names_of_decided hg hv hget strict
      obtain ⟨h, hstored, hname, hdropped⟩ := hnames.dropped
      have hleft : h.rules = passed ++ rest := by
        rw [hdropped, hrules, Nat.add_sub_cancel, List.eraseIdx_append_of_length_le le_rfl]
        simp
      obtain ⟨hremainder, hdeciders⟩ := Grammar.remainder_of_rules hr hrules hleft
      -- the rule that decides is not among the first `p`
      have hle : p ≤ passed.length := by
        by_contra hlt
        rw [hp passed.length (Nat.lt_of_not_le hlt) r hget] at hr
        cases hr
      have hfront : ∀ i < passed.length, ∀ q, h.rules[i]? = some q → q.decides = false := by
        intro i hi q hq
        rw [hleft, List.getElem?_append_left hi] at hq
        exact hpassed q (List.mem_of_getElem? hq)
      obtain ⟨habove, hascending, hlength, k, hk, hkname, hkremainder, hkdeciders⟩ :=
        ih hstored hfront
      rw [FileTree.clear_of_some hnamed hnames.removed]
      refine ⟨?_, ?_, ?_, k, hk, hkname.trans hname, hkremainder.trans hremainder, ?_⟩
      · rw [List.forall_mem_cons]
        exact ⟨Nat.lt_succ_of_le hle, fun n hn => hle.trans_lt (habove n hn)⟩
      · exact List.pairwise_cons.mpr ⟨habove, hascending⟩
      · rw [List.length_cons, hlength]
        omega
      · omega

/-- Clearing a file of the rules that decide.  `named_iff` and `named` are about one
round on the file, the others about any number of them. -/
structure ClearsToRemainder (strict : Bool) (t : FileTree) (file : Text) (g : Grammar) : Prop where
  explains : (t.classified strict true [file]).exitStatus = 0
  named_iff : (∃ n, namedRule? (t.explained strict file) = some n) ↔ g.verdict ≠ .undecided
  named : ∀ n, namedRule? (t.explained strict file) = some n → ∃ r, Names strict t file g n r
  ascending : ∀ times, (t.clear strict file times).1.Pairwise (· ≤ ·)
  length : ∀ times, (t.clear strict file times).1.length = min times g.deciders
  kept : ∀ times, ∃ h, (t.clear strict file times).2.stored? file = some h ∧ h.name = g.name ∧
    h.remainder = g.remainder ∧ h.deciders = g.deciders - times
  deciders_le_size : g.deciders ≤ g.size
  cleared : ∃ h, (t.clear strict file g.deciders).2.stored? file = some h ∧
    h.name = g.name ∧ h.rules = g.remainder ∧ h.verdict = .undecided ∧
    (t.clear strict file g.deciders).2.explained strict file =
      String.ofList file ++ ": " ++ String.ofList g.name ++
        " is Type 2 (context-free)\n  no rule matched a stricter shape\n"

/-- A rule is named exactly if one decides, and then it is the one that decides. -/
theorem named_cases (hg : t.stored? file = some g) (strict : Bool) :
    (g.verdict = .undecided ∧ namedRule? (t.explained strict file) = none) ∨
      g.verdict ≠ .undecided ∧ ∃ n r, namedRule? (t.explained strict file) = some n ∧
        Names strict t file g n r := by
  cases hv : g.verdict with
  | undecided => exact Or.inl ⟨rfl, (explained_of_undecided hg hv strict).2⟩
  | decided s p key =>
    obtain ⟨r, hfirst, -⟩ := firstMatch_of_verdict hv
    obtain ⟨hnamed, hnames⟩ := names_of_decided hg hv hfirst.rule strict
    exact Or.inr ⟨by simp, p + 1, r, hnamed, hnames⟩

/-- **Removing the rules that decide leaves those that do not.**  Of a file that holds
a grammar: the explanation names a rule exactly if the verdict is decided; the rule
is the one that is listed under the number, and can be removed by it.  In rounds of
asking and removing, which never fail and keep a grammar in the file, the numbers do
not go down.  After as many rounds as there are rules that decide on their own, the
file holds the other rules in their order, under the old name, and its type is 2
because no rule decides. -/
theorem clears_to_remainder (strict : Bool) (hg : t.stored? file = some g) :
    ClearsToRemainder strict t file g := by
  have hclearing := FileTree.clearing_clear strict hg (p := 0) (by simp)
  constructor
  case explains => exact exitStatus_classified hg strict true
  case named_iff =>
    obtain ⟨hv, hnone⟩ | ⟨hv, n, r, hnamed, -⟩ := named_cases hg strict
    · rw [hnone, hv]
      simp
    · exact ⟨fun _ => hv, fun _ => ⟨n, hnamed⟩⟩
  case named =>
    intro n hn
    obtain ⟨-, hnone⟩ | ⟨-, n', r, hnamed, hnames⟩ := named_cases hg strict
    · rw [hnone] at hn
      cases hn
    · obtain rfl : n' = n := Option.some.inj (hnamed.symm.trans hn)
      exact ⟨r, hnames⟩
  case ascending => exact fun times => (hclearing times).ascending
  case length => exact fun times => (hclearing times).length
  case kept => exact fun times => (hclearing times).stored
  case deciders_le_size => exact g.deciders_le_size
  case cleared =>
    obtain ⟨h, hstored, hname, hremainder, hdeciders⟩ := (hclearing g.deciders).stored
    rw [Nat.sub_self] at hdeciders
    have hv : h.verdict = .undecided := by
      obtain ⟨hv, -⟩ | ⟨s, key, passed, r, rest, -, hrules, -, hr⟩ := h.verdict_split
      · exact hv
      · have hpos : 0 < h.deciders :=
          List.countP_pos_iff.mpr ⟨r, by rw [hrules]; simp, hr⟩
        omega
    refine ⟨h, hstored, hname, ?_, hv, ?_⟩
    · rw [← Grammar.remainder_eq_rules hdeciders, hremainder]
    · have hkind : Verdict.undecided.kind.display = "Type 2 (context-free)" := rfl
      rw [(explained_of_undecided hstored hv strict).1, Grammar.summary, hname, hv, hkind]
      simp only [String.append_assoc]
      rfl

/-- Of three rules the first and the last decide; they are named as 1 and, since the
numbers are counted anew, as 2. -/
theorem clears_to_remainder_of_three :
    ∃ (t : FileTree) (g : Grammar),
      t.read ['g'] = .ok (Utf8.encode "G\n\nS -> aS\nA -> b\nS -> Sa".toList) ∧
      t.stored? ['g'] = some g ∧ ClearsToRemainder false t ['g'] g ∧ g.deciders = 2 ∧
      (t.clear false ['g'] 2).1 = [1, 2] ∧
      (t.clear false ['g'] 2).2.read ['g'] = .ok (Utf8.encode "G\n\nA -> b".toList) := by
  let g : Grammar :=
    .ofRules ['G'] [⟨['S'], ['a', 'S']⟩, ⟨['A'], ['b']⟩, ⟨['S'], ['S', 'a']⟩] (by decide)
  let t : FileTree :=
    .ofEntries [(['g'], .file (Utf8.encode "G\n\nS -> aS\nA -> b\nS -> Sa".toList))]
  have hread : t.read ['g'] = .ok (Utf8.encode "G\n\nS -> aS\nA -> b\nS -> Sa".toList) := rfl
  have hstored : t.stored? ['g'] = some g := stored?_eq_some_iff.mpr
    ⟨_, hread, decodeBytes_encodeBytes (g := g) (by decide +kernel)⟩
  exact ⟨t, g, hread, hstored, clears_to_remainder false hstored, by decide +kernel,
    by decide +kernel, by decide +kernel⟩

end Clear

end PhraseGrammar
