/-
PhraseGrammar/Format.lean

The text format of grammars:

    <name>
    <blank line>
    <head> -> <body>
    ...

`Grammar.encode` writes it.  Reading is more liberal than writing: blanks
around a line or around the first arrow of a line mean nothing, and blank
lines may stand anywhere after the first.  A line is read on its own
(`Rule.ofLine?`), so a text is refused with one fault for every bad line, in
the order of the lines:

    the name line is bad when it is blank,
    any other line when it is not blank and has no arrow, or only blanks
      before its first arrow.

The first arrow of a line ends the head; a body may hold arrows.
-/
import PhraseGrammar.Text.Blank
import PhraseGrammar.Text.Lines
import PhraseGrammar.Text.Utf8
import PhraseGrammar.Grammar
import PhraseGrammar.Located

namespace PhraseGrammar

/-- What stands between the head and the body of a rule. -/
def arrow : Text :=
  ['-', '>']

/-! ### Writing -/

/-- A rule as a line of text. -/
def Rule.render (r : Rule) : Text :=
  r.head ++ [' '] ++ arrow ++ [' '] ++ r.body

/-- A grammar as text. -/
def Grammar.encode (g : Grammar) : Text :=
  g.name ++ ['\n', '\n'] ++ joinLines (g.rules.map Rule.render)

/-- A grammar as the bytes of a file. -/
def Grammar.encodeBytes (g : Grammar) : Bytes :=
  Utf8.encode g.encode

/-! ### Reading -/

/-- What keeps a text from being a grammar. -/
inductive FormatFault
  | emptyInput
  | invalidUtf8
  | missingName
  | missingArrow
  | missingHead
  deriving DecidableEq

/-- What the user is told. -/
def FormatFault.message : FormatFault → String
  | .emptyInput => "Input is empty, expected a grammar name on the first line"
  | .invalidUtf8 => "Input is not valid UTF-8"
  | .missingName => "Expected a grammar name on the first line"
  | .missingArrow => "Expected `->` in rule"
  | .missingHead => "Expected a head before `->`"

instance : ToString FormatFault := ⟨FormatFault.message⟩

/-- What stands before the first arrow and what after it. -/
def splitArrow? : Text → Option (Text × Text)
  | '-' :: '>' :: s => some ([], s)
  | c :: s => (splitArrow? s).map fun p => (c :: p.1, p.2)
  | [] => none

/-- A text is what stands before its first arrow, the arrow, and what stands after. -/
theorem eq_of_splitArrow? {s before after : Text} (h : splitArrow? s = some (before, after)) :
    s = before ++ arrow ++ after := by
  fun_induction splitArrow? s generalizing before after with
  | case1 s =>
    obtain ⟨rfl, rfl⟩ : [] = before ∧ s = after := by simpa using h
    rfl
  | case2 c s _ ih =>
    obtain ⟨⟨b, a⟩, hs, hc⟩ := Option.map_eq_some_iff.mp h
    obtain ⟨rfl, rfl⟩ : c :: b = before ∧ a = after := by simpa using hc
    rw [ih hs]
    rfl
  | case3 => simp at h

/-- What stands before the first arrow holds none. -/
theorem splitArrow?_before {s before after : Text} (h : splitArrow? s = some (before, after)) :
    splitArrow? before = none := by
  fun_induction splitArrow? s generalizing before after with
  | case1 s =>
    obtain ⟨rfl, rfl⟩ : [] = before ∧ s = after := by simpa using h
    rfl
  | case2 c s hne ih =>
    obtain ⟨⟨b, a⟩, hs, hc⟩ := Option.map_eq_some_iff.mp h
    obtain ⟨rfl, rfl⟩ : c :: b = before ∧ a = after := by simpa using hc
    have hb : ∀ t, c = '-' → b = '>' :: t → False := by
      rintro t rfl rfl
      exact hne (t ++ arrow ++ a) rfl (eq_of_splitArrow? hs)
    rw [splitArrow?.eq_def]
    split
    · next t heq =>
      obtain ⟨rfl, rfl⟩ := List.cons.inj heq
      exact (hb t rfl rfl).elim
    · next d t _ heq =>
      obtain ⟨rfl, rfl⟩ := List.cons.inj heq
      rw [ih hs]
      rfl
    · next heq => simp at heq
  | case3 => simp at h

/-- The rule on a line, if the line is not blank. -/
def Rule.ofLine? (line : Text) : Except FormatFault (Option Rule) :=
  if trim line = [] then .ok none
  else
    match splitArrow? (trim line) with
    | none => .error .missingArrow
    | some (before, after) =>
      if trim before = [] then .error .missingHead
      else .ok (some ⟨trim before, trim after⟩)

theorem Rule.head_ne_nil_of_ofLine? {line : Text} {r : Rule}
    (h : Rule.ofLine? line = .ok (some r)) : r.head ≠ [] := by
  unfold Rule.ofLine? at h
  split at h
  · simp at h
  · split at h
    · simp at h
    · split at h
      · simp at h
      · next hb =>
        simp only [Except.ok.injEq, Option.some.injEq] at h
        rw [← h]
        exact hb

/-- The rules on lines, without those on bad lines. -/
def rulesOf (ls : List Text) : List Rule :=
  ls.filterMap fun l => ((Rule.ofLine? l).toOption).join

theorem head_ne_nil_of_mem_rulesOf {ls : List Text} {r : Rule} (h : r ∈ rulesOf ls) :
    r.head ≠ [] := by
  obtain ⟨l, -, hl⟩ := List.mem_filterMap.mp h
  refine @Rule.head_ne_nil_of_ofLine? l r ?_
  cases hr : Rule.ofLine? l with
  | error e => simp [hr, Except.toOption] at hl
  | ok o => cases o <;> simp_all [Except.toOption]

/-- The fault on a rule line. -/
def ruleFault? (line : Text) : Option FormatFault :=
  match Rule.ofLine? line with
  | .error e => some e
  | .ok _ => none

/-- The fault on the name line. -/
def nameFault? (line : Text) : Option FormatFault :=
  if trim line = [] then some .missingName else none

/-- The faults on the lines that follow line `n`. -/
def faultsAfter (n : Nat) : List Text → List (Located FormatFault)
  | [] => []
  | l :: ls => ((ruleFault? l).map (Located.atLine (n + 1))).toList ++ faultsAfter (n + 1) ls

/-- The faults of a text, in the order of the lines. -/
def faultsOf (text : Text) : List (Located FormatFault) :=
  ((nameFault? (firstLine text)).map (Located.atLine 1)).toList ++
    faultsAfter 1 (laterLines text)

/-- Reads a grammar, or tells every bad line. -/
def decode (text : Text) : Except (List (Located FormatFault)) Grammar :=
  if text = [] then .error [.atLine 0 .emptyInput]
  else if faultsOf text = [] then
    .ok (.ofRules (trim (firstLine text)) (rulesOf (laterLines text))
      fun _ => head_ne_nil_of_mem_rulesOf)
  else .error (faultsOf text)

/-- The line that holds the first byte after the longest well-formed beginning. -/
def brokenLine (bytes : Bytes) : Nat :=
  (Utf8.read bytes).1.count '\n' + 1

/-- Reads a grammar from the bytes of a file. -/
def decodeBytes (bytes : Bytes) : Except (List (Located FormatFault)) Grammar :=
  match Utf8.decode? bytes with
  | some text => decode text
  | none => .error [.atLine (brokenLine bytes) .invalidUtf8]

end PhraseGrammar
