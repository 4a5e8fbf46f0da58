/-
PhraseGrammar/Log/Filter.lean

Which events are shown.  A filter is a list of directives, written with commas
between them; each admits events up to a threshold:

    <level>                     every event
    <source>=<level>            events from sources that start like this
    [{<field>}]=<level>         events that have the field
    <source>[{<field>}]=<level> both

The most specific directive that fits an event decides about it, and an event
that none fits is not shown.  A directive that names a span, or asks for the
value of a field, says nothing about events; such a value has to be a number or
a pattern nevertheless.  A source without a level admits everything; a level is
a word, in any case, or a number from 0, nothing, to 5, everything.

Blanks around a directive do not count when its parts are found.  They do count
when the parts are cut out: a part is what lies between two numbers of bytes
from the first blank on, where the numbers are those of its place without the
blanks.  So blanks in front move all parts to the left, and a level that is
moved is none, while blanks behind belong to the level.
-/
import PhraseGrammar.Log
import PhraseGrammar.Log.Pattern.Reader
import PhraseGrammar.Text.Blank
import PhraseGrammar.Text.Letter
import PhraseGrammar.Text.Lines
import PhraseGrammar.Text.Number
import PhraseGrammar.Text.Utf8

namespace PhraseGrammar

/-- One rule of a filter: the highest rank it admits, and the events it fits. -/
structure Directive where
  threshold : Nat
  source : Option Text
  fields : List Text
  spansOnly : Bool

namespace Directive

/-- The words for thresholds, and the highest rank each admits. -/
def levelWords : List (String × Nat) :=
  [("off", 0), ("error", 1), ("warn", 2), ("info", 3), ("debug", 4), ("trace", 5)]

/-- The highest threshold: everything is admitted. -/
def everything : Nat := Level.trace.rank

/-- Reads a threshold. -/
def threshold? (s : Text) : Option Nat :=
  match count? s with
  | some n => if n ≤ everything then some n else none
  | none =>
    (levelWords.find? fun w => w.1.toList = s.map Char.toLower).map (·.2)

/-- The threshold after an equals sign; nothing there means everything. -/
def givenThreshold? (s : Text) : Option Nat :=
  if s = [] then some everything else threshold? s

/-- Whether a directive can start with a character. -/
def canStart (c : Char) : Bool :=
  c = '[' || c = '-' || c = ':' || c = '_' || isLetter c || isNumeric c

/-- Whether the value of a field can be compared with a text: it is a number
or a pattern. -/
def isValue (s : Text) : Bool :=
  isReal s || (Pattern.read? s).isSome

/-- Asks for a field, and for its value if there is an equals sign. -/
def withField? (d : Directive) (s : Text) : Option Directive :=
  match pieces '=' s with
  | _ :: value :: _ => if isValue value then some { d with spansOnly := true } else none
  | _ => some { d with fields := [s] }

/-- Reads what is left after the source and the brackets.  Here and below `s` is
the directive with its blanks, and `start` counts the bytes, without them, in
front of what is left. -/
def ending? (d : Directive) (s : Text) (start : Nat) : Text → Option Directive
  | [] => some d
  | c :: _ => do
    if c ≠ '=' then none
    let level ← Utf8.slice? s (start + 1) (Utf8.size s)
    return { d with threshold := ← givenThreshold? level }

/-- Reads a field and the brackets that close after it. -/
def field? (d : Directive) (s : Text) (start : Nat) (rest : Text) : Option Directive := do
  let field := rest.takeWhile (· ≠ '}')
  let stop := start + Utf8.size field
  match rest.dropWhile (· ≠ '}') with
  | _ :: ']' :: after =>
    if field = [] then none
    ending? (← d.withField? (← Utf8.slice? s start stop)) s (stop + 2) after
  | _ => none

/-- Reads what stands between brackets, and what follows. -/
def bracketed? (d : Directive) (s : Text) (start : Nat) (rest : Text) : Option Directive :=
  let span := rest.takeWhile fun c => c ≠ ']' && c ≠ '{'
  let stop := start + Utf8.size span
  match rest.dropWhile fun c => c ≠ ']' && c ≠ '{' with
  | [] => none
  | c :: after =>
    if c = ']' then ending? { d with spansOnly := true } s (stop + 1) after
    else field? { d with spansOnly := span ≠ [] } s (stop + 1) after

/-- Reads a directive. -/
def parse? (s : Text) : Option Directive := do
  let source := (trim s).takeWhile fun c => c ≠ '=' && c ≠ '['
  let stop := Utf8.size source
  if !(trim s).head?.any canStart then none
  match (trim s).dropWhile fun c => c ≠ '=' && c ≠ '[' with
  | [] =>
    match threshold? s with
    | some n => return ⟨n, none, [], false⟩
    | none => return ⟨everything, some s, [], false⟩
  | c :: rest =>
    let cut ← Utf8.slice? s 0 stop
    let named : Directive := ⟨everything, if source = [] then none else some cut, [], false⟩
    if c = '[' then bracketed? named s (stop + 1) rest else ending? named s stop (c :: rest)

/-- Whether a directive has a say about an event. -/
def fits (d : Directive) (e : Event) : Bool :=
  !d.spansOnly && d.source.all (·.isPrefixOf e.source.toList) &&
    d.fields.all fun f => e.fieldNames.any (·.toList = f)

/-- Whether one directive is at least as specific as another: by the length of
its source, then the number of its fields, then the fields in dictionary order. -/
def overrides (d b : Directive) : Bool :=
  let sourceLength (d : Directive) : Nat := d.source.elim 0 (·.length + 1)
  if sourceLength d ≠ sourceLength b then sourceLength b < sourceLength d
  else if d.fields.length ≠ b.fields.length then b.fields.length < d.fields.length
  else !(d.fields < b.fields)

end Directive

/-- Directives in the order given. -/
abbrev Filter := List Directive

namespace Filter

/-- The directive that decides about an event; of equals the last. -/
def decisive? (f : Filter) (e : Event) : Option Directive :=
  (f.filter (·.fits e)).foldl
    (fun best d =>
      match best with
      | some b => if d.overrides b then some d else some b
      | none => some d)
    none

/-- Whether an event is shown. -/
def shows (f : Filter) (e : Event) : Bool :=
  (f.decisive? e).any fun d => e.level.rank ≤ d.threshold

/-- Reads a filter; one bad directive makes it no filter. -/
def parse? (s : Text) : Option Filter :=
  ((pieces ',' s).filter (· ≠ [])).mapM Directive.parse?

/-- The filter that admits every event up to a level. -/
def upTo (l : Level) : Filter :=
  [⟨l.rank, none, [], false⟩]

/-- Such a filter shows the events that matter at least as much as its level. -/
theorem shows_upTo (l : Level) (e : Event) :
    (upTo l).shows e = decide (e.level.rank ≤ l.rank) := by
  simp [upTo, shows, decisive?, Directive.fits]

/-- The filter that a number of requests for more stands for. -/
def ofVerbosity : Nat → Filter
  | 0 => upTo .warn
  | 1 => upTo .info
  | _ => upTo .debug

/-- The filter in force: the given text, if it is a filter, else the requests for more. -/
def choose (given : Option Text) (verbosity : Nat) : Filter :=
  (given.bind parse?).getD (ofVerbosity verbosity)

end Filter

end PhraseGrammar
