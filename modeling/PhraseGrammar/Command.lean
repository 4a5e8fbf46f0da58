/-
PhraseGrammar/Command.lean

Commands on grammar files, decided before anything is written.

A command reads files, edits a grammar in memory, and writes at most one file.
`Command.plan` makes all of its decisions from what reading a file gives, so a
plan is either finished, with what to print and what failed, or one write that
is left to do, with what to print if it succeeds.  Nothing is written unless
every check has passed, and a failed write prints nothing.

Every file to classify is read before the first verdict is given.  The grammars
that could be read wait in a catalog, each under a key that is kept beside the
name of its file; files that cannot be read do not keep the others from being
classified.
-/
import PhraseGrammar.Catalog
import PhraseGrammar.Edit
import PhraseGrammar.Files
import PhraseGrammar.Format.Hazard
import PhraseGrammar.Listing
import PhraseGrammar.Log
import PhraseGrammar.Text.Letter

namespace PhraseGrammar

/-- What can be asked for; positions count from 1. -/
inductive Command
  | new (file name : Text) (force : Bool)
  | add (file head body : Text)
  | edit (file : Text) (position : Nat) (head body : Text)
  | remove (file : Text) (position : Nat)
  | list (file : Text)
  | classify (files : List Text) (explain : Bool)
  deriving DecidableEq

/-! ### What the user types -/

/-- What makes no sense to ask for. -/
inductive InputFault
  | notALetter (head : Text)
  | positionZero
  | fileExists (file : Text)
  deriving DecidableEq

/-- What the user is told. -/
def InputFault.message : InputFault → String
  | .notALetter head => "Head `" ++ String.ofList head ++ "` must be a single letter"
  | .positionZero => "Rule positions start at 1"
  | .fileExists file => String.ofList file ++ " already exists (use --force to overwrite)"

/-- The ways to type an empty body, besides leaving it empty. -/
def lambdaSpellings : List Text :=
  [['λ'], ['ε']]

/-- The body that is meant by what was typed. -/
def typedBody (body : Text) : Text :=
  if body ∈ lambdaSpellings then [] else body

/-- Whether a head is exactly one letter. -/
def isSingleLetter : Text → Bool
  | [c] => isLetter c
  | _ => false

/-- The rule that is meant by a typed head and body; `strict` asks for heads
that are a single letter. -/
def typedRule (strict : Bool) (head body : Text) : Except InputFault Rule :=
  if strict && !isSingleLetter head then .error (.notALetter head)
  else .ok ⟨head, typedBody body⟩

/-- The index, from 0, of a typed position. -/
def typedIndex (position : Nat) : Except InputFault Nat :=
  if position = 0 then .error .positionZero else .ok (position - 1)

/-! ### What can fail -/

/-- Why a command failed. -/
inductive CommandError
  | noFile (path : Text) (why : FileFault)
  | format (faults : List (Located FormatFault))
  | unencodable (hazards : List (Located Hazard))
  | edit (why : EditError)
  | input (why : InputFault)

/-- What the user is told, one line for each fault. -/
def CommandError.message : CommandError → String
  | .noFile path why => String.ofList path ++ ": " ++ why.message
  | .format faults => "\n".intercalate (faults.map Located.display)
  | .unencodable hazards => "\n".intercalate (hazards.map Located.display)
  | .edit why => why.message
  | .input why => why.message

/-- What a command did: what it logged, what it printed, and what failed. -/
structure Report where
  events : List Event
  printed : List String
  failures : List CommandError

/-- What a command that did not succeed ends with. -/
inductive Failure
  | one (why : CommandError)
  | many (whys : List CommandError)

/-- How a command failed, if it did; several files can fail independently. -/
def Report.failure? (r : Report) : Option Failure :=
  match r.failures with
  | [] => none
  | [why] => some (.one why)
  | whys => some (.many whys)

/-- What the user is told of the failures, each on its own lines. -/
def Report.message (r : Report) : String :=
  "\n".intercalate (r.failures.map (·.message))

/-- Whether a file has to be new. -/
inductive WriteMode
  | create
  | replace
  deriving DecidableEq

/-- One file to be written. -/
structure Write where
  file : Text
  bytes : Bytes
  mode : WriteMode

/-- Why a command failed whose write did. -/
def Write.failure (w : Write) (why : FileFault) : CommandError :=
  if w.mode = .create ∧ why = .alreadyExists then .input (.fileExists w.file)
  else .noFile w.file why

/-- All decisions of a command: done, or one write away from it. -/
inductive Plan
  | done (report : Report)
  | save (events : List Event) (write : Write) (saved : Event) (printed : List String)

namespace Plan

/-- The plan that ends with a failure. -/
def fail (events : List Event) (why : CommandError) : Plan :=
  .done ⟨events, [], [why]⟩

/-- What a command did, given how its write went. -/
def report {α : Type} (p : Plan) (attempt : Write → Except FileFault α) : Report :=
  match p with
  | .done r => r
  | .save events write saved printed =>
    match attempt write with
    | .ok _ => ⟨events ++ [saved], printed, []⟩
    | .error why => ⟨events, [], [write.failure why]⟩

end Plan

/-! ### Deciding -/

/-- How files are read. -/
abbrev Reader := Text → Except FileFault Bytes

/-- Reads a grammar from a file, with the events on the way. -/
def Reader.grammar (read : Reader) (file : Text) : List Event × Except CommandError Grammar :=
  match read file with
  | .error why => ([], .error (.noFile file why))
  | .ok bytes =>
    match decodeBytes bytes with
    | .error faults =>
      ([.fileRead file bytes.length], .error (.format (faults.map (·.inFile file))))
    | .ok g => ([.fileRead file bytes.length, .decoded g.name g.size], .ok g)

/-- Plans to write a grammar to a file, unless it would not come back. -/
def Grammar.saveTo (g : Grammar) (file : Text) (mode : WriteMode) (events : List Event)
    (printed : List String) : Plan :=
  if g.Encodable then
    .save events ⟨file, g.encodeBytes, mode⟩
      (match mode with
        | .create => .created file g.name
        | .replace => .wrote file g.name g.size)
      printed
  else .fail events (.unencodable (g.hazards.map (·.inFile file)))

/-- Plans one edit of the grammar in a file. -/
def Reader.edit (read : Reader) (file : Text) (e : Edit) : Plan :=
  match read.grammar file with
  | (events, .error why) => .fail events why
  | (events, .ok g) =>
    match e.apply g with
    | .error why => .fail events (.edit why)
    | .ok h => h.saveTo file .replace events [h.listing]

/-- What the files to classify have given so far: the grammars that could be
read, the file that each came from, what was logged, and what failed. -/
structure Loaded where
  catalog : Catalog
  sources : List (Key Grammar × Text)
  events : List Event
  failures : List CommandError

namespace Loaded

/-- Before the first file is read. -/
def empty : Loaded :=
  ⟨.empty, [], [], []⟩

/-- Reads one more of the files to classify. -/
def load (read : Reader) (l : Loaded) (file : Text) : Loaded :=
  match read.grammar file with
  | (events, .error why) =>
    { l with events := l.events ++ events, failures := l.failures ++ [why] }
  | (events, .ok g) =>
    let (key, catalog) := Catalog.create l.catalog g
    { l with
      catalog := catalog
      sources := l.sources ++ [(key, file)]
      events := l.events ++ events }

/-- The grammars to report on, each with its file; a key that is not in the
catalog is passed over. -/
def grammars (l : Loaded) : List (Text × Grammar) :=
  l.sources.filterMap fun s => (l.catalog.get? s.1).map (s.2, ·)

end Loaded

/-- Reads all the files to classify. -/
def Reader.load (read : Reader) (files : List Text) : Loaded :=
  files.foldl (Loaded.load read) .empty

/-- Classifies the grammars in files. -/
def Reader.classify (read : Reader) (files : List Text) (explain : Bool) : Report :=
  let loaded := read.load files
  ⟨loaded.events ++ loaded.grammars.map fun p => p.2.verdictEvent,
    loaded.grammars.map fun p => p.2.report p.1 explain, loaded.failures⟩

namespace Command

/-- All decisions of a command; `strict` is the rule for heads. -/
def plan (c : Command) (strict : Bool) (read : Reader) : Plan :=
  match c with
  | .new file name force =>
    (Grammar.new name).saveTo file (if force then .replace else .create) [] []
  | .add file head body =>
    match typedRule strict head body with
    | .error why => .fail [] (.input why)
    | .ok r => read.edit file (.add r)
  | .edit file position head body =>
    match typedIndex position, typedRule strict head body with
    | .error why, _ => .fail [] (.input why)
    | .ok _, .error why => .fail [] (.input why)
    | .ok i, .ok r => read.edit file (.replaceAt i r)
  | .remove file position =>
    match typedIndex position with
    | .error why => .fail [] (.input why)
    | .ok i => read.edit file (.removeAt i)
  | .list file =>
    match read.grammar file with
    | (events, .error why) => .fail events why
    | (events, .ok g) => .done ⟨events, [g.listing], []⟩
  | .classify files explain => .done (read.classify files explain)

/-- The files a command reads. -/
def sources : Command → List Text
  | .new .. => []
  | .add file .. | .edit file .. | .remove file .. | .list file => [file]
  | .classify files _ => files

end Command

end PhraseGrammar
