/-
PhraseGrammar/Log.lean

What is worth a line in the log.  An event has a level, the part of the
program it comes from, a message and fields; its line shows all but the
second, which is there for filters to choose by.
-/
import PhraseGrammar.Text.Quoted
import PhraseGrammar.Hierarchy

namespace PhraseGrammar

/-- How much a log line matters, the most important first. -/
inductive Level
  | error
  | warn
  | info
  | debug
  | trace
  deriving DecidableEq

namespace Level

/-- The place in the order of importance, counted from 1. -/
def rank : Level → Nat
  | .error => 1
  | .warn => 2
  | .info => 3
  | .debug => 4
  | .trace => 5

/-- The level as lines show it. -/
def label : Level → String
  | .error => "ERROR"
  | .warn => "WARN"
  | .info => "INFO"
  | .debug => "DEBUG"
  | .trace => "TRACE"

end Level

/-- Something that happened. -/
inductive Event
  | fileRead (file : Text) (bytes : Nat)
  | decoded (name : Text) (rules : Nat)
  | created (file name : Text)
  | wrote (file name : Text) (rules : Nat)
  | ruleDecided (name : Text) (shape : Shape) (key : Key Rule)
  | noneDecided (name : Text) (rules : Nat)
  deriving DecidableEq

namespace Event

/-- How much an event matters. -/
def level : Event → Level
  | .created .. | .wrote .. => .info
  | _ => .debug

/-- The part of the program an event comes from. -/
def source : Event → String
  | .fileRead .. | .created .. | .wrote .. => "chomsky::store"
  | .decoded .. => "chomsky::codec"
  | .ruleDecided .. | .noneDecided .. => "chomsky::classifier"

/-- What happened, in words. -/
def message : Event → String
  | .fileRead .. => "read grammar file"
  | .decoded .. => "decoded grammar"
  | .created .. => "created grammar"
  | .wrote .. => "wrote grammar"
  | .ruleDecided .. => "rule decided grammar type"
  | .noneDecided .. => "no rule decided, falling back to type 2"

/-- The fields after the message, each with its value as it is shown. -/
def fields : Event → List (String × String)
  | .fileRead file bytes => [("path", String.ofList file), ("bytes", toString bytes)]
  | .decoded name rules => [("name", String.ofList (quoted name)), ("rules", toString rules)]
  | .created file name =>
    [("path", String.ofList file), ("name", String.ofList (quoted name))]
  | .wrote file name rules =>
    [("path", String.ofList file), ("name", String.ofList (quoted name)),
      ("rules", toString rules)]
  | .ruleDecided name shape key =>
    [("grammar", String.ofList (quoted name)), ("rule", s!"Some(RuleId({key.number}))"),
      ("kind", shape.kind.display), ("reason", shape.reason)]
  | .noneDecided name rules =>
    [("grammar", String.ofList (quoted name)), ("rules", toString rules)]

/-- The names of everything a filter can ask for. -/
def fieldNames (e : Event) : List String :=
  "message" :: e.fields.map (·.1)

/-- The line of an event, without the time. -/
def line (e : Event) : String :=
  " ".intercalate (e.level.label :: e.message :: e.fields.map fun f => f.1 ++ "=" ++ f.2)

end Event

/-- The event of a verdict on a grammar. -/
def Grammar.verdictEvent (g : Grammar) : Event :=
  match g.verdict with
  | .decided shape _ key => .ruleDecided g.name shape key
  | .undecided => .noneDecided g.name g.size

end PhraseGrammar
