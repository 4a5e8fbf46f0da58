/-
PhraseGrammar/Session.lean

Command lines run on a tree of files.  A run has an outcome and leaves a tree;
a session is a sequence of runs, each on the tree the one before it left.

A plan that still has a write to do changes the tree by that write alone, and
by nothing if it fails, so a run that fails leaves the tree as it was.
-/
import PhraseGrammar.CommandLine
import PhraseGrammar.Log.Filter

namespace PhraseGrammar

/-- Writes a file as its mode asks. -/
def FileTree.write (t : FileTree) (w : Write) : Except FileFault FileTree :=
  match w.mode with
  | .create => t.create w.file w.bytes
  | .replace => t.overwrite w.file w.bytes

/-- Carries out a plan. -/
def Plan.run (p : Plan) (t : FileTree) : Report × FileTree :=
  (p.report t.write,
    match p with
    | .done _ => t
    | .save _ write _ _ => ((t.write write).toOption).getD t)

/-- Runs a command; `strict` is the rule for heads. -/
def Command.run (c : Command) (strict : Bool) (t : FileTree) : Report × FileTree :=
  (c.plan strict t.read).run t

/-- One command line with the settings it is run under. -/
structure Line where
  words : List Text
  headSetting : Option Text
  logSetting : Option Text

/-- What came of a command line. -/
inductive Outcome
  | notRun (why : Usage)
  | ran (invocation : Invocation) (report : Report)

/-- Runs one command line. -/
def Line.run (l : Line) (t : FileTree) : Outcome × FileTree :=
  match readCommandLine l.headSetting l.words with
  | .error why => (.notRun why, t)
  | .ok i =>
    let r := i.command.run i.strict t
    (.ran i r.1, r.2)

/-- Runs command lines one after the other, each with the tree it left. -/
def runSession (t : FileTree) : List Line → List (Outcome × FileTree)
  | [] => []
  | l :: ls => l.run t :: runSession (l.run t).2 ls

namespace Report

/-- The exit status. -/
def exitStatus (r : Report) : Nat :=
  if r.failures.isEmpty then 0 else 1

/-- All that was printed, each piece on its own lines. -/
def output (r : Report) : String :=
  String.join (r.printed.map (· ++ "\n"))

/-- All that is written to the error stream: the events that are shown, then
the failures. -/
def diagnostics (r : Report) (f : Filter) : List String :=
  (r.events.filter f.shows).map (·.line) ++ r.failures.map (·.message)

end Report

end PhraseGrammar
