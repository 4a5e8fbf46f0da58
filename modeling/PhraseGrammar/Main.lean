/-
PhraseGrammar/Main.lean

The program: reads the files a command needs, lets the command decide, does
the one write that may be left, and prints.  All decisions are made elsewhere.
-/
import PhraseGrammar.Session

namespace PhraseGrammar

/-- An error number of the system, which may come negated. -/
def errorNumber (code : UInt32) : UInt32 :=
  if code < 0x80000000 then code else 0 - code

/-- The fault that an error of the system stands for. -/
def FileFault.ofSystem : IO.Error → FileFault
  | .noFileOrDirectory .. => .notFound
  | .alreadyExists .. => .alreadyExists
  | .inappropriateType _ code details => ofNumber code details
  | .invalidArgument _ code details => ofNumber code details
  | .permissionDenied _ code details => ofNumber code details
  | e => .other (toString e)
where
  ofNumber (code : UInt32) (details : String) : FileFault :=
    match errorNumber code with
    | 20 => .notADirectory
    | 21 => .isADirectory
    | 36 => .nameTooLong
    | n => .other s!"{details} (os error {n})"

/-- Reads a file. -/
def readFile (path : Text) : IO (Except FileFault Bytes) := do
  try
    let bytes ← IO.FS.readBinFile (String.ofList path)
    return .ok bytes.toList
  catch e => return .error (.ofSystem e)

/-- Writes a file as its mode asks. -/
def writeFile (w : Write) : IO (Except FileFault Unit) := do
  let bytes := ByteArray.mk w.bytes.toArray
  try
    match w.mode with
    | .create =>
      let handle ← IO.FS.Handle.mk (String.ofList w.file) .writeNew
      handle.write bytes
    | .replace => IO.FS.writeBinFile (String.ofList w.file) bytes
    return .ok ()
  catch e => return .error (.ofSystem e)

/-- Looks up what was read before. -/
def readerOf (files : List (Text × Except FileFault Bytes)) : Reader := fun path =>
  match files.find? (·.1 = path) with
  | some f => f.2
  | none => .error .notFound

/-- Runs an invocation on the files of the system and prints. -/
def Invocation.perform (i : Invocation) (filter : Filter) : IO UInt32 := do
  let files ← i.command.sources.mapM fun path => return (path, ← readFile path)
  let plan := i.command.plan i.strict (readerOf files)
  let written ← match plan with
    | .done _ => pure (.ok ())
    | .save _ write _ _ => writeFile write
  let report := plan.report fun _ => written
  IO.print report.output
  (← IO.getStdout).flush
  for line in report.diagnostics filter do
    IO.eprintln line
  return report.exitStatus.toUInt32

end PhraseGrammar

open PhraseGrammar in
/-- Runs the command that the arguments ask for. -/
def main (arguments : List String) : IO UInt32 := do
  let headSetting := (← IO.getEnv "CHOMSKY_SINGLE_SYMBOL_HEADS").map String.toList
  let logSetting := (← IO.getEnv "RUST_LOG").map String.toList
  match readCommandLine headSetting (arguments.map String.toList) with
  | .error why =>
    if why.exitStatus = 0 then IO.println why.message else IO.eprintln why.message
    return why.exitStatus.toUInt32
  | .ok i => i.perform (.choose logSetting i.verbosity)
