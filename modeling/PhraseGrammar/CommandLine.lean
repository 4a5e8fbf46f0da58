/-
PhraseGrammar/CommandLine.lean

Command lines.  A line has the options that go before the command, the
command, and then the command's own values and options in any order; the
common options may stand on both sides.

Words are read from left to right, and reading stops at the first thing wrong.
A word that is refused as such (an unknown option, a value too many) is wrong
at once.  A value that cannot be what its place asks for is wrong as soon as
the next word has been accepted, or the line ends; the files of a command that
takes any number of them count as one such value.  After the last word come
the setting from the environment and the values still missing.

After `--` all words are values, and a dash by itself is one.
-/
import PhraseGrammar.Command
import PhraseGrammar.Text.Number

namespace PhraseGrammar

/-- Why no command is run. -/
inductive Usage
  | helpWanted
  | versionWanted
  | nothingGiven
  | missingCommand
  | unknownCommand
  | unknownArgument
  | missingValue
  | emptyFileName
  | malformedValue
  | valueForOption
  | repeatedOption
  deriving DecidableEq

/-- The exit status; asking for help is no mistake. -/
def Usage.exitStatus : Usage → Nat
  | .helpWanted | .versionWanted => 0
  | _ => 2

/-- What the user is told. -/
def Usage.message : Usage → String
  | .helpWanted | .nothingGiven =>
    "Usage: [-v] [--single-symbol-heads] COMMAND\n\n" ++
    "  new FILE NAME [-f]            create a grammar file with no rules\n" ++
    "  add FILE HEAD BODY            append a rule\n" ++
    "  edit FILE POSITION HEAD BODY  replace the rule at a position\n" ++
    "  remove FILE POSITION          remove the rule at a position\n" ++
    "  show FILE                     print a grammar with numbered rules\n" ++
    "  classify FILE... [-e]         report the type of each grammar"
  | .versionWanted => "0.1.0"
  | .missingCommand => "error: a command is missing"
  | .unknownCommand => "error: unknown command"
  | .unknownArgument => "error: unexpected argument"
  | .missingValue => "error: a value is missing"
  | .emptyFileName => "error: a file name is empty"
  | .malformedValue => "error: invalid value"
  | .valueForOption => "error: an option was given a value it does not take"
  | .repeatedOption => "error: an option was given twice"

/-- A command line that was understood. -/
structure Invocation where
  strict : Bool
  verbosity : Nat
  command : Command
  deriving DecidableEq

/-! ### Commands, their values and their options -/

/-- The words that name commands. -/
inductive Verb
  | new
  | add
  | edit
  | remove
  | list
  | classify
  deriving DecidableEq

/-- What stands in a place for a value. -/
inductive Slot
  | file
  | position
  | text
  deriving DecidableEq

/-- The options; none of them takes a value. -/
inductive Flag
  | strict
  | verbose
  | force
  | explain
  | help
  | version
  deriving DecidableEq

namespace Verb

/-- All commands. -/
def all : List Verb :=
  [.new, .add, .edit, .remove, .list, .classify]

/-- The word for a command. -/
def word : Verb → Text
  | .new => "new".toList
  | .add => "add".toList
  | .edit => "edit".toList
  | .remove => "remove".toList
  | .list => "show".toList
  | .classify => "classify".toList

/-- The command a word stands for. -/
def ofWord? (w : Text) : Option Verb :=
  all.find? (·.word = w)

/-- The places for values, in order; the last of `classify` can be filled again. -/
def slots : Verb → List Slot
  | .new => [.file, .text]
  | .add => [.file, .text, .text]
  | .edit => [.file, .position, .text, .text]
  | .remove => [.file, .position]
  | .list => [.file]
  | .classify => [.file]

/-- Whether any number of values can fill the one place. -/
def gathers : Verb → Bool
  | .classify => true
  | _ => false

/-- The place for the next value after a number of them. -/
def slot? (v : Verb) (n : Nat) : Option Slot :=
  if v.gathers then v.slots.head? else v.slots[n]?

end Verb

namespace Flag

/-- The long name. -/
def long : Flag → Text
  | .strict => "single-symbol-heads".toList
  | .verbose => "verbose".toList
  | .force => "force".toList
  | .explain => "explain".toList
  | .help => "help".toList
  | .version => "version".toList

/-- The short name. -/
def short? : Flag → Option Char
  | .strict => none
  | .verbose => some 'v'
  | .force => some 'f'
  | .explain => some 'e'
  | .help => some 'h'
  | .version => some 'V'

/-- The options before the command. -/
def common : List Flag :=
  [.strict, .verbose, .help, .version]

/-- The options after a command. -/
def after : Verb → List Flag
  | .new => [.strict, .verbose, .help, .force]
  | .classify => [.strict, .verbose, .help, .explain]
  | _ => [.strict, .verbose, .help]

end Flag

/-! ### Words -/

/-- What a word contributes. -/
inductive Item
  | value (w : Text)
  | flag (f : Flag)
  | refused (why : Usage)
  deriving DecidableEq

namespace Item

/-- The option with a long name, which may wrongly be given a value. -/
def ofLong (flags : List Flag) (s : Text) : Item :=
  match flags.find? (·.long = s.takeWhile (· ≠ '=')) with
  | none => .refused .unknownArgument
  | some f => if '=' ∈ s then .refused .valueForOption else .flag f

/-- The option with a short name. -/
def ofShort (flags : List Flag) (c : Char) : Item :=
  match flags.find? (·.short? = some c) with
  | none => .refused .unknownArgument
  | some f => .flag f

/-- What a word contributes where the given options are known. -/
def ofWord (flags : List Flag) : Text → List Item
  | '-' :: '-' :: s => [ofLong flags s]
  | '-' :: c :: s => (c :: s).map (ofShort flags)
  | w => [.value w]

/-- The word after which all words are values. -/
def separator : Text :=
  ['-', '-']

/-- What words contribute. -/
def ofWords (flags : List Flag) : List Text → List Item
  | [] => []
  | w :: ws =>
    if w = separator then ws.map .value
    else ofWord flags w ++ ofWords flags ws

end Item

/-! ### Options -/

/-- The options met on one side of the command. -/
structure Given where
  strict : Bool
  own : Bool
  verbosity : Nat

namespace Given

/-- Before the first option. -/
def none : Given :=
  ⟨false, false, 0⟩

/-- Takes an option; one that does not count can be given once. -/
def take (g : Given) : Flag → Except Usage Given
  | .help => .error .helpWanted
  | .version => .error .versionWanted
  | .verbose => .ok { g with verbosity := g.verbosity + 1 }
  | .strict => if g.strict then .error .repeatedOption else .ok { g with strict := true }
  | .force | .explain => if g.own then .error .repeatedOption else .ok { g with own := true }

/-- Whether any option was met. -/
def isAny (g : Given) : Bool :=
  g.strict || g.own || g.verbosity != 0

end Given

/-! ### The setting from the environment -/

/-- The words for yes. -/
def yesWords : List String :=
  ["y", "yes", "t", "true", "on", "1"]

/-- The words for no. -/
def noWords : List String :=
  ["n", "no", "f", "false", "off", "0"]

/-- Reads a yes or a no, in any case. -/
def switch? (s : Text) : Option Bool :=
  if yesWords.any (·.toList = s.map Char.toLower) then some true
  else if noWords.any (·.toList = s.map Char.toLower) then some false
  else none

/-- Looks at the setting for heads on one side of the command; it has to be a
yes or a no unless the option was given there. -/
def checkSetting (setting : Option Text) (g : Given) : Except Usage Unit :=
  if g.strict || setting.all (switch? · |>.isSome) then .ok () else .error .malformedValue

/-! ### The side after the command -/

/-- What is wrong with a value in its place. -/
def Slot.fault? (slot : Slot) (w : Text) : Option Usage :=
  match slot with
  | .file => if w = [] then some .emptyFileName else none
  | .position => if (count? w).isNone then some .malformedValue else none
  | .text => none

/-- The values and options met after the command, with what is wrong with the
values accepted last. -/
structure Filled where
  values : List Text
  fault : Option Usage
  given : Given

namespace Filled

/-- Before the first word. -/
def start : Filled :=
  ⟨[], none, .none⟩

/-- Stops if a value accepted before is wrong. -/
def settle (s : Filled) : Except Usage Unit :=
  match s.fault with
  | some why => .error why
  | none => .ok ()

/-- Takes one more item. -/
def take (v : Verb) (s : Filled) : Item → Except Usage Filled
  | .refused why => .error why
  | .flag f => do
    s.settle
    return { s with given := ← s.given.take f }
  | .value w =>
    match v.slot? s.values.length with
    | none => .error .unknownArgument
    | some slot => do
      unless v.gathers do s.settle
      return { s with values := s.values ++ [w], fault := s.fault <|> slot.fault? w }

end Filled

/-- The command with the given values, if they are as many as it needs. -/
def Verb.command? (v : Verb) (own : Bool) (values : List Text) : Option Command :=
  match v, values with
  | .new, [file, name] => some (.new file name own)
  | .add, [file, head, body] => some (.add file head body)
  | .edit, [file, position, head, body] =>
    (count? position).map fun n => .edit file n head body
  | .remove, [file, position] => (count? position).map fun n => .remove file n
  | .list, [file] => some (.list file)
  | .classify, file :: files => some (.classify (file :: files) own)
  | _, _ => none

/-- Reads the words after a command. -/
def readCommand (setting : Option Text) (v : Verb) (words : List Text) :
    Except Usage (Given × Command) := do
  let s ← (Item.ofWords (Flag.after v) words).foldlM (Filled.take v) .start
  s.settle
  checkSetting setting s.given
  match v.command? s.given.own s.values with
  | some c => return (s.given, c)
  | none => throw .missingValue

/-! ### The side before the command -/

/-- The command that asks for help. -/
def helpWord : Text :=
  "help".toList

/-- Whether a word is one that a command line can have for its command. -/
def isCommandWord (w : Text) : Bool :=
  w = helpWord || (Verb.ofWord? w).isSome

/-- The answer to a call for help on the given words. -/
def helpOn : List Text → Usage
  | [] => .helpWanted
  | [w] => if isCommandWord w then .helpWanted else .unknownCommand
  | _ => .unknownCommand

/-- What is wrong with a word that stands for the command after `--`. -/
def separatedFault (w : Text) : Usage :=
  if isCommandWord w then .unknownArgument else .unknownCommand

/-- Takes an option before the command. -/
def Given.takeItem (g : Given) : Item → Except Usage Given
  | .flag f => g.take f
  | .refused why => .error why
  | .value _ => .error .unknownCommand

/-- Reads the words before the command and the command itself; the words after
it are left. -/
def readVerb (g : Given) : List Text → Except Usage (Given × Option (Verb × List Text))
  | [] => .ok (g, none)
  | w :: ws =>
    if w = Item.separator then
      match ws with
      | [] => .ok (g, none)
      | x :: _ => .error (separatedFault x)
    else if w = helpWord then .error (helpOn ws)
    else
      match Verb.ofWord? w with
      | some v => .ok (g, some (v, ws))
      | none => do readVerb (← (Item.ofWord Flag.common w).foldlM Given.takeItem g) ws

/-- The largest count of requests for more. -/
def maxVerbosity : Nat := 255

/-- Reads a command line, with the setting for heads from the environment. -/
def readCommandLine (setting : Option Text) (words : List Text) : Except Usage Invocation := do
  match ← readVerb .none words with
  | (before, none) =>
    checkSetting setting before
    if before.isAny || setting.isSome then throw .missingCommand else throw .nothingGiven
  | (before, some (v, rest)) =>
    let (after, command) ← readCommand setting v rest
    checkSetting setting before
    return {
      strict := before.strict || after.strict || setting.any (switch? · |>.getD false)
      verbosity := min maxVerbosity (if after.verbosity = 0 then before.verbosity else after.verbosity)
      command }

end PhraseGrammar
