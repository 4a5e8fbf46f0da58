/-
PhraseGrammar/Log/Pattern/Reader.lean

Reading patterns from their text.

The reader goes through the text from left to right.  It keeps the parts of
the group it is in, and for every group around it the parts in front of it and
the mode that comes back when it ends; sets in brackets within brackets are
kept in the same way.  What cannot be used in the mode of its place is refused
where it stands.

A repetition follows what it repeats, and a question mark after it, for as few
times as possible, changes nothing here.  The values in a filter end at a
closing brace, so whatever needs one after an opening brace (`{2}`, `\x{41}`,
`\p{L}`) is never complete and is refused at once.
-/
import PhraseGrammar.Log.Pattern
import PhraseGrammar.Text.Blank
import PhraseGrammar.Text.Letter
import PhraseGrammar.Text.Number

namespace PhraseGrammar

namespace Pattern

/-! ### Blanks and comments -/

/-- Drops blanks and comments; a comment goes from a number sign to the end of
the line. -/
def dropBlanks (inComment : Bool) : Text → Text
  | [] => []
  | c :: s =>
    if inComment then dropBlanks (c ≠ '\n') s
    else if isBlank c then dropBlanks false s
    else if c = '#' then dropBlanks true s
    else c :: s

/-- Drops what does not count in a mode. -/
def Mode.skip (m : Mode) (s : Text) : Text :=
  if m.verbose then dropBlanks false s else s

/-- The character that tells whether a dash in front of it makes a range: the
next one, or, where blanks do not count, the next that is none of them and not
the sign of a comment. -/
def Mode.afterDash? (m : Mode) (s : Text) : Option Char :=
  if m.verbose then
    match s.dropWhile isBlank with
    | '#' :: t => (t.dropWhile isBlank).head?
    | t => t.head?
  else s.head?

/-! ### Escapes -/

/-- The letters of control characters. -/
def controlLetters : List (Char × Char) :=
  [('a', '\x07'), ('f', '\x0C'), ('t', '\t'), ('n', '\n'), ('r', '\r'), ('v', '\x0B')]

/-- The number of digits that follow the letter of a code point. -/
def codeWidth? : Char → Option Nat
  | 'x' => some 2
  | 'u' => some 4
  | 'U' => some 8
  | _ => none

/-- The value of a hexadecimal digit. -/
def hexDigit? (c : Char) : Option Nat :=
  if c.isDigit then some (c.toNat - '0'.toNat)
  else if 'a' ≤ c ∧ c ≤ 'f' then some (c.toNat - 'a'.toNat + 10)
  else if 'A' ≤ c ∧ c ≤ 'F' then some (c.toNat - 'A'.toNat + 10)
  else none

/-- The number that some hexadecimal digits continue. -/
def code? (m : Mode) : Nat → Nat → Text → Option (Nat × Text)
  | 0, n, s => some (n, s)
  | _ + 1, _, [] => none
  | k + 1, n, c :: s => (hexDigit? c).bind fun d => code? m k (n * 16 + d) (m.skip s)

/-- What a character after a backslash stands for. -/
def escaped? (c : Char) : Option Atom :=
  if c ∈ ['d', 's', 'w'] then some (.shorthand false)
  else if c ∈ ['D', 'S', 'W'] then some (.shorthand true)
  else if c ∈ ['A', 'z'] then some .anchor
  else if c ∈ ['b', 'B', '<', '>'] then some .wordBoundary
  else
    match controlLetters.lookup c with
    | some control => some (.literal ⟨control, false⟩)
    | none => if c.toNat < 0x80 && !c.isAlphanum then some (.literal ⟨c, false⟩) else none

/-- Reads an escape after its backslash. -/
def escape? (m : Mode) : Text → Option (Atom × Text)
  | [] => none
  | c :: s =>
    match codeWidth? c with
    | none => (escaped? c).map (·, s)
    | some width =>
      (code? m width 0 (m.skip s)).bind fun r =>
        if r.1.isValidChar then some (.literal ⟨Char.ofNat r.1, c = 'x'⟩, r.2) else none

/-! ### Sets in brackets -/

/-- The names of sets of ASCII characters. -/
def setNames : List String :=
  ["alnum", "alpha", "ascii", "blank", "cntrl", "digit", "graph", "lower", "print", "punct",
    "space", "upper", "word", "xdigit"]

/-- Reads the name of a set and what closes it. -/
def setName? (s : Text) : Option Text :=
  match s.dropWhile (· ≠ ':') with
  | _ :: ']' :: rest =>
    if setNames.any (·.toList = s.takeWhile (· ≠ ':')) then some rest else none
  | _ => none

/-- Reads a named set after its bracket, and whether it is negated. -/
def namedSet? : Text → Option (Bool × Text)
  | ':' :: '^' :: s => (setName? s).map (true, ·)
  | ':' :: s => (setName? s).map (false, ·)
  | _ => none

/-- A set whose brackets are still open.  Its members are held latest first;
`left` is what they will be combined with, and `fresh` tells that the next dash
is a member and no sign. -/
structure OpenSet where
  negated : Bool
  left : Option (SetOperation × CharSet)
  members : List CharSet
  fresh : Bool

namespace OpenSet

/-- Adds a member. -/
def add (o : OpenSet) (s : CharSet) : OpenSet :=
  { o with members := s :: o.members, fresh := false }

/-- What has been read of the set. -/
def content (o : OpenSet) : CharSet :=
  let right : CharSet :=
    match o.members with
    | [] => .nothing
    | [s] => s
    | ss => .union ss.reverse
  match o.left with
  | none => right
  | some (operation, left) => .combined operation left right

/-- Goes on to the other side of a sign. -/
def combine (o : OpenSet) (operation : SetOperation) : OpenSet :=
  { o with left := some (operation, o.content), members := [], fresh := false }

/-- The set when its brackets close. -/
def close (o : OpenSet) : CharSet :=
  .bracketed o.negated o.content

/-- Opens the brackets, after the first of them. -/
def start (m : Mode) (s : Text) : OpenSet × Text :=
  match m.skip s with
  | '^' :: t => (⟨true, none, [], true⟩, t)
  | t => (⟨false, none, [], true⟩, t)

/-- Whether a character that otherwise is a sign is a member, since it stands
right after the opening bracket. -/
def takes (o : OpenSet) (c : Char) : Bool :=
  o.fresh && (c = '-' || (c = ']' && o.members.isEmpty))

end OpenSet

/-- The operation whose sign is a character, written twice. -/
def operation? : Char → Option SetOperation
  | '&' => some .intersection
  | '-' => some .difference
  | '~' => some .symmetricDifference
  | _ => none

/-- Reads one end of a range. -/
def rangeEnd? (m : Mode) (c : Char) (s : Text) : Option (Atom × Text) :=
  if c = '\\' then escape? m s else some (.literal ⟨c, false⟩, s)

/-- The set of one atom. -/
def Atom.set? : Atom → Option CharSet
  | .literal l => some (.literal l)
  | .shorthand negated => some (.shorthand negated)
  | .dot | .anchor | .wordBoundary => none

/-- The set of the characters from one to another. -/
def Atom.range? : Atom → Atom → Option CharSet
  | .literal low, .literal high => if low.char ≤ high.char then some (.range low high) else none
  | _, _ => none

/-- Reads a character, a class or a range; a dash in front of the closing
bracket or of another dash makes no range. -/
def member? (m : Mode) (c : Char) (s : Text) : Option (CharSet × Text) := do
  let (low, s) ← rangeEnd? m c s
  match m.skip s with
  | [] => none
  | '-' :: t =>
    if m.afterDash? t = some ']' ∨ m.afterDash? t = some '-' then return (← low.set?, '-' :: t)
    match m.skip t with
    | [] => none
    | d :: u =>
      let (high, rest) ← rangeEnd? m d u
      return (← low.range? high, rest)
  | t => return (← low.set?, t)

/-- Reads a set in brackets with the sets around it, in as many steps as the
fuel allows; the length of the text is enough. -/
def setFrom? (m : Mode) : Nat → OpenSet → List OpenSet → Text → Option (CharSet × Text)
  | 0, _, _, _ => none
  | fuel + 1, o, outer, s =>
    match m.skip s with
    | [] => none
    | c :: s =>
      if o.takes c then
        setFrom? m fuel { o.add (.literal ⟨c, false⟩) with fresh := c = '-' } outer s
      else if c = '[' then
        match namedSet? s with
        | some (negated, rest) => setFrom? m fuel (o.add (.named negated)) outer rest
        | none =>
          let inner := OpenSet.start m s
          setFrom? m fuel inner.1 (o :: outer) inner.2
      else if c = ']' then
        match outer with
        | [] => some (o.close, s)
        | p :: ps => setFrom? m fuel (p.add o.close) ps s
      else
        match (operation? c).filter fun _ => s.head? = some c with
        | some operation => setFrom? m fuel (o.combine operation) outer s.tail
        | none => (member? m c s).bind fun r => setFrom? m fuel (o.add r.1) outer r.2

/-- Reads a set after its opening bracket. -/
def set? (m : Mode) (s : Text) : Option (CharSet × Text) :=
  let o := OpenSet.start m s
  setFrom? m (o.2.length + 1) o.1 [] o.2

/-! ### Settings and names of groups -/

/-- The letters of settings; those besides `i`, `u` and `x` change only what is
found. -/
def settingLetters : List Char :=
  ['i', 'm', 's', 'U', 'u', 'R', 'x']

/-- Whether letters are settings: none twice, and some after the dash, if there
is one. -/
def areSettings (letters : Text) : Bool :=
  letters.all (fun c => c = '-' || settingLetters.contains c) && decide letters.Nodup &&
    letters.getLast? ≠ some '-'

/-- Whether something is on after settings: those after the dash turn it off. -/
def switched (letters : Text) (c : Char) (on : Bool) : Bool :=
  (letters.takeWhile (· ≠ '-')).contains c ||
    (on && !(letters.dropWhile (· ≠ '-')).contains c)

/-- The mode after settings. -/
def Mode.change? (m : Mode) (letters : Text) : Option Mode :=
  if areSettings letters then
    some ⟨switched letters 'x' m.verbose, switched letters 'i' m.ignoreCase,
      switched letters 'u' m.unicode⟩
  else none

/-- Whether a text can name a group. -/
def isGroupName : Text → Bool
  | [] => false
  | c :: s =>
    (c = '_' || isLetter c) &&
      s.all fun d => ['_', '.', '[', ']'].contains d || isLetter d || isNumeric d

/-! ### Groups, alternatives and repetitions -/

/-- The parts of a group so far: the alternatives that are complete and the
parts of the next, both latest first. -/
structure Parts where
  alternatives : List Pattern
  items : List Pattern

namespace Parts

/-- Before the first part. -/
def none : Parts :=
  ⟨[], []⟩

/-- The items as one pattern. -/
def sequence (p : Parts) : Pattern :=
  match p.items with
  | [] => .empty
  | [q] => q
  | qs => .sequence qs.reverse

/-- All parts as one pattern. -/
def pattern (p : Parts) : Pattern :=
  match p.alternatives with
  | [] => p.sequence
  | qs => .alternatives (p.sequence :: qs).reverse

/-- Adds an item. -/
def add (p : Parts) (q : Pattern) : Parts :=
  { p with items := q :: p.items }

/-- Goes on to the next alternative. -/
def branch (p : Parts) : Parts :=
  ⟨p.sequence :: p.alternatives, []⟩

/-- Repeats the last item; a setting cannot be repeated. -/
def repeat? (p : Parts) : Option Parts :=
  match p.items with
  | [] | .setting :: _ => Option.none
  | q :: qs => some { p with items := .repeated q :: qs }

end Parts

/-- What has been read: the group at hand, the groups around it, each with the
mode that comes back, and the names given to groups. -/
structure Reading where
  mode : Mode
  here : Parts
  outer : List (Mode × Parts)
  names : List Text

namespace Reading

/-- Before the first character. -/
def start : Reading :=
  ⟨.initial, .none, [], []⟩

/-- Adds a part. -/
def add (r : Reading) (p : Pattern) : Reading :=
  { r with here := r.here.add p }

/-- Adds an atom, if it can be used. -/
def addAtom? (r : Reading) (a : Atom) : Option Reading :=
  if a.isUsable r.mode then some (r.add (.atom a)) else none

/-- Opens a group with a mode of its own. -/
def enter (r : Reading) (m : Mode) : Reading :=
  { r with mode := m, here := .none, outer := (r.mode, r.here) :: r.outer }

/-- Closes a group. -/
def leave? (r : Reading) : Option Reading :=
  match r.outer with
  | [] => none
  | (m, parts) :: outer =>
    some { r with mode := m, here := parts.add (.group r.here.pattern), outer := outer }

/-- Opens a group with a name, which starts the text. -/
def enterNamed? (r : Reading) (s : Text) : Option (Reading × Text) :=
  let name := s.takeWhile (· ≠ '>')
  match s.dropWhile (· ≠ '>') with
  | [] => none
  | _ :: rest =>
    if isGroupName name && !r.names.contains name then
      some ({ r.enter r.mode with names := name :: r.names }, rest)
    else none

/-- Reads settings, for a group or for what follows. -/
def settings? (r : Reading) (s : Text) : Option (Reading × Text) :=
  let letters := s.takeWhile fun c => c ≠ ':' && c ≠ ')'
  match s.dropWhile fun c => c ≠ ':' && c ≠ ')' with
  | [] => none
  | c :: rest =>
    if c = ':' then (r.mode.change? letters).map fun m => (r.enter m, rest)
    else if letters = [] then none
    else (r.mode.change? letters).map fun m => ({ r with mode := m }.add .setting, rest)

/-- Reads what follows an opening parenthesis. -/
def open? (r : Reading) (s : Text) : Option (Reading × Text) :=
  match r.mode.skip s with
  | '?' :: 'P' :: '<' :: t => r.enterNamed? t
  | '?' :: '<' :: t => r.enterNamed? t
  | '?' :: t => r.settings? t
  | t => some (r.enter r.mode, t)

/-- Reads one part, the first character of which is given. -/
def step? (r : Reading) (c : Char) (s : Text) : Option (Reading × Text) :=
  match c with
  | '(' => r.open? s
  | ')' => r.leave?.map (·, s)
  | '|' => some ({ r with here := r.here.branch }, s)
  | '[' =>
    (set? r.mode s).bind fun p =>
      if p.1.isUsable r.mode then some (r.add (.bracketed p.1), p.2) else none
  | '?' | '*' | '+' =>
    r.here.repeat?.map fun parts =>
      ({ r with here := parts }, if s.head? = some '?' then s.tail else s)
  | '{' => none
  | '\\' => (escape? r.mode s).bind fun p => (r.addAtom? p.1).map (·, p.2)
  | '.' => (r.addAtom? .dot).map (·, s)
  | '^' | '$' => (r.addAtom? .anchor).map (·, s)
  | c => (r.addAtom? (.literal ⟨c, false⟩)).map (·, s)

/-- The pattern, if no group is left open. -/
def finish? (r : Reading) : Option Pattern :=
  if r.outer.isEmpty then some r.here.pattern else none

/-- Reads a text to its end, in as many steps as the fuel allows; one more than
the length of the text is enough. -/
def run? : Nat → Reading → Text → Option Pattern
  | 0, _, _ => none
  | fuel + 1, r, s =>
    match r.mode.skip s with
    | [] => r.finish?
    | c :: t => (r.step? c t).bind fun p => run? fuel p.1 p.2

end Reading

/-- Reads a pattern that can be used. -/
def read? (s : Text) : Option Pattern :=
  (Reading.run? (s.length + 1) .start s).filter fun p => p.depth ≤ maxDepth

end Pattern

end PhraseGrammar
