/-
PhraseGrammar/Log/Pattern.lean

Patterns: regular expressions that a filter holds against the value of a
field.

The meaning of a pattern depends on its mode, which settings such as `(?i)`
change from where they stand to the end of the group:

    x    blanks and comments between the parts do not count
    i    letters stand for both of their cases
    u    characters are those of Unicode and not bytes, as at the beginning

Not every pattern that can be written can be used.  Characters are told apart
without the tables of Unicode, and what is found has to be whole characters:

    with u       no `\d`, `\s` or `\w`, no word boundary, and with i no letter
                 or other character whose cases would have to be known
    without u    no dot, nothing negated, no byte past 7F, and in brackets
                 nothing but ASCII

so `Atom.isUsable` and `CharSet.isUsable` depend on the mode.  Besides, parts
may be nested `maxDepth` deep and no deeper.
-/
import PhraseGrammar.Text.Basic

namespace PhraseGrammar

namespace Pattern

/-- How a part of a pattern is read and meant. -/
structure Mode where
  verbose : Bool
  ignoreCase : Bool
  unicode : Bool

/-- The mode at the beginning. -/
def Mode.initial : Mode :=
  ⟨false, false, true⟩

/-- A character that stands for itself; `isByte` if it is written as the two
hexadecimal digits of a byte. -/
structure Literal where
  char : Char
  isByte : Bool

/-- Whether a character is in ASCII. -/
def Literal.isAscii (l : Literal) : Bool :=
  l.char.toNat < 0x80

/-! ### Single characters and places -/

/-- The parts without parts of their own: a character, any character, the
beginning or the end, the edge of a word, and the classes of digits, blanks
and word characters or what is not in them. -/
inductive Atom
  | literal (l : Literal)
  | dot
  | anchor
  | wordBoundary
  | shorthand (negated : Bool)

/-- Whether an atom can be used in a mode. -/
def Atom.isUsable (m : Mode) : Atom → Bool
  | .literal l => if m.unicode then !m.ignoreCase else !l.isByte || l.isAscii
  | .dot => m.unicode
  | .anchor => true
  | .wordBoundary => !m.unicode
  | .shorthand negated => !m.unicode && !negated

/-! ### Sets of characters -/

/-- What combines two sets. -/
inductive SetOperation
  | intersection
  | difference
  | symmetricDifference

/-- What stands in brackets. -/
inductive CharSet
  | nothing
  | literal (l : Literal)
  | range (low high : Literal)
  | named (negated : Bool)
  | shorthand (negated : Bool)
  | bracketed (negated : Bool) (set : CharSet)
  | union (sets : List CharSet)
  | combined (operation : SetOperation) (left right : CharSet)

namespace CharSet

mutual

/-- How deep brackets, unions and combinations are nested. -/
def depth : CharSet → Nat
  | .nothing | .literal _ | .range .. | .named _ | .shorthand _ => 0
  | .bracketed _ s => s.depth + 1
  | .union ss => depthOfAll ss + 1
  | .combined _ l r => max l.depth r.depth + 1

/-- The largest depth in a list. -/
def depthOfAll : List CharSet → Nat
  | [] => 0
  | s :: ss => max s.depth (depthOfAll ss)

end

mutual

/-- Whether all that is in a set is of characters if the mode is, and of ASCII
if it is not. -/
def suits (m : Mode) : CharSet → Bool
  | .nothing => true
  | .literal l => m.unicode || l.isAscii
  | .range low high => m.unicode || (low.isAscii && high.isAscii)
  | .named negated => m.unicode || !negated
  | .shorthand negated => !m.unicode && !negated
  | .bracketed negated s => (m.unicode || !negated) && s.suits m
  | .union ss => allSuit m ss
  | .combined _ l r => l.suits m && r.suits m

/-- Whether all sets of a list suit a mode. -/
def allSuit (m : Mode) : List CharSet → Bool
  | [] => true
  | s :: ss => s.suits m && allSuit m ss

end

/-- How much is in a set, as far as it matters to cases: nothing, everything,
or something that has characters whose other cases might be missing. -/
inductive Extent
  | nothing
  | everything
  | something
  deriving DecidableEq

namespace Extent

/-- What two sets hold together. -/
def join : Extent → Extent → Extent
  | .nothing, e | e, .nothing => e
  | .everything, .everything => .everything
  | _, _ => .something

/-- All other characters, for sets that are closed under the change of case. -/
def negate : Extent → Extent
  | .nothing => .everything
  | .everything => .nothing
  | .something => .something

/-- What a combination of two such sets holds. -/
def combine : SetOperation → Extent → Extent → Extent
  | .intersection, e, f => if e = .nothing then e else f
  | .difference, e, f => if f = .nothing then e else .nothing
  | .symmetricDifference, e, f => if e = f then .nothing else .everything

/-- The set closed under the change of case, if that needs no table. -/
def closed? : Extent → Option Extent
  | .something => none
  | e => some e

end Extent

mutual

/-- How much is in a set where case does not count; `none` if a table of cases
would be needed to tell. -/
def extent? : CharSet → Option Extent
  | .nothing => some .nothing
  | .literal _ | .range .. => some .something
  | .named _ | .shorthand _ => none
  | .bracketed negated s =>
    (s.extent?.bind Extent.closed?).map fun e => if negated then e.negate else e
  | .union ss => extentOfAll? ss
  | .combined operation l r =>
    (l.extent?.bind Extent.closed?).bind fun e =>
      (r.extent?.bind Extent.closed?).map (Extent.combine operation e)

/-- How much is in all sets of a list together. -/
def extentOfAll? : List CharSet → Option Extent
  | [] => some .nothing
  | s :: ss => s.extent?.bind fun e => (extentOfAll? ss).map e.join

end

/-- Whether a set can be used in a mode. -/
def isUsable (m : Mode) (s : CharSet) : Bool :=
  s.suits m && (!(m.unicode && m.ignoreCase) || s.extent?.isSome)

end CharSet

end Pattern

/-! ### Patterns -/

/-- A regular expression. -/
inductive Pattern
  | empty
  | setting
  | atom (a : Pattern.Atom)
  | bracketed (set : Pattern.CharSet)
  | repeated (p : Pattern)
  | group (p : Pattern)
  | sequence (ps : List Pattern)
  | alternatives (ps : List Pattern)

namespace Pattern

/-- How deep the parts of a pattern may be nested. -/
def maxDepth : Nat := 250

mutual

/-- How deep the parts are nested. -/
def depth : Pattern → Nat
  | .empty | .setting | .atom _ => 0
  | .bracketed s => s.depth
  | .repeated p | .group p => p.depth + 1
  | .sequence ps | .alternatives ps => depthOfAll ps + 1

/-- The largest depth in a list. -/
def depthOfAll : List Pattern → Nat
  | [] => 0
  | p :: ps => max p.depth (depthOfAll ps)

end

end Pattern

end PhraseGrammar
