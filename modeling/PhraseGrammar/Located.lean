/-
PhraseGrammar/Located.lean

Faults with the place they were found at: a line of a blob of text, counted
from 1, where 0 stands for the blob as a whole, and the file the blob was read
from, if there is one.
-/
import PhraseGrammar.Text.Basic

namespace PhraseGrammar

/-- Where in a file, or in text without a file, something was found. -/
structure Place where
  file : Option Text
  line : Nat
  deriving DecidableEq

/-- A place as messages name it. -/
def Place.describe (p : Place) : String :=
  match p.file, p.line with
  | some file, 0 => String.ofList file
  | some file, line => String.ofList file ++ s!":{line}"
  | none, 0 => "input"
  | none, line => s!"line {line}"

/-- Something found at a place. -/
structure Located (φ : Type) where
  place : Place
  fault : φ
  deriving DecidableEq

namespace Located

variable {φ : Type}

/-- Something found on a line. -/
def atLine (line : Nat) (fault : φ) : Located φ :=
  ⟨⟨none, line⟩, fault⟩

/-- The same, in text that was read from a file. -/
def inFile (file : Text) (l : Located φ) : Located φ :=
  { l with place := { l.place with file := some file } }

/-- The line a terminal shows, the place in red. -/
def display [ToString φ] (l : Located φ) : String :=
  "\x1b[31;49;1m[" ++ l.place.describe ++ "]\x1b[39;49;1m  " ++ toString l.fault ++ "\x1b[0m"

end Located

end PhraseGrammar
