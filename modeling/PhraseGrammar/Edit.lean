/-
PhraseGrammar/Edit.lean

Edits as data: one change to a grammar, addressed by position or by key, and
what comes of applying it.  A rename always succeeds; every other edit can be
refused, and then there is no new grammar.
-/
import PhraseGrammar.Grammar

namespace PhraseGrammar

/-- One change to a grammar. -/
inductive Edit
  | rename (name : Text)
  | add (rule : Rule)
  | removeAt (index : Nat)
  | replaceAt (index : Nat) (rule : Rule)
  | remove (key : Key Rule)
  | replace (key : Key Rule) (rule : Rule)
  deriving DecidableEq

namespace Edit

/-- The grammar after an edit. -/
def apply (g : Grammar) : Edit → Except EditError Grammar
  | rename name => .ok (g.rename name)
  | add rule => g.add rule
  | removeAt index => g.removeAt index
  | replaceAt index rule => g.replaceAt index rule
  | remove key => g.remove key
  | replace key rule => g.replace key rule

end Edit

end PhraseGrammar
