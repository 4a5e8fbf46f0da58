/-
PhraseGrammar/Rule.lean

Rules of a phrase-structure grammar.  A rule has two words: the head, what is
rewritten, and the body, what replaces it.  An empty body makes the lambda
rule; an empty head is no rule of any grammar, but it can be typed, so the
type allows it and a grammar refuses it.
-/
import PhraseGrammar.Text.Basic

namespace PhraseGrammar

/-- Rewrites its head into its body. -/
structure Rule where
  head : Text
  body : Text
  deriving DecidableEq

/-- The two words of a rule. -/
inductive Side
  | head
  | body
  deriving DecidableEq

namespace Rule

/-- Whether the body is the empty word. -/
def isLambda (r : Rule) : Bool :=
  r.body.isEmpty

/-- The word on one side. -/
def side (r : Rule) : Side → Text
  | .head => r.head
  | .body => r.body

end Rule

end PhraseGrammar
