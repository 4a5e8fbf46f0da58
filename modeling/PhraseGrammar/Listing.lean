/-
PhraseGrammar/Listing.lean

What a user sees of a grammar: the numbered listing of its rules, and the
report of its place in the hierarchy.  Both count rules from 1.
-/
import PhraseGrammar.Format
import PhraseGrammar.Hierarchy

namespace PhraseGrammar

/-- The empty body as it is shown. -/
def lambdaSign : Text :=
  ['λ']

/-- The body of a rule as it is shown. -/
def Rule.shownBody (r : Rule) : Text :=
  if r.isLambda then lambdaSign else r.body

/-- The line of a listing for the rule with a number. -/
def Rule.listed (number : Nat) (r : Rule) : String :=
  s!"{number}. " ++ String.ofList r.head ++ " → " ++ String.ofList r.shownBody

/-- The lines of a listing for rules that are numbered from a number on. -/
def listedFrom (number : Nat) : List Rule → List String
  | [] => []
  | r :: rs => r.listed number :: listedFrom (number + 1) rs

/-- The line under a name, as long as the name and never empty. -/
def underline (name : Text) : String :=
  String.ofList (List.replicate (max 1 name.length) '-')

namespace Grammar

/-- The listing of a grammar: its name, underlined, and its rules. -/
def listing (g : Grammar) : String :=
  "\n".intercalate (String.ofList g.name :: underline g.name :: listedFrom 1 g.rules)

/-- The report on a grammar that was read from a file; if wished, with the
rule that decided the verdict and the reason. -/
def report (file : Text) (explain : Bool) (g : Grammar) : String :=
  let summary :=
    String.ofList file ++ ": " ++ String.ofList g.name ++ " is " ++ g.verdict.kind.display
  if explain then
    match g.verdict.position?.bind fun p => (g.ruleAt? p).map (p, ·) with
    | some (p, r) =>
      summary ++ s!"\n  rule {p + 1} (" ++ String.ofList r.render ++ "): " ++ g.verdict.reason
    | none => summary ++ "\n  " ++ g.verdict.reason
  else summary

end Grammar

end PhraseGrammar
