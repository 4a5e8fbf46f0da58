/-
PhraseGrammar/Format/Hazard.lean

Hazards: what in a grammar would not come back from its own text.

Writing never fails, but a name or a rule can be such that reading finds
something else: a line break starts another line, blanks at the ends are
trimmed off, a blank name is no name, and an arrow in a head ends the head
early.  Each of these is a hazard, located at the line on which the name or
the rule begins as long as nothing above it breaks a line.  A body may hold
arrows and may be empty.
-/
import PhraseGrammar.Format

namespace PhraseGrammar

/-- What reading would not give back. -/
inductive Hazard
  | blankName
  | newlineInName
  | paddedName
  | newlineInRule (side : Side)
  | arrowInHead
  | paddedRule (side : Side)
  deriving DecidableEq

/-- The word for one side of a rule. -/
def Side.word : Side → String
  | .head => "head"
  | .body => "body"

/-- What the user is told. -/
def Hazard.message : Hazard → String
  | .blankName => "Grammar name is blank"
  | .newlineInName => "Grammar name contains a line break"
  | .paddedName => "Grammar name starts or ends with whitespace"
  | .newlineInRule side => "Rule " ++ side.word ++ " contains a line break"
  | .arrowInHead => "Rule head contains `->`"
  | .paddedRule side => "Rule " ++ side.word ++ " starts or ends with whitespace"

instance : ToString Hazard := ⟨Hazard.message⟩

/-- Whether an arrow stands anywhere in a text. -/
def hasArrow (s : Text) : Bool :=
  (splitArrow? s).isSome

/-- One element or none. -/
def onlyIf {α : Type} (p : Bool) (x : α) : List α :=
  if p then [x] else []

@[simp] theorem onlyIf_eq_nil {α : Type} {p : Bool} {x : α} : onlyIf p x = [] ↔ p = false := by
  cases p <;> simp [onlyIf]

theorem mem_onlyIf {α : Type} {p : Bool} {x y : α} : y ∈ onlyIf p x ↔ p = true ∧ y = x := by
  cases p <;> simp [onlyIf]

/-- The hazards of a name. -/
def nameHazards (name : Text) : List Hazard :=
  onlyIf (isBlankText name) .blankName ++
  onlyIf (name.contains '\n') .newlineInName ++
  onlyIf (isPadded name && !isBlankText name) .paddedName

/-- The hazards that either side of a rule can have. -/
def sideHazards (r : Rule) (side : Side) : List Hazard :=
  onlyIf ((r.side side).contains '\n') (.newlineInRule side) ++
  onlyIf (isPadded (r.side side)) (.paddedRule side)

namespace Rule

/-- The hazards of a rule. -/
def hazards (r : Rule) : List Hazard :=
  sideHazards r .head ++ onlyIf (hasArrow r.head) .arrowInHead ++ sideHazards r .body

end Rule

/-- The line of the first rule, after the name and the blank line. -/
def firstRuleLine : Nat := 3

/-- The hazards of rules, the first of which is written on a line. -/
def hazardsFrom (line : Nat) : List Rule → List (Located Hazard)
  | [] => []
  | r :: rs => r.hazards.map (.atLine line) ++ hazardsFrom (line + 1) rs

theorem hazardsFrom_eq_nil_iff {line : Nat} {rs : List Rule} :
    hazardsFrom line rs = [] ↔ ∀ r ∈ rs, r.hazards = [] := by
  induction rs generalizing line with
  | nil => simp [hazardsFrom]
  | cons r rs ih => simp [hazardsFrom, ih]

namespace Grammar

/-- Everything that would not come back from the text of the grammar. -/
def hazards (g : Grammar) : List (Located Hazard) :=
  (nameHazards g.name).map (.atLine 1) ++ hazardsFrom firstRuleLine g.rules

/-- No hazard: the text of the grammar can be read back. -/
def Encodable (g : Grammar) : Prop :=
  g.hazards = []

instance (g : Grammar) : Decidable g.Encodable :=
  inferInstanceAs (Decidable (g.hazards = []))

/-- The name and the rules have their hazards independently of each other. -/
theorem encodable_iff {g : Grammar} :
    g.Encodable ↔ nameHazards g.name = [] ∧ ∀ r ∈ g.rules, r.hazards = [] := by
  simp [Encodable, hazards, hazardsFrom_eq_nil_iff]

end Grammar

end PhraseGrammar
