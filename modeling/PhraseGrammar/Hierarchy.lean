/-
PhraseGrammar/Hierarchy.lean

A guess at where a grammar sits in the Chomsky hierarchy.

The guess looks at the shapes of the rules.  The conditions

    the head is longer than the body                type 0
    the head has an ASCII digit or small letter     type 1
    the body starts with the head                   type 3
    the body ends with the head                     type 3

are tried on a rule in this order and the first that holds is its shape; the
first rule of the grammar that has a shape decides the verdict.  Where no rule
has one the verdict is type 2.  So the order of the rules can move the
verdict, and lengths are counted in characters.
-/
import PhraseGrammar.Grammar

namespace PhraseGrammar

/-- The four types of the hierarchy. -/
inductive Kind
  | unrestricted
  | contextSensitive
  | contextFree
  | regular
  deriving DecidableEq

namespace Kind

/-- The number of a type. -/
def level : Kind → Nat
  | .unrestricted => 0
  | .contextSensitive => 1
  | .contextFree => 2
  | .regular => 3

/-- The name of a type. -/
def description : Kind → String
  | .unrestricted => "unrestricted"
  | .contextSensitive => "context-sensitive"
  | .contextFree => "context-free"
  | .regular => "regular"

/-- Number and name, as reports show a type. -/
def display (k : Kind) : String :=
  s!"Type {k.level} (" ++ k.description ++ ")"

end Kind

/-- The end of the body where the head of a linear rule stands. -/
inductive Linearity
  | left
  | right
  deriving DecidableEq

/-- The shapes that decide a type. -/
inductive Shape
  | shrinking
  | contextual
  | linear (side : Linearity)
  deriving DecidableEq

namespace Shape

/-- The type a shape decides. -/
def kind : Shape → Kind
  | .shrinking => .unrestricted
  | .contextual => .contextSensitive
  | .linear _ => .regular

/-- The shape in words. -/
def reason : Shape → String
  | .shrinking => "head is longer than body"
  | .contextual => "head contains a digit or lowercase letter"
  | .linear .left => "body starts with head (left-linear)"
  | .linear .right => "body ends with head (right-linear)"

end Shape

/-- Whether a character marks its surroundings: an ASCII digit or small letter. -/
def isContextual (c : Char) : Bool :=
  c.isDigit || c.isLower

/-- The first condition that holds of a rule. -/
def Rule.shape? (r : Rule) : Option Shape :=
  if r.body.length < r.head.length then some .shrinking
  else if r.head.any isContextual then some .contextual
  else if r.head.isPrefixOf r.body then some (.linear .left)
  else if r.head.isSuffixOf r.body then some (.linear .right)
  else none

/-- The outcome of the scan: the shape that decided, with the position and the
key of the rule that has it, or nothing. -/
inductive Verdict
  | decided (shape : Shape) (position : Nat) (key : Key Rule)
  | undecided
  deriving DecidableEq

namespace Verdict

/-- The type guessed. -/
def kind : Verdict → Kind
  | .decided shape _ _ => shape.kind
  | .undecided => .contextFree

/-- The reason in words. -/
def reason : Verdict → String
  | .decided shape _ _ => shape.reason
  | .undecided => "no rule matched a stricter shape"

/-- The position of the deciding rule. -/
def position? : Verdict → Option Nat
  | .decided _ position _ => some position
  | .undecided => none

/-- The key of the deciding rule. -/
def key? : Verdict → Option (Key Rule)
  | .decided _ _ key => some key
  | .undecided => none

/-- Scans entries, the first of which has the given position. -/
def scan (position : Nat) : List (Key Rule × Rule) → Verdict
  | [] => .undecided
  | (key, r) :: es =>
    match r.shape? with
    | some shape => .decided shape position key
    | none => scan (position + 1) es

/-- A scan passes over rules without a shape. -/
theorem scan_append {es fs : List (Key Rule × Rule)} (position : Nat)
    (h : ∀ e ∈ es, e.2.shape? = none) :
    scan position (es ++ fs) = scan (position + es.length) fs := by
  induction es generalizing position with
  | nil => rfl
  | cons e es ih =>
    rw [List.cons_append, scan, h e List.mem_cons_self]
    show scan (position + 1) (es ++ fs) = _
    rw [ih (position + 1) fun d hd => h d (List.mem_cons_of_mem _ hd), List.length_cons,
      Nat.add_assoc, Nat.add_comm 1]

theorem scan_eq_undecided_iff {es : List (Key Rule × Rule)} {position : Nat} :
    scan position es = .undecided ↔ ∀ e ∈ es, e.2.shape? = none := by
  induction es generalizing position with
  | nil => simp [scan]
  | cons e es ih =>
    rw [scan, List.forall_mem_cons]
    cases h : e.2.shape? with
    | none => simp [ih]
    | some shape => simp

end Verdict

namespace Grammar

/-- The verdict on a grammar. -/
def verdict (g : Grammar) : Verdict :=
  .scan 0 g.entries

/-- The type a grammar is guessed to have. -/
def kind (g : Grammar) : Kind :=
  g.verdict.kind

end Grammar

end PhraseGrammar
