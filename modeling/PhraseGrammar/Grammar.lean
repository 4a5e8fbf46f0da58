/-
PhraseGrammar/Grammar.lean

Grammars: a name and an ordered list of rules with non-empty heads.

A grammar is a value; an edit makes a new one and leaves the old one as it
was.  Rules are addressed by position or by the key they got when they were
added.  Keys only address rules, so two grammars are *the same*, written
`g ≈ h`, when name and rules agree, whatever their histories:

    g ≈ h  ↔  g.name = h.name ∧ g.rules = h.rules

An edit that cannot be done says why.  Where two reasons apply, an unknown key
or a position past the end is reported before an empty head.
-/
import PhraseGrammar.Register
import PhraseGrammar.Rule

namespace PhraseGrammar

/-- A named, ordered list of rules, none with an empty head. -/
@[ext] structure Grammar where
  name : Text
  register : Register Rule
  headed : ∀ r ∈ register.values, r.head ≠ []

/-- Why an edit was refused. -/
inductive EditError
  | emptyHead
  | outOfRange (index size : Nat)
  | unknownRule (key : Key Rule)
  deriving DecidableEq

/-- How a rule key is written. -/
def Key.ruleText (k : Key Rule) : String :=
  s!"r{k.number}"

/-- What the user is told. -/
def EditError.message : EditError → String
  | .emptyHead => "Rule head must not be empty"
  | .outOfRange index size => s!"Rule position {index} is out of range (grammar has {size} rules)"
  | .unknownRule key => "No rule with id `" ++ key.ruleText ++ "`"

namespace Grammar

/-! ### Looking -/

/-- The rules in order. -/
def rules (g : Grammar) : List Rule :=
  g.register.values

/-- The rules in order, each with its key. -/
def entries (g : Grammar) : List (Key Rule × Rule) :=
  g.register.entries

/-- The number of rules. -/
def size (g : Grammar) : Nat :=
  g.register.size

/-- The rule at a position, counted from 0. -/
def ruleAt? (g : Grammar) (i : Nat) : Option Rule :=
  g.register.valueAt? i

/-- The position of the rule with a key. -/
def position? (g : Grammar) (k : Key Rule) : Option Nat :=
  g.register.position? k

/-- The largest key in the grammar. -/
def largestKey? (g : Grammar) : Option (Key Rule) :=
  g.register.largestKey?

/-! ### Building and editing -/

/-- The grammar without rules. -/
def new (name : Text) : Grammar where
  name := name
  register := .empty
  headed := by simp

/-- The grammar with the given rules in order, their keys counted from 0. -/
def ofRules (name : Text) (rules : List Rule) (headed : ∀ r ∈ rules, r.head ≠ []) : Grammar where
  name := name
  register := .ofList rules
  headed := by simpa using headed

/-- The same rules under another name. -/
def rename (g : Grammar) (name : Text) : Grammar where
  name := name
  register := g.register
  headed := g.headed

/-- Adds a rule at the end. -/
def add (g : Grammar) (r : Rule) : Except EditError Grammar :=
  if h : r.head = [] then .error .emptyHead
  else .ok {
    name := g.name
    register := g.register.push r
    headed := fun s hs => by
      rcases List.mem_append.mp (g.register.values_push r ▸ hs) with hs | hs
      · exact g.headed s hs
      · obtain rfl : s = r := by simpa using hs
        exact h }

/-- Adds rules one after the other, until one is refused. -/
def addAll (g : Grammar) (rules : List Rule) : Except EditError Grammar :=
  rules.foldlM add g

/-- Drops the rule at a position. -/
def removeAt (g : Grammar) (i : Nat) : Except EditError Grammar :=
  if i < g.size then .ok {
    name := g.name
    register := g.register.removeAt i
    headed := fun s hs =>
      g.headed s (List.mem_of_mem_eraseIdx (g.register.values_removeAt i ▸ hs)) }
  else .error (.outOfRange i g.size)

/-- Puts another rule in the place, and under the key, of the one at a position. -/
def replaceAt (g : Grammar) (i : Nat) (r : Rule) : Except EditError Grammar :=
  if i < g.size then
    if h : r.head = [] then .error .emptyHead
    else .ok {
      name := g.name
      register := g.register.replaceAt i r
      headed := fun s hs => by
        rcases List.mem_or_eq_of_mem_set (g.register.values_replaceAt i r ▸ hs) with hs | rfl
        · exact g.headed s hs
        · exact h }
  else .error (.outOfRange i g.size)

/-- The position of a rule that an edit addresses by its key. -/
def locate (g : Grammar) (k : Key Rule) : Except EditError Nat :=
  match g.position? k with
  | some i => .ok i
  | none => .error (.unknownRule k)

/-- Drops the rule with a key. -/
def remove (g : Grammar) (k : Key Rule) : Except EditError Grammar := do
  g.removeAt (← g.locate k)

/-- Puts another rule under a key. -/
def replace (g : Grammar) (k : Key Rule) (r : Rule) : Except EditError Grammar := do
  g.replaceAt (← g.locate k) r

/-! ### Being the same grammar -/

/-- Same name and same rules in the same order. -/
def Same (g h : Grammar) : Prop :=
  g.name = h.name ∧ g.rules = h.rules

instance : Setoid Grammar where
  r := Same
  iseqv := {
    refl := fun _ => ⟨rfl, rfl⟩
    symm := fun h => ⟨h.1.symm, h.2.symm⟩
    trans := fun h k => ⟨h.1.trans k.1, h.2.trans k.2⟩ }

theorem equiv_iff {g h : Grammar} : g ≈ h ↔ g.name = h.name ∧ g.rules = h.rules :=
  Iff.rfl

instance (g h : Grammar) : Decidable (g ≈ h) :=
  decidable_of_iff (g.name = h.name ∧ g.rules = h.rules) equiv_iff.symm

/-! ### The rules after an edit -/

@[simp] theorem rules_new (name : Text) : (new name).rules = [] := rfl

@[simp] theorem rules_ofRules (name : Text) (rules : List Rule) (h : ∀ r ∈ rules, r.head ≠ []) :
    (ofRules name rules h).rules = rules :=
  Register.values_ofList rules

@[simp] theorem rules_rename (g : Grammar) (name : Text) : (g.rename name).rules = g.rules := rfl

theorem add_of_headed (g : Grammar) {r : Rule} (h : r.head ≠ []) :
    ∃ g', g.add r = .ok g' ∧ g'.name = g.name ∧ g'.register = g.register.push r := by
  refine ⟨_, dif_neg h, rfl, rfl⟩

/-- Rules with heads are added one after the other, and none is refused. -/
theorem addAll_of_headed {rules : List Rule} (h : ∀ r ∈ rules, r.head ≠ []) (g : Grammar) :
    ∃ g', g.addAll rules = .ok g' ∧ g'.name = g.name ∧
      g'.register = rules.foldl Register.push g.register := by
  induction rules generalizing g with
  | nil => exact ⟨g, rfl, rfl, rfl⟩
  | cons r rules ih =>
    obtain ⟨g₁, h₁, hn₁, hr₁⟩ := g.add_of_headed (h r List.mem_cons_self)
    obtain ⟨g₂, h₂, hn₂, hr₂⟩ := ih (fun s hs => h s (List.mem_cons_of_mem r hs)) g₁
    refine ⟨g₂, ?_, hn₂.trans hn₁, ?_⟩
    · rw [addAll, List.foldlM_cons, h₁]
      exact h₂
    · rw [hr₂, hr₁, List.foldl_cons]

/-- A grammar made of rules at once is the one made by adding them. -/
theorem addAll_new (name : Text) {rules : List Rule} (h : ∀ r ∈ rules, r.head ≠ []) :
    (new name).addAll rules = .ok (ofRules name rules h) := by
  obtain ⟨g, hg, hn, hr⟩ := addAll_of_headed h (new name)
  rw [hg]
  exact congrArg Except.ok (Grammar.ext hn hr)

theorem size_eq_length_rules (g : Grammar) : g.size = g.rules.length := by
  simp [size, rules, Register.size, Register.values]

theorem ruleAt?_eq_getElem? (g : Grammar) (i : Nat) : g.ruleAt? i = g.rules[i]? := by
  simp [ruleAt?, rules, Register.valueAt?, Register.values]

end Grammar

end PhraseGrammar
