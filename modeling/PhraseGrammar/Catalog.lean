/-
PhraseGrammar/Catalog.lean

Catalogs: the grammars someone is working with.  A grammar is addressed by the
key it got on entry and not by its name, since names may repeat; a catalog is
a register of grammars, in the order of their creation.
-/
import PhraseGrammar.Grammar

namespace PhraseGrammar

/-- Grammars in the order of their creation. -/
abbrev Catalog := Register Grammar

/-- Why a change to a catalog was refused. -/
inductive CatalogError
  | unknownGrammar (key : Key Grammar)
  | refused (why : EditError)

/-- How a grammar key is written. -/
def Key.grammarText (k : Key Grammar) : String :=
  s!"g{k.number}"

/-- What the user is told. -/
def CatalogError.message : CatalogError → String
  | .unknownGrammar key => "No grammar with id `" ++ key.grammarText ++ "`"
  | .refused why => why.message

namespace Catalog

/-- Enters a grammar and tells its key. -/
def create (c : Catalog) (g : Grammar) : Key Grammar × Catalog :=
  (c.nextKey, c.push g)

/-- The place of a grammar that a change addresses by its key. -/
def locate (c : Catalog) (k : Key Grammar) : Except CatalogError Nat :=
  match c.position? k with
  | some i => .ok i
  | none => .error (.unknownGrammar k)

/-- Puts another grammar under a key. -/
def update (c : Catalog) (k : Key Grammar) (g : Grammar) : Except CatalogError Catalog := do
  return c.replaceAt (← c.locate k) g

/-- Takes a grammar out. -/
def remove (c : Catalog) (k : Key Grammar) : Except CatalogError (Grammar × Catalog) := do
  let i ← c.locate k
  match c.valueAt? i with
  | some g => return (g, c.removeAt i)
  | none => throw (.unknownGrammar k)

/-- Adds a rule to the grammar under a key. -/
def addRule (c : Catalog) (k : Key Grammar) (r : Rule) : Except CatalogError Catalog :=
  match c.get? k with
  | none => .error (.unknownGrammar k)
  | some g =>
    match g.add r with
    | .error why => .error (.refused why)
    | .ok h => c.update k h

/-- The keys of the grammars with a name, oldest first. -/
def withName (c : Catalog) (name : Text) : List (Key Grammar) :=
  (c.entries.filter (·.2.name = name)).map (·.1)

end Catalog

end PhraseGrammar
