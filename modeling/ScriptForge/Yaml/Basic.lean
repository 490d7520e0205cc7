/-!
# YAML values

A scalar keeps its text and whether it was written plain, because only a plain scalar can stand for
a number, a truth value or nothing at all. A mapping keeps its entries in order.

A document may name a value with an anchor and stand for it again by its name. `resolve?` puts the
named values in the place of the names, after which neither anchors nor names are left.
-/

namespace ScriptForge

/-- YAML values. -/
inductive Yaml
  | scalar (text : List Char) (plain : Bool)
  | sequence (items : List Yaml)
  | mapping (entries : List (Yaml × Yaml))
  /-- A value with an anchor. -/
  | named (name : List Char) (value : Yaml)
  /-- The value that an anchor of this name has named last. -/
  | sameAs (name : List Char)
  deriving Repr, Inhabited

namespace Yaml

/-- The value of a place where nothing is written. -/
def nothing : Yaml := scalar [] true

/-- A value with an anchor in front of it, if there is one. -/
def withAnchor (anchor : Option (List Char)) (value : Yaml) : Yaml :=
  match anchor with
  | some name => named name value
  | none => value

/-! ## Anchors -/

/-- A computation that knows the values named so far, the last one first, and may fail. -/
abbrev Resolving := StateT (List (List Char × Yaml)) Option

mutual

/-- The value without anchors and names; nothing if a name stands for no value. -/
def resolve : Yaml → Resolving Yaml
  | scalar text plain => pure (scalar text plain)
  | sequence items => sequence <$> resolveItems items
  | mapping entries => mapping <$> resolveEntries entries
  | named name value => do
    let value ← resolve value
    modify ((name, value) :: ·)
    return value
  | sameAs name => do
    match (← get).lookup name with
    | some value => return value
    | none => failure

/-- Resolves the items of a sequence in order. -/
def resolveItems : List Yaml → Resolving (List Yaml)
  | [] => pure []
  | item :: items => do
    let first ← resolve item
    let others ← resolveItems items
    return first :: others

/-- Resolves the keys and the values of a mapping in order. -/
def resolveEntries : List (Yaml × Yaml) → Resolving (List (Yaml × Yaml))
  | [] => pure []
  | (key, value) :: entries => do
    let key ← resolve key
    let value ← resolve value
    let others ← resolveEntries entries
    return (key, value) :: others

end

/-- The value of a whole document. -/
def resolve? (value : Yaml) : Option Yaml :=
  (value.resolve.run []).map (·.1)

end Yaml

end ScriptForge
