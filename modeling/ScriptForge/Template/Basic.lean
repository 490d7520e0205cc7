import ScriptForge.Json.Basic

/-!
# Templates

A template is a text with values to be filled in and with blocks that are rendered or not, or once
per item. A path says where a value is found: it starts at the current value, at one of the values
around it, at the whole data or at a name that every block of a kind provides, and goes on key by
key.
-/

namespace ScriptForge.Template

/-- Where a path starts. -/
inductive Origin
  /-- The value that is current so many blocks further out. -/
  | around (blocks : Nat)
  /-- What the block so many blocks further out provides under its own names. -/
  | provided (blocks : Nat)
  /-- The whole data. -/
  | whole
  deriving DecidableEq, Repr

/-- Where a value is found. -/
structure Path where
  origin : Origin
  keys : List String
  deriving DecidableEq, Repr

/-- What a block or a call is given. -/
inductive Argument
  | path (path : Path)
  | literal (value : Json)
  /-- A named argument. -/
  | named (name : String) (argument : Argument)
  deriving Repr

/-- What is called by name, or the start of a block. -/
structure Invocation where
  name : String
  arguments : List Argument
  /-- The names that a block gives to its item and to the place of the item. -/
  parameters : List String
  deriving Repr

/-- Parts of a template. -/
inductive Part
  | text (text : List Char)
  | value (path : Path)
  | call (invocation : Invocation)
  | block (invocation : Invocation) (body inverse : List Part)
  deriving Repr

end ScriptForge.Template
