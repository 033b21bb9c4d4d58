import Rxon.FieldPrefixes
import Rxon.Indices
import Rxon.JsonSchema

/-! # Complaints about a value

The messages of a compiled validator, as far as they name a path of names and indices, and
what a translation has to keep of them: the keys of the path in their order, and the types,
the enum list or the field that the message is about (`Keeps`).

A translation keeps all that unless words of the message can be taken for words of the
patterns (`Readable`). -/

namespace Rxon

/-- The letters that a name is made of. -/
structure Letters (py : PyText) where
  isLetter : Char → Bool
  isLetter_ascii (c : Char) : c.toNat < 128 → isLetter c = c.isAlpha
  not_isDigit (c : Char) : isLetter c = true → py.isDigit c = false

section
variable {py : PyText}

/-- A letter or an underscore, then letters, digits or underscores. -/
def Letters.IsName (letters : Letters py) (k : String) : Prop :=
  ∃ c s, k.toList = c :: s ∧ (letters.isLetter c = true ∨ c = '_') ∧
    ∀ d ∈ s, letters.isLetter d = true ∨ py.isDigit d = true ∨ d = '_'

/-- A step of a path: to the value of a key, or to an item of a list, where the index is
`[3]` or `.3`. -/
inductive PathStep (letters : Letters py)
  | key (k : String) (h : letters.IsName k)
  | index (bracketed : Bool) (i : Nat)

variable {letters : Letters py}

namespace PathStep

def segment : PathStep letters → List Char
  | key k _ => k.toList
  | index _ i => (toString i).toList

def text : PathStep letters → String
  | key k _ => "." ++ k
  | index true i => "[" ++ toString i ++ "]"
  | index false i => "." ++ toString i

def key? : PathStep letters → Option String
  | key k _ => some k
  | index _ _ => none

end PathStep

/-- `sys.maxsize`, which no list is longer than. -/
def sysMaxsize : Nat := 2 ^ 63 - 1

/-- The path leads from one value to another. -/
inductive StepsTo : List (PathStep letters) → PyVal → PyVal → Prop
  | here {v : PyVal} : StepsTo [] v v
  | key {k : String} {hk : letters.IsName k} {steps : List (PathStep letters)}
      {kvs : List (String × PyVal)} {x v : PyVal}
      (hx : kvs.lookup k = some x) (h : StepsTo steps x v) :
      StepsTo (.key k hk :: steps) (.dict kvs) v
  | index {bracketed : Bool} {i : Nat} {steps : List (PathStep letters)} {xs : List PyVal}
      {x v : PyVal} (hsize : xs.length ≤ sysMaxsize) (hx : xs[i]? = some x)
      (h : StepsTo steps x v) : StepsTo (.index bracketed i :: steps) (.list xs) v

/-! ## Messages -/

/-- The type, as JSON Schema calls it. -/
def typeName : JsonType → String
  | .null => "null"
  | .boolean => "boolean"
  | .integer => "integer"
  | .number => "number"
  | .string => "string"
  | .array => "array"
  | .object => "object"

/-- A list of types, as it is printed. -/
def typeText (types : List JsonType) : String := " or ".intercalate (types.map typeName)

/-- What stands around the name of a field where it is printed. -/
inductive Quotes
  | bare | single | double

def Quotes.mark : Quotes → String
  | bare => ""
  | single => "'"
  | double => "\""

def Quotes.quote (quotes : Quotes) (name : String) : String := quotes.mark ++ name ++ quotes.mark

/-- What a message complains of. -/
inductive Complaint
  | typed (types : List JsonType)
  | oneOf (items : String)
  | missing (quotes : Quotes) (name : String)
  | unexpected (quotes : Quotes) (name : String)

namespace Complaint

/-- What stands behind the path. -/
def tail : Complaint → String
  | typed types => " must be " ++ typeText types
  | oneOf items => " must be one of [" ++ items ++ "]"
  | missing quotes name => " must contain [" ++ quotes.quote name ++ "] properties"
  | unexpected quotes name => " must not contain \x7b" ++ quotes.quote name ++ "\x7d properties"

def message (steps : List (PathStep letters)) (c : Complaint) : String :=
  "data" ++ String.join (steps.map PathStep.text) ++ c.tail

/-- What the message expects, or the field it is about. -/
def expectation : Complaint → String
  | typed types => typeText types
  | oneOf items => "[" ++ items ++ "]"
  | missing _ name => name
  | unexpected _ name => name

/-- The statement says, of the value, what the complaint says. -/
def States (py : PyText) (v : PyVal) (statement : String) : Complaint → Prop
  | typed types =>
    statement = "Expected " ++ typeText types ∨
    statement = "Expected " ++ typeText types ++ ", got null" ∨
    ∃ i : Nat, statement = "Item at index " ++ toString i ++ ": Expected " ++ typeText types
  | oneOf items => ∃ shown, py.str v = .ok shown ∧
    statement = "Value '" ++ shown ++ "' is not allowed. Must be one of: [" ++ items ++ "]"
  | missing _ name => statement = "Missing required field: '" ++ name ++ "'"
  | unexpected _ name => statement = "Unexpected field: '" ++ name ++ "'"

/-- The text is a row of fields of the path and what the complaint says. -/
def Placed (py : PyText) (segs : List (List Char)) (v : PyVal) (text : String) (c : Complaint) :
    Prop :=
  ∃ parts statement, text = fieldPrefix parts ++ statement ∧ parts.Sublist segs ∧
    c.States py v statement

end Complaint

def pathKeys (steps : List (PathStep letters)) : List String := steps.filterMap PathStep.key?

/-- **What a translation has to keep.**  It does not do that the expectation stands somewhere
in the text, perhaps in the value that is shown: it stands in its place. -/
structure Keeps (steps : List (PathStep letters)) (c : Complaint) (v : PyVal) (text : String) :
    Prop where
  named : InOrder ((pathKeys steps).map fun k => "Field '" ++ k ++ "'") text.toList
  contained : containsStr text c.expectation = true
  null : containsStr text "got null" = true → v = .none
  placed : c.Placed py (steps.map PathStep.segment) v text

/-! ## Messages that can be read -/

/-- Words by which a message is taken for a complaint about alternatives. -/
def Schematic (s : List Char) : Prop :=
  "anyOf".toList <:+: s ∨ "cannot be validated by any definition".toList <:+: s

/-- An enum list that can be read. -/
structure ReadableList (steps : List (PathStep letters)) (v : PyVal) (items : String) : Prop where
  plain : ¬ Schematic items.toList
  line : '\n' ∉ items.toList
  noIndex : ¬ HasIndex py ("[" ++ items ++ "]").toList
  separator : steps = [] ∨ containsStr items " must be one of " = false
  shown : ∃ text, py.str v = .ok text ∧ (v = .none ∨
    containsStr text "got null" = false ∧ containsStr items "got null" = false)

/-- A field that can be read, between brackets and behind other words. -/
structure ReadableField (steps : List (PathStep letters)) (v : PyVal)
    (opening bracketed name : String) : Prop where
  plain : ¬ Schematic name.toList
  line : '\n' ∉ name.toList
  noIndex : ¬ HasIndex py bracketed.toList
  separator : steps = [] ∨ containsStr name " must be one of " = false
  opening : containsStr name opening = false
  stripped : fieldName name.toList = name
  null : v = .none ∨ containsStr name "got null" = false

def Complaint.Readable (steps : List (PathStep letters)) (v : PyVal) : Complaint → Prop
  | typed _ => True
  | oneOf items => ReadableList steps v items
  | missing quotes name =>
    ReadableField steps v " must contain [" ("[" ++ quotes.quote name ++ "]") name
  | unexpected quotes name =>
    ReadableField steps v " must not contain \x7b" ("\x7b" ++ quotes.quote name ++ "\x7d") name ∧
    -- a field that is missing is looked for first
    ∀ s, containsStr name (" must contain [" ++ s ++ "]") = false

/-- **The messages that can be read.** -/
structure Readable (steps : List (PathStep letters)) (c : Complaint) (v : PyVal) : Prop where
  keys : ∀ k ∈ pathKeys steps, containsStr k "anyOf" = false
  complaint : c.Readable steps v

end
end Rxon
