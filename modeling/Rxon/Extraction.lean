import Rxon.Annotations
import Rxon.Identity
import Rxon.JsonSchema
import Rxon.Memo

/-! # Schema extraction

`extract_json_schema` and `_python_type_to_json_schema` follow the types of a
declaration into the classes they name.  The schemas of types proper are cached, under
the type, in a dictionary that all threads share; of an extraction the model keeps its
accesses to this dictionary, in order (`Memo.Prog`).

The recursion is bounded by the interpreter's stack alone: `frames` is the number of
calls that still fit on it, and a call that does not fit raises a `RecursionError`.
Calls into libraries are taken to fit, and `get_type_hints` to resolve what a dataclass
declares.  An annotation of a function may have stayed a text. -/

namespace Rxon
open Memo

def maxTypeSchemaCacheSize : Nat := 2048

/-- `_type_schema_cache`. -/
abbrev TypeSchemaCache := Cache Ty Schema maxTypeSchemaCacheSize

/-- The cache has room. -/
instance instFactTypeSchemas : Fact (0 < maxTypeSchemaCacheSize) := ⟨by decide⟩

/-- A program over the cache that may raise. -/
abbrev Extraction (α : Type) := ProgE PyError Ty Schema α

/-- What a type tells of itself. -/
structure Introspection where
  /-- What its `model_json_schema()`, or else its `schema()`, returns, if it has such a
  method and it does not raise. -/
  modelSchema : Ty → Option Schema
  /-- It has an attribute of one of these names. -/
  hasModelSchema : Ty → Bool

end Rxon

namespace Ty

/-- `isinstance(tp, type)`; an alias such as `list[int]` is none. -/
def isType : Ty → Bool
  | .list _ | .dict _ | .union _ | .annotated _ | .text _ => false
  | _ => true

/-- `_is_optional`. -/
def isOptional : Ty → Bool
  | .union ts => ts.any fun | .none => true | _ => false
  | _ => false

end Ty

/-- `not name.startswith("_")`. -/
def FieldDecl.isPublic (f : FieldDecl) : Bool := f.name.toList.head? ≠ some '_'

namespace ClassKind

/-- The type that a field is described by: dataclasses lose their `Annotated`. -/
def hint : ClassKind → FieldDecl → Ty
  | .struct _, f => f.type
  | .dataclass, f => f.type.withoutExtras

/-- Whether the field has no default: a Struct is asked for `default` only, which a
factory leaves unset. -/
def noDefault : ClassKind → FieldDecl → Bool
  | .struct _, f => match f.default with
    | .value _ => false
    | .required | .factory _ => true
  | .dataclass, f => match f.default with
    | .required => true
    | .value _ | .factory _ => false

end ClassKind

namespace ClassDecl

def publicFields (d : ClassDecl) : List FieldDecl := d.fields.filter FieldDecl.isPublic

/-- The names that a class's schema requires. -/
def requiredNames (d : ClassDecl) : List String :=
  (d.publicFields.filter fun f => d.kind.noDefault f && !(d.kind.hint f).isOptional).map
    FieldDecl.name

end ClassDecl

namespace Rxon
open Memo

/-- A call does not fit on the stack. -/
def stackOverflow : PyError := .recursionError "maximum recursion depth exceeded"

/-- What an annotation that stayed a text is described by. -/
def textType : String → JsonType
  | "int" => .integer
  | "float" => .number
  | "bool" => .boolean
  | _ => .string

section
variable (D : Decls) (lib : Introspection)

mutual

/-- `_python_type_to_json_schema`. -/
def pythonTypeToJsonSchema (frames : Nat) (tp : Ty) : Extraction Schema :=
  match frames with
  | 0 => throw stackOverflow
  | frames + 1 =>
    match tp with
    | .any => return .mk []
    | .str | .uuid => return .typed .string
    | .int => return .typed .integer
    | .float => return .typed .number
    | .bool => return .typed .boolean
    | .none => return .typed .null
    | .enum _ members => return .mk [.type .string, .enum (members.map Prod.snd)]
    | .union alts => do
      return .mk [.anyOf (← ProgE.forEach (fun t => pythonTypeToJsonSchema frames t) alts)]
    | .list item => do
      return .mk [.type .array, .items (← pythonTypeToJsonSchema frames item)]
    | .other "list" => do
      return .mk [.type .array, .items (← pythonTypeToJsonSchema frames .any)]
    | .dict _ | .other "dict" => return .typed .object
    | .annotated t => pythonTypeToJsonSchema frames t
    | .text s => return .typed (textType s)
    | .other _ => return (lib.modelSchema tp).getD (.typed .string)
    | .cls name =>
      match lib.modelSchema tp with
      | some schema => return schema
      | none =>
        if (D.lookup name).isSome then do
          match ← extractJsonSchema frames tp with
          | some nested => return if nested.isEmpty then .typed .object else nested
          | none => return .typed .object
        else return .typed .string

/-- `extract_json_schema`, with the default `extractor`. -/
def extractJsonSchema (frames : Nat) (tp : Ty) : Extraction (Option Schema) :=
  match frames with
  | 0 => throw stackOverflow
  | frames + 1 =>
    if tp.isType then do
      match ← (Prog.lookup tp : Prog Ty Schema (Option Schema)) with
      | some cached => return some cached
      | none =>
        let schema ← extractUncached frames tp
        match schema with
        | some s => (Prog.save tp s : Prog Ty Schema Unit)
        | none => pure ()
        return schema
    else extractUncached frames tp

/-- `_extract_json_schema_uncached`, with the default `extractor`. -/
def extractUncached (frames : Nat) (tp : Ty) : Extraction (Option Schema) :=
  match frames with
  | 0 => throw stackOverflow
  | frames + 1 =>
    match lib.modelSchema tp with
    | some schema => return some schema
    | none =>
      match tp with
      | .cls name =>
        match D.lookup name with
        | some d => do
          let properties ← ProgE.forEach (fun f => do
            return (f.name, ← pythonTypeToJsonSchema frames (d.kind.hint f))) d.publicFields
          return some (.closedObject properties d.requiredNames)
        | none =>
          tryCatch (do return some (← pythonTypeToJsonSchema frames tp)) fun _ => return none
      | _ => tryCatch (do return some (← pythonTypeToJsonSchema frames tp)) fun _ => return none

end

/-- `extract_json_schema` with an `extractor`, which is asked first and whose answers are
not cached. -/
def extractWith (extractor : Ty → Except PyError (Option Schema)) (frames : Nat) (tp : Ty) :
    Extraction (Option Schema) :=
  match frames with
  | 0 | 1 => throw stackOverflow
  | frames + 2 => do
    match ← (liftM (extractor tp) : Extraction (Option Schema)) with
    | some schema => return some schema
    | none => extractUncached D lib (frames + 1) tp

end

end Rxon
