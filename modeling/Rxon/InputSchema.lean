import Rxon.Extraction

/-! # Input schemas

`extract_input_schema_from_func` describes what a handler is given by name: a single
structured parameter by the schema of its type, any other parameters by an object with
one property each.  Parameters that the framework fills, and those read from headers,
are left out.  The schema is kept on the function, as an attribute.

`get_type_hints` resolves the annotations of a function together: if one of them does not
resolve, all are taken as they are written. -/

namespace Ty

/-- `Parameter.empty`. -/
def empty : Ty := .other "_empty"

/-- `get_args(tp)[0] if get_origin(tp) is Annotated else tp`. -/
def actualType : Ty → Ty
  | .annotated t => t
  | t => t

/-- `tp is Parameter.empty or tp is Any`. -/
def isUntyped : Ty → Bool
  | .other "_empty" | .any => true
  | _ => false

/-- `tp is dict or get_origin(tp) is dict`. -/
def isDict : Ty → Bool
  | .other "dict" | .dict _ => true
  | _ => false

end Ty

namespace Schema

/-- `schema or default`. -/
def orElse (schema : Option Schema) (default : Schema) : Schema :=
  match schema with
  | some s => if s.isEmpty then default else s
  | none => default

theorem orElse_of_not_empty {s default : Schema} (h : s.isEmpty = false) :
    orElse (some s) default = s := by
  simp [orElse, h]

end Schema

namespace Rxon
open Memo

inductive ParameterKind where
  | named
  | varPositional
  | varKeyword
deriving DecidableEq

structure Parameter where
  name : String
  kind : ParameterKind := .named
  /-- The annotation as it is written. -/
  annotation : Ty := .empty
  /-- What it resolves to; a text may name nothing that is there at run time. -/
  resolved : Option Ty := some annotation
  /-- A metadata of an `Annotated` annotation is a `Header`. -/
  header : Bool := false
  hasDefault : Bool := false

/-- A parameter that the task gives, with the annotation that it is described by. -/
structure BusinessParam where
  name : String
  ann : Ty := .empty
  hasDefault : Bool := false

namespace BusinessParam

def actualType (p : BusinessParam) : Ty := p.ann.actualType

end BusinessParam

namespace Parameter

def systemParamNames : List String :=
  ["ctx", "context", "task_files", "actions", "self", "cls", "job_id", "current_state", "state",
    "data_stores", "client"]

/-- `hints.get(name, param.annotation)`. -/
def ann (p : Parameter) (hinted : Bool) : Ty :=
  if hinted then p.resolved.getD p.annotation else p.annotation

/-- Whether the parameter is read from a header. -/
def isHeader (p : Parameter) (hinted : Bool) : Bool :=
  match p.ann hinted with
  | .annotated _ => p.header
  | _ => false

/-- Whether the parameter is given by the task. -/
def isBusiness (p : Parameter) (hinted : Bool) : Bool :=
  decide (p.name ∉ systemParamNames) && decide (p.kind = .named) && !p.isHeader hinted

def business (p : Parameter) (hinted : Bool) : BusinessParam := ⟨p.name, p.ann hinted, p.hasDefault⟩

end Parameter

/-- What `func` is to the extraction. -/
structure Func where
  callable : Bool
  /-- Its signature, unless `signature(func)` raises. -/
  signature : Option (List Parameter)
  /-- `get_type_hints` takes it, and resolves what it returns. -/
  takesHints : Bool := true
  /-- `_rxon_input_schema`, if the attribute is set. -/
  rxonInputSchema : Option (Option Schema)
  /-- It has a `__dict__`, and setting an attribute does not raise. -/
  keepsAttributes : Bool

namespace Func

/-- Whether `get_type_hints(func, include_extras=True)` returns; without extras it raises
where this does. -/
def hinted (func : Func) : Bool :=
  func.takesHints && (func.signature.getD []).all fun p => p.resolved.isSome

def businessParams (func : Func) : List BusinessParam :=
  ((func.signature.getD []).filter fun p => p.isBusiness func.hinted).map fun p =>
    p.business func.hinted

def attach (func : Func) (schema : Option Schema) : Func :=
  if func.keepsAttributes then { func with rxonInputSchema := some schema } else func

section
variable (func : Func) (schema : Option Schema)

@[simp] theorem attach_callable : (func.attach schema).callable = func.callable := by
  unfold attach
  split <;> rfl

@[simp] theorem attach_signature : (func.attach schema).signature = func.signature := by
  unfold attach
  split <;> rfl

@[simp] theorem attach_takesHints : (func.attach schema).takesHints = func.takesHints := by
  unfold attach
  split <;> rfl

@[simp] theorem attach_businessParams :
    (func.attach schema).businessParams = func.businessParams := by
  rw [businessParams, hinted, attach_signature, attach_takesHints, businessParams, hinted]

theorem attach_rxonInputSchema :
    (func.attach schema).rxonInputSchema = func.rxonInputSchema ∨
      (func.attach schema).rxonInputSchema = some schema := by
  unfold attach
  split
  · exact Or.inr rfl
  · exact Or.inl rfl

end

end Func

section
variable (D : Decls) (lib : Introspection)

/-- `_is_structured_model`. -/
def isStructuredModel (tp : Ty) : Bool :=
  match tp.actualType with
  | .cls name => (D.lookup name).isSome || lib.hasModelSchema (.cls name)
  | t => t.isType && lib.hasModelSchema t

variable (extractor : Option (Ty → Except PyError (Option Schema))) (frames : Nat)

/-- `extract_json_schema`, with or without an `extractor`. -/
def extractParam (tp : Ty) : Extraction (Option Schema) :=
  match extractor with
  | none => extractJsonSchema D lib frames tp
  | some extractor => extractWith D lib extractor frames tp

/-- A parameter among others, and its schema. -/
def paramProperty (p : BusinessParam) : Extraction (String × Schema) :=
  if p.actualType.isUntyped then return (p.name, .mk [])
  else do
    return (p.name, Schema.orElse (← extractParam D lib extractor frames p.actualType) (.mk []))

/-- The schema of the parameters that the task gives. -/
def businessSchema : List BusinessParam → Extraction (Option Schema)
  | [] => return none
  | [p] =>
    if p.name = "input" ∧ (p.ann.isUntyped || p.ann.isDict) then return none
    else if isStructuredModel D lib p.actualType then
      extractParam D lib extractor frames p.actualType
    else do
      let propSchema := Schema.orElse (← extractParam D lib extractor frames p.actualType)
        (.typed .string)
      return some (.closedObject [(p.name, propSchema)] (if p.hasDefault then [] else [p.name]))
  | ps => do
    let properties ← ProgE.forEach (fun p => paramProperty D lib extractor frames p) ps
    return some (.closedObject properties
      ((ps.filter fun p => !p.hasDefault).map BusinessParam.name))

/-- `extract_input_schema_from_func`, and the function afterwards. -/
def extractInputSchemaFromFunc (func : Func) : Extraction (Option Schema × Func) :=
  if func.callable then
    match extractor, func.rxonInputSchema with
    | none, some schema => return (schema, func)
    | _, _ =>
      match func.signature with
      | none => return (none, func)
      | some _ => do
        let schema ← businessSchema D lib extractor frames func.businessParams
        return (schema, if extractor.isNone then func.attach schema else func)
  else return (none, func)

/-- What calls one after another return without an extractor, each on the stack and from
the cache that there are then. -/
def inputSchemas (func : Func) :
    List (Nat × TypeSchemaCache) → List (Except PyError (Option Schema))
  | [] => []
  | (frames, cache) :: calls =>
    match ((extractInputSchemaFromFunc D lib none frames func).run.run cache).1 with
    | .ok (schema, func') => .ok schema :: inputSchemas func' calls
    | .error e => .error e :: inputSchemas func calls

end

end Rxon
