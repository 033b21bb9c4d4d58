import Rxon.PyVal

/-! # orjson

`dumps` turns a Python value into a document and writes the document.  The first
half (`document`) is the traversal RXON depends on: which values orjson takes
natively and which it hands to the `default` function, whose answer is traversed in
its turn.  The second half is a parameter (`Orjson`): writing fails on integers
beyond 64 bits and on nesting beyond the encoder's own limit, and reading back
gives the document that was written. -/

namespace PyVal

mutual

/-- The document of a value whose foreign parts `foreign` handles.  Only dicts are
sorted, a dataclass keeps its field order. -/
def documentWith (sort : Bool) (foreign : PyVal → Except PyError Json) : PyVal → Except PyError Json
  | .none => .ok .null
  | .bool b => .ok (.bool b)
  | .int i => .ok (.int i)
  | .float (.finite f) => .ok (.float f)
  | .float _ => .ok .null
  | .str s => .ok (.str s)
  | .list xs => (documentElements sort foreign xs).map .arr
  | .dict kvs => (documentEntries sort foreign kvs).map fun ds =>
      .obj (if sort then Assoc.sortByKey ds else ds)
  | .dataclass _ fs => (documentFields sort foreign fs).map .obj
  | .enum _ _ v => documentWith sort foreign v
  | .uuid s => .ok (.str s)
  | .datetime clock offset => .ok (.str (clock ++ offset))
  | v => foreign v

def documentElements (sort : Bool) (foreign : PyVal → Except PyError Json) :
    List PyVal → Except PyError (List Json)
  | [] => .ok []
  | x :: xs => do
    let d ← documentWith sort foreign x
    return d :: (← documentElements sort foreign xs)

def documentEntries (sort : Bool) (foreign : PyVal → Except PyError Json) :
    List (String × PyVal) → Except PyError (List (String × Json))
  | [] => .ok []
  | (k, x) :: kvs => do
    let d ← documentWith sort foreign x
    return (k, d) :: (← documentEntries sort foreign kvs)

/-- The public fields of a dataclass. -/
def documentFields (sort : Bool) (foreign : PyVal → Except PyError Json) :
    List (String × PyVal) → Except PyError (List (String × Json))
  | [] => .ok []
  | (k, x) :: fs =>
    if k.toList.head? = some '_' then documentFields sort foreign fs
    else do
      let d ← documentWith sort foreign x
      return (k, d) :: (← documentFields sort foreign fs)

end

/-- The document of a value; `default` may be asked again about its own answer, at
most `calls` times. -/
def document (sort : Bool) (default : PyVal → Except PyError PyVal) :
    Nat → PyVal → Except PyError Json
  | 0 => documentWith sort fun _ => .error (.typeError "default serializer exceeds recursion limit")
  | calls + 1 => documentWith sort fun v => do document sort default calls (← default v)

/-- A document is its own document, its keys sorted on demand. -/
theorem documentWith_toPy (sort : Bool) (foreign : PyVal → Except PyError Json) (j : Json) :
    documentWith sort foreign j.toPy = .ok (if sort then j.sortKeys else j) := by
  induction j with
  | null | bool | int | float | str => cases sort <;> rfl
  | arr xs ih =>
    have hxs : documentElements sort foreign (xs.map Json.toPy) =
        .ok (xs.map fun x => if sort then x.sortKeys else x) := by
      induction xs with
      | nil => rfl
      | cons x xs ihx =>
        obtain ⟨hx, hxs⟩ := List.forall_mem_cons.mp ih
        rw [List.map_cons, documentElements, hx, ihx hxs]
        rfl
    rw [Json.toPy_arr, documentWith, hxs]
    cases sort with
    | true => rw [if_pos rfl, Json.sortKeys_arr]; rfl
    | false => simp [Except.map]
  | obj kvs ih =>
    have hkvs : documentEntries sort foreign (Assoc.mapVal Json.toPy kvs) =
        .ok (Assoc.mapVal (fun x => if sort then x.sortKeys else x) kvs) := by
      induction kvs with
      | nil => rfl
      | cons e kvs ihe =>
        obtain ⟨he, hkvs⟩ := List.forall_mem_cons.mp ih
        rw [Assoc.mapVal_cons, documentEntries, he, ihe hkvs]
        rfl
    rw [Json.toPy_obj, documentWith, hkvs]
    cases sort with
    | true => rw [if_pos rfl, Json.sortKeys_obj]; rfl
    | false => simp [Except.map, Assoc.mapVal]

theorem document_toPy (sort : Bool) (default : PyVal → Except PyError PyVal) (calls : Nat)
    (j : Json) : document sort default calls j.toPy = .ok (if sort then j.sortKeys else j) := by
  cases calls <;> exact documentWith_toPy _ _ j

/-- A Struct is what `default` makes of it. -/
theorem document_struct (sort : Bool) (default : PyVal → Except PyError PyVal) (calls : Nat)
    (c : StructHead) (fs : List (String × PyVal)) :
    document sort default (calls + 1) (.struct c fs) =
      default (.struct c fs) >>= document sort default calls := rfl

/-- How often orjson asks `default` about its own answers. -/
def defaultCalls : Nat := 254

end PyVal

/-- The writer and reader of orjson, with what RXON relies on. -/
structure Orjson where
  Bytes : Type
  encode : Json → Except PyError Bytes
  loads : Bytes → Except PyError Json
  /-- The nesting of containers the encoder accepts. -/
  nesting : Nat
  nesting_gt : 30 < nesting
  encode_ok (j : Json) : j.IntsFit → j.height ≤ nesting → ∃ b, encode j = .ok b
  encode_range (j : Json) : ¬ j.IntsFit → j.height ≤ nesting →
    encode j = .error (.typeError "Integer exceeds 64-bit range")
  encode_deep (j : Json) : nesting < j.height →
    ∃ msg, encode j = .error (.typeError msg) ∧
      (j.IntsFit → containsStr msg "Recursion limit reached" = true)
  loads_encode (j : Json) (b : Bytes) : encode j = .ok b → loads b = .ok j

namespace Orjson
variable (oj : Orjson)

/-- `dumps(v, default=default, option=OPT_SORT_KEYS)`, without the option unless
`sort`. -/
def dumps (sort : Bool) (default : PyVal → Except PyError PyVal) (v : PyVal) :
    Except PyError oj.Bytes := do
  oj.encode (← v.document sort default PyVal.defaultCalls)

/-- `dumps` without a `default` function. -/
def noDefault (_ : PyVal) : Except PyError PyVal :=
  .error (.typeError "Type is not JSON serializable")

/-- Dumping a document writes it, its keys sorted on demand. -/
theorem dumps_toPy (sort : Bool) (default : PyVal → Except PyError PyVal) (j : Json) :
    oj.dumps sort default j.toPy = oj.encode (if sort then j.sortKeys else j) := by
  rw [dumps, PyVal.document_toPy]
  rfl

/-- Equal bytes were written for equal documents. -/
theorem encode_inj {j j' : Json} {b : oj.Bytes} (h : oj.encode j = .ok b)
    (h' : oj.encode j' = .ok b) : j = j' := by
  have := oj.loads_encode j b h
  rw [oj.loads_encode j' b h'] at this
  exact (Except.ok.inj this).symm

end Orjson
