import Rxon.Canon
import Rxon.Msgspec
import Rxon.Orjson

/-! # Normalization and restoring

`to_dict` writes a value with orjson, reads the bytes back and strips the result;
`from_dict` restores a declared class with msgspec; `json_dumps` and
`calculate_dict_hash` write what `to_dict` returned once more.  On a JSON document
`to_dict` is `Json.canon` within the depth limit and a `RecursionError` beyond it
(`toDict_toPy`). -/

namespace Rxon
open Json (stripped canon)

/-- The libraries this layer calls, for the classes of `D`. -/
structure Runtime (D : Decls) where
  orjson : Orjson
  msgspec : Msgspec D
  /-- `str(o)`. -/
  pyStr : PyVal → String
  /-- `sha256(message).hexdigest()`. -/
  sha256 : orjson.Bytes → String

def maxRecursionDepth : Nat := 30

def tooDeep : PyError := .recursionError "Maximum recursion depth (30) exceeded in to_dict"

mutual

/-- `_finalize_structure`: null entries of objects dropped, integral floats turned
into integers. -/
def finalizeStructure (data : Json) (depth : Nat) : Except PyError Json :=
  if maxRecursionDepth < depth then .error tooDeep
  else match data with
    | .obj kvs => (finalizeEntries kvs (depth + 1)).map .obj
    | .arr xs => (finalizeElements xs (depth + 1)).map .arr
    | .float f => .ok (if f.IsInteger then .int f.toInt else .float f)
    | j => .ok j

def finalizeElements (xs : List Json) (depth : Nat) : Except PyError (List Json) :=
  match xs with
  | [] => .ok []
  | x :: xs => do
    let y ← finalizeStructure x depth
    return y :: (← finalizeElements xs depth)

def finalizeEntries (kvs : List (String × Json)) (depth : Nat) :
    Except PyError (List (String × Json)) :=
  match kvs with
  | [] => .ok []
  | (k, x) :: kvs =>
    if x.isNull then finalizeEntries kvs depth
    else do
      let y ← finalizeStructure x depth
      return (k, y) :: (← finalizeEntries kvs depth)

end

section
variable {D : Decls} (rt : Runtime D)

/-- What orjson gets for a value it cannot write itself; every exception of
`to_builtins`, and a result without entries, is answered by the text. -/
def defaultHandler (o : PyVal) : PyVal :=
  match o with
  | .struct _ _ =>
    match rt.msgspec.toBuiltins o with
    | .ok (.dict kvs) => .dict (kvs.filter fun e => e.1.toList.head? ≠ some '_')
    | _ => .str (rt.pyStr o)
  | .enum _ _ value => value
  | .coded _ _ text => .str text
  | o => .str (rt.pyStr o)

def toDict (obj : PyVal) (depth : Nat) : Except PyError Json :=
  if maxRecursionDepth < depth then .error tooDeep
  else match obj with
    | .none => .ok .null
    | obj =>
      match rt.orjson.dumps true (fun o => .ok (defaultHandler rt o)) obj with
      | .ok bytes => do finalizeStructure (← rt.orjson.loads bytes) depth
      | .error (.typeError msg) =>
        .error (if containsStr msg "Recursion limit reached" then tooDeep else .typeError msg)
      | .error e => .error e

/-- `isinstance(data, cls)`, for a declared class. -/
def isInstance (data : PyVal) (cls : String) : Bool :=
  match data with
  | .struct c _ => c.cls = cls
  | .dataclass c _ => c = cls
  | _ => false

/-- Whether `cls` is a Struct class and `data` no dict, so that `from_dict` leaves
`data` as it is. -/
def passesThrough (D : Decls) (cls : String) (data : PyVal) : Bool :=
  match D.lookup cls, data with
  | some ⟨.struct _, _⟩, .dict _ => false
  | some ⟨.struct _, _⟩, _ => true
  | _, _ => false

/-- `from_dict`; `shared` says which values given in `data` are the very objects the
classes keep as defaults. -/
def fromDict (cls : String) (data : PyVal) (shared : Sharing := .none) : Except PyError PyVal :=
  match data with
  | .none => .ok .none
  | data =>
    if isInstance data cls then .ok data
    else if passesThrough D cls data then .ok data
    else match rt.msgspec.convert shared (.cls cls) data with
      | .ok value => .ok value
      | .error e => .error (.valueError s!"Failed to instantiate {cls}: {e}")

def jsonDumps (obj : PyVal) : Except PyError rt.orjson.Bytes := do
  rt.orjson.dumps false Orjson.noDefault (← toDict rt obj 0).toPy

def calculateDictHash (obj : PyVal) : Except PyError String := do
  let message ← rt.orjson.dumps true Orjson.noDefault (← toDict rt obj 0).toPy
  return rt.sha256 message

end

/-! ## What the functions compute on documents -/

theorem finalizeElements_eq {xs : List Json} {d : Nat}
    (h : ∀ x ∈ xs, finalizeStructure x d =
      if d + x.keptDepth ≤ maxRecursionDepth then .ok (stripped x) else .error tooDeep) :
    finalizeElements xs d =
      if ∀ x ∈ xs, d + x.keptDepth ≤ maxRecursionDepth then .ok (xs.map stripped)
      else .error tooDeep := by
  induction xs with
  | nil => rfl
  | cons x xs ih =>
    obtain ⟨hx, hxs⟩ := List.forall_mem_cons.mp h
    rw [finalizeElements, hx, ih hxs]
    simp only [List.forall_mem_cons]
    by_cases h1 : d + x.keptDepth ≤ maxRecursionDepth
    · by_cases h2 : ∀ y ∈ xs, d + y.keptDepth ≤ maxRecursionDepth
      · rw [if_pos h1, if_pos h2, if_pos ⟨h1, h2⟩]; rfl
      · rw [if_pos h1, if_neg h2, if_neg fun h => h2 h.2]; rfl
    · rw [if_neg h1]; exact (if_neg fun h => h1 h.1).symm

theorem finalizeEntries_eq {kvs : List (String × Json)} {d : Nat}
    (h : ∀ e ∈ kvs, finalizeStructure e.2 d =
      if d + e.2.keptDepth ≤ maxRecursionDepth then .ok (stripped e.2) else .error tooDeep) :
    finalizeEntries kvs d =
      if ∀ e ∈ kvs, e.2.isNull = false → d + e.2.keptDepth ≤ maxRecursionDepth then
        .ok (Assoc.mapVal stripped (Json.nonNull kvs))
      else .error tooDeep := by
  induction kvs with
  | nil => rfl
  | cons e kvs ih =>
    obtain ⟨he, hkvs⟩ := List.forall_mem_cons.mp h
    rw [finalizeEntries, he, ih hkvs]
    simp only [List.forall_mem_cons, Json.nonNull, Assoc.filterVal, List.filter_cons]
    cases hn : e.2.isNull with
    | true =>
      rw [if_pos rfl]
      by_cases h2 : ∀ x ∈ kvs, x.2.isNull = false → d + x.2.keptDepth ≤ maxRecursionDepth
      · rw [if_pos h2, if_pos ⟨fun h => (by cases h), h2⟩]; rfl
      · rw [if_neg h2, if_neg fun h => h2 h.2]
    | false =>
      rw [if_neg Bool.false_ne_true]
      by_cases h1 : d + e.2.keptDepth ≤ maxRecursionDepth
      · by_cases h2 : ∀ x ∈ kvs, x.2.isNull = false → d + x.2.keptDepth ≤ maxRecursionDepth
        · rw [if_pos h1, if_pos h2, if_pos ⟨fun _ => h1, h2⟩]; rfl
        · rw [if_pos h1, if_neg h2, if_neg fun h => h2 h.2]; rfl
      · rw [if_neg h1]; exact (if_neg fun h => h1 (h.1 rfl)).symm

/-- **`_finalize_structure` strips the document when nothing it visits lies beyond
the depth limit, and fails otherwise.** -/
theorem finalizeStructure_eq (j : Json) (d : Nat) :
    finalizeStructure j d =
      if d + j.keptDepth ≤ maxRecursionDepth then .ok (stripped j) else .error tooDeep := by
  induction j generalizing d with
  | null | bool | int | float | str =>
    unfold finalizeStructure
    by_cases h : d ≤ maxRecursionDepth
    · rw [if_neg (Nat.not_lt.mpr h)]; exact (if_pos h).symm
    · rw [if_pos (Nat.lt_of_not_le h)]; exact (if_neg h).symm
  | arr xs ih =>
    unfold finalizeStructure
    by_cases h : d ≤ maxRecursionDepth
    · rw [if_neg (Nat.not_lt.mpr h)]
      simp only [finalizeElements_eq fun x hx => ih x hx (d + 1), Json.keptDepth_arr_le h,
        Json.stripped_arr]
      split <;> rfl
    · rw [if_pos (Nat.lt_of_not_le h), if_neg fun h' => h (Nat.le_trans (Nat.le_add_right _ _) h')]
  | obj kvs ih =>
    unfold finalizeStructure
    by_cases h : d ≤ maxRecursionDepth
    · rw [if_neg (Nat.not_lt.mpr h)]
      simp only [finalizeEntries_eq fun e he => ih e he (d + 1), Json.keptDepth_obj_le h,
        Json.stripped_obj]
      split <;> rfl
    · rw [if_pos (Nat.lt_of_not_le h), if_neg fun h' => h (Nat.le_trans (Nat.le_add_right _ _) h')]

variable {D : Decls} (rt : Runtime D)

/-- `to_dict` of anything but `None` starts with writing it. -/
theorem toDict_of_ne_none {v : PyVal} (hv : v ≠ .none) :
    toDict rt v 0 = match rt.orjson.dumps true (fun o => .ok (defaultHandler rt o)) v with
      | .ok bytes => do finalizeStructure (← rt.orjson.loads bytes) 0
      | .error (.typeError msg) =>
        .error (if containsStr msg "Recursion limit reached" then tooDeep else .typeError msg)
      | .error e => .error e := by
  cases v with
  | none => exact absurd rfl hv
  | bool | int | float | str | list | dict | set | struct | dataclass | enum | uuid | datetime
    | coded | object => rfl

/-- `to_dict` of a value orjson reduces to the document `j` starts with writing `j`. -/
theorem toDict_of_document {v : PyVal} {j : Json} (hv : v ≠ .none)
    (hdoc : v.document true (fun o => .ok (defaultHandler rt o)) PyVal.defaultCalls = .ok j) :
    toDict rt v 0 = match rt.orjson.encode j with
      | .ok bytes => do finalizeStructure (← rt.orjson.loads bytes) 0
      | .error (.typeError msg) =>
        .error (if containsStr msg "Recursion limit reached" then tooDeep else .typeError msg)
      | .error e => .error e := by
  have hd : rt.orjson.dumps true (fun o => .ok (defaultHandler rt o)) v = rt.orjson.encode j := by
    rw [Orjson.dumps, hdoc]; rfl
  rw [← hd, toDict_of_ne_none rt hv]

theorem finalize_written {j : Json} {b : rt.orjson.Bytes} (hb : rt.orjson.encode j = .ok b) :
    (do finalizeStructure (← rt.orjson.loads b) 0) =
      if j.keptDepth ≤ maxRecursionDepth then .ok (stripped j) else .error tooDeep := by
  rw [rt.orjson.loads_encode j b hb]
  exact (finalizeStructure_eq j 0).trans (by rw [Nat.zero_add])

theorem height_le_nesting {j : Json} (hd : j.keptDepth ≤ maxRecursionDepth) :
    j.height ≤ rt.orjson.nesting := by
  have := j.height_le_keptDepth
  have := rt.orjson.nesting_gt
  unfold maxRecursionDepth at hd
  omega

/-- What `to_dict` makes of a value whose document is `j`. -/
theorem toDict_eq {v : PyVal} {j : Json} (hv : v ≠ .none)
    (hdoc : v.document true (fun o => .ok (defaultHandler rt o)) PyVal.defaultCalls = .ok j)
    (hi : j.IntsFit) :
    toDict rt v 0 =
      if j.keptDepth ≤ maxRecursionDepth then .ok (stripped j) else .error tooDeep := by
  rw [toDict_of_document rt hv hdoc]
  by_cases hh : j.height ≤ rt.orjson.nesting
  · obtain ⟨b, hb⟩ := rt.orjson.encode_ok j hi hh
    rw [hb]
    exact finalize_written rt hb
  · obtain ⟨msg, he, hmsg⟩ := rt.orjson.encode_deep j (Nat.lt_of_not_le hh)
    rw [he, if_neg fun hk => hh (height_le_nesting rt hk)]
    simp only [hmsg hi, if_true]

/-- `to_dict` returns exactly when the integers can be written and nothing lies
beyond the depth limit. -/
theorem toDict_eq_ok {v : PyVal} {j x : Json} (hv : v ≠ .none)
    (hdoc : v.document true (fun o => .ok (defaultHandler rt o)) PyVal.defaultCalls = .ok j) :
    toDict rt v 0 = .ok x ↔ j.IntsFit ∧ j.keptDepth ≤ maxRecursionDepth ∧ x = stripped j := by
  by_cases hi : j.IntsFit
  · rw [toDict_eq rt hv hdoc hi]
    split
    · rename_i hk
      exact ⟨fun h => ⟨hi, hk, (Except.ok.inj h).symm⟩, fun h => by rw [h.2.2]⟩
    · rename_i hk
      exact ⟨nofun, fun h => absurd h.2.1 hk⟩
  · refine ⟨fun h => ?_, fun h => absurd h.1 hi⟩
    rw [toDict_of_document rt hv hdoc] at h
    by_cases hh : j.height ≤ rt.orjson.nesting
    · rw [rt.orjson.encode_range j hi hh] at h
      cases h
    · obtain ⟨msg, he, -⟩ := rt.orjson.encode_deep j (Nat.lt_of_not_le hh)
      rw [he] at h
      cases h

/-- **`to_dict` of a document is its normal form when no value other than a null
entry lies deeper than the limit, and a `RecursionError` otherwise.** -/
theorem toDict_toPy {j : Json} (hj : j.WF) (hi : j.IntsFit) :
    toDict rt j.toPy 0 =
      if j.keptDepth ≤ maxRecursionDepth then .ok (canon j) else .error tooDeep := by
  by_cases h0 : j = .null
  · subst h0; rfl
  have hv : j.toPy ≠ .none := by
    cases j <;> simp_all [Json.toPy]
  rw [toDict_eq rt hv (PyVal.document_toPy _ _ _ j) (by simpa [Json.intsFit_sortKeys]),
    if_pos rfl, Json.keptDepth_sortKeys, Json.stripped_sortKeys hj]

theorem toDict_ok {j : Json} (hj : j.WF) (hi : j.IntsFit) (hd : j.keptDepth ≤ maxRecursionDepth) :
    toDict rt j.toPy 0 = .ok (canon j) := by
  rw [toDict_toPy rt hj hi, if_pos hd]

/-- Writing a document of bounded depth fails exactly on the integers beyond 64
bits. -/
theorem encode_isOk_iff {j : Json} (hd : j.keptDepth ≤ maxRecursionDepth) :
    (∃ b, rt.orjson.encode j = .ok b) ↔ j.IntsFit := by
  have hh := height_le_nesting rt hd
  constructor
  · rintro ⟨b, hb⟩
    by_contra hi
    rw [rt.orjson.encode_range j hi hh] at hb
    cases hb
  · exact fun hi => rt.orjson.encode_ok j hi hh

/-! ## from_dict -/

/-- `from_dict` of an object converts it to the class. -/
theorem fromDict_obj {c : String} {kvs : List (String × Json)} {v : PyVal} {S : Sharing} :
    fromDict rt c (Json.obj kvs).toPy S = .ok v ↔
      rt.msgspec.convert S (.cls c) (Json.obj kvs).toPy = .ok v := by
  rw [Json.toPy_obj]
  have hpass : passesThrough D c (.dict (Assoc.mapVal Json.toPy kvs)) = false := by
    unfold passesThrough
    split <;> simp_all
  simp only [fromDict, isInstance, hpass, Bool.false_eq_true, if_false]
  cases rt.msgspec.convert S (.cls c) (.dict (Assoc.mapVal Json.toPy kvs)) with
  | ok r => rw [Except.ok.injEq, Except.ok.injEq]
  | error e => simp

/-- For a Struct class, `from_dict` leaves a document that is no object as it is. -/
theorem fromDict_of_not_obj {c : String} {b : Bool} {fields : List FieldDecl}
    (hdecl : D.lookup c = some ⟨.struct b, fields⟩) {d : Json} (hd : ∀ kvs, d ≠ .obj kvs)
    {S : Sharing} : fromDict rt c d.toPy S = .ok d.toPy := by
  cases d with
  | obj kvs => exact absurd rfl (hd kvs)
  | null => rfl
  | bool | int | float | str | arr => simp [Json.toPy, fromDict, isInstance, passesThrough, hdecl]

end Rxon
