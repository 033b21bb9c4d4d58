import Rxon.Written

/-! # What to_dict makes of a value

Two encoders share the work: orjson takes lists, dicts, enum members, UUIDs and datetimes
itself and asks the default handler for the rest, which hands a Struct to msgspec as a
whole.  Inside a Struct it is msgspec that sees a set or a datetime, and private fields
are dropped from the outermost Struct only; one object that msgspec does not know turns
all of the Struct into a text.

`built` is the document msgspec makes and `content` the one that is written;
`to_dict` returns the normal form of the content, within the limits (`toDict_content`). -/

/-- Whether a name is private. -/
def isPrivate (name : String) : Bool := decide (name.toList.head? = some '_')

namespace PyVal

/-- Values of Structs, lists and dicts, and of leaves of any kind; names are distinct. -/
inductive Encodable : PyVal → Prop
  | none : Encodable .none
  | bool (b : Bool) : Encodable (.bool b)
  | int (i : Int) : Encodable (.int i)
  | float (x : PyFloat) : Encodable (.float x)
  | str (s : String) : Encodable (.str s)
  | uuid (s : String) : Encodable (.uuid s)
  | datetime (clock offset : String) : Encodable (.datetime clock offset)
  | coded (kind : CodedKind) (code text : String) : Encodable (.coded kind code text)
  | object (i : Nat) : Encodable (.object i)
  | enum {v : PyVal} (c m : String) (h : Encodable v) : Encodable (.enum c m v)
  | list {xs : List PyVal} (h : ∀ x ∈ xs, Encodable x) : Encodable (.list xs)
  | set {xs : List PyVal} (frozen : Bool) (h : ∀ x ∈ xs, Encodable x) :
      Encodable (.set frozen xs)
  | dict {kvs : List (String × PyVal)} (hunique : Assoc.Unique kvs)
      (h : ∀ e ∈ kvs, Encodable e.2) : Encodable (.dict kvs)
  | struct {fs : List (String × PyVal)} (c : StructHead) (hunique : Assoc.Unique fs)
      (h : ∀ e ∈ fs, Encodable e.2) : Encodable (.struct c fs)

section
variable (D : Decls)

mutual

/-- Whether msgspec knows all that it meets in the value. -/
def known : PyVal → Bool
  | .object _ => false
  | .list xs | .set _ xs => knownList xs
  | .dict kvs | .dataclass _ kvs => knownEntries kvs
  | .struct c fs => knownFields c fs
  | .enum _ _ v => known v
  | _ => true

def knownList : List PyVal → Bool
  | [] => true
  | x :: xs => known x && knownList xs

def knownEntries : List (String × PyVal) → Bool
  | [] => true
  | (_, x) :: kvs => known x && knownEntries kvs

def knownFields (c : StructHead) : List (String × PyVal) → Bool
  | [] => true
  | (k, x) :: fs => (D.omits c k x || known x) && knownFields c fs

end

mutual

/-- The document of a value that msgspec encodes, with the private fields of its Structs
or without. -/
def built (keep : Bool) : PyVal → Json
  | .none => .null
  | .bool b => .bool b
  | .int i => .int i
  | .float (.finite f) => .float f
  | .float _ => .null
  | .str s | .uuid s => .str s
  | .list xs | .set _ xs => .arr (builtList keep xs)
  | .dict kvs | .dataclass _ kvs => .obj (builtEntries keep kvs)
  | .struct c fs => .obj (builtFields keep c fs)
  | .enum _ _ v => built keep v
  | .datetime clock offset => .str (clock ++ if offset = "+00:00" then "Z" else offset)
  | .coded _ code _ => .str code
  | .object _ => .null

def builtList (keep : Bool) : List PyVal → List Json
  | [] => []
  | x :: xs => built keep x :: builtList keep xs

def builtEntries (keep : Bool) : List (String × PyVal) → List (String × Json)
  | [] => []
  | (k, x) :: kvs => (k, built keep x) :: builtEntries keep kvs

def builtFields (keep : Bool) (c : StructHead) :
    List (String × PyVal) → List (String × Json)
  | [] => []
  | (k, x) :: fs =>
    if D.omits c k x || !keep && isPrivate k then builtFields keep c fs
    else (k, built keep x) :: builtFields keep c fs

end

/-- The fields of a Struct that are written when it is handed on as a dict. -/
def publicKept (c : StructHead) (fs : List (String × PyVal)) : List (String × PyVal) :=
  (D.kept c fs).filter fun e => !isPrivate e.1

theorem publicKept_sublist {c : StructHead} {fs : List (String × PyVal)} :
    (publicKept D c fs).Sublist fs :=
  List.filter_sublist.trans List.filter_sublist

variable (pyStr : PyVal → String)

mutual

/-- The document of a value that orjson is given, if there are no dataclasses, whose
fields orjson does not sort. -/
def content : PyVal → Json
  | .none => .null
  | .bool b => .bool b
  | .int i => .int i
  | .float (.finite f) => .float f
  | .float _ => .null
  | .str s | .uuid s => .str s
  | .list xs => .arr (contentList xs)
  | .dict kvs => .obj (contentEntries kvs)
  | .enum _ _ v => content v
  | .datetime clock offset => .str (clock ++ offset)
  | .coded _ _ text => .str text
  | .struct c fs =>
    if known D (.struct c fs) then .obj (Assoc.mapVal (built D true) (publicKept D c fs))
    else .str (pyStr (.struct c fs))
  | .set frozen xs => .str (pyStr (.set frozen xs))
  | .object i => .str (pyStr (.object i))
  -- no part of these values
  | .dataclass _ _ => .null

def contentList : List PyVal → List Json
  | [] => []
  | x :: xs => content x :: contentList xs

def contentEntries : List (String × PyVal) → List (String × Json)
  | [] => []
  | (k, x) :: kvs => (k, content x) :: contentEntries kvs

end

end

section
variable {D : Decls} {keep : Bool} {pyStr : PyVal → String} {c : StructHead} {xs : List PyVal}
  {kvs fs : List (String × PyVal)}

theorem knownList_iff : knownList D xs = true ↔ ∀ x ∈ xs, known D x = true :=
  List.forall_iff_of_cons rfl (fun _ _ => rfl) xs

theorem knownEntries_iff : knownEntries D kvs = true ↔ ∀ e ∈ kvs, known D e.2 = true :=
  List.forall_iff_of_cons rfl (fun _ _ => rfl) kvs

theorem knownFields_iff : knownFields D c fs = true ↔ ∀ e ∈ D.kept c fs, known D e.2 = true := by
  induction fs with
  | nil => simp [knownFields, Decls.kept]
  | cons e fs ih =>
    rw [knownFields, Bool.and_eq_true, ih, Decls.kept, Decls.kept, List.filter_cons]
    cases D.omits c e.1 e.2 <;> simp

theorem builtList_eq : builtList D keep xs = xs.map (built D keep) :=
  List.eq_map_of_cons rfl (fun _ _ => rfl) xs

theorem builtEntries_eq : builtEntries D keep kvs = Assoc.mapVal (built D keep) kvs :=
  List.eq_map_of_cons rfl (fun _ _ => rfl) kvs

theorem builtFields_eq : builtFields D keep c fs =
    Assoc.mapVal (built D keep) ((D.kept c fs).filter fun e => keep || !isPrivate e.1) := by
  induction fs with
  | nil => rfl
  | cons e fs ih =>
    rw [builtFields, ih, Decls.kept, Decls.kept, List.filter_cons]
    cases D.omits c e.1 e.2 <;> cases keep <;> cases hp : isPrivate e.1 <;> simp [hp]

theorem contentList_eq : contentList D pyStr xs = xs.map (content D pyStr) :=
  List.eq_map_of_cons rfl (fun _ _ => rfl) xs

theorem contentEntries_eq :
    contentEntries D pyStr kvs = Assoc.mapVal (content D pyStr) kvs :=
  List.eq_map_of_cons rfl (fun _ _ => rfl) kvs

theorem content_list (pyStr : PyVal → String) (xs : List PyVal) :
    content D pyStr (.list xs) = .arr (xs.map (content D pyStr)) := by
  rw [content, contentList_eq]

theorem content_dict (pyStr : PyVal → String) (kvs : List (String × PyVal)) :
    content D pyStr (.dict kvs) = .obj (Assoc.mapVal (content D pyStr) kvs) := by
  rw [content, contentEntries_eq]

theorem content_struct (pyStr : PyVal → String) (h : known D (.struct c fs) = true) :
    content D pyStr (.struct c fs) = .obj (Assoc.mapVal (built D true) (publicKept D c fs)) :=
  if_pos h

theorem content_struct_unknown (pyStr : PyVal → String) (h : ¬ known D (.struct c fs) = true) :
    content D pyStr (.struct c fs) = .str (pyStr (.struct c fs)) :=
  if_neg h

end

/-! ## msgspec -/

section
variable {D : Decls} {ε : Type} {f : PyVal → Except ε PyVal} {xs : List PyVal}
  {kvs : List (String × PyVal)}

theorem mapM_error {x : PyVal} (hx : x ∈ xs) (h : ∃ e, f x = .error e) :
    ∃ e, xs.mapM f = .error e := by
  induction xs with
  | nil => cases hx
  | cons y ys ih =>
    rw [List.mapM_cons]
    cases hy : f y with
    | error e => exact ⟨e, rfl⟩
    | ok z =>
      rcases List.mem_cons.mp hx with rfl | hx
      · obtain ⟨e, he⟩ := h
        rw [hy] at he
        cases he
      · obtain ⟨e, he⟩ := ih hx
        exact ⟨e, by rw [he]; rfl⟩

theorem mapValM_error {d : String × PyVal} (hd : d ∈ kvs) (h : ∃ e, f d.2 = .error e) :
    ∃ e, Assoc.mapValM f kvs = .error e := by
  induction kvs with
  | nil => cases hd
  | cons y ys ih =>
    obtain ⟨k, y⟩ := y
    rw [Assoc.mapValM]
    cases hy : f y with
    | error e => exact ⟨e, rfl⟩
    | ok z =>
      rcases List.mem_cons.mp hd with rfl | hd
      · obtain ⟨e, he⟩ := h
        dsimp only at he
        rw [hy] at he
        cases he
      · obtain ⟨e, he⟩ := ih hd
        exact ⟨e, by rw [he]; rfl⟩

/-- What msgspec does not know it does not encode. -/
theorem toBuiltins_error (ms : Msgspec D) {v : PyVal} (h : known D v = false) :
    ∃ e, ms.toBuiltins v = .error e := by
  have hnot {p : Bool} {q : Prop} (hp : p = false) (hiff : p = true ↔ q) : ¬ q := by
    rw [← hiff, hp]
    exact Bool.false_ne_true
  induction v with
  | none | bool | int | float | str | uuid | datetime | coded => cases h
  | object i => exact ms.toBuiltins_object i
  | enum c m v ih =>
    rw [ms.toBuiltins_enum]
    exact ih h
  | list xs ih =>
    obtain ⟨x, hx, hknown⟩ := by simpa using hnot h knownList_iff
    obtain ⟨e, he⟩ := mapM_error hx (ih x hx hknown)
    exact ⟨e, by rw [ms.toBuiltins_list, he]; rfl⟩
  | set frozen xs ih =>
    obtain ⟨x, hx, hknown⟩ := by simpa using hnot h knownList_iff
    obtain ⟨e, he⟩ := mapM_error hx (ih x hx hknown)
    exact ⟨e, by rw [ms.toBuiltins_set, he]; rfl⟩
  | dict kvs ih =>
    obtain ⟨k, x, hx, hknown⟩ := by simpa using hnot h knownEntries_iff
    obtain ⟨e, he⟩ := mapValM_error hx (ih (k, x) hx hknown)
    exact ⟨e, by rw [ms.toBuiltins_dict, he]; rfl⟩
  | dataclass c fs ih =>
    obtain ⟨k, x, hx, hknown⟩ := by simpa using hnot h knownEntries_iff
    obtain ⟨e, he⟩ := mapValM_error hx (ih (k, x) hx hknown)
    exact ⟨e, by rw [ms.toBuiltins_dataclass, he]; rfl⟩
  | struct c fs ih =>
    obtain ⟨k, x, hx, hknown⟩ := by simpa using hnot h knownFields_iff
    obtain ⟨e, he⟩ := mapValM_error hx (ih (k, x) (List.mem_of_mem_filter hx) hknown)
    exact ⟨e, by rw [ms.toBuiltins_struct, he]; rfl⟩

/-- Plain data that are written as the document, whatever foreign parts become. -/
def WrittenAs (w : PyVal) (j : Json) : Prop :=
  ∀ foreign, documentWith true foreign w = .ok j.sortKeys

theorem writtenAs_list {g : PyVal → PyVal} {d : PyVal → Json}
    (h : ∀ x ∈ xs, WrittenAs (g x) (d x)) : WrittenAs (.list (xs.map g)) (.arr (xs.map d)) := by
  intro foreign
  have helements : documentElements true foreign (xs.map g) =
      .ok ((xs.map d).map Json.sortKeys) := by
    induction xs with
    | nil => rfl
    | cons x xs ih =>
      obtain ⟨hx, hxs⟩ := List.forall_mem_cons.mp h
      rw [List.map_cons, documentElements, hx, ih hxs]
      rfl
  rw [documentWith, helements, Json.sortKeys_arr]
  rfl

theorem writtenAs_dict {g : PyVal → PyVal} {d : PyVal → Json}
    (h : ∀ e ∈ kvs, WrittenAs (g e.2) (d e.2)) :
    WrittenAs (.dict (Assoc.mapVal g kvs)) (.obj (Assoc.mapVal d kvs)) := by
  intro foreign
  have hentries : documentEntries true foreign (Assoc.mapVal g kvs) =
      .ok (Assoc.mapVal Json.sortKeys (Assoc.mapVal d kvs)) := by
    induction kvs with
    | nil => rfl
    | cons e kvs ih =>
      obtain ⟨he, hkvs⟩ := List.forall_mem_cons.mp h
      rw [Assoc.mapVal_cons, documentEntries, he, ih hkvs]
      rfl
  rw [documentWith, hentries, Json.sortKeys_obj]
  rfl

/-- An object that msgspec makes of entries that it encodes. -/
theorem mapValM_built {keep : Bool} (ms : Msgspec D)
    (h : ∀ e ∈ kvs, ∃ w, ms.toBuiltins e.2 = .ok w ∧ WrittenAs w (built D keep e.2)) :
    ∃ g : PyVal → PyVal, Assoc.mapValM ms.toBuiltins kvs = .ok (Assoc.mapVal g kvs) ∧
      ∀ e ∈ kvs, WrittenAs (g e.2) (built D keep e.2) := by
  obtain ⟨g, hg⟩ :=
    exists_entries (P := fun x w => ms.toBuiltins x = .ok w ∧ WrittenAs w (built D keep x)) h
  exact ⟨g, mapValM_eq_ok fun e he => (hg e he).1, fun e he => (hg e he).2⟩

theorem mapM_built {keep : Bool} (ms : Msgspec D)
    (h : ∀ x ∈ xs, ∃ w, ms.toBuiltins x = .ok w ∧ WrittenAs w (built D keep x)) :
    ∃ g : PyVal → PyVal, xs.mapM ms.toBuiltins = .ok (xs.map g) ∧
      ∀ x ∈ xs, WrittenAs (g x) (built D keep x) := by
  obtain ⟨g, hg⟩ :=
    exists_elements (P := fun x w => ms.toBuiltins x = .ok w ∧ WrittenAs w (built D keep x)) h
  exact ⟨g, mapM_eq_ok fun x hx => (hg x hx).1, fun x hx => (hg x hx).2⟩

theorem built_list (keep : Bool) (xs : List PyVal) :
    built D keep (.list xs) = .arr (xs.map (built D keep)) := by
  rw [built, builtList_eq]

theorem built_set (keep frozen : Bool) (xs : List PyVal) :
    built D keep (.set frozen xs) = .arr (xs.map (built D keep)) := by
  rw [built, builtList_eq]

theorem built_dict (keep : Bool) (kvs : List (String × PyVal)) :
    built D keep (.dict kvs) = .obj (Assoc.mapVal (built D keep) kvs) := by
  rw [built, builtEntries_eq]

theorem built_struct (keep : Bool) (c : StructHead) (fs : List (String × PyVal)) :
    built D keep (.struct c fs) =
      .obj (Assoc.mapVal (built D keep)
        ((D.kept c fs).filter fun e => keep || !isPrivate e.1)) := by
  rw [built, builtFields_eq]

theorem built_struct_true (c : StructHead) (fs : List (String × PyVal)) :
    built D true (.struct c fs) = .obj (Assoc.mapVal (built D true) (D.kept c fs)) := by
  have hall : (D.kept c fs).filter (fun e => true || !isPrivate e.1) = D.kept c fs :=
    List.filter_eq_self.mpr fun _ _ => rfl
  rw [built_struct, hall]

/-- **What msgspec knows it encodes**, and orjson then writes. -/
theorem toBuiltins_built (ms : Msgspec D) {v : PyVal} (h : known D v = true) :
    ∃ w, ms.toBuiltins v = .ok w ∧ WrittenAs w (built D true v) := by
  induction v with
  | none => exact ⟨_, ms.toBuiltins_none, fun _ => rfl⟩
  | bool b => exact ⟨_, ms.toBuiltins_bool b, fun _ => rfl⟩
  | int i => exact ⟨_, ms.toBuiltins_int i, fun _ => rfl⟩
  | float x => exact ⟨_, ms.toBuiltins_float x, fun _ => by cases x <;> rfl⟩
  | str s => exact ⟨_, ms.toBuiltins_str s, fun _ => rfl⟩
  | uuid s => exact ⟨_, ms.toBuiltins_uuid s, fun _ => rfl⟩
  | datetime clock offset => exact ⟨_, ms.toBuiltins_datetime clock offset, fun _ => rfl⟩
  | coded kind code text => exact ⟨_, ms.toBuiltins_coded kind code text, fun _ => rfl⟩
  | object i => cases h
  | enum c m v ih =>
    obtain ⟨w, hw, hwritten⟩ := ih h
    exact ⟨w, (ms.toBuiltins_enum c m v).trans hw, hwritten⟩
  | list xs ih =>
    obtain ⟨g, hg, hwritten⟩ := mapM_built ms fun x hx => ih x hx (knownList_iff.mp h x hx)
    refine ⟨_, by rw [ms.toBuiltins_list, hg]; rfl, ?_⟩
    rw [built_list]
    exact writtenAs_list hwritten
  | set frozen xs ih =>
    obtain ⟨g, hg, hwritten⟩ := mapM_built ms fun x hx => ih x hx (knownList_iff.mp h x hx)
    refine ⟨_, by rw [ms.toBuiltins_set, hg]; rfl, ?_⟩
    rw [built_set]
    exact writtenAs_list hwritten
  | dict kvs ih =>
    obtain ⟨g, hg, hwritten⟩ := mapValM_built ms fun e he => ih e he (knownEntries_iff.mp h e he)
    refine ⟨_, by rw [ms.toBuiltins_dict, hg]; rfl, ?_⟩
    rw [built_dict]
    exact writtenAs_dict hwritten
  | dataclass c fs ih =>
    obtain ⟨g, hg, hwritten⟩ := mapValM_built ms fun e he => ih e he (knownEntries_iff.mp h e he)
    refine ⟨_, by rw [ms.toBuiltins_dataclass, hg]; rfl, ?_⟩
    rw [built, builtEntries_eq]
    exact writtenAs_dict hwritten
  | struct c fs ih =>
    have hkept : ∀ e ∈ D.kept c fs, ∃ w, ms.toBuiltins e.2 = .ok w ∧
        WrittenAs w (built D true e.2) := fun e he =>
      ih e (List.mem_of_mem_filter he) (knownFields_iff.mp h e he)
    obtain ⟨g, hg, hwritten⟩ := mapValM_built ms hkept
    refine ⟨_, by rw [ms.toBuiltins_struct, hg]; rfl, ?_⟩
    rw [built_struct_true]
    exact writtenAs_dict hwritten

end

end PyVal

section
open PyVal (known built content publicKept)

namespace Rxon

section
variable {D : Decls} (rt : Runtime D) {v : PyVal}

/-- A Struct is handed on as its public fields, or as a text. -/
theorem defaultHandler_content (c : StructHead) (fs : List (String × PyVal)) :
    PyVal.WrittenAs (defaultHandler rt (.struct c fs)) (content D rt.pyStr (.struct c fs)) := by
  by_cases hknown : known D (.struct c fs) = true
  · rw [PyVal.content_struct rt.pyStr hknown]
    have hkept : ∀ e ∈ D.kept c fs, ∃ w, rt.msgspec.toBuiltins e.2 = .ok w ∧
        PyVal.WrittenAs w (built D true e.2) := fun e he =>
      PyVal.toBuiltins_built rt.msgspec (PyVal.knownFields_iff.mp hknown e he)
    obtain ⟨g, hg, hwritten⟩ := PyVal.mapValM_built rt.msgspec hkept
    have hhandler : defaultHandler rt (.struct c fs) =
        .dict (Assoc.mapVal g (publicKept D c fs)) := by
      simp only [defaultHandler, rt.msgspec.toBuiltins_struct, hg, Except.map, Assoc.mapVal,
        List.filter_map, publicKept]
      congr 2
      refine List.filter_congr fun e _ => ?_
      simp [isPrivate]
    rw [hhandler]
    exact PyVal.writtenAs_dict fun e he => hwritten e (List.mem_of_mem_filter he)
  · rw [PyVal.content_struct_unknown rt.pyStr hknown]
    rw [Bool.not_eq_true] at hknown
    obtain ⟨e, he⟩ := PyVal.toBuiltins_error rt.msgspec hknown
    have hhandler : defaultHandler rt (.struct c fs) = .str (rt.pyStr (.struct c fs)) := by
      simp only [defaultHandler, he]
    rw [hhandler]
    exact fun _ => rfl

/-- A Struct is written as its content, whatever its fields hold. -/
theorem document_struct_content (c : StructHead) (fs : List (String × PyVal)) (calls : Nat) :
    (PyVal.struct c fs).document true (fun o => .ok (defaultHandler rt o)) (calls + 1) =
      .ok (content D rt.pyStr (.struct c fs)).sortKeys := by
  rw [PyVal.document_struct]
  change PyVal.document true _ calls (defaultHandler rt (.struct c fs)) = _
  cases calls with
  | zero => exact defaultHandler_content rt c fs _
  | succ calls => exact defaultHandler_content rt c fs _

/-- **What orjson writes is the content of the value.** -/
theorem document_content (h : PyVal.Encodable v) (calls : Nat) :
    v.document true (fun o => .ok (defaultHandler rt o)) (calls + 1) =
      .ok (content D rt.pyStr v).sortKeys := by
  unfold PyVal.document
  induction h with
  | none | bool | int | str | uuid | datetime => rfl
  | float x => cases x <;> rfl
  | coded | object => cases calls <;> rfl
  | set frozen _ _ => cases calls <;> rfl
  | enum c m _ ih => exact ih
  | @list xs _ ih =>
    have hg : ∀ x ∈ xs, PyVal.documentWith true _ x =
        .ok ((Json.sortKeys ∘ content D rt.pyStr) x) := ih
    rw [PyVal.documentWith, PyVal.documentElements_eq_ok hg, PyVal.content_list,
      Json.sortKeys_arr, List.map_map]
    rfl
  | @dict kvs _ _ ih =>
    have hg : ∀ e ∈ kvs, PyVal.documentWith true _ e.2 =
        .ok ((Json.sortKeys ∘ content D rt.pyStr) e.2) := ih
    rw [PyVal.documentWith, PyVal.documentEntries_eq_ok hg, PyVal.content_dict,
      Json.sortKeys_obj, Assoc.mapVal, Assoc.mapVal, Assoc.mapVal, List.map_map]
    rfl
  | @struct fs c _ _ _ => exact document_struct_content rt c fs calls

theorem wf_mapVal {f : PyVal → Json} {kvs : List (String × PyVal)} (hunique : Assoc.Unique kvs)
    (h : ∀ e ∈ kvs, (f e.2).WF) : (Json.obj (Assoc.mapVal f kvs)).WF :=
  Json.wf_obj.mpr ⟨Assoc.unique_mapVal.mpr hunique, List.forall_mem_map.mpr h⟩

theorem wf_map {f : PyVal → Json} {xs : List PyVal} (h : ∀ x ∈ xs, (f x).WF) :
    (Json.arr (xs.map f)).WF :=
  Json.wf_arr.mpr (List.forall_mem_map.mpr h)

theorem wf_built (h : PyVal.Encodable v) (keep : Bool) : (built D keep v).WF := by
  induction h with
  | none => exact Json.wf_null
  | bool b => exact Json.wf_bool b
  | int i => exact Json.wf_int i
  | float x =>
    cases x with
    | finite f => exact Json.wf_float f
    | inf | nan => exact Json.wf_null
  | str s | uuid s => exact Json.wf_str s
  | datetime | coded => exact Json.wf_str _
  | object => exact Json.wf_null
  | enum c m _ ih => exact ih
  | list _ ih =>
    rw [PyVal.built_list]
    exact wf_map ih
  | set frozen _ ih =>
    rw [PyVal.built_set]
    exact wf_map ih
  | dict hunique _ ih =>
    rw [PyVal.built_dict]
    exact wf_mapVal hunique ih
  | @struct fs c hunique _ ih =>
    rw [PyVal.built_struct]
    refine wf_mapVal ((hunique.sublist List.filter_sublist).sublist List.filter_sublist) ?_
    exact fun e he => ih e (List.mem_of_mem_filter (List.mem_of_mem_filter he))

theorem wf_content (h : PyVal.Encodable v) (pyStr : PyVal → String) : (content D pyStr v).WF := by
  induction h with
  | none => exact Json.wf_null
  | bool b => exact Json.wf_bool b
  | int i => exact Json.wf_int i
  | float x =>
    cases x with
    | finite f => exact Json.wf_float f
    | inf | nan => exact Json.wf_null
  | str s | uuid s => exact Json.wf_str s
  | datetime | coded | object | set => exact Json.wf_str _
  | enum c m _ ih => exact ih
  | list _ ih =>
    rw [PyVal.content_list]
    exact wf_map ih
  | dict hunique _ ih =>
    rw [PyVal.content_dict]
    exact wf_mapVal hunique ih
  | @struct fs c hunique h _ =>
    by_cases hknown : known D (.struct c fs) = true
    · rw [PyVal.content_struct pyStr hknown]
      refine wf_mapVal (hunique.sublist (PyVal.publicKept_sublist D)) fun e he => ?_
      exact wf_built (h e ((PyVal.publicKept_sublist D).subset he)) true
    · rw [PyVal.content_struct_unknown pyStr hknown]
      exact Json.wf_str _

/-- **`to_dict` returns the normal form of the content**, if its integers fit and nothing
lies beyond the depth limit. -/
theorem toDict_content (h : PyVal.Encodable v) {x : Json} :
    toDict rt v 0 = .ok x ↔ (content D rt.pyStr v).IntsFit ∧
      (content D rt.pyStr v).keptDepth ≤ maxRecursionDepth ∧
        x = Json.canon (content D rt.pyStr v) := by
  by_cases hv : v = .none
  · subst hv
    have hnone : Json.null.IntsFit ∧ Json.null.keptDepth ≤ maxRecursionDepth := by decide
    exact ⟨fun hx => ⟨hnone.1, hnone.2, (Except.ok.inj hx).symm⟩, fun hx => by rw [hx.2.2]; rfl⟩
  · rw [toDict_eq_ok rt hv (document_content rt h 253), Json.intsFit_sortKeys,
      Json.keptDepth_sortKeys, Json.stripped_sortKeys (wf_content h rt.pyStr)]

end
end Rxon

end
