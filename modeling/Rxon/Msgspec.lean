import Rxon.TypeDecl
import Mathlib.Data.List.Forall2

/-! # msgspec

What RXON relies on of `msgspec.to_builtins` and `msgspec.convert`, for the classes
of a declaration table.  `to_builtins` turns Structs, dataclasses, enum members and
UUIDs into plain data, leaving out of an `omit_defaults` Struct the fields that
hold the object kept as their default, and raises on an object it does not know.
`convert` accepts a document exactly when it can be read at the declared type
(`Reads`) and returns such a reading.  A field that is not given is filled in with the
object kept as the default; whether a value that is given can be that object too depends
on where the document comes from, and is a parameter (`Sharing`). -/

namespace Assoc
variable {κ α β ε : Type}

/-- Apply a function that may fail to every value. -/
def mapValM (f : α → Except ε β) : List (κ × α) → Except ε (List (κ × β))
  | [] => .ok []
  | (k, v) :: l => do return (k, ← f v) :: (← mapValM f l)

end Assoc

/-- A step into a document. -/
inductive Place where
  | key (name : String)
  | item (i : Nat)
deriving DecidableEq

/-- The places of a document whose values, where they equal the default of the field that they
are read for, are the very object kept as the default: a text of the program may be one object
with it. -/
abbrev Sharing := List Place → Bool

namespace Sharing

/-- What `loads` returns has objects of its own. -/
def none : Sharing := fun _ => false

/-- What is shared by the value at a place. -/
def under (S : Sharing) (place : Place) : Sharing := fun path => S (place :: path)

@[simp] theorem none_under (place : Place) : none.under place = none := rfl

end Sharing

/-- The head of an instance restored from an object with these entries. -/
def StructHead.restored (S : Sharing) (cls : String) (fields : List FieldDecl)
    (kvs : List (String × Json)) : StructHead where
  cls := cls
  defaulted := (fields.map FieldDecl.name).filter fun k => (kvs.lookup k).isNone || S [.key k]

@[simp] theorem StructHead.restored_cls (S : Sharing) (cls : String) (fields : List FieldDecl)
    (kvs : List (String × Json)) : (StructHead.restored S cls fields kvs).cls = cls := rfl

theorem StructHead.contains_restored {S : Sharing} {cls : String} {fields : List FieldDecl}
    {kvs : List (String × Json)} {f : FieldDecl} (hf : f ∈ fields) :
    (StructHead.restored S cls fields kvs).defaulted.contains f.name =
      ((kvs.lookup f.name).isNone || S [.key f.name]) := by
  rw [Bool.eq_iff_iff, List.contains_iff_mem, StructHead.restored, List.mem_filter]
  exact and_iff_right (List.mem_map_of_mem hf)

/-- `Reads D S t d r`: the document `d`, read at type `t`, can be the value `r`.  An
integer read as a float becomes the nearest double, so a double of its value when
there is one. -/
inductive Reads (D : Decls) : Sharing → Ty → Json → PyVal → Prop
  | any {S : Sharing} (d : Json) : Reads D S .any d d.toPy
  | none {S : Sharing} : Reads D S .none .null .none
  | bool {S : Sharing} (b : Bool) : Reads D S .bool (.bool b) (.bool b)
  | int {S : Sharing} (i : Int) : Reads D S .int (.int i) (.int i)
  | str {S : Sharing} (s : String) : Reads D S .str (.str s) (.str s)
  | float {S : Sharing} (f : Binary64) : Reads D S .float (.float f) (.float (.finite f))
  | floatOfInt {S : Sharing} (i : Int) (g : Binary64) (hi : Binary64.InRange i)
      (h : ∀ f : Binary64, f.Holds i → g.Holds i) :
      Reads D S .float (.int i) (.float (.finite g))
  | list {S : Sharing} (t : Ty) (xs : List Json) (rs : List PyVal) (hlen : xs.length = rs.length)
      (h : ∀ i x r, xs[i]? = some x → rs[i]? = some r → Reads D (S.under (.item i)) t x r) :
      Reads D S (.list t) (.arr xs) (.list rs)
  | dict {S : Sharing} (t : Ty) (kvs : List (String × Json)) (rs : List (String × PyVal))
      (hkeys : Assoc.keys kvs = Assoc.keys rs)
      (h : ∀ p ∈ kvs.zip rs, Reads D (S.under (.key p.1.1)) t p.1.2 p.2.2) :
      Reads D S (.dict t) (.obj kvs) (.dict rs)
  | struct {S : Sharing} (c : String) (omitDefaults : Bool) (fields : List FieldDecl)
      (kvs : List (String × Json)) (rs : List (String × PyVal))
      (hdecl : D.lookup c = some ⟨.struct omitDefaults, fields⟩)
      (hnames : fields.map FieldDecl.name = Assoc.keys rs)
      (hgiven : ∀ p ∈ fields.zip rs, ∀ v, kvs.lookup p.1.name = some v →
        Reads D (S.under (.key p.1.name)) p.1.type v p.2.2)
      (habsent : ∀ p ∈ fields.zip rs, kvs.lookup p.1.name = Option.none →
        p.1.default.make? = some p.2.2) :
      Reads D S (.cls c) (.obj kvs) (.struct (.restored S c fields kvs) rs)
  | union {S : Sharing} (t : Ty) (ts : List Ty) (d : Json) (r : PyVal) (ht : t ∈ ts)
      (h : Reads D S t d r) : Reads D S (.union ts) d r
  | annotated {S : Sharing} (t : Ty) (d : Json) (r : PyVal) (h : Reads D S t d r) :
      Reads D S (.annotated t) d r

namespace Reads
variable {D : Decls} {S : Sharing} {t a : Ty} {d : Json} {r : PyVal}

theorem of_alternative (ha : a ∈ t.alternatives) (h : Reads D S a d r) : Reads D S t d r := by
  induction t generalizing a with
  | union ts ih =>
    obtain ⟨t, ht, ha⟩ := Ty.mem_alternativesList.mp ha
    exact .union t ts d r ht (ih t ht ha h)
  | annotated t ih => exact .annotated t d r (ih ha h)
  | any | str | int | float | bool | none | uuid | enum | list | dict | cls | text | other =>
    rwa [List.mem_singleton.mp ha] at h

/-- A field of a declared class that was read from a document. -/
theorem lookup_field {c : String} {k : ClassKind} {fields : List FieldDecl}
    (h : Reads D S (.cls c) d r) (hdecl : D.lookup c = some ⟨k, fields⟩)
    {f : FieldDecl} (hf : f ∈ fields) (hu : (fields.map FieldDecl.name).Nodup) :
    ∃ kvs fs x, d = .obj kvs ∧ r = .struct (.restored S c fields kvs) fs ∧
      fs.lookup f.name = some x ∧
      ((∃ v, kvs.lookup f.name = some v ∧ Reads D (S.under (.key f.name)) f.type v x) ∨
        kvs.lookup f.name = Option.none ∧ f.default.make? = some x) := by
  cases h with
  | struct _ b fields' kvs rs hdecl' hnames hgiven habsent =>
    rw [hdecl] at hdecl'
    cases hdecl'
    obtain ⟨x, hx⟩ := FieldDecl.exists_mem_zip hnames hf
    refine ⟨kvs, rs, x.2, rfl, rfl, FieldDecl.lookup_of_mem_zip hnames hu hx, ?_⟩
    cases hv : kvs.lookup f.name with
    | none => exact Or.inr ⟨rfl, habsent _ hx hv⟩
    | some v => exact Or.inl ⟨v, rfl, hgiven _ hx v hv⟩

variable {x : PyVal} {c : String} {a : StructHead} {k : ClassKind} {fields : List FieldDecl}
  {fs : List (String × PyVal)} {f : FieldDecl}

theorem of_optional (h : Reads D S t.optional d x) : Reads D S t d x ∨ x = .none := by
  rcases h with _ | _ | _ | _ | _ | _ | _ | _ | _ | _ | ⟨_, _, _, _, ht, h⟩ | _
  rcases List.mem_cons.mp ht with rfl | ht
  · exact Or.inl h
  · obtain rfl := List.mem_singleton.mp ht
    cases h
    exact Or.inr rfl

theorem text (h : Reads D S .str d x) : ∃ s, x = .str s := by
  cases h
  exact ⟨_, rfl⟩

theorem elements (h : Reads D S (.list t) d x) :
    ∃ xs, x = .list xs ∧ ∀ y ∈ xs, ∃ S' d', Reads D S' t d' y := by
  cases h with
  | list _ ds rs hlen hrs =>
    refine ⟨rs, rfl, fun y hy => ?_⟩
    obtain ⟨d, hp⟩ := List.exists_mem_zip_right hlen hy
    obtain ⟨i, hd, hr⟩ := List.mem_zip_iff_getElem?.mp hp
    exact ⟨_, d, hrs i d y hd hr⟩

theorem entries (h : Reads D S (.dict .any) d x) :
    ∃ kvs, x = .dict kvs ∧ ∀ e ∈ kvs, ∃ j : Json, e.2 = j.toPy := by
  cases h with
  | dict _ kvs rs hkeys hrs =>
    refine ⟨rs, rfl, fun e he => ?_⟩
    obtain ⟨d, hp⟩ := List.exists_mem_zip_right (Assoc.length_eq_of_keys hkeys) he
    have hread := hrs _ hp
    dsimp only at hread
    generalize e.2 = y at hread
    cases hread
    exact ⟨_, rfl⟩

/-- A field of a `T | None` type with default `None` holds `None` or was read as a `T`. -/
theorem optional_field (h : Reads D S (.cls c) d (.struct a fs))
    (hdecl : D.lookup c = some ⟨k, fields⟩) (hf : f ∈ fields)
    (hu : (fields.map FieldDecl.name).Nodup) (ht : f.type = t.optional)
    (hdefault : f.default = .value .none) :
    ∃ x, fs.lookup f.name = some x ∧ (x = .none ∨ ∃ S' d', Reads D S' t d' x) := by
  obtain ⟨kvs, fs', x, -, hfs, hx, hfrom⟩ := h.lookup_field hdecl hf hu
  cases hfs
  refine ⟨x, hx, ?_⟩
  rcases hfrom with ⟨d', -, hd'⟩ | ⟨-, hnone⟩
  · rw [ht] at hd'
    exact hd'.of_optional.symm.imp_right fun h => ⟨_, d', h⟩
  · rw [hdefault] at hnone
    exact Or.inl (Option.some.inj hnone).symm

/-- A text field holds a text, if its default, where there is one, is a text. -/
theorem text_field (h : Reads D S (.cls c) d (.struct a fs))
    (hdecl : D.lookup c = some ⟨k, fields⟩) (hf : f ∈ fields)
    (hu : (fields.map FieldDecl.name).Nodup) (ht : f.type = .str)
    (hdefault : ∀ w, f.default.make? = some w → ∃ s, w = .str s) :
    ∃ s, fs.lookup f.name = some (.str s) := by
  obtain ⟨kvs, fs', x, -, hfs, hx, hfrom⟩ := h.lookup_field hdecl hf hu
  cases hfs
  rcases hfrom with ⟨d', -, hd'⟩ | ⟨-, hmake⟩
  · rw [ht] at hd'
    obtain ⟨s, rfl⟩ := hd'.text
    exact ⟨s, hx⟩
  · obtain ⟨s, rfl⟩ := hdefault x hmake
    exact ⟨s, hx⟩

end Reads

/-- The two functions of msgspec RXON calls, with what it relies on. -/
structure Msgspec (D : Decls) where
  toBuiltins : PyVal → Except String PyVal
  convert : Sharing → Ty → PyVal → Except String PyVal
  toBuiltins_none : toBuiltins .none = .ok .none
  toBuiltins_bool (b : Bool) : toBuiltins (.bool b) = .ok (.bool b)
  toBuiltins_int (i : Int) : toBuiltins (.int i) = .ok (.int i)
  toBuiltins_float (x : PyFloat) : toBuiltins (.float x) = .ok (.float x)
  toBuiltins_str (s : String) : toBuiltins (.str s) = .ok (.str s)
  toBuiltins_list (xs : List PyVal) :
    toBuiltins (.list xs) = (xs.mapM toBuiltins).map .list
  toBuiltins_set (frozen : Bool) (xs : List PyVal) :
    toBuiltins (.set frozen xs) = (xs.mapM toBuiltins).map .list
  toBuiltins_dict (kvs : List (String × PyVal)) :
    toBuiltins (.dict kvs) = (Assoc.mapValM toBuiltins kvs).map .dict
  toBuiltins_struct (c : StructHead) (fs : List (String × PyVal)) :
    toBuiltins (.struct c fs) = (Assoc.mapValM toBuiltins (D.kept c fs)).map .dict
  toBuiltins_dataclass (c : String) (fs : List (String × PyVal)) :
    toBuiltins (.dataclass c fs) = (Assoc.mapValM toBuiltins fs).map .dict
  toBuiltins_enum (c m : String) (v : PyVal) : toBuiltins (.enum c m v) = toBuiltins v
  toBuiltins_uuid (s : String) : toBuiltins (.uuid s) = .ok (.str s)
  toBuiltins_datetime (clock offset : String) : toBuiltins (.datetime clock offset) =
    .ok (.str (clock ++ if offset = "+00:00" then "Z" else offset))
  toBuiltins_coded (kind : CodedKind) (code text : String) :
    toBuiltins (.coded kind code text) = .ok (.str code)
  toBuiltins_object (i : Nat) : ∃ e, toBuiltins (.object i) = .error e
  /-- What is accepted is a reading of the document. -/
  convert_sound (S : Sharing) (t : Ty) (d : Json) (r : PyVal) :
    convert S t d.toPy = .ok r → Reads D S t d r
  /-- Every document that has a reading is accepted. -/
  convert_complete (S : Sharing) (t : Ty) (d : Json) (r : PyVal) :
    Reads D S t d r → ∃ r', convert S t d.toPy = .ok r'
