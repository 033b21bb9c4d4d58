import Rxon.PyVal

/-! # Type annotations and class declarations

The annotations RXON reads at run time, and the `msgspec` Structs and dataclasses
they name.  A class is known by its name, so declarations may refer to each other
and to themselves; `Decls` is the table of the declared classes. -/

inductive Ty where
  | any
  | str
  | int
  | float
  | bool
  | none
  | uuid
  | enum (cls : String) (members : List (String × PyVal))
  | list (item : Ty)
  | dict (value : Ty)
  | union (alts : List Ty)
  | annotated (t : Ty)
  | cls (name : String)
  /-- An annotation written as a text that was not resolved. -/
  | text (text : String)
  | other (name : String)

namespace Ty

/-- `t | None`. -/
def optional (t : Ty) : Ty := .union [t, .none]

@[elab_as_elim, induction_eliminator]
theorem induction {P : Ty → Prop} (any : P .any) (str : P .str) (int : P .int) (float : P .float)
    (bool : P .bool) (none : P .none) (uuid : P .uuid) (enum : ∀ c m, P (.enum c m))
    (list : ∀ t, P t → P (.list t)) (dict : ∀ t, P t → P (.dict t))
    (union : ∀ ts : List Ty, (∀ t ∈ ts, P t) → P (.union ts))
    (annotated : ∀ t, P t → P (.annotated t)) (cls : ∀ n, P (.cls n))
    (text : ∀ s, P (.text s)) (other : ∀ n, P (.other n)) (t : Ty) : P t :=
  @Ty.rec P (fun ts => ∀ t ∈ ts, P t) any str int float bool none uuid enum
    list dict (fun ts ih => union ts ih) annotated cls text other
    (fun _ h => nomatch h) (fun _ _ ht hts => List.forall_mem_cons.mpr ⟨ht, hts⟩) t

mutual

/-- The alternatives of an annotation once unions and `Annotated` are resolved. -/
def alternatives : Ty → List Ty
  | .union ts => alternativesList ts
  | .annotated t => alternatives t
  | t => [t]

def alternativesList : List Ty → List Ty
  | [] => []
  | t :: ts => alternatives t ++ alternativesList ts

end

theorem mem_alternativesList {ts : List Ty} {a : Ty} :
    a ∈ alternativesList ts ↔ ∃ t ∈ ts, a ∈ alternatives t := by
  induction ts with
  | nil => simp [alternativesList]
  | cons t ts ih => simp [alternativesList, ih]

/-- The alternatives of an alternative are its own. -/
theorem alternatives_subset {t a : Ty} (ha : a ∈ t.alternatives) :
    a.alternatives ⊆ t.alternatives := by
  induction t with
  | union ts ih =>
    obtain ⟨t, ht, ha⟩ := mem_alternativesList.mp ha
    exact fun a' ha' => mem_alternativesList.mpr ⟨t, ht, ih t ht ha ha'⟩
  | annotated t ih => exact ih ha
  | any | str | int | float | bool | none | uuid | enum | list | dict | cls | text | other =>
    rw [List.mem_singleton.mp ha]
    exact List.Subset.refl _

end Ty

/-- How a field is filled when it is not given; a factory is known by the value it
makes. -/
inductive Default where
  | required
  | value (v : PyVal)
  | factory (v : PyVal)

namespace Default

/-- The value of a field that is not given. -/
def make? : Default → Option PyVal
  | .required => none
  | .value v | .factory v => some v

/-- Whether `omit_defaults` leaves out the value `v`, `held` saying that it is the very
object kept as the default.  An equal value that is another object is written; of what
a factory makes, only an empty builtin collection is left out. -/
def omits (held : Bool) : Default → PyVal → Bool
  | .value w, v => held && v.same w || v.isOne w
  | .factory (.list []), .list [] => true
  | .factory (.dict []), .dict [] => true
  | .factory (.set false []), .set false [] => true
  | _, _ => false

end Default

structure FieldDecl where
  name : String
  type : Ty
  default : Default := .required

inductive ClassKind where
  | struct (omitDefaults : Bool)
  | dataclass

structure ClassDecl where
  kind : ClassKind
  fields : List FieldDecl

/-- The declared classes, by name. -/
abbrev Decls := List (String × ClassDecl)

namespace ClassDecl

def fieldNames (d : ClassDecl) : List String := d.fields.map FieldDecl.name

def field? (d : ClassDecl) (name : String) : Option FieldDecl := d.fields.find? (·.name = name)

/-- Whether encoding leaves the field out, `held` saying that it holds the very object
kept as the class's default. -/
def omits (d : ClassDecl) (held : Bool) (name : String) (v : PyVal) : Bool :=
  match d.kind, d.field? name with
  | .struct true, some f => f.default.omits held v
  | _, _ => false

end ClassDecl

namespace Decls

/-- `omits`, for an instance of a class of the table. -/
def omits (D : Decls) (c : StructHead) (name : String) (v : PyVal) : Bool :=
  (D.lookup c.cls).any fun d => d.omits (c.defaulted.contains name) name v

/-- The fields of a Struct instance that its encoding keeps. -/
def kept (D : Decls) (c : StructHead) (fields : List (String × PyVal)) : List (String × PyVal) :=
  fields.filter fun e => !D.omits c e.1 e.2

end Decls

/-! ## The fields of an instance -/

section Instance
variable {fields : List FieldDecl} {rs : List (String × PyVal)}

theorem FieldDecl.length_eq (hnames : fields.map FieldDecl.name = Assoc.keys rs) :
    fields.length = rs.length := by
  have := congrArg List.length hnames
  rwa [List.length_map, Assoc.keys, List.length_map] at this

theorem FieldDecl.name_eq_of_mem_zip (hnames : fields.map FieldDecl.name = Assoc.keys rs)
    {p : FieldDecl × String × PyVal} (hp : p ∈ fields.zip rs) : p.2.1 = p.1.name := by
  induction fields generalizing rs with
  | nil => cases hp
  | cons f fs ih =>
    cases rs with
    | nil => cases hp
    | cons r rs =>
      obtain ⟨hn, hns⟩ := List.cons.inj hnames
      rcases List.mem_cons.mp hp with rfl | hp
      · exact hn.symm
      · exact ih hns hp

/-- Every field of the class is a field of the instance. -/
theorem FieldDecl.exists_mem_zip (hnames : fields.map FieldDecl.name = Assoc.keys rs)
    {f : FieldDecl} (hf : f ∈ fields) : ∃ r, (f, r) ∈ fields.zip rs :=
  List.exists_mem_zip_left (FieldDecl.length_eq hnames) hf

/-- Every field of the instance is a field of the class. -/
theorem FieldDecl.mem_zip_of_mem (hnames : fields.map FieldDecl.name = Assoc.keys rs)
    {r : String × PyVal} (hr : r ∈ rs) : ∃ f, (f, r) ∈ fields.zip rs :=
  List.exists_mem_zip_right (FieldDecl.length_eq hnames) hr

theorem FieldDecl.lookup_of_mem_zip (hnames : fields.map FieldDecl.name = Assoc.keys rs)
    (hu : (fields.map FieldDecl.name).Nodup) {p : FieldDecl × String × PyVal}
    (hp : p ∈ fields.zip rs) : rs.lookup p.1.name = some p.2.2 := by
  have hrs : Assoc.Unique rs := by rwa [Assoc.Unique, ← hnames]
  rw [← FieldDecl.name_eq_of_mem_zip hnames hp]
  exact Assoc.lookup_of_mem hrs (List.of_mem_zip hp).2

theorem ClassDecl.field?_eq_some {d : ClassDecl} (hu : d.fieldNames.Nodup) {f : FieldDecl}
    (hf : f ∈ d.fields) : d.field? f.name = some f := by
  unfold ClassDecl.field?
  unfold ClassDecl.fieldNames at hu
  obtain ⟨kind, fields⟩ := d
  induction fields with
  | nil => cases hf
  | cons g gs ih =>
    obtain ⟨hnot, hu⟩ := List.nodup_cons.mp hu
    rcases List.mem_cons.mp hf with rfl | hf
    · exact List.find?_cons_of_pos (by simp)
    · have hne : g.name ≠ f.name := fun h => hnot (h ▸ List.mem_map_of_mem hf)
      rw [List.find?_cons_of_neg (by simpa using hne)]
      exact ih hu hf

theorem ClassDecl.mem_of_field? {d : ClassDecl} {k : String} {f : FieldDecl}
    (h : d.field? k = some f) : f ∈ d.fields ∧ f.name = k :=
  ⟨List.mem_of_find?_eq_some h, by simpa using List.find?_some h⟩

end Instance
