import Rxon.Models
import Rxon.Reference

/-! # Restoring what was sent

A document read at a message type gives back the same document, up to
normalization, exactly when it is faithful to the type: every Struct-typed object
has declared fields only, gives no default that is left out again, and every integer in
a float position is a double (`canon_tree_iff`).  What a well-typed value spells can
always be read back and is faithful (`HasType.restores`). -/

namespace Ty

/-- Whether `None` belongs to an annotation of a message field. -/
def nullable : Ty → Bool
  | .any | .union _ => true
  | _ => false

/-- The annotations of message fields: JSON data, classes, lists and dicts of them,
each possibly optional. -/
def wire : Ty → Bool
  | .any | .str | .int | .float | .bool | .cls _ => true
  | .list t | .dict t => wire t
  | .union [t, .none] => !t.nullable && wire t
  | _ => false

/-- The annotation without `| None`. -/
def plain : Ty → Ty
  | .union [t, .none] => t
  | t => t

/-- The defaults message fields declare. -/
def fitsDefault : Ty → PyVal → Bool
  | .str, .str _ | .int, .int _ | .bool, .bool _ => true
  | .float, .float (.finite f) => f.IsInteger
  | .any, .none | .union _, .none => true
  | _, _ => false

end Ty

/-- A field that survives the wire: public, of a wire type, and with a default when
it may hold `None`, which the encoding drops.  What a factory makes is another object than
the one of the declaration, so it would be written. -/
def FieldDecl.wire (f : FieldDecl) : Bool :=
  f.name.toList.head? ≠ some '_' && f.type.wire && match f.default with
    | .value v => f.type.fitsDefault v
    | .factory _ => false
    | .required => !f.type.nullable

def ClassDecl.wire (d : ClassDecl) : Bool :=
  (match d.kind with | .struct true => true | _ => false) && d.fieldNames.Nodup &&
    d.fields.all FieldDecl.wire

def Decls.wire (D : Decls) : Bool := D.all fun e => e.2.wire

theorem Rxon.rxonDecls_wire : Rxon.rxonDecls.wire = true := by decide +kernel

/-- The values a program of these annotations holds, with JSON data in the `Any`
positions. -/
inductive HasType (D : Decls) : Ty → PyVal → Prop
  | any (j : Json) (h : j.WF) : HasType D .any j.toPy
  | none : HasType D .none .none
  | bool (b : Bool) : HasType D .bool (.bool b)
  | int (i : Int) : HasType D .int (.int i)
  | float (f : Binary64) : HasType D .float (.float (.finite f))
  | str (s : String) : HasType D .str (.str s)
  | uuid (s : String) : HasType D .uuid (.uuid s)
  | enum (c m : String) (members : List (String × PyVal)) (v : PyVal) (h : (m, v) ∈ members) :
      HasType D (.enum c members) (.enum c m v)
  | list (t : Ty) (xs : List PyVal) (h : ∀ x ∈ xs, HasType D t x) : HasType D (.list t) (.list xs)
  | dict (t : Ty) (kvs : List (String × PyVal)) (hu : Assoc.Unique kvs)
      (h : ∀ e ∈ kvs, HasType D t e.2) : HasType D (.dict t) (.dict kvs)
  | struct (c : String) (head : StructHead) (hhead : head.cls = c) (omitDefaults : Bool)
      (fields : List FieldDecl) (fs : List (String × PyVal))
      (hdecl : D.lookup c = some ⟨.struct omitDefaults, fields⟩)
      (hnames : fields.map FieldDecl.name = Assoc.keys fs)
      (h : ∀ p ∈ fields.zip fs, HasType D p.1.type p.2.2) :
      HasType D (.cls c) (.struct head fs)
  | dataclass (c : String) (fields : List FieldDecl) (fs : List (String × PyVal))
      (hdecl : D.lookup c = some ⟨.dataclass, fields⟩)
      (hnames : fields.map FieldDecl.name = Assoc.keys fs)
      (h : ∀ p ∈ fields.zip fs, HasType D p.1.type p.2.2) : HasType D (.cls c) (.dataclass c fs)
  | union (t : Ty) (ts : List Ty) (v : PyVal) (ht : t ∈ ts) (h : HasType D t v) :
      HasType D (.union ts) v
  | annotated (t : Ty) (v : PyVal) (h : HasType D t v) : HasType D (.annotated t) v

namespace Json

mutual

/-- The document says nothing, read at the type, that its reading would not say:
objects of a class give declared fields only, none of them a default that is the
declared object again, and the integers at float positions are doubles. -/
def Faithful (D : Decls) : Sharing → Json → Ty → Prop
  | _, .int i, t => t.plain = .float → (Binary64.ofInt i).Holds i
  | S, .arr xs, t => ∀ a, t.plain = .list a → FaithfulElems D S 0 xs a
  | S, .obj kvs, t =>
    (∀ a, t.plain = .dict a → FaithfulValues D S kvs a) ∧
    ∀ c d, t.plain = .cls c → D.lookup c = some d → FaithfulFields D S d kvs
  | _, _, _ => True

/-- The items from position `i` on. -/
def FaithfulElems (D : Decls) (S : Sharing) (i : Nat) : List Json → Ty → Prop
  | [], _ => True
  | x :: xs, a => Faithful D (S.under (.item i)) x a ∧ FaithfulElems D S (i + 1) xs a

def FaithfulValues (D : Decls) (S : Sharing) : List (String × Json) → Ty → Prop
  | [], _ => True
  | (k, x) :: kvs, a => Faithful D (S.under (.key k)) x a ∧ FaithfulValues D S kvs a

def FaithfulFields (D : Decls) (S : Sharing) (d : ClassDecl) : List (String × Json) → Prop
  | [] => True
  | (k, x) :: kvs =>
    (x.isNull = false → ∃ f, d.field? k = some f ∧ Faithful D (S.under (.key k)) x f.type ∧
      ∀ w, f.default.make? = some w → canon x = canon (w.tree D) →
        (S [.key k] || w.isOne w) = false) ∧
    FaithfulFields D S d kvs

end

variable {D : Decls} {S : Sharing}

theorem faithfulElems_iff {xs : List Json} {a : Ty} {n : Nat} : FaithfulElems D S n xs a ↔
    ∀ i x, xs[i]? = some x → Faithful D (S.under (.item (n + i))) x a := by
  induction xs generalizing n with
  | nil => simp [FaithfulElems]
  | cons x xs ih =>
    rw [FaithfulElems, ih, List.forall_getElem?_cons]
    simp only [Nat.add_zero, Nat.add_assoc, Nat.add_comm 1]

theorem faithfulValues_iff {kvs : List (String × Json)} {a : Ty} :
    FaithfulValues D S kvs a ↔ ∀ e ∈ kvs, Faithful D (S.under (.key e.1)) e.2 a := by
  induction kvs with
  | nil => simp [FaithfulValues]
  | cons e kvs ih => rw [FaithfulValues, ih, List.forall_mem_cons]

theorem faithfulFields_iff {kvs : List (String × Json)} {d : ClassDecl} :
    FaithfulFields D S d kvs ↔ ∀ e ∈ kvs, e.2.isNull = false →
      ∃ f, d.field? e.1 = some f ∧ Faithful D (S.under (.key e.1)) e.2 f.type ∧
        ∀ w, f.default.make? = some w → canon e.2 = canon (w.tree D) →
          (S [.key e.1] || w.isOne w) = false := by
  induction kvs with
  | nil => simp [FaithfulFields]
  | cons e kvs ih => rw [FaithfulFields, ih, List.forall_mem_cons]

/-- Faithfulness sees the type without `| None`. -/
theorem faithful_plain {d : Json} {t : Ty} (h : t.plain.plain = t.plain) :
    Faithful D S d t.plain ↔ Faithful D S d t := by
  cases d <;> simp only [Faithful, h]

end Json

/-! ## Message types -/

section
variable {D : Decls} {S : Sharing} {t : Ty} {d : Json} {r v w : PyVal} {c : String}
  {head : StructHead}

theorem Ty.wire_plain (h : t.wire = true) :
    t.plain.wire = true ∧ t.plain.plain = t.plain ∧
      ((t = t.plain ∧ ∀ ts, t ≠ .union ts) ∨
        t = .union [t.plain, .none] ∧ t.plain.nullable = false) := by
  cases t with
  | union ts =>
    unfold Ty.wire at h
    split at h <;> simp_all [Ty.plain]
    split <;> simp_all [Ty.nullable]
  | any | str | int | float | bool | cls | list | dict => exact ⟨h, rfl, Or.inl ⟨rfl, nofun⟩⟩
  | none | uuid | enum | annotated | text | other => cases h

/-- No plain message type is a union. -/
theorem Ty.wire_ne_union (h : t.wire = true) (hp : t.plain = t) (ts : List Ty) : t ≠ .union ts := by
  obtain ⟨-, -, ⟨-, hne⟩ | ⟨-, hn⟩⟩ := Ty.wire_plain h
  · exact hne ts
  · rintro rfl
    rw [hp] at hn
    cases hn

theorem Ty.fitsDefault_cases (h : t.fitsDefault w = true) :
    w = .none ∨ (∃ s, w = .str s) ∨ (t = .int ∧ ∃ i, w = .int i) ∨ (t = .bool ∧ ∃ b, w = .bool b) ∨
      t = .float ∧ ∃ f : Binary64, f.IsInteger ∧ w = .float (.finite f) := by
  unfold Ty.fitsDefault at h
  split at h <;> simp_all

theorem Ty.wire_of_fitsDefault (h : t.fitsDefault w = true) : PyVal.Wire w := by
  rcases Ty.fitsDefault_cases h with rfl | ⟨s, rfl⟩ | ⟨-, i, rfl⟩ | ⟨-, b, rfl⟩ | ⟨-, f, -, rfl⟩
  exacts [.none, .str s, .int i, .bool b, .float f]

theorem Ty.wf_tree_of_fitsDefault (h : t.fitsDefault w = true) : (w.tree D).WF := by
  rcases Ty.fitsDefault_cases h with rfl | ⟨s, rfl⟩ | ⟨-, i, rfl⟩ | ⟨-, b, rfl⟩ | ⟨-, f, -, rfl⟩ <;>
    simp [PyVal.tree]

theorem FieldDecl.wire_iff {f : FieldDecl} :
    f.wire = true ↔ f.name.toList.head? ≠ some '_' ∧ f.type.wire = true ∧
      (∀ w, f.default.make? = some w → f.type.fitsDefault w = true) ∧
      (f.default.make? = none → f.type.nullable = false) ∧ ∀ w, f.default ≠ .factory w := by
  unfold FieldDecl.wire
  cases f.default <;> simp [and_assoc, Default.make?]

theorem FieldDecl.omits_eq {f : FieldDecl} (h : f.wire = true) (held : Bool) :
    f.default.omits held v = f.default.make?.any fun w => held && v.same w || v.isOne w := by
  have hvalue := (FieldDecl.wire_iff.mp h).2.2.2.2
  cases hdefault : f.default with
  | required => rfl
  | value w => rfl
  | factory w => exact absurd hdefault (hvalue w)

theorem Decls.wire_lookup (hD : D.wire = true) {k : ClassKind} {fields : List FieldDecl}
    (h : D.lookup c = some ⟨k, fields⟩) :
    k = .struct true ∧ (fields.map FieldDecl.name).Nodup ∧ ∀ f ∈ fields, f.wire = true := by
  have hc : (ClassDecl.mk k fields).wire = true :=
    List.all_eq_true.mp hD _ (Assoc.mem_of_lookup h)
  simp only [ClassDecl.wire, Bool.and_eq_true, decide_eq_true_eq, List.all_eq_true] at hc
  refine ⟨?_, hc.1.2, hc.2⟩
  have hk := hc.1.1
  split at hk
  · rfl
  · cases hk

namespace Reads

theorem wire (hD : D.wire = true) (h : Reads D S t d r) : PyVal.Wire r := by
  induction h with
  | any d => exact PyVal.wire_toPy d
  | none => exact .none
  | bool b => exact .bool b
  | int i => exact .int i
  | str s => exact .str s
  | float f => exact .float f
  | floatOfInt i g hi hg => exact .float g
  | list t xs rs hlen h ih =>
    refine .list rs fun y hy => ?_
    obtain ⟨x, hp⟩ := List.exists_mem_zip_right hlen hy
    obtain ⟨i, hx, hr⟩ := List.mem_zip_iff_getElem?.mp hp
    exact ih i x y hx hr
  | dict t kvs rs hkeys h ih =>
    refine .dict rs fun y hy => ?_
    obtain ⟨x, hp⟩ := List.exists_mem_zip_right (Assoc.length_eq_of_keys hkeys) hy
    exact ih _ hp
  | struct c b fields kvs rs hdecl hnames hgiven habsent ih =>
    refine .struct _ rs fun y hy => ?_
    obtain ⟨f, hf⟩ := FieldDecl.mem_zip_of_mem hnames hy
    cases hv : kvs.lookup f.name with
    | some v => exact ih _ hf v hv
    | none =>
      have hwire := (Decls.wire_lookup hD hdecl).2.2 f (List.of_mem_zip hf).1
      exact Ty.wire_of_fitsDefault ((FieldDecl.wire_iff.mp hwire).2.2.1 _ (habsent _ hf hv))
  | union t ts d r ht _ ih => exact ih
  | annotated t d r _ ih => exact ih

/-- `None` is read from null only. -/
theorem eq_none_iff (h : Reads D S t d r) : r = .none ↔ d = .null := by
  induction h with
  | any d => cases d <;> simp [Json.toPy]
  | none => simp
  | bool | int | str | float | floatOfInt | list | dict | struct => simp
  | union t ts d r ht _ ih => exact ih
  | annotated t d r _ ih => exact ih

theorem isNull_tree (hD : D.wire = true) (h : Reads D S t d r) :
    (r.tree D).isNull = d.isNull := by
  rw [Bool.eq_iff_iff, (h.wire hD).isNull_tree, h.eq_none_iff, Json.isNull_iff]

/-- A document read at an optional type is null or read at the type itself. -/
theorem plain (ht : t.wire = true) (h : Reads D S t d r) :
    Reads D S t.plain d r ∨ d = .null ∧ r = .none := by
  obtain ⟨-, -, ⟨heq, -⟩ | ⟨heq, -⟩⟩ := Ty.wire_plain ht
  · rw [← heq]; exact Or.inl h
  · rw [heq] at h
    cases h with
    | union a ts d r hmem ha =>
      rcases List.mem_cons.mp hmem with rfl | hmem
      · exact Or.inl ha
      · obtain rfl := List.mem_singleton.mp hmem
        cases ha
        exact Or.inr ⟨rfl, rfl⟩

/-- An instance is read from an object. -/
theorem exists_obj (h : Reads D S (.cls c) d r) : ∃ kvs, d = .obj kvs := by
  cases h
  exact ⟨_, rfl⟩

/-- What is read at a type may be compared with a default of the type. -/
theorem comparable (h : Reads D S t d r) (hw : t.fitsDefault w = true) : PyVal.Comparable r w := by
  rcases Ty.fitsDefault_cases hw with
    rfl | ⟨s, rfl⟩ | ⟨rfl, i, rfl⟩ | ⟨rfl, b, rfl⟩ | ⟨rfl, f, hf, rfl⟩
  · exact .none r
  · exact .str r s
  · cases h; exact .int _ i
  · cases h; exact .bool _ b
  · cases h <;> exact .float _ f hf

end Reads

/-- A default may be compared with itself. -/
theorem Ty.comparable_self (hw : t.fitsDefault w = true) : PyVal.Comparable w w := by
  rcases Ty.fitsDefault_cases hw with
    rfl | ⟨s, rfl⟩ | ⟨rfl, i, rfl⟩ | ⟨rfl, b, rfl⟩ | ⟨rfl, f, hf, rfl⟩
  exacts [.none _, .str _ s, .int _ i, .bool _ b, .float _ f hf]

/-- A value that only one object can be, like a default of its type, is this default. -/
theorem PyVal.isOne_of_canon_eq (hv : v.Wire) (hvw : PyVal.Comparable v w)
    (h : Json.canon (v.tree D) = Json.canon (w.tree D)) : v.isOne w = w.isOne w := by
  have hsame := (PyVal.same_iff_canon_eq hv hvw).mpr h
  cases hvw with
  | none => rw [(PyVal.same_none hv).mp hsame]
  | str v s => rw [(PyVal.same_str hv s).mp hsame]
  | bool b b' => rw [(PyVal.same_bool b b').mp hsame]
  | int i i' => rw [(PyVal.same_int i i').mp hsame]
  | float f f' => rfl

/-- What encoding leaves out of a Struct: a field that spells its default, if it holds the
default's object or there is only one such object. -/
theorem Decls.omits_iff (hD : D.wire = true) {fields : List FieldDecl}
    (hdecl : D.lookup head.cls = some ⟨.struct true, fields⟩) {f : FieldDecl} (hf : f ∈ fields)
    (hv : v.Wire) (hvw : ∀ w, f.default.make? = some w → PyVal.Comparable v w) :
    D.omits head f.name v = true ↔ ∃ w, f.default.make? = some w ∧
      Json.canon (v.tree D) = Json.canon (w.tree D) ∧
        (head.defaulted.contains f.name || w.isOne w) = true := by
  obtain ⟨-, hnodup, hwire⟩ := Decls.wire_lookup hD hdecl
  have hfield := ClassDecl.field?_eq_some (d := ⟨.struct true, fields⟩) hnodup hf
  rw [Decls.omits, hdecl, Option.any_some, ClassDecl.omits, hfield]
  change f.default.omits _ v = true ↔ _
  rw [FieldDecl.omits_eq (hwire f hf), Option.any_eq_true]
  refine exists_congr fun w => and_congr_right fun hw => ?_
  have hsame := PyVal.same_iff_canon_eq (D := D) hv (hvw w hw)
  simp only [Bool.or_eq_true, Bool.and_eq_true]
  constructor
  · rintro (⟨hheld, hvw'⟩ | hone)
    · exact ⟨hsame.mp hvw', Or.inl hheld⟩
    · have hcanon := hsame.mp (PyVal.same_of_isOne hone)
      exact ⟨hcanon, Or.inr (PyVal.isOne_of_canon_eq hv (hvw w hw) hcanon ▸ hone)⟩
  · rintro ⟨hcanon, hheld | hone⟩
    · exact Or.inl ⟨hheld, hsame.mpr hcanon⟩
    · exact Or.inr ((PyVal.isOne_of_canon_eq hv (hvw w hw) hcanon).trans hone)

/-- A field with the default `None` is left out exactly when it holds `None`. -/
theorem Decls.omits_optional (hD : D.wire = true) {fields : List FieldDecl} {t : Ty} {k : String}
    (hdecl : D.lookup head.cls = some ⟨.struct true, fields⟩)
    (hf : ⟨k, t, .value .none⟩ ∈ fields) (hv : v ≠ .none) : D.omits head k v = false := by
  have hfield := ClassDecl.field?_eq_some (d := ⟨.struct true, fields⟩)
    (Decls.wire_lookup hD hdecl).2.1 hf
  rw [Decls.omits, hdecl, Option.any_some, ClassDecl.omits, hfield]
  cases v <;> first | exact absurd rfl hv | simp [Default.omits, PyVal.same, PyVal.isOne,
    PyVal.sameNumber, PyVal.numeric?]

/-! ## The document of a restored value -/

/-- The fields of a Struct that its document shows. -/
theorem Decls.lookup_kept {fs : List (String × PyVal)} (hu : Assoc.Unique fs) (k : String) :
    List.lookup k (Assoc.mapVal (PyVal.tree D) (D.kept head fs)) =
      ((fs.lookup k).filter fun x => !D.omits head k x).map (PyVal.tree D) := by
  rw [Assoc.lookup_mapVal, Decls.kept, Assoc.lookup_filter hu]

theorem Decls.unique_kept {fs : List (String × PyVal)} (hu : Assoc.Unique fs) :
    Assoc.Unique (Assoc.mapVal (PyVal.tree D) (D.kept head fs)) :=
  Assoc.unique_mapVal.mpr (hu.sublist List.filter_sublist)

namespace Reads

theorem wf_tree (hD : D.wire = true) (h : Reads D S t d r) (hd : d.WF) : (r.tree D).WF := by
  induction h with
  | any d => rwa [PyVal.tree_toPy]
  | none | bool | int | str | float | floatOfInt => simp [PyVal.tree]
  | list t xs rs hlen h ih =>
    rw [PyVal.tree_list, Json.wf_arr]
    intro y hy
    obtain ⟨x, hx, rfl⟩ := List.mem_map.mp hy
    obtain ⟨d, hp⟩ := List.exists_mem_zip_right hlen hx
    obtain ⟨i, hi, hr⟩ := List.mem_zip_iff_getElem?.mp hp
    exact ih i d x hi hr (Json.wf_arr.mp hd _ (List.of_mem_zip hp).1)
  | dict t kvs rs hkeys h ih =>
    obtain ⟨hu, hv⟩ := Json.wf_obj.mp hd
    rw [PyVal.tree_dict, Json.wf_obj]
    refine ⟨Assoc.unique_mapVal.mpr (by rwa [Assoc.Unique, ← hkeys]), fun e he => ?_⟩
    obtain ⟨x, hx, rfl⟩ := List.mem_map.mp he
    obtain ⟨d, hp⟩ := List.exists_mem_zip_right (Assoc.length_eq_of_keys hkeys) hx
    exact ih _ hp (hv _ (List.of_mem_zip hp).1)
  | struct c b fields kvs rs hdecl hnames hgiven habsent ih =>
    obtain ⟨hkind, hnodup, hwire⟩ := Decls.wire_lookup hD hdecl
    cases hkind
    have hu : Assoc.Unique rs := by rwa [Assoc.Unique, ← hnames]
    rw [PyVal.tree_struct, Json.wf_obj]
    refine ⟨Decls.unique_kept hu, fun e he => ?_⟩
    obtain ⟨x, hx, rfl⟩ := List.mem_map.mp he
    obtain ⟨f, hf⟩ := FieldDecl.mem_zip_of_mem hnames (List.mem_of_mem_filter hx)
    cases hv : kvs.lookup f.name with
    | some v => exact ih _ hf v hv (hd.lookup hv)
    | none =>
      have hwf := (FieldDecl.wire_iff.mp (hwire f (List.of_mem_zip hf).1)).2.2.1 _ (habsent _ hf hv)
      exact Ty.wf_tree_of_fitsDefault hwf
  | union t ts d r ht _ ih => exact ih hd
  | annotated t d r _ ih => exact ih hd

end Reads

/-- Lists agree under two functions exactly when they agree position by position. -/
theorem map_eq_map_zip {α β γ : Type} {f : α → γ} {g : β → γ} {xs : List α} {ys : List β}
    (hlen : xs.length = ys.length) :
    xs.map f = ys.map g ↔ ∀ p ∈ xs.zip ys, f p.1 = g p.2 := by
  induction xs generalizing ys with
  | nil => cases ys with
    | nil => simp
    | cons => cases hlen
  | cons x xs ih => cases ys with
    | nil => cases hlen
    | cons y ys =>
      rw [List.map_cons, List.map_cons, List.cons.injEq, ih (Nat.succ.inj hlen), List.zip_cons_cons,
        List.forall_mem_cons]

theorem forall_mem_zip_left {α β : Type} {p : α → Prop} {xs : List α} {ys : List β}
    (hlen : xs.length = ys.length) : (∀ q ∈ xs.zip ys, p q.1) ↔ ∀ x ∈ xs, p x := by
  conv_rhs => rw [← List.map_fst_zip (Nat.le_of_eq hlen)]
  rw [List.forall_mem_map]

/-- Objects with the same keys in the same order have the same normal form exactly
when their values have. -/
theorem Json.canon_obj_zip {kvs kvs' : List (String × Json)} (hu : Assoc.Unique kvs)
    (hkeys : Assoc.keys kvs = Assoc.keys kvs') :
    Json.canon (.obj kvs) = Json.canon (.obj kvs') ↔
      ∀ p ∈ kvs.zip kvs', Json.canon p.1.2 = Json.canon p.2.2 := by
  have hu' : Assoc.Unique kvs' := by rwa [Assoc.Unique, ← hkeys]
  have hlen : kvs.length = kvs'.length := Assoc.length_eq_of_keys hkeys
  have hpair : ∀ p ∈ kvs.zip kvs', p.1.1 = p.2.1 ∧
      kvs.lookup p.1.1 = some p.1.2 ∧ kvs'.lookup p.1.1 = some p.2.2 := fun p hp => by
    have hk := (map_eq_map_zip hlen).mp hkeys p hp
    exact ⟨hk, Assoc.lookup_of_mem hu (List.of_mem_zip hp).1,
      hk ▸ Assoc.lookup_of_mem hu' (List.of_mem_zip hp).2⟩
  rw [Json.canon_obj_eq_iff hu hu']
  constructor
  · intro h p hp
    obtain ⟨-, hx, hy⟩ := hpair p hp
    have := h p.1.1
    rwa [hx, hy, Json.shown_eq_iff] at this
  · intro h k
    by_cases hk : k ∈ Assoc.keys kvs
    · obtain ⟨e, he, rfl⟩ := List.mem_map.mp hk
      obtain ⟨e', hp⟩ := List.exists_mem_zip_left hlen he
      obtain ⟨-, hx, hy⟩ := hpair _ hp
      rw [hx, hy, Json.shown_eq_iff]
      exact h _ hp
    · rw [Assoc.lookup_eq_none.mpr hk, Assoc.lookup_eq_none.mpr (hkeys ▸ hk)]

/-- A field of the object and the field restored from it say the same exactly when
the value is restored faithfully and is no default that is left out again. -/
theorem shown_field_iff (hD : D.wire = true) {fields : List FieldDecl} {f : FieldDecl} {x : PyVal}
    {kvs : List (String × Json)} (hdecl : D.lookup c = some ⟨.struct true, fields⟩)
    (hf : f ∈ fields) 
    (hgiven : ∀ v, kvs.lookup f.name = some v → Reads D (S.under (.key f.name)) f.type v x)
    (habsent : kvs.lookup f.name = none → f.default.make? = some x)
    (ih : ∀ v, kvs.lookup f.name = some v →
      (Json.canon (x.tree D) = Json.canon v ↔
        Json.Faithful D (S.under (.key f.name)) v f.type)) :
    Json.shown (((some x).filter fun x => !D.omits (.restored S c fields kvs) f.name x).map
        (PyVal.tree D)) = Json.shown (kvs.lookup f.name) ↔
      ∀ v, kvs.lookup f.name = some v → v.isNull = false →
        Json.Faithful D (S.under (.key f.name)) v f.type ∧
        ∀ w, f.default.make? = some w → Json.canon v = Json.canon (w.tree D) →
          (S [.key f.name] || w.isOne w) = false := by
  obtain ⟨-, -, hfit, -⟩ := FieldDecl.wire_iff.mp ((Decls.wire_lookup hD hdecl).2.2 f hf)
  have hkept : ((some x).filter fun x => !D.omits (.restored S c fields kvs) f.name x).map
      (PyVal.tree D) =
        if D.omits (.restored S c fields kvs) f.name x then none else some (x.tree D) := by
    cases h : D.omits (.restored S c fields kvs) f.name x <;> simp [Option.filter, h]
  have hdecl' : D.lookup (StructHead.restored S c fields kvs).cls = some ⟨.struct true, fields⟩ :=
    hdecl
  have homits (hx : x.Wire) (hxw : ∀ w, f.default.make? = some w → PyVal.Comparable x w) :=
    Decls.omits_iff hD hdecl' hf hx hxw
  rw [StructHead.contains_restored hf] at homits
  rw [hkept]
  cases hlook : kvs.lookup f.name with
  | none =>
    -- the default's object was filled in, and is left out again
    have hmake := habsent hlook
    have hself (w : PyVal) (hw : f.default.make? = some w) : PyVal.Comparable x w := by
      cases hmake.symm.trans hw
      exact Ty.comparable_self (hfit x hmake)
    have hleft := (homits (Ty.wire_of_fitsDefault (hfit x hmake)) hself).mpr
      ⟨x, hmake, rfl, by rw [hlook]; rfl⟩
    rw [if_pos hleft]
    exact iff_of_true rfl fun v hv => by cases hv
  | some v =>
    have hreads := hgiven v hlook
    have hih := ih v hlook
    have hnull := hreads.isNull_tree hD
    cases hv : v.isNull with
    | true =>
      rw [hv] at hnull
      rw [Json.shown_of_null hv]
      split <;> simp [hv, Json.shown_of_null hnull]
    | false =>
      simp only [Option.some.injEq, forall_eq', hv, forall_const]
      specialize homits (hreads.wire hD) fun w hw => hreads.comparable (hfit w hw)
      rw [hlook, Option.isNone_some, Bool.false_or] at homits
      by_cases he : D.omits (.restored S c fields kvs) f.name x = true
      · rw [if_pos he, Json.shown_of_not hv, Json.shown_none]
        refine iff_of_false nofun fun ⟨hfaith, hkeep⟩ => ?_
        obtain ⟨w, hw, hcanon, hheld⟩ := homits.mp he
        rw [hkeep w hw ((hih.mpr hfaith).symm.trans hcanon)] at hheld
        cases hheld
      · rw [if_neg he, Json.shown_eq_iff]
        refine ⟨fun h => ⟨hih.mp h, fun w hw hcanon => ?_⟩, fun h => hih.mpr h.1⟩
        by_contra hheld
        rw [Bool.not_eq_false] at hheld
        exact he (homits.mpr ⟨w, hw, h.trans hcanon, hheld⟩)

/-- A restored Struct spells the object it was read from exactly when the object is
faithful to the class, given that its values are read without loss exactly when
they are faithful. -/
theorem canon_struct_iff (hD : D.wire = true) {fields : List FieldDecl}
    {kvs : List (String × Json)} {rs : List (String × PyVal)} (hu : Assoc.Unique kvs)
    (hdecl : D.lookup c = some ⟨.struct true, fields⟩)
    (hnames : fields.map FieldDecl.name = Assoc.keys rs)
    (hgiven : ∀ p ∈ fields.zip rs, ∀ v, kvs.lookup p.1.name = some v →
      Reads D (S.under (.key p.1.name)) p.1.type v p.2.2)
    (habsent : ∀ p ∈ fields.zip rs, kvs.lookup p.1.name = none → p.1.default.make? = some p.2.2)
    (ih : ∀ e ∈ kvs, ∀ S t r, t.wire = true → Reads D S t e.2 r →
      (Json.canon (r.tree D) = Json.canon e.2 ↔ Json.Faithful D S e.2 t)) :
    Json.canon ((PyVal.struct (.restored S c fields kvs) rs).tree D) = Json.canon (.obj kvs) ↔
      Json.FaithfulFields D S ⟨.struct true, fields⟩ kvs := by
  obtain ⟨-, hnodup, hwire⟩ := Decls.wire_lookup hD hdecl
  have hurs : Assoc.Unique rs := by rwa [Assoc.Unique, ← hnames]
  have hfield : ∀ p ∈ fields.zip rs, _ := fun p hp =>
    shown_field_iff hD hdecl (List.of_mem_zip hp).1 (hgiven p hp) (habsent p hp)
      fun v hv => ih _ (Assoc.mem_of_lookup hv) _ _ _
        (FieldDecl.wire_iff.mp (hwire _ (List.of_mem_zip hp).1)).2.1 (hgiven p hp v hv)
  rw [PyVal.tree_struct, Json.canon_obj_eq_iff (Decls.unique_kept hurs) hu, Json.faithfulFields_iff]
  constructor
  · -- an entry must show up again, so its key is a field's
    intro h e he hnull
    have hlook := Assoc.lookup_of_mem hu he
    have hk := h e.1
    rw [Decls.lookup_kept hurs, hlook] at hk
    by_cases hmem : e.1 ∈ fields.map FieldDecl.name
    · obtain ⟨f, hf, hfe⟩ := List.mem_map.mp hmem
      obtain ⟨x, hx⟩ := FieldDecl.exists_mem_zip hnames hf
      have hx' := FieldDecl.lookup_of_mem_zip hnames hnodup hx
      rw [← hfe] at hk hlook
      rw [hx', ← hlook] at hk
      obtain ⟨hfaith, hkeep⟩ := (hfield _ hx).mp hk e.2 hlook hnull
      exact ⟨f, hfe ▸ ClassDecl.field?_eq_some (d := ⟨.struct true, fields⟩) hnodup hf,
        hfe ▸ hfaith, hfe ▸ hkeep⟩
    · rw [hnames] at hmem
      rw [Assoc.lookup_eq_none.mpr hmem, Json.shown_of_not hnull] at hk
      cases hk
  · -- key by key: fields by `shown_field_iff`, and no other key shows on either side
    intro h k
    rw [Decls.lookup_kept hurs]
    by_cases hmem : k ∈ fields.map FieldDecl.name
    · obtain ⟨f, hf, rfl⟩ := List.mem_map.mp hmem
      obtain ⟨x, hx⟩ := FieldDecl.exists_mem_zip hnames hf
      rw [FieldDecl.lookup_of_mem_zip hnames hnodup hx]
      refine (hfield _ hx).mpr fun v hv hnull => ?_
      obtain ⟨g, hg, hfaith⟩ := h _ (Assoc.mem_of_lookup hv) hnull
      rw [ClassDecl.field?_eq_some (d := ⟨.struct true, fields⟩) hnodup hf] at hg
      cases hg
      exact hfaith
    · rw [Assoc.lookup_eq_none.mpr (hnames ▸ hmem)]
      cases hv : kvs.lookup k with
      | none => rfl
      | some v =>
        cases hnull : v.isNull with
        | true => exact (Json.shown_of_null hnull).symm
        | false =>
          obtain ⟨g, hg, -⟩ := h _ (Assoc.mem_of_lookup hv) hnull
          obtain ⟨hgf, hgk⟩ := ClassDecl.mem_of_field? hg
          exact absurd (List.mem_map.mpr ⟨g, hgf, hgk⟩) hmem

/-- An integer read as a float is restored exactly when it is a double. -/
theorem canon_float_int {i : Int} {g : Binary64} (hi : Binary64.InRange i)
    (hg : ∀ f : Binary64, f.Holds i → g.Holds i) :
    Json.canon (.float g) = .int i ↔ (Binary64.ofInt i).Holds i := by
  constructor
  · intro h
    by_cases hint : g.IsInteger
    · rw [Json.canon_float_of_holds (Binary64.holds_toInt hint), Json.int.injEq] at h
      exact Binary64.ofInt_holds (h ▸ Binary64.holds_toInt hint) hi
    · rw [Json.canon_float_of_not hint] at h
      cases h
  · exact fun h => Json.canon_float_of_holds (hg _ h)

/-- A document that is not null is read at the type without `| None`, which is neither a
union nor `Annotated`. -/
theorem Reads.of_plain (ht : t.wire = true) (h : Reads D S t d r) (hd : d ≠ .null) :
    ∃ u, t.plain = u ∧ u.wire = true ∧ (∀ ts, u ≠ .union ts) ∧ Reads D S u d r := by
  obtain ⟨hw, hp, -⟩ := Ty.wire_plain ht
  rcases h.plain ht with h | ⟨hnull, -⟩
  · exact ⟨t.plain, rfl, hw, Ty.wire_ne_union hw hp, h⟩
  · exact absurd hnull hd

/-- A list is restored exactly when its items are. -/
theorem canon_list_iff {a : Ty} {xs : List Json} {rs : List PyVal} (hlen : xs.length = rs.length)
    (hitems : ∀ i x r, xs[i]? = some x → rs[i]? = some r →
      (Json.canon (r.tree D) = Json.canon x ↔ Json.Faithful D (S.under (.item i)) x a)) :
    Json.canon ((PyVal.list rs).tree D) = Json.canon (.arr xs) ↔
      ∀ i x, xs[i]? = some x → Json.Faithful D (S.under (.item i)) x a := by
  rw [PyVal.tree_list, Json.canon_arr, Json.canon_arr, Json.arr.injEq, List.map_map, eq_comm,
    map_eq_map_zip hlen]
  constructor
  · intro h i x hx
    have hi : i < rs.length := hlen ▸ (List.getElem?_eq_some_iff.mp hx).1
    have hr := List.getElem?_eq_getElem hi
    exact (hitems i x _ hx hr).mp
      (h (x, rs[i]) (List.mem_zip_iff_getElem?.mpr ⟨i, hx, hr⟩)).symm
  · intro h p hp
    obtain ⟨i, hx, hr⟩ := List.mem_zip_iff_getElem?.mp hp
    exact ((hitems i p.1 p.2 hx hr).mpr (h i p.1 hx)).symm

/-- A dict is restored exactly when its values are. -/
theorem canon_dict_iff {a : Ty} {kvs : List (String × Json)} {rs : List (String × PyVal)}
    (hu : Assoc.Unique kvs) (hkeys : Assoc.keys kvs = Assoc.keys rs)
    (hvalues : ∀ p ∈ kvs.zip rs,
      (Json.canon (p.2.2.tree D) = Json.canon p.1.2 ↔
        Json.Faithful D (S.under (.key p.1.1)) p.1.2 a)) :
    Json.canon ((PyVal.dict rs).tree D) = Json.canon (.obj kvs) ↔
      ∀ e ∈ kvs, Json.Faithful D (S.under (.key e.1)) e.2 a := by
  have hlen : kvs.length = rs.length := Assoc.length_eq_of_keys hkeys
  rw [PyVal.tree_dict, eq_comm, Json.canon_obj_zip hu (by rwa [Assoc.keys_mapVal]),
    ← forall_mem_zip_left hlen, Assoc.mapVal, List.zip_map_right, List.forall_mem_map]
  exact forall₂_congr fun p hp => by rw [← hvalues p hp, eq_comm]; rfl

/-- **Reading a document at a message type loses nothing exactly when the document
is faithful to the type.** -/
theorem canon_tree_iff (hD : D.wire = true) (hd : d.WF) (ht : t.wire = true) (h : Reads D S t d r) :
    Json.canon (r.tree D) = Json.canon d ↔ Json.Faithful D S d t := by
  -- along the document; each kind can only have been read at the types that take it
  induction d generalizing S t r with
  | null =>
    rw [h.eq_none_iff.mpr rfl]
    exact iff_of_true rfl trivial
  | bool | float | str =>
    obtain ⟨u, -, hw, hne, h⟩ := h.of_plain ht (fun hd => by cases hd)
    cases h with
    | union => exact absurd rfl (hne _)
    | annotated => cases hw
    | _ => exact iff_of_true rfl trivial
  | int i =>
    obtain ⟨u, hu, hw, hne, h⟩ := h.of_plain ht (fun hd => by cases hd)
    rw [Json.Faithful, hu]
    cases h with
    | union => exact absurd rfl (hne _)
    | annotated => cases hw
    | any | int => exact iff_of_true rfl fun h => by cases h
    | floatOfInt i g hi hg =>
      rw [PyVal.tree, Json.canon_int, canon_float_int hi hg]
      exact ⟨fun h _ => h, fun h => h rfl⟩
  | arr xs ih =>
    obtain ⟨u, hu, hw, hne, h⟩ := h.of_plain ht (fun hd => by cases hd)
    rw [Json.Faithful, hu]
    cases h with
    | union => exact absurd rfl (hne _)
    | annotated => cases hw
    | any => exact iff_of_true (by rw [PyVal.tree_toPy]) fun a h => by cases h
    | list a xs rs hlen hrs =>
      simp only [Ty.list.injEq, forall_eq', Json.faithfulElems_iff, Nat.zero_add]
      apply canon_list_iff hlen
      intro i x r hx hr
      have hmem := List.mem_of_getElem? hx
      exact ih x hmem (Json.wf_arr.mp hd x hmem) hw (hrs i x r hx hr)
  | obj kvs ih =>
    obtain ⟨u, hu, hw, hne, h⟩ := h.of_plain ht (fun hd => by cases hd)
    obtain ⟨huniq, hvals⟩ := Json.wf_obj.mp hd
    rw [Json.Faithful, hu]
    cases h with
    | union => exact absurd rfl (hne _)
    | annotated => cases hw
    | any =>
      refine iff_of_true (by rw [PyVal.tree_toPy]) ⟨fun a h => ?_, fun c d h => ?_⟩ <;> cases h
    | dict a kvs rs hkeys hrs =>
      simp only [Ty.dict.injEq, forall_eq', reduceCtorEq, false_implies, implies_true, and_true,
        Json.faithfulValues_iff]
      apply canon_dict_iff huniq hkeys
      intro p hp
      have hmem := (List.of_mem_zip hp).1
      exact ih p.1 hmem (hvals p.1 hmem) hw (hrs p hp)
    | struct c b fields kvs rs hdecl hnames hgiven habsent =>
      obtain ⟨hkind, -⟩ := Decls.wire_lookup hD hdecl
      cases hkind
      rw [canon_struct_iff hD huniq hdecl hnames hgiven habsent
        fun e he S t r ht hr => ih e he (hvals e he) ht hr]
      refine ⟨fun h => ⟨fun a ha => (by cases ha), fun c' d hc hd => ?_⟩,
        fun h => h.2 c _ rfl hdecl⟩
      cases hc
      rw [hdecl] at hd
      cases hd
      exact h

/-! ## What well-typed values spell -/

theorem Json.faithful_any (d : Json) : Json.Faithful D S d .any := by
  cases d <;> simp [Json.Faithful, Ty.plain]

/-- The value spells a well-formed document whose normal form can be read back at
the type, without loss. -/
structure Restores (D : Decls) (t : Ty) (v : PyVal) : Prop where
  wire : v.Wire
  wf : (v.tree D).WF
  readable : ∃ r, Reads D .none t (Json.canon (v.tree D)) r
  faithful : Json.Faithful D .none (Json.canon (v.tree D)) t

namespace HasType

theorem eq_none (h : HasType D t .none) :
    t = .none ∨ t.nullable = true ∨ ∃ u, t = .annotated u := by
  generalize hv : PyVal.none = v at h
  cases h with
  | any => exact Or.inr (Or.inl rfl)
  | none => exact Or.inl rfl
  | union => exact Or.inr (Or.inl rfl)
  | annotated u => exact Or.inr (Or.inr ⟨u, rfl⟩)
  | bool | int | float | str | uuid | enum | list | dict | struct | dataclass => cases hv

theorem comparable (h : HasType D t v) (hw : t.fitsDefault w = true) : PyVal.Comparable v w := by
  rcases Ty.fitsDefault_cases hw with
    rfl | ⟨s, rfl⟩ | ⟨rfl, i, rfl⟩ | ⟨rfl, b, rfl⟩ | ⟨rfl, f, hf, rfl⟩
  · exact .none v
  · exact .str v s
  · cases h; exact .int _ i
  · cases h; exact .bool _ b
  · cases h; exact .float _ f hf

/-- A scalar that spells itself in normal form is restored. -/
theorem restores_leaf (hw : v.Wire) (hwf : (v.tree D).WF)
    (hr : Reads D .none t (Json.canon (v.tree D)) v)
    (hf : Json.Faithful D .none (Json.canon (v.tree D)) t) : Restores D t v :=
  ⟨hw, hwf, ⟨v, hr⟩, hf⟩

theorem restores_float (f : Binary64) : Restores D .float (.float (.finite f)) := by
  have hwf : (PyVal.tree D (.float (.finite f))).WF := Json.wf_float f
  by_cases h : f.IsInteger
  · have hh := Binary64.holds_toInt h
    have hc : Json.canon (PyVal.tree D (.float (.finite f))) = .int f.toInt :=
      Json.canon_float_of_holds hh
    refine ⟨.float f, hwf, ?_, ?_⟩
    · rw [hc]
      exact ⟨_, .floatOfInt f.toInt (Binary64.ofInt f.toInt) hh.inRange
        fun g hg => Binary64.ofInt_holds hg hh.inRange⟩
    · rw [hc]
      exact fun _ => Binary64.ofInt_holds hh hh.inRange
  · have hc : Json.canon (PyVal.tree D (.float (.finite f))) = .float f :=
      Json.canon_float_of_not h
    refine restores_leaf (.float f) hwf ?_ ?_
    · rw [hc]; exact .float f
    · rw [hc]; trivial

theorem restores_list {xs : List PyVal} (ih : ∀ x ∈ xs, Restores D t x) :
    Restores D (.list t) (.list xs) where
  wire := .list xs fun x hx => (ih x hx).wire
  wf := by
    rw [PyVal.tree_list, Json.wf_arr, List.forall_mem_map]
    exact fun x hx => (ih x hx).wf
  readable := by
    rw [PyVal.tree_list, Json.canon_arr]
    have hreadable : ∀ d ∈ (xs.map (PyVal.tree D)).map Json.canon, ∃ r, Reads D .none t d r := by
      simp only [List.forall_mem_map]
      exact fun x hx => (ih x hx).readable
    exact Reads.exists_list fun i d hd => hreadable d (List.mem_of_getElem? hd)
  faithful := by
    rw [PyVal.tree_list, Json.canon_arr]
    intro a ha
    cases ha
    have hfaithful : ∀ d ∈ (xs.map (PyVal.tree D)).map Json.canon,
        Json.Faithful D .none d t := by
      simp only [List.forall_mem_map]
      exact fun x hx => (ih x hx).faithful
    exact Json.faithfulElems_iff.mpr fun i d hd => hfaithful d (List.mem_of_getElem? hd)

theorem restores_dict {kvs : List (String × PyVal)} (hu : Assoc.Unique kvs)
    (ih : ∀ e ∈ kvs, Restores D t e.2) : Restores D (.dict t) (.dict kvs) where
  wire := .dict kvs fun e he => (ih e he).wire
  wf := by
    rw [PyVal.tree_dict, Json.wf_obj, Assoc.mapVal, List.forall_mem_map]
    exact ⟨Assoc.unique_mapVal.mpr hu, fun e he => (ih e he).wf⟩
  readable := by
    rw [PyVal.tree_dict, Json.canon_obj]
    refine Reads.exists_dict ?_
    rw [Json.forall_canon_entries, Assoc.mapVal, List.forall_mem_map]
    exact fun e he _ => (ih e he).readable
  faithful := by
    rw [PyVal.tree_dict, Json.canon_obj]
    refine ⟨fun a ha => ?_, fun c d hc => by cases hc⟩
    cases ha
    rw [Json.faithfulValues_iff, Json.forall_canon_entries, Assoc.mapVal, List.forall_mem_map]
    exact fun e he _ => (ih e he).faithful

section Struct
variable {fields : List FieldDecl} {fs : List (String × PyVal)}

/-- The document of a Struct has a field with its value, unless it is left out. -/
theorem lookup_field (hD : D.wire = true)
    (hdecl : D.lookup head.cls = some ⟨.struct true, fields⟩)
    (hnames : fields.map FieldDecl.name = Assoc.keys fs) {f : FieldDecl} {x : String × PyVal}
    (hx : (f, x) ∈ fields.zip fs) :
    (Assoc.mapVal (PyVal.tree D) (D.kept head fs)).lookup f.name =
      if D.omits head f.name x.2 then Option.none else some (x.2.tree D) := by
  obtain ⟨-, hnodup, -⟩ := Decls.wire_lookup hD hdecl
  have hu : Assoc.Unique fs := by rwa [Assoc.Unique, ← hnames]
  rw [Decls.lookup_kept hu, FieldDecl.lookup_of_mem_zip hnames hnodup hx]
  cases h : D.omits head f.name x.2 <;> simp [Option.filter, h]

theorem omits_iff (hD : D.wire = true) (hdecl : D.lookup head.cls = some ⟨.struct true, fields⟩)
    {f : FieldDecl} (hf : f ∈ fields) (hx : v.Wire) (h : HasType D f.type v) :
    D.omits head f.name v = true ↔ ∃ w, f.default.make? = some w ∧
      Json.canon (v.tree D) = Json.canon (w.tree D) ∧
        (head.defaulted.contains f.name || w.isOne w) = true :=
  Decls.omits_iff hD hdecl hf hx fun w hw => h.comparable
    ((FieldDecl.wire_iff.mp ((Decls.wire_lookup hD hdecl).2.2 f hf)).2.2.1 w hw)

/-- A field that does not show, being left out or null, has a default. -/
theorem exists_default (hD : D.wire = true)
    (hdecl : D.lookup head.cls = some ⟨.struct true, fields⟩) {f : FieldDecl} (hf : f ∈ fields)
    {x : PyVal} (htype : HasType D f.type x) (hx : x.Wire)
    (h : Json.shown (if D.omits head f.name x then Option.none else some (x.tree D)) =
      Option.none) :
    ∃ w, f.default.make? = some w := by
  have hfw := FieldDecl.wire_iff.mp ((Decls.wire_lookup hD hdecl).2.2 f hf)
  rw [← Option.isSome_iff_exists]
  by_contra hno
  rw [Option.not_isSome_iff_eq_none] at hno
  -- without one it is not left out, so it holds `None`, which its type does not admit
  have hkeep : D.omits head f.name x = false := by
    rw [← Bool.not_eq_true, omits_iff hD hdecl hf hx htype, hno]
    simp
  simp only [hkeep, Bool.false_eq_true, if_false] at h
  have hnone := (hx.isNull_tree (D := D)).mp (Json.shown_eq_none.mp h)
  subst hnone
  have hnull : f.type.nullable = true := by
    rcases htype.eq_none with h | h | ⟨u, h⟩
    · rw [h] at hfw; cases hfw.2.1
    · exact h
    · rw [h] at hfw; cases hfw.2.1
  rw [hfw.2.2.2.1 hno] at hnull
  cases hnull

theorem readable_struct (hD : D.wire = true)
    (hdecl : D.lookup head.cls = some ⟨.struct true, fields⟩)
    (hnames : fields.map FieldDecl.name = Assoc.keys fs)
    (htype : ∀ p ∈ fields.zip fs, HasType D p.1.type p.2.2)
    (ih : ∀ p ∈ fields.zip fs, Restores D p.1.type p.2.2) :
    ∃ r, Reads D .none (.cls head.cls) (Json.canon ((PyVal.struct head fs).tree D)) r := by
  have hu : Assoc.Unique fs := by
    have := (Decls.wire_lookup hD hdecl).2.1
    rwa [Assoc.Unique, ← hnames]
  rw [PyVal.tree_struct, Json.canon_obj]
  refine Reads.exists_struct hdecl (fun f hf v hv => ?_) fun f hf hnone => ?_
  · obtain ⟨x, hx⟩ := FieldDecl.exists_mem_zip hnames hf
    rw [Json.lookup_canon (Decls.unique_kept hu), lookup_field hD hdecl hnames hx] at hv
    obtain ⟨y, hy, rfl⟩ := Json.exists_of_shown hv
    split at hy
    · cases hy
    · cases hy
      exact (ih _ hx).readable
  · obtain ⟨x, hx⟩ := FieldDecl.exists_mem_zip hnames hf
    rw [Json.lookup_canon (Decls.unique_kept hu), lookup_field hD hdecl hnames hx] at hnone
    exact exists_default hD hdecl hf (htype _ hx) (ih _ hx).wire hnone

theorem faithful_struct (hD : D.wire = true)
    (hdecl : D.lookup head.cls = some ⟨.struct true, fields⟩)
    (hnames : fields.map FieldDecl.name = Assoc.keys fs)
    (htype : ∀ p ∈ fields.zip fs, HasType D p.1.type p.2.2)
    (ih : ∀ p ∈ fields.zip fs, Restores D p.1.type p.2.2) :
    Json.Faithful D .none (Json.canon ((PyVal.struct head fs).tree D)) (.cls head.cls) := by
  obtain ⟨-, hnodup, -⟩ := Decls.wire_lookup hD hdecl
  rw [PyVal.tree_struct, Json.canon_obj]
  refine ⟨fun a ha => (by cases ha), fun c' d hc hd => ?_⟩
  cases hc
  rw [hdecl] at hd
  cases hd
  rw [Json.faithfulFields_iff, Json.forall_canon_entries, Assoc.mapVal, List.forall_mem_map]
  intro e he _ _
  obtain ⟨hefs, hkeep⟩ := List.mem_filter.mp he
  obtain ⟨f, hf⟩ := FieldDecl.mem_zip_of_mem hnames hefs
  have hname : e.1 = f.name := FieldDecl.name_eq_of_mem_zip hnames hf
  have hff := (List.of_mem_zip hf).1
  refine ⟨f, hname ▸ ClassDecl.field?_eq_some (d := ⟨.struct true, fields⟩) hnodup hff,
    (ih _ hf).faithful, fun w hw hcanon => ?_⟩
  -- it is kept, so it is no default of which there is one object only
  rw [Json.canon_canon (ih _ hf).wf] at hcanon
  rw [hname, Bool.not_eq_true', ← Bool.not_eq_true,
    omits_iff hD hdecl hff (ih _ hf).wire (htype _ hf)] at hkeep
  by_contra hone
  rw [Sharing.none, Bool.false_or, Bool.not_eq_false] at hone
  exact hkeep ⟨w, hw, hcanon, by rw [hone, Bool.or_true]⟩

theorem restores_struct (hD : D.wire = true)
    (hdecl : D.lookup head.cls = some ⟨.struct true, fields⟩)
    (hnames : fields.map FieldDecl.name = Assoc.keys fs)
    (htype : ∀ p ∈ fields.zip fs, HasType D p.1.type p.2.2)
    (ih : ∀ p ∈ fields.zip fs, Restores D p.1.type p.2.2) :
    Restores D (.cls head.cls) (.struct head fs) := by
  have hu : Assoc.Unique fs := by
    have := (Decls.wire_lookup hD hdecl).2.1
    rwa [Assoc.Unique, ← hnames]
  have hmem : ∀ e ∈ fs, e.2.Wire ∧ (e.2.tree D).WF := fun e he => by
    obtain ⟨f, hf⟩ := FieldDecl.mem_zip_of_mem hnames he
    exact ⟨(ih _ hf).wire, (ih _ hf).wf⟩
  refine ⟨.struct head fs fun e he => (hmem e he).1, ?_,
    readable_struct hD hdecl hnames htype ih, faithful_struct hD hdecl hnames htype ih⟩
  rw [PyVal.tree_struct, Json.wf_obj]
  refine ⟨Decls.unique_kept hu, ?_⟩
  rw [Assoc.mapVal, List.forall_mem_map]
  exact fun e he => (hmem e (List.mem_of_mem_filter he)).2

end Struct

/-- **What a well-typed value spells can be read back, and without loss.** -/
theorem restores (hD : D.wire = true) (ht : t.wire = true) (h : HasType D t v) :
    Restores D t v := by
  induction h with
  | any j hj =>
    refine ⟨PyVal.wire_toPy j, ?_, ⟨_, .any _⟩, Json.faithful_any _⟩
    rwa [PyVal.tree_toPy]
  | bool b => exact restores_leaf (.bool b) (Json.wf_bool b) (.bool b) trivial
  | int i => exact restores_leaf (.int i) (Json.wf_int i) (.int i) fun h => by cases h
  | str s => exact restores_leaf (.str s) (Json.wf_str s) (.str s) trivial
  | float f => exact restores_float f
  | list t xs h ih => exact restores_list fun x hx => ih x hx ht
  | dict t kvs hu h ih => exact restores_dict hu fun e he => ih e he ht
  | struct c head hhead b fields fs hdecl hnames h ih =>
    subst hhead
    obtain ⟨hkind, -, hwire⟩ := Decls.wire_lookup hD hdecl
    cases hkind
    exact restores_struct hD hdecl hnames h fun p hp =>
      ih p hp (FieldDecl.wire_iff.mp (hwire _ (List.of_mem_zip hp).1)).2.1
  | dataclass c fields fs hdecl hnames h ih => cases (Decls.wire_lookup hD hdecl).1
  | union u ts v hmem h ih =>
    obtain ⟨hpw, hpp, ⟨-, hne⟩ | ⟨heq, -⟩⟩ := Ty.wire_plain ht
    · exact absurd rfl (hne ts)
    · rw [Ty.union.injEq] at heq
      rw [heq] at hmem
      rcases List.mem_cons.mp hmem with rfl | hmem
      · obtain ⟨hw, hwf, ⟨r, hr⟩, hf⟩ := ih hpw
        exact ⟨hw, hwf, ⟨r, .union _ _ _ r (by rw [heq]; exact List.mem_cons_self) hr⟩,
          (Json.faithful_plain hpp).mp hf⟩
      · obtain rfl := List.mem_singleton.mp hmem
        cases h
        exact ⟨.none, Json.wf_null, ⟨_, .union .none _ _ _ (by rw [heq]; simp) .none⟩, trivial⟩
  | none | uuid | enum | annotated => cases ht

end HasType
end
