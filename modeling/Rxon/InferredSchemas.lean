import Rxon.ClosedSchemas
import Rxon.RoundTrip
import Rxon.Written

/-! # Inferred schemas accept what types produce

The serializer and the schema extractor follow the same declarations on their own.
`Conforms D t v` is what makes them agree on a value `v` of type `t`: an enum member has
a text for its value, as the schema of every enum asks, and the fields that a class's
schema requires are written, which leaves out those that hold `None` or, in a Struct that
omits defaults, what their factory makes.

A value that conforms is accepted, as `to_dict` returns it, by the schema of its type
(`accepts_written`). -/

namespace ClassKind

/-- An instance of a class of this kind; a dataclass has nothing of a head but its class. -/
def make : ClassKind → StructHead → List (String × PyVal) → PyVal
  | .struct _, head, fs => .struct head fs
  | .dataclass, head, fs => .dataclass head.cls fs

end ClassKind

namespace Rxon
open Memo
open Json (stripped)

section
variable (D : Decls) (lib : Introspection)

/-- The types that schemas are inferred for: scalars, lists, dicts, unions and `Annotated`
of such types, and classes with public fields of such types.  A derivation is finite, so
no class refers to itself. -/
inductive Inferable : Ty → Prop
  | scalar {t : Ty} (h : IsScalar t) : Inferable t
  | list {t : Ty} (h : Inferable t) : Inferable (.list t)
  | dict {t : Ty} (h : Inferable t) : Inferable (.dict t)
  | union {ts : List Ty} (h : ∀ t ∈ ts, Inferable t) : Inferable (.union ts)
  | annotated {t : Ty} (h : Inferable t) : Inferable (.annotated t)
  | cls {c : String} {d : ClassDecl} (hc : D.lookup c = some d)
      (h : ∀ f ∈ d.publicFields, Inferable f.type) : Inferable (.cls c)

/-- A value of the type, whose enum members have texts for their values and whose
required fields are written. -/
inductive Conforms : Ty → PyVal → Prop
  | none {t : Ty} (ht : .none ∈ t.alternatives) : Conforms t .none
  | bool {t : Ty} (b : Bool) (ht : .bool ∈ t.alternatives) : Conforms t (.bool b)
  | int {t : Ty} (i : Int) (ht : .int ∈ t.alternatives) : Conforms t (.int i)
  | float {t : Ty} (f : Binary64) (ht : .float ∈ t.alternatives) :
      Conforms t (.float (.finite f))
  | str {t : Ty} (s : String) (ht : .str ∈ t.alternatives) : Conforms t (.str s)
  | uuid {t : Ty} (s : String) (ht : .uuid ∈ t.alternatives) : Conforms t (.uuid s)
  | enum {t : Ty} {c m s : String} {members : List (String × PyVal)}
      (ht : .enum c members ∈ t.alternatives) (hm : (m, .str s) ∈ members) :
      Conforms t (.enum c m (.str s))
  | list {t item : Ty} {xs : List PyVal} (ht : .list item ∈ t.alternatives)
      (h : ∀ x ∈ xs, Conforms item x) : Conforms t (.list xs)
  | dict {t value : Ty} {kvs : List (String × PyVal)} (ht : .dict value ∈ t.alternatives) :
      Conforms t (.dict kvs)
  | cls {t : Ty} {c : StructHead} {d : ClassDecl} {fs : List (String × PyVal)} {v : PyVal}
      (ht : .cls c.cls ∈ t.alternatives) (hc : D.lookup c.cls = some d)
      (hv : v = d.kind.make c fs)
      (hnames : d.fieldNames = Assoc.keys fs)
      (hwritten : ∀ e ∈ fs, e.1 ∈ d.requiredNames → e.2 ≠ .none ∧ D.omits c e.1 e.2 = false)
      (h : ∀ p ∈ d.fields.zip fs, Conforms p.1.type p.2.2) : Conforms t v

variable {D lib} {t : Ty} {s : Schema} {v : PyVal} {j : Json}

/-! ## Alternatives -/

/-- The schema of a type accepts what that of an alternative does. -/
theorem SchemaOf.exists_alternative {a : Ty} (h : SchemaOf D lib t s) (ha : a ∈ t.alternatives) :
    ∃ s', SchemaOf D lib a s' ∧ ∀ v, s'.accepts v = true → s.accepts v = true := by
  induction h with
  | @leaf t s h =>
    cases t with
    | union | list | annotated => cases h
    | any | str | int | float | bool | none | uuid | enum | dict | cls | text | other =>
      rw [List.mem_singleton.mp ha]
      exact ⟨s, .leaf h, fun _ hv => hv⟩
  | @union ts ss hlen h ih =>
    obtain ⟨t, ht, ha⟩ := Ty.mem_alternativesList.mp ha
    obtain ⟨s, hp⟩ := List.exists_mem_zip_left hlen ht
    obtain ⟨s', hs', haccepts⟩ := ih _ hp ha
    refine ⟨s', hs', fun v hv => Schema.accepts_anyOf.mpr ⟨s, (List.of_mem_zip hp).2, ?_⟩⟩
    exact haccepts v hv
  | @list t s h _ =>
    rw [List.mem_singleton.mp ha]
    exact ⟨_, .list h, fun _ hv => hv⟩
  | annotated _ ih => exact ih ha
  | @cls c d ss hc hlen h _ =>
    rw [List.mem_singleton.mp ha]
    exact ⟨_, .cls hc hlen h, fun _ hv => hv⟩

theorem Conforms.mono {u : Ty} (h : Conforms D t v) (hsub : t.alternatives ⊆ u.alternatives) :
    Conforms D u v := by
  cases h with
  | none ht => exact .none (hsub ht)
  | bool b ht => exact .bool b (hsub ht)
  | int i ht => exact .int i (hsub ht)
  | float f ht => exact .float f (hsub ht)
  | str s ht => exact .str s (hsub ht)
  | uuid s ht => exact .uuid s (hsub ht)
  | enum ht hm => exact .enum (hsub ht) hm
  | list ht h => exact .list (hsub ht) h
  | dict ht => exact .dict (hsub ht)
  | cls ht hc hv hnames hwritten h => exact .cls (hsub ht) hc hv hnames hwritten h

/-- A value conforms through one of the alternatives. -/
theorem Conforms.exists_alternative (h : Conforms D t v) :
    ∃ a ∈ t.alternatives, Conforms D a v := by
  cases h with
  | none ht => exact ⟨_, ht, .none (List.mem_singleton_self _)⟩
  | bool b ht => exact ⟨_, ht, .bool b (List.mem_singleton_self _)⟩
  | int i ht => exact ⟨_, ht, .int i (List.mem_singleton_self _)⟩
  | float f ht => exact ⟨_, ht, .float f (List.mem_singleton_self _)⟩
  | str s ht => exact ⟨_, ht, .str s (List.mem_singleton_self _)⟩
  | uuid s ht => exact ⟨_, ht, .uuid s (List.mem_singleton_self _)⟩
  | enum ht hm => exact ⟨_, ht, .enum (List.mem_singleton_self _) hm⟩
  | list ht h => exact ⟨_, ht, .list (List.mem_singleton_self _) h⟩
  | dict ht => exact ⟨_, ht, .dict (List.mem_singleton_self _)⟩
  | cls ht hc hv hnames hwritten h =>
    exact ⟨_, ht, .cls (List.mem_singleton_self _) hc hv hnames hwritten h⟩

/-- What conforms to a type conforms to one that is equal. -/
theorem Conforms.of_same {u : Ty} (h : Conforms D t v) (hsame : u.same t = true) :
    Conforms D u v := by
  have hleaf {t u a : Ty} (hsame : u.same t = true) (ha : a ∈ t.alternatives)
      (honly : ∀ a', a'.same a = true → a' = a) : a ∈ u.alternatives := by
    obtain ⟨a', ha', hsame⟩ := Ty.exists_same_alternative hsame ha
    rwa [← honly a' hsame]
  induction h generalizing u with
  | none ht => exact .none (hleaf hsame ht fun a h => by cases a <;> first | rfl | cases h)
  | bool b ht => exact .bool b (hleaf hsame ht fun a h => by cases a <;> first | rfl | cases h)
  | int i ht => exact .int i (hleaf hsame ht fun a h => by cases a <;> first | rfl | cases h)
  | float f ht => exact .float f (hleaf hsame ht fun a h => by cases a <;> first | rfl | cases h)
  | str s ht => exact .str s (hleaf hsame ht fun a h => by cases a <;> first | rfl | cases h)
  | uuid s ht => exact .uuid s (hleaf hsame ht fun a h => by cases a <;> first | rfl | cases h)
  | enum ht hm =>
    obtain ⟨a, ha, hsame⟩ := Ty.exists_same_alternative hsame ht
    cases a with
    | enum c' ms' =>
      rw [Ty.same, Bool.and_eq_true, decide_eq_true_eq] at hsame
      obtain ⟨rfl, hms⟩ := hsame
      exact .enum ha (Ty.mem_of_sameMembers hms hm)
    | _ => cases hsame
  | list ht _ ih =>
    obtain ⟨a, ha, hsame⟩ := Ty.exists_same_alternative hsame ht
    cases a with
    | list item =>
      rw [Ty.same] at hsame
      exact .list ha fun x hx => ih x hx hsame
    | _ => cases hsame
  | dict ht =>
    obtain ⟨a, ha, hsame⟩ := Ty.exists_same_alternative hsame ht
    cases a with
    | dict value => exact .dict ha
    | _ => cases hsame
  | cls ht hc hv hnames hwritten h _ =>
    refine .cls (hleaf hsame ht fun a h => ?_) hc hv hnames hwritten h
    cases a with
    | cls c' =>
      rw [Ty.same, decide_eq_true_eq] at h
      rw [h]
    | _ => cases h

/-- What conforms to an alternative without metadata does to the type without any. -/
theorem conforms_of_alternative {a : Ty} (ha : a ∈ t.alternatives)
    (h : Conforms D a.withoutExtras v) : Conforms D t.withoutExtras v := by
  induction t with
  | union ts ih =>
    obtain ⟨t, ht, ha⟩ := Ty.mem_alternativesList.mp ha
    have hconforms : Conforms D t.withoutExtras v := ih t ht ha
    rw [Ty.withoutExtras_union]
    by_cases hextras : Ty.hasExtrasList ts = true
    · rw [if_pos hextras]
      obtain ⟨a, ha, h⟩ := hconforms.exists_alternative
      have hmem := List.mem_map_of_mem (f := Ty.withoutExtras) ht
      rcases Ty.unionOf_alternatives hmem ha with ha | ⟨a', ha', hsame⟩
      · exact h.mono (Ty.alternatives_subset ha)
      · exact (h.of_same hsame).mono (Ty.alternatives_subset ha')
    · rw [if_neg hextras]
      rw [Bool.not_eq_true, Ty.hasExtrasList_iff] at hextras
      rw [Ty.withoutExtras_eq (hextras t ht)] at hconforms
      exact hconforms.mono fun a ha => Ty.mem_alternativesList.mpr ⟨t, ht, ha⟩
  | annotated t ih => exact ih ha
  | any | str | int | float | bool | none | uuid | enum | list | dict | cls | text | other =>
    rwa [List.mem_singleton.mp ha] at h

/-- What conforms does without metadata. -/
theorem Conforms.withoutExtras (h : Conforms D t v) : Conforms D t.withoutExtras v := by
  induction h with
  | none ht => exact conforms_of_alternative ht (.none (List.mem_singleton_self _))
  | bool b ht => exact conforms_of_alternative ht (.bool b (List.mem_singleton_self _))
  | int i ht => exact conforms_of_alternative ht (.int i (List.mem_singleton_self _))
  | float f ht => exact conforms_of_alternative ht (.float f (List.mem_singleton_self _))
  | str s ht => exact conforms_of_alternative ht (.str s (List.mem_singleton_self _))
  | uuid s ht => exact conforms_of_alternative ht (.uuid s (List.mem_singleton_self _))
  | enum ht hm => exact conforms_of_alternative ht (.enum (List.mem_singleton_self _) hm)
  | list ht _ ih => exact conforms_of_alternative ht (.list (List.mem_singleton_self _) ih)
  | dict ht => exact conforms_of_alternative ht (.dict (List.mem_singleton_self _))
  | cls ht hc hv hnames hwritten h _ =>
    exact conforms_of_alternative ht (.cls (List.mem_singleton_self _) hc hv hnames hwritten h)

theorem Conforms.hint {f : FieldDecl} (h : Conforms D f.type v) (k : ClassKind) :
    Conforms D (k.hint f) v := by
  cases k with
  | struct => exact h
  | dataclass => exact h.withoutExtras

/-! ## Acceptance -/

theorem written_make {d : ClassDecl} {c : StructHead} (hc : D.lookup c.cls = some d)
    (fs : List (String × PyVal)) : (d.kind.make c fs).written D = some (D.kept c fs) := by
  obtain ⟨kind, fields⟩ := d
  cases kind with
  | struct => rfl
  | dataclass =>
    have hkept : D.kept c fs = fs := by
      refine List.filter_eq_self.mpr fun e _ => ?_
      simp [Decls.omits, hc, ClassDecl.omits]
    rw [hkept]
    rfl

theorem sendable_make {d : ClassDecl} {c : StructHead} {fs : List (String × PyVal)}
    (h : PyVal.Sendable (d.kind.make c fs)) :
    Assoc.Unique fs ∧ ∀ e ∈ fs, e.1.toList.head? ≠ some '_' := by
  obtain ⟨kind, fields⟩ := d
  cases kind with
  | struct =>
    cases h with
    | struct hunique hpublic _ => exact ⟨hunique, hpublic⟩
  | dataclass =>
    cases h with
    | dataclass hunique hpublic _ => exact ⟨hunique, hpublic⟩

/-- Among values that conform only `None` is written as null. -/
theorem Conforms.not_null (h : Conforms D t v) (hv : v ≠ .none) (hw : PyVal.Writes D v j) :
    j.isNull = false := by
  cases hw with
  | none => exact absurd rfl hv
  | enum c m hw =>
    cases h with
    | enum =>
      cases hw with
      | str => rfl
      | obj g hwritten => cases hwritten
    | @cls _ _ d _ _ _ _ hmake =>
      obtain ⟨kind, fields⟩ := d
      cases kind <;> cases hmake
  | bool | int | float | str | uuid | list | obj => rfl

/-- The entries of a stripped object are those of the value that are not null. -/
theorem mem_stripped_iff {kvs : List (String × PyVal)} {es : List (String × Json)}
    {g : PyVal → Json} (hperm : es.Perm (Assoc.mapVal g kvs)) {e : String × Json} :
    e ∈ Assoc.mapVal stripped (Json.nonNull es) ↔
      ∃ r ∈ kvs, (g r.2).isNull = false ∧ (r.1, stripped (g r.2)) = e := by
  constructor
  · intro he
    obtain ⟨e, hkept, rfl⟩ := List.mem_map.mp he
    obtain ⟨hmem, hnull⟩ := List.mem_filter.mp hkept
    obtain ⟨r, hr, rfl⟩ := (PyVal.Writes.mem_iff hperm).mp hmem
    exact ⟨r, hr, by simpa using hnull, rfl⟩
  · rintro ⟨r, hr, hnull, rfl⟩
    have hmem : (r.1, g r.2) ∈ es := (PyVal.Writes.mem_iff hperm).mpr ⟨r, hr, rfl⟩
    exact List.mem_map.mpr ⟨(r.1, g r.2), List.mem_filter.mpr ⟨hmem, by simpa using hnull⟩, rfl⟩

/-- A field of an instance is the field of its name. -/
theorem field_of_entry {d : ClassDecl} {fs : List (String × PyVal)} (hunique : Assoc.Unique fs)
    (hnames : d.fieldNames = Assoc.keys fs) {f f' : FieldDecl} {r : String × PyVal}
    (hzip : (f', r) ∈ d.fields.zip fs) (hf : f ∈ d.fields) (hname : r.1 = f.name) : f' = f := by
  have hnodup : (d.fields.map FieldDecl.name).Nodup := by
    show d.fieldNames.Nodup
    rwa [hnames]
  apply List.inj_on_of_nodup_map hnodup (List.of_mem_zip hzip).1 hf
  exact (FieldDecl.name_eq_of_mem_zip hnames hzip).symm.trans hname

/-- **An instance is accepted** when its entries are: it has the required ones, and no
other than the declared ones. -/
theorem accepts_instance {c : StructHead} {d : ClassDecl} {fs : List (String × PyVal)}
    {es : List (String × Json)} {g : PyVal → Json} {ss : List Schema}
    (hunique : Assoc.Unique fs) (hpublic : ∀ e ∈ fs, e.1.toList.head? ≠ some '_')
    (hnames : d.fieldNames = Assoc.keys fs)
    (hwritten : ∀ e ∈ fs, e.1 ∈ d.requiredNames → e.2 ≠ .none ∧ D.omits c e.1 e.2 = false)
    (hfields : ∀ p ∈ d.fields.zip fs, Conforms D p.1.type p.2.2)
    (hlen : d.publicFields.length = ss.length)
    (hperm : es.Perm (Assoc.mapVal g (D.kept c fs)))
    (hw : ∀ e ∈ D.kept c fs, PyVal.Writes D e.2 (g e.2))
    (haccepts : ∀ p ∈ d.publicFields.zip ss, ∀ e ∈ D.kept c fs, Conforms D (d.kind.hint p.1) e.2 →
      p.2.accepts (stripped (g e.2)) = true) :
    (classSchema d ss).accepts (stripped (.obj es)) = true := by
  have hkept : ∀ e ∈ D.kept c fs, e ∈ fs := fun e he => List.mem_of_mem_filter he
  rw [Json.stripped_obj]
  refine Schema.accepts_closedObject.mpr ⟨_, rfl, ?_, ?_, ?_⟩
  · -- a property has one field, and that is the field of the entry
    intro p hp e he hname
    obtain ⟨r, hr, -, rfl⟩ := (mem_stripped_iff hperm).mp he
    obtain ⟨⟨f, s⟩, hfs, rfl⟩ := mem_properties.mp hp
    obtain ⟨f', hzip⟩ := FieldDecl.mem_zip_of_mem hnames (hkept r hr)
    have hf : f ∈ d.fields := List.mem_of_mem_filter (List.of_mem_zip hfs).1
    obtain rfl := field_of_entry hunique hnames hzip hf hname
    exact haccepts _ hfs r hr ((hfields _ hzip).hint d.kind)
  · -- a required field is kept, and is not written as null
    intro name hname
    obtain ⟨f, hf, rfl⟩ := List.mem_map.mp hname
    have hmem : f ∈ d.fields := List.mem_of_mem_filter (List.mem_of_mem_filter hf)
    obtain ⟨r, hzip⟩ := FieldDecl.exists_mem_zip hnames hmem
    have hr := (List.of_mem_zip hzip).2
    have hrname := FieldDecl.name_eq_of_mem_zip hnames hzip
    dsimp only at hrname
    obtain ⟨hnone, homits⟩ := hwritten r hr (hrname ▸ hname)
    have hrkept : r ∈ D.kept c fs := List.mem_filter.mpr ⟨hr, by simpa using homits⟩
    have hnull := (hfields _ hzip).not_null hnone (hw r hrkept)
    rw [← hrname]
    exact Assoc.mem_keys_of_mem ((mem_stripped_iff hperm).mpr ⟨r, hrkept, hnull, rfl⟩)
  · -- instances that can be sent have public fields only
    intro name hname
    obtain ⟨e, he, rfl⟩ := List.mem_map.mp hname
    obtain ⟨r, hr, -, rfl⟩ := (mem_stripped_iff hperm).mp he
    rw [keys_properties hlen]
    obtain ⟨f, hzip⟩ := FieldDecl.mem_zip_of_mem hnames (hkept r hr)
    have hrname := FieldDecl.name_eq_of_mem_zip hnames hzip
    have hf : f ∈ d.publicFields := by
      refine List.mem_filter.mpr ⟨(List.of_mem_zip hzip).1, ?_⟩
      have := hpublic r (hkept r hr)
      rw [hrname] at this
      simpa [FieldDecl.isPublic] using this
    dsimp only at hrname ⊢
    rw [hrname]
    exact List.mem_map_of_mem hf

/-! ## Inferable types -/

theorem inferable_union {ts : List Ty} :
    Inferable D (.union ts) ↔ ∀ t ∈ ts, Inferable D t := by
  constructor
  · intro h
    cases h with
    | scalar h => exact h.elim
    | union h => exact h
  · exact .union

theorem Inferable.withoutExtras (h : Inferable D t) : Inferable D t.withoutExtras := by
  induction h with
  | @scalar t h =>
    cases t with
    | str | int | float | bool | none | uuid | enum => exact .scalar trivial
    | any | list | dict | union | annotated | cls | text | other => exact h.elim
  | list _ ih => exact .list ih
  | dict _ ih => exact .dict ih
  | @union ts h ih =>
    rw [Ty.withoutExtras_union]
    split
    · exact Ty.unionOf_induction (fun _ => inferable_union) (List.forall_mem_map.mpr ih)
    · exact .union h
  | annotated _ ih => exact ih
  | cls hc h _ => exact .cls hc h

theorem Inferable.hint {f : FieldDecl} (h : Inferable D f.type) (k : ClassKind) :
    Inferable D (k.hint f) := by
  cases k with
  | struct => exact h
  | dataclass => exact h.withoutExtras

theorem Inferable.of_alternative {a : Ty} (h : Inferable D t) (ha : a ∈ t.alternatives) :
    Inferable D a := by
  induction h with
  | @scalar t h =>
    cases t with
    | str | int | float | bool | none | uuid | enum =>
      rw [List.mem_singleton.mp ha]
      exact .scalar trivial
    | any | list | dict | union | annotated | cls | text | other => exact h.elim
  | list h _ =>
    rw [List.mem_singleton.mp ha]
    exact .list h
  | dict h _ =>
    rw [List.mem_singleton.mp ha]
    exact .dict h
  | union _ ih =>
    obtain ⟨t, ht, ha⟩ := Ty.mem_alternativesList.mp ha
    exact ih t ht ha
  | annotated _ ih => exact ih ha
  | cls hc h _ =>
    rw [List.mem_singleton.mp ha]
    exact .cls hc h

/-- Every inferable type has a schema, and so it does without metadata. -/
theorem Inferable.exists_schemaOf (hlib : ∀ t, Inferable D t → lib.modelSchema t = none)
    (ht : Inferable D t) :
    (∃ s, SchemaOf D lib t s) ∧ ∃ s, SchemaOf D lib t.withoutExtras s := by
  induction ht with
  | @scalar t h =>
    cases t with
    | str | int | float | bool | none | uuid | enum => exact ⟨⟨_, .leaf rfl⟩, ⟨_, .leaf rfl⟩⟩
    | any | list | dict | union | annotated | cls | text | other => exact h.elim
  | list _ ih =>
    obtain ⟨⟨s, hs⟩, ⟨s', hs'⟩⟩ := ih
    exact ⟨⟨_, .list hs⟩, ⟨_, .list hs'⟩⟩
  | dict _ _ => exact ⟨⟨_, .leaf rfl⟩, ⟨_, .leaf rfl⟩⟩
  | @union ts _ ih =>
    have hunion : ∃ s, SchemaOf D lib (.union ts) s :=
      exists_schemaOf_union.mpr fun t ht => (ih t ht).1
    refine ⟨hunion, ?_⟩
    rw [Ty.withoutExtras_union]
    split
    · exact Ty.unionOf_induction (P := fun t => ∃ s, SchemaOf D lib t s)
        (fun _ => exists_schemaOf_union) (List.forall_mem_map.mpr fun t ht => (ih t ht).2)
    · exact hunion
  | annotated _ ih =>
    obtain ⟨⟨s, hs⟩, hstripped⟩ := ih
    exact ⟨⟨s, .annotated hs⟩, hstripped⟩
  | @cls c d hc hfields ih =>
    have hplain : Plain D lib c d := ⟨hc, hlib _ (.cls hc hfields)⟩
    have hfield : ∀ f ∈ d.publicFields, ∃ s, SchemaOf D lib (d.kind.hint f) s := by
      intro f hf
      cases d.kind with
      | struct => exact (ih f hf).1
      | dataclass => exact (ih f hf).2
    obtain ⟨ss, hlen, hss⟩ := exists_zip hfield
    exact ⟨⟨_, .cls hplain hlen hss⟩, ⟨_, .cls hplain hlen hss⟩⟩

/-! ## Values that conform -/

/-- A document that the schema of an alternative accepts. -/
theorem accepts_leaf {a : Ty} {s₀ : Schema} {x : Json} (hs : SchemaOf D lib t s)
    (ha : a ∈ t.alternatives) (hleaf : leafSchema D lib a = some s₀) (h : s₀.accepts x = true) :
    s.accepts x = true := by
  obtain ⟨s', hs', haccepts⟩ := hs.exists_alternative ha
  apply haccepts
  rwa [hs'.unique (.leaf hleaf)]

theorem admits_stripped_float (f : Binary64) :
    JsonType.number.admits (stripped (.float f)) = true := by
  by_cases h : f.IsInteger
  · rw [Json.stripped_float_of_holds (Binary64.holds_toInt h)]
    rfl
  · rw [Json.stripped_float_of_not h]
    rfl

/-- What is not written as an object is no instance. -/
theorem ne_make {d : ClassDecl} {c : StructHead} {fs : List (String × PyVal)}
    (hv : v.written D = none) (hc : D.lookup c.cls = some d) : v ≠ d.kind.make c fs := by
  rintro rfl
  rw [written_make hc] at hv
  cases hv

/-- The schema of a type with lists among its alternatives accepts those whose items the
schema of the items accepts. -/
theorem accepts_items {item : Ty} {xs : List Json} (hs : SchemaOf D lib t s)
    (ha : .list item ∈ t.alternatives)
    (h : ∀ s', SchemaOf D lib item s' → ∀ x ∈ xs, s'.accepts x = true) :
    s.accepts (.arr xs) = true := by
  obtain ⟨s', hs', haccepts⟩ := hs.exists_alternative ha
  apply haccepts
  cases hs' with
  | leaf hleaf => cases hleaf
  | list hitem => exact Schema.accepts_array.mpr ⟨xs, rfl, h _ hitem⟩

/-- **A document of a value that conforms is accepted**, stripped, by the schema of the
type. -/
theorem accepts_written (hlib : ∀ t, Inferable D t → lib.modelSchema t = none)
    (ht : Inferable D t) (hv : Conforms D t v) (hsend : PyVal.Sendable v) (hs : SchemaOf D lib t s)
    (hw : PyVal.Writes D v j) : s.accepts (stripped j) = true := by
  -- along the document; scalars are accepted by the schema of the alternative they belong to
  induction hw generalizing t s with
  | none =>
    cases hv with
    | none ha => exact accepts_leaf hs ha rfl rfl
    | cls _ hc hmake => exact absurd hmake (ne_make rfl hc)
  | bool b =>
    cases hv with
    | bool _ ha => exact accepts_leaf hs ha rfl rfl
    | cls _ hc hmake => exact absurd hmake (ne_make rfl hc)
  | int i =>
    cases hv with
    | int _ ha => exact accepts_leaf hs ha rfl rfl
    | cls _ hc hmake => exact absurd hmake (ne_make rfl hc)
  | float f =>
    cases hv with
    | float _ ha =>
      refine accepts_leaf hs ha rfl ?_
      rw [Schema.accepts_typed]
      exact admits_stripped_float f
    | cls _ hc hmake => exact absurd hmake (ne_make rfl hc)
  | str s =>
    cases hv with
    | str _ ha => exact accepts_leaf hs ha rfl rfl
    | cls _ hc hmake => exact absurd hmake (ne_make rfl hc)
  | uuid s =>
    cases hv with
    | uuid _ ha => exact accepts_leaf hs ha rfl rfl
    | cls _ hc hmake => exact absurd hmake (ne_make rfl hc)
  | enum c m hvalue =>
    cases hv with
    | enum ha hm =>
      cases hvalue with
      | str =>
        have hmem := List.mem_map_of_mem (f := Prod.snd) hm
        refine accepts_leaf hs ha rfl (Schema.accepts_enum.mpr ⟨rfl, _, hmem, ?_⟩)
        simp [stripped, PyVal.eq, PyVal.same, Json.toPy]
      | obj g hwritten => cases hwritten
    | cls _ hc hmake => exact absurd hmake (ne_make rfl hc)
  | @list xs g _ ih =>
    cases hv with
    | list ha hitems =>
      cases hsend with
      | list hsend =>
        rw [Json.stripped_arr]
        refine accepts_items hs ha fun s' hs' y hy => ?_
        obtain ⟨z, hz, rfl⟩ := List.mem_map.mp hy
        obtain ⟨x, hx, rfl⟩ := List.mem_map.mp hz
        cases ht.of_alternative ha with
        | scalar h => exact h.elim
        | list hitem => exact ih x hx hitem (hitems x hx) (hsend x hx) hs'
    | cls _ hc hmake => exact absurd hmake (ne_make rfl hc)
  | @obj v kvs es g hwritten hperm hentries ih =>
    have hsendable := hsend.written hwritten
    cases hv with
    | none | bool | int | float | str | uuid | enum | list => cases hwritten
    | dict ha =>
      -- whatever it holds: the schema of a dict says nothing of its values
      rw [Json.stripped_obj]
      exact accepts_leaf hs ha rfl rfl
    | @cls t c d fs v ha hc hmake hnames hpresent hfields =>
      subst hmake
      obtain rfl := Option.some.inj ((written_make hc fs).symm.trans hwritten)
      obtain ⟨hunique, hpublic⟩ := sendable_make hsend
      obtain ⟨s', hs', haccepts⟩ := hs.exists_alternative ha
      apply haccepts
      cases ht.of_alternative ha with
      | scalar h => exact h.elim
      | cls hc' hinferable =>
        obtain rfl := Option.some.inj (hc.symm.trans hc')
        obtain ⟨ss, rfl, hlen, hss⟩ := hs'.cases_cls ⟨hc, hlib _ (ht.of_alternative ha)⟩
        refine accepts_instance hunique hpublic hnames hpresent hfields hlen hperm hentries ?_
        intro p hp e he hconforms
        have hf := (List.of_mem_zip hp).1
        exact ih e he ((hinferable _ hf).hint d.kind) hconforms (hsendable e he) (hss p hp)

end

/-- A receipt, with a note. -/
def receiptDecls : Decls :=
  [("Receipt", ⟨.struct true, [⟨"receipt_id", .str, .required⟩,
    ⟨"notes", .optional .str, .value .none⟩]⟩)]

def receipt : PyVal := .struct ⟨"Receipt", []⟩ [("receipt_id", .str "r-1"), ("notes", .none)]

theorem inferable_receipt : Inferable receiptDecls (.cls "Receipt") := by
  have hnotes : Inferable receiptDecls (.optional .str) :=
    .union (List.forall_mem_cons.mpr ⟨.scalar trivial,
      List.forall_mem_singleton.mpr (.scalar trivial)⟩)
  exact .cls rfl (List.forall_mem_cons.mpr ⟨.scalar trivial, List.forall_mem_singleton.mpr hnotes⟩)

theorem conforms_receipt : Conforms receiptDecls (.cls "Receipt") receipt := by
  refine .cls (c := ⟨"Receipt", []⟩) (List.mem_singleton_self _) rfl rfl rfl ?_ ?_
  · decide
  · have hnone : Ty.none ∈ (Ty.optional .str).alternatives := by
      simp [Ty.optional, Ty.alternatives, Ty.alternativesList]
    exact List.forall_mem_cons.mpr ⟨.str _ (List.mem_singleton_self _),
      List.forall_mem_singleton.mpr (.none hnone)⟩

/-- Whether the schema that is extracted for a type accepts what `to_dict` returns for a
value, where both return. -/
def inferredAccepts {D : Decls} (rt : Runtime D) (frames : Nat) (t : Ty) (v : PyVal) :
    Option Bool :=
  match ((extractJsonSchema D .bare frames t).run.run (Cache.empty : TypeSchemaCache)).1,
    toDict rt v 0 with
  | .ok (some s), .ok x => some (s.accepts x)
  | _, _ => none

/-- `list[list[...]]`, and a value of it. -/
def nestedType : Nat → Ty
  | 0 => .int
  | n + 1 => .list (nestedType n)

def nestedValue : Nat → PyVal
  | 0 => .int 0
  | n + 1 => .list [nestedValue n]

theorem hasType_nested (D : Decls) (n : Nat) : HasType D (nestedType n) (nestedValue n) := by
  induction n with
  | zero => exact .int 0
  | succ n ih => exact .list _ _ (List.forall_mem_singleton.mpr ih)

/-- A Struct that omits an empty list, and one whose field is always `None`. -/
def slipDecls : Decls :=
  [("Batch", ⟨.struct true, [⟨"items", .list .str, .factory (.list [])⟩]⟩),
    ("Slot", ⟨.struct false, [⟨"reserved", .none, .required⟩]⟩)]

/-- `class Level(Enum): LOW = 1`. -/
def levelType : Ty := .enum "Level" [("LOW", .int 1)]

abbrev slipRuntime : Runtime slipDecls := Runtime.reference slipDecls fun _ => ""

end Rxon
