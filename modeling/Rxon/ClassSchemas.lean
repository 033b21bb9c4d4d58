import Rxon.ParameterSchemas

/-! # Structs and dataclasses

The two loops over the fields of a class differ in what they are told of a field.  A
Struct shows its annotation as it is written and its default, but a factory is no default
to it; a dataclass shows its annotation without metadata, and both.  A Struct and a
dataclass that declare the same fields have the same schema iff no field has a factory
without being optional, and metadata change neither whether a field is optional nor the
form of its unions (`classes_agree_iff`). -/

namespace Ty

def isUnion : Ty → Bool
  | .union _ => true
  | _ => false

/-- Whether a union of just these alternatives keeps each of them. -/
def keepsShape (ts : List Ty) : Bool :=
  decide (ts.length ≠ 1) && ts.all (fun t => !t.isUnion) &&
    decide ((dedupe [] ts).length = ts.length)

mutual

/-- Metadata are all that the annotation loses with them: no union in it has parts that
become one alternative, or more than one. -/
def stripsEvenly : Ty → Bool
  | .list t | .annotated t => stripsEvenly t
  | .union ts =>
    !hasExtrasList ts || stripEvenly ts && keepsShape (withoutExtrasList ts)
  | _ => true

def stripEvenly : List Ty → Bool
  | [] => true
  | t :: ts => stripsEvenly t && stripEvenly ts

end

theorem flatMap_members {ts : List Ty} (h : ts.all (fun t => !t.isUnion) = true) :
    ts.flatMap members = ts := by
  induction ts with
  | nil => rfl
  | cons t ts ih =>
    rw [List.all_cons, Bool.and_eq_true] at h
    rw [List.flatMap_cons, ih h.2]
    cases t with
    | union => simp [isUnion] at h
    | any | str | int | float | bool | none | uuid | enum | list | dict | annotated | cls
      | text | other => rfl

theorem dedupe_eq {ts : List Ty} (h : (dedupe [] ts).length = ts.length) : dedupe [] ts = ts :=
  (dedupe_sublist [] ts).eq_of_length h

theorem unionOf_of_keepsShape {ts : List Ty} (h : keepsShape ts = true) :
    unionOf ts = .union ts := by
  simp only [keepsShape, Bool.and_eq_true, decide_eq_true_eq] at h
  obtain ⟨⟨hlen, hall⟩, hdedupe⟩ := h
  unfold unionOf
  rw [flatMap_members hall, dedupe_eq hdedupe]
  split
  · exact absurd rfl hlen
  · rfl

end Ty

namespace FieldDecl

/-- A field that has to be given: it has neither a default nor a factory, and is not
optional. -/
def IsRequired (f : FieldDecl) : Prop :=
  f.default = .required ∧ f.type.withoutExtras.isOptional = false

/-- Nothing of the field shows in one of the two kinds of classes only. -/
structure Uniform (f : FieldDecl) : Prop where
  factory : (∃ v, f.default = .factory v) → f.type.isOptional = true
  optional : f.default = .required → f.type.withoutExtras.isOptional = f.type.isOptional
  evenly : f.type.stripsEvenly = true

end FieldDecl

namespace Rxon
open Memo

section
variable {D : Decls} {lib : Introspection} {t : Ty} {s : Schema} {ts us : List Ty}
  {ss : List Schema}

/-! ## Sizes -/

theorem sizeOf_anyOf (ss : List Schema) : sizeOf (Schema.mk [.anyOf ss]) = 4 + sizeOf ss := by
  simp
  omega

variable (D lib) in
/-- The alternatives of a union, and their schemas. -/
abbrev SchemasOf : List Ty → List Schema → Prop := List.Forall₂ (SchemaOf D lib)

theorem schemaOf_union (h : SchemasOf D lib ts ss) :
    SchemaOf D lib (.union ts) (.mk [.anyOf ss]) :=
  .union h.length_eq fun _ hp => (List.forall₂_iff_zip.mp h).2 hp

theorem SchemasOf.of_sublist (h : SchemasOf D lib ts ss) (hsub : us.Sublist ts) :
    ∃ ss', SchemasOf D lib us ss' ∧ sizeOf ss' ≤ sizeOf ss ∧
      (us.length ≠ ts.length → sizeOf ss' < sizeOf ss) := by
  induction hsub generalizing ss with
  | slnil => exact ⟨ss, h, Nat.le_refl _, fun hne => absurd rfl hne⟩
  | @cons us ts t hsub ih =>
    cases h with
    | @cons _ s _ ss hs hss =>
      obtain ⟨ss', hss', hle, -⟩ := ih hss
      refine ⟨ss', hss', ?_, fun _ => ?_⟩ <;> simp only [List.cons.sizeOf_spec] <;> omega
  | @cons_cons us ts t hsub ih =>
    cases h with
    | @cons _ s _ ss hs hss =>
      obtain ⟨ss', hss', hle, hlt⟩ := ih hss
      refine ⟨s :: ss', .cons hs hss', ?_, fun hne => ?_⟩
      · simp only [List.cons.sizeOf_spec]
        omega
      · have := hlt fun heq => hne (congrArg (· + 1) heq)
        simp only [List.cons.sizeOf_spec]
        omega

theorem sizeOf_append (ss ss' : List Schema) : sizeOf (ss ++ ss') + 1 = sizeOf ss + sizeOf ss' := by
  induction ss with
  | nil => simp [Nat.add_comm]
  | cons s ss ih =>
    simp only [List.cons_append, List.cons.sizeOf_spec]
    omega

/-- Nested unions are smaller as parts of the outer one. -/
theorem SchemasOf.flatten (h : SchemasOf D lib us ss) :
    ∃ ss', SchemasOf D lib (us.flatMap Ty.members) ss' ∧ sizeOf ss' ≤ sizeOf ss ∧
      (us.all (fun t => !t.isUnion) = false → sizeOf ss' < sizeOf ss) := by
  induction h with
  | nil => exact ⟨[], .nil, Nat.le_refl _, fun h => by cases h⟩
  | @cons u s us ss hs _ ih =>
    obtain ⟨ss', hss', hle, hlt⟩ := ih
    by_cases hunion : ∃ vs, u = .union vs
    · obtain ⟨vs, rfl⟩ := hunion
      cases hs with
      | leaf h => cases h
      | @union _ ss₀ hlen h =>
        have hss₀ : SchemasOf D lib vs ss₀ :=
          List.forall₂_iff_zip.mpr ⟨hlen, fun hp => h _ hp⟩
        have happend := sizeOf_append ss₀ ss'
        have hanyOf := sizeOf_anyOf ss₀
        refine ⟨ss₀ ++ ss', List.rel_append hss₀ hss', ?_, fun _ => ?_⟩ <;>
          rw [List.cons.sizeOf_spec] <;> omega
    · have hu : u.isUnion = false ∧ u.members = [u] := by
        cases u with
        | union vs => exact absurd ⟨vs, rfl⟩ hunion
        | any | str | int | float | bool | none | uuid | enum | list | dict | annotated | cls
          | text | other => exact ⟨rfl, rfl⟩
      refine ⟨s :: ss', ?_, ?_, fun hall => ?_⟩
      · rw [List.flatMap_cons, hu.2]
        exact .cons hs hss'
      · simp only [List.cons.sizeOf_spec]
        omega
      · have := hlt (by simpa [hu.1] using hall)
        simp only [List.cons.sizeOf_spec]
        omega

/-- **A union that does not keep its shape has a smaller schema.** -/
theorem SchemasOf.unionOf (h : SchemasOf D lib us ss) (hshape : Ty.keepsShape us = false) :
    ∃ s, SchemaOf D lib (Ty.unionOf us) s ∧ sizeOf s < sizeOf (Schema.mk [.anyOf ss]) := by
  obtain ⟨ss₁, hss₁, hle₁, hlt₁⟩ := h.flatten
  obtain ⟨ss₂, hss₂, hle₂, hlt₂⟩ := hss₁.of_sublist (Ty.dedupe_sublist [] _)
  rw [sizeOf_anyOf]
  unfold Ty.unionOf
  split
  · next u heq =>
    rw [heq] at hss₂
    obtain ⟨s, _, hs, hnil, rfl⟩ := List.forall₂_cons_left_iff.mp hss₂
    refine ⟨s, hs, ?_⟩
    rw [List.cons.sizeOf_spec] at hle₂
    omega
  · next hne =>
    refine ⟨_, schemaOf_union hss₂, ?_⟩
    rw [sizeOf_anyOf]
    by_cases hall : us.all (fun t => !t.isUnion) = true
    · rw [Ty.flatMap_members hall] at hlt₂ hne
      have hlen : (Ty.dedupe [] us).length ≠ us.length := by
        intro hlen
        rw [Ty.dedupe_eq hlen] at hne
        have hone : us.length = 1 := by simpa [Ty.keepsShape, hall, hlen] using hshape
        obtain ⟨u, hu⟩ := List.length_eq_one_iff.mp hone
        exact hne u hu
      have := hlt₂ hlen
      omega
    · have := hlt₁ (by simpa using hall)
      omega

/-- The alternatives, each without its metadata. -/
theorem SchemasOf.stripped (hlen : ts.length = ss.length)
    (h : ∀ p ∈ ts.zip ss, ∃ s', SchemaOf D lib p.1.withoutExtras s' ∧ sizeOf s' ≤ sizeOf p.2 ∧
      (s' = p.2 ↔ p.1.stripsEvenly = true)) :
    ∃ ss', SchemasOf D lib (ts.map Ty.withoutExtras) ss' ∧ sizeOf ss' ≤ sizeOf ss ∧
      (ss' = ss ↔ Ty.stripEvenly ts = true) := by
  induction ts generalizing ss with
  | nil =>
    cases ss with
    | nil => exact ⟨[], .nil, Nat.le_refl _, iff_of_true rfl rfl⟩
    | cons => cases hlen
  | cons t ts ih =>
    cases ss with
    | nil => cases hlen
    | cons s ss =>
      obtain ⟨ht, hts⟩ := List.forall_mem_cons.mp h
      obtain ⟨s', hs', hle, hiff⟩ := ht
      obtain ⟨ss', hss', hles, hiffs⟩ := ih (Nat.succ.inj hlen) hts
      refine ⟨s' :: ss', .cons hs' hss', ?_, ?_⟩
      · dsimp only at hle
        simp only [List.cons.sizeOf_spec]
        omega
      · rw [List.cons.injEq, hiff, hiffs, Ty.stripEvenly, Bool.and_eq_true]

/-- **Without metadata a type has a schema that is no larger, and the same one iff
metadata are all that it loses.** -/
theorem SchemaOf.withoutExtras (h : SchemaOf D lib t s) :
    ∃ s', SchemaOf D lib t.withoutExtras s' ∧ sizeOf s' ≤ sizeOf s ∧
      (s' = s ↔ t.stripsEvenly = true) := by
  induction h with
  | @leaf t s h =>
    cases t with
    | union | list | annotated => cases h
    | any | str | int | float | bool | none | uuid | enum | dict | cls | text | other =>
      exact ⟨s, .leaf h, Nat.le_refl _, iff_of_true rfl rfl⟩
  | @union ts ss hlen h ih =>
    rw [Ty.withoutExtras_union]
    by_cases hextras : Ty.hasExtrasList ts = true
    · rw [if_pos hextras]
      obtain ⟨ss', hss', hle, hiff⟩ := SchemasOf.stripped hlen ih
      have hanyOf := sizeOf_anyOf ss
      have hanyOf' := sizeOf_anyOf ss'
      have heven : (Ty.union ts).stripsEvenly =
          (Ty.stripEvenly ts && Ty.keepsShape (ts.map Ty.withoutExtras)) := by
        rw [Ty.stripsEvenly, hextras, Ty.withoutExtrasList_eq]
        rfl
      rw [heven]
      by_cases hshape : Ty.keepsShape (ts.map Ty.withoutExtras) = true
      · rw [Ty.unionOf_of_keepsShape hshape, hshape, Bool.and_true]
        refine ⟨_, schemaOf_union hss', by omega, ?_⟩
        rw [← hiff]
        simp
      · rw [Bool.not_eq_true] at hshape
        obtain ⟨s', hs', hlt⟩ := hss'.unionOf hshape
        refine ⟨s', hs', by omega, iff_of_false ?_ (by simp [hshape])⟩
        rintro rfl
        omega
    · rw [if_neg hextras]
      exact ⟨_, .union hlen h, Nat.le_refl _, iff_of_true rfl (by simp [Ty.stripsEvenly, hextras])⟩
  | @list t s _ ih =>
    obtain ⟨s', hs', hle, hiff⟩ := ih
    refine ⟨_, .list hs', ?_, ?_⟩
    · simp
      omega
    · rw [Ty.stripsEvenly, ← hiff]
      simp
  | annotated _ ih => exact ih
  | cls hc hlen h _ => exact ⟨_, .cls hc hlen h, Nat.le_refl _, iff_of_true rfl rfl⟩

/-! ## The two loops -/

variable {fields : List FieldDecl} {c c' : String} {omitDefaults : Bool}

theorem mem_filter_map {p : FieldDecl → Bool} {fs : List FieldDecl}
    (hnames : (fs.map FieldDecl.name).Nodup) {f : FieldDecl} (hf : f ∈ fs) :
    f.name ∈ (fs.filter p).map FieldDecl.name ↔ p f = true := by
  rw [List.mem_map]
  constructor
  · rintro ⟨g, hg, heq⟩
    rw [List.mem_filter] at hg
    rw [← List.inj_on_of_nodup_map hnames hg.1 hf heq]
    exact hg.2
  · exact fun hp => ⟨f, List.mem_filter.mpr ⟨hf, hp⟩, rfl⟩

theorem filter_map_eq_iff {p q : FieldDecl → Bool} {fs : List FieldDecl}
    (hnames : (fs.map FieldDecl.name).Nodup) :
    (fs.filter p).map FieldDecl.name = (fs.filter q).map FieldDecl.name ↔
      ∀ f ∈ fs, p f = q f := by
  constructor
  · intro h f hf
    rw [Bool.eq_iff_iff, ← mem_filter_map hnames hf, h, mem_filter_map hnames hf]
  · exact fun h => congrArg _ (List.filter_congr h)

theorem FieldDecl.isRequired_iff (f : FieldDecl) : f.IsRequired ↔
    (ClassKind.dataclass.noDefault f && !(ClassKind.dataclass.hint f).isOptional) = true := by
  unfold FieldDecl.IsRequired
  cases hdefault : f.default <;> simp [ClassKind.noDefault, ClassKind.hint, hdefault]

/-- The two loops require a field alike. -/
theorem required_eq_iff (f : FieldDecl) :
    ((ClassKind.struct omitDefaults).noDefault f &&
      !((ClassKind.struct omitDefaults).hint f).isOptional) =
        (ClassKind.dataclass.noDefault f && !(ClassKind.dataclass.hint f).isOptional) ↔
      ((∃ v, f.default = .factory v) → f.type.isOptional = true) ∧
        (f.default = .required → f.type.withoutExtras.isOptional = f.type.isOptional) := by
  cases hdefault : f.default with
  | required =>
    simp only [ClassKind.noDefault, ClassKind.hint, hdefault, Bool.true_and]
    constructor
    · intro h
      exact ⟨fun ⟨v, hv⟩ => (by cases hv), fun _ => (Bool.not_inj h).symm⟩
    · rintro ⟨-, h⟩
      rw [h trivial]
  | value v => simp [ClassKind.noDefault, ClassKind.hint, hdefault]
  | factory v => simp [ClassKind.noDefault, ClassKind.hint, hdefault]

variable (D lib c c' fields) in
/-- A Struct and a dataclass of these fields have one schema, which requires what has to
be given: from every cache, and on every stack that is deep enough. -/
def Agree : Prop :=
  ∃ N, ∀ n n', N ≤ n → N ≤ n' → ∀ cache cache' : TypeSchemaCache,
    cache.All (Extracted D lib) → cache'.All (Extracted D lib) →
    ∃ s, ((extractJsonSchema D lib n (.cls c)).run.run cache).1 = .ok (some s) ∧
      ((extractJsonSchema D lib n' (.cls c')).run.run cache').1 = .ok (some s) ∧
      ∀ f ∈ fields, f.isPublic = true → (s.requires f.name = true ↔ f.IsRequired)

/-- The fields have the same schemas with and without metadata iff they strip evenly. -/
theorem eq_iff_evenly {fs : List FieldDecl} {ss ss' : List Schema}
    (hlen : fs.length = ss.length) (hss : ∀ p ∈ fs.zip ss, SchemaOf D lib p.1.type p.2)
    (hlen' : fs.length = ss'.length)
    (hss' : ∀ p ∈ fs.zip ss', SchemaOf D lib p.1.type.withoutExtras p.2) :
    ss = ss' ↔ ∀ f ∈ fs, f.type.stripsEvenly = true := by
  induction fs generalizing ss ss' with
  | nil =>
    rw [List.length_eq_zero_iff.mp hlen.symm, List.length_eq_zero_iff.mp hlen'.symm]
    exact iff_of_true rfl fun f hf => by cases hf
  | cons f fs ih =>
    cases ss with
    | nil => cases hlen
    | cons s ss =>
      cases ss' with
      | nil => cases hlen'
      | cons s' ss' =>
        obtain ⟨hs, hss⟩ := List.forall_mem_cons.mp hss
        obtain ⟨hs', hss'⟩ := List.forall_mem_cons.mp hss'
        obtain ⟨s₀, hs₀, -, hiff⟩ := hs.withoutExtras
        dsimp only at hs' hs₀ hiff
        rw [hs'.unique hs₀, List.cons.injEq, List.forall_mem_cons, eq_comm, hiff,
          ih (Nat.succ.inj hlen) hss (Nat.succ.inj hlen') hss']

/-- **The schemas of the two classes are one iff every field is uniform.** -/
theorem classSchemas_eq_iff {ss ss' : List Schema}
    (hnames : (fields.map FieldDecl.name).Nodup)
    (hlen : (fields.filter FieldDecl.isPublic).length = ss.length)
    (hss : ∀ p ∈ (fields.filter FieldDecl.isPublic).zip ss, SchemaOf D lib p.1.type p.2)
    (hlen' : (fields.filter FieldDecl.isPublic).length = ss'.length)
    (hss' : ∀ p ∈ (fields.filter FieldDecl.isPublic).zip ss',
      SchemaOf D lib p.1.type.withoutExtras p.2) :
    classSchema ⟨.struct omitDefaults, fields⟩ ss = classSchema ⟨.dataclass, fields⟩ ss' ↔
      ∀ f ∈ fields.filter FieldDecl.isPublic, f.Uniform := by
  have hpublic : ((fields.filter FieldDecl.isPublic).map FieldDecl.name).Nodup :=
    hnames.sublist (List.filter_sublist.map _)
  have hzip : ((fields.filter FieldDecl.isPublic).map FieldDecl.name).zip ss =
      ((fields.filter FieldDecl.isPublic).map FieldDecl.name).zip ss' ↔ ss = ss' := by
    refine ⟨fun h => ?_, fun h => h ▸ rfl⟩
    have hsnd := congrArg (List.map Prod.snd) h
    rwa [List.map_snd_zip (by rw [List.length_map, hlen]),
      List.map_snd_zip (by rw [List.length_map, hlen'])] at hsnd
  have hrequired := filter_map_eq_iff hpublic
    (p := fun f => (ClassKind.struct omitDefaults).noDefault f &&
      !((ClassKind.struct omitDefaults).hint f).isOptional)
    (q := fun f => ClassKind.dataclass.noDefault f && !(ClassKind.dataclass.hint f).isOptional)
  have hschemas : classSchema ⟨.struct omitDefaults, fields⟩ ss =
      classSchema ⟨.dataclass, fields⟩ ss' ↔ ss = ss' ∧
        ∀ f ∈ fields.filter FieldDecl.isPublic,
          ((∃ v, f.default = .factory v) → f.type.isOptional = true) ∧
          (f.default = .required → f.type.withoutExtras.isOptional = f.type.isOptional) := by
    rw [← hzip]
    simp only [← @required_eq_iff omitDefaults]
    rw [← hrequired]
    simp [classSchema, Schema.closedObject, ClassDecl.publicFields, ClassDecl.requiredNames]
  rw [hschemas, eq_iff_evenly hlen hss hlen' hss']
  exact ⟨fun h f hf => ⟨(h.2 f hf).1, (h.2 f hf).2, h.1 f hf⟩,
    fun h => ⟨fun f hf => (h f hf).evenly, fun f hf => ⟨(h f hf).factory, (h f hf).optional⟩⟩⟩

theorem requires_classSchema {d : ClassDecl} {ss : List Schema}
    (hnames : (d.fields.map FieldDecl.name).Nodup) {f : FieldDecl} (hf : f ∈ d.fields)
    (hpublic : f.isPublic = true) : (classSchema d ss).requires f.name = true ↔
      (d.kind.noDefault f && !(d.kind.hint f).isOptional) = true := by
  have hnames' : (d.publicFields.map FieldDecl.name).Nodup :=
    hnames.sublist (List.filter_sublist.map _)
  rw [classSchema, Schema.requires_closedObject, decide_eq_true_eq, ClassDecl.requiredNames]
  exact mem_filter_map hnames' (List.mem_filter.mpr ⟨hf, hpublic⟩)

end

/-- A Struct and a dataclass of the same fields. -/
def twinDecls (fields : List FieldDecl) : Decls :=
  [("Struct", ⟨.struct false, fields⟩), ("Dataclass", ⟨.dataclass, fields⟩)]

/-- `id: int` and `note: str | None = None`. -/
def noteFields : List FieldDecl :=
  [⟨"id", .int, .required⟩, ⟨"note", .optional .str, .value .none⟩]

/-- `tags: list[str]`, made by `list`. -/
def tagsFields : List FieldDecl := [⟨"tags", .list .str, .factory (.list [])⟩]

end Rxon
