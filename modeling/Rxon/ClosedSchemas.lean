import Rxon.ExtractionReturns
import Rxon.InputSchema

/-! # Inferred schemas are closed

A document that the schema of a handler accepts carries no names but declared ones, in
whatever object inside it: the names of parameters at the top, those of public fields
below.  `Declared` says so of one position and its type, without a schema; that
acceptance implies it is an induction over the type (`accepts_declared`). -/

namespace Rxon
open Memo

section
variable (D : Decls) (lib : Introspection)

/-- Scalar types. -/
def IsScalar : Ty → Prop
  | .str | .int | .float | .bool | .none | .uuid | .enum _ _ => True
  | _ => False

/-- The types that handlers exchange data in: scalars, lists and unions of such types,
and classes whose public fields have such types.  A derivation is finite, so no class
refers to itself.  Any of them may have stayed a text. -/
inductive Business : Ty → Prop
  | scalar {t : Ty} (h : IsScalar t) : Business t
  | text (s : String) : Business (.text s)
  | list {t : Ty} (h : Business t) : Business (.list t)
  | union {ts : List Ty} (h : ∀ t ∈ ts, Business t) : Business (.union ts)
  | cls {c : String} {d : ClassDecl} (hc : D.lookup c = some d)
      (h : ∀ f ∈ d.publicFields, Business f.type) : Business (.cls c)

/-- Each object in the document carries only public field names of one class that is
declared for its position. -/
inductive Declared : Ty → Json → Prop
  | scalar {t : Ty} {v : Json} (harr : ∀ xs, v ≠ .arr xs) (hobj : ∀ kvs, v ≠ .obj kvs) :
      Declared t v
  | list {t item : Ty} {xs : List Json} (ht : .list item ∈ t.alternatives)
      (h : ∀ x ∈ xs, Declared item x) : Declared t (.arr xs)
  | cls {t : Ty} {c : String} {d : ClassDecl} {kvs : List (String × Json)}
      (ht : .cls c ∈ t.alternatives) (hc : D.lookup c = some d)
      (hnames : ∀ name ∈ Assoc.keys kvs, name ∈ d.publicFields.map FieldDecl.name)
      (h : ∀ f ∈ d.publicFields, ∀ e ∈ kvs, e.1 = f.name → Declared f.type e.2) :
      Declared t (.obj kvs)

/-- The same of a whole input: its names are those of the parameters, or it is what a
single structured parameter declares. -/
inductive DeclaredInput : List BusinessParam → Json → Prop
  | params {ps : List BusinessParam} {kvs : List (String × Json)}
      (hnames : ∀ name ∈ Assoc.keys kvs, name ∈ ps.map BusinessParam.name)
      (h : ∀ p ∈ ps, ∀ e ∈ kvs, e.1 = p.name → Declared D p.ann e.2) :
      DeclaredInput ps (.obj kvs)
  | model {p : BusinessParam} {v : Json} (hp : isStructuredModel D lib p.ann = true)
      (h : Declared D p.ann v) : DeclaredInput [p] v

variable {D lib} {t : Ty} {s : Schema} {v : Json}

theorem Declared.mono {u : Ty} (h : Declared D t v)
    (hsub : ∀ a ∈ t.alternatives, a ∈ u.alternatives) : Declared D u v := by
  cases h with
  | scalar harr hobj => exact .scalar harr hobj
  | list ht h => exact .list (hsub _ ht) h
  | cls ht hc hnames h => exact .cls (hsub _ ht) hc hnames h

theorem Business.hasExtras_eq (h : Business D t) : t.hasExtras = false := by
  induction h with
  | @scalar t h => cases t <;> first | rfl | exact h.elim
  | text => rfl
  | list _ ih => exact ih
  | union _ ih => exact Ty.hasExtrasList_iff.mpr ih
  | cls => rfl

theorem Business.hint_eq {f : FieldDecl} (h : Business D f.type) (k : ClassKind) :
    k.hint f = f.type := by
  cases k with
  | struct => rfl
  | dataclass => exact Ty.withoutExtras_eq h.hasExtras_eq

theorem scalar_of_admits {j : JsonType} (h : j.admits v = true) (hobject : j ≠ .object)
    (harray : j ≠ .array) : Declared D t v := by
  apply Declared.scalar
  · rintro xs rfl
    cases j with
    | array => exact harray rfl
    | object | string | integer | number | boolean | null => cases h
  · rintro kvs rfl
    cases j with
    | object => exact hobject rfl
    | array | string | integer | number | boolean | null => cases h

theorem textType_ne (s : String) : textType s ≠ .object ∧ textType s ≠ .array := by
  unfold textType
  split <;> decide

/-- **What the schema of a type accepts is declared by the type.** -/
theorem accepts_declared (hlib : ∀ t, Business D t → lib.modelSchema t = none)
    (ht : Business D t) (hs : SchemaOf D lib t s) (hv : s.accepts v = true) : Declared D t v := by
  -- along the type; its form decides what its schema is
  induction ht generalizing s v with
  | @scalar t h =>
    cases t with
    | str | int | float | bool | none | uuid =>
      cases hs with
      | leaf hleaf =>
        cases hleaf
        rw [Schema.accepts_typed] at hv
        exact scalar_of_admits hv (by decide) (by decide)
    | enum c members =>
      cases hs with
      | leaf hleaf =>
        cases hleaf
        exact scalar_of_admits (Schema.accepts_enum.mp hv).1 (by decide) (by decide)
    | any | list | dict | union | annotated | cls | text | other => exact h.elim
  | text s =>
    cases hs with
    | leaf hleaf =>
      cases hleaf
      rw [Schema.accepts_typed] at hv
      exact scalar_of_admits hv (textType_ne s).1 (textType_ne s).2
  | list _ ih =>
    cases hs with
    | leaf hleaf => cases hleaf
    | list hs =>
      obtain ⟨xs, rfl, hxs⟩ := Schema.accepts_array.mp hv
      exact .list (List.mem_singleton_self _) fun x hx => ih hs (hxs x hx)
  | union _ ih =>
    cases hs with
    | leaf hleaf => cases hleaf
    | union hlen hs =>
      obtain ⟨s, hmem, hv⟩ := Schema.accepts_anyOf.mp hv
      obtain ⟨t, hp⟩ := List.exists_mem_zip_right hlen hmem
      have ht := (List.of_mem_zip hp).1
      refine (ih t ht (hs _ hp) hv).mono fun a ha => ?_
      exact Ty.mem_alternativesList.mpr ⟨t, ht, ha⟩
  | @cls c d hc hfields ih =>
    have hplain : Plain D lib c d := ⟨hc, hlib _ (.cls hc hfields)⟩
    obtain ⟨ss, rfl, hlen, hss⟩ := hs.cases_cls hplain
    obtain ⟨kvs, rfl, hproperties, -, hclosed⟩ := Schema.accepts_closedObject.mp hv
    rw [keys_properties hlen] at hclosed
    refine .cls (List.mem_singleton_self _) hc hclosed fun f hf e he hname => ?_
    obtain ⟨s, hp⟩ := List.exists_mem_zip_left hlen hf
    have hproperty := mem_properties.mpr ⟨(f, s), hp, rfl⟩
    have hs := hss _ hp
    rw [(hfields f hf).hint_eq] at hs
    exact ih f hf hs (hproperties _ hproperty e he hname)

/-! ## Every business type has a schema -/

theorem Business.exists_schemaOf (hlib : ∀ t, Business D t → lib.modelSchema t = none)
    (ht : Business D t) : ∃ s, SchemaOf D lib t s := by
  induction ht with
  | @scalar t h =>
    cases t with
    | str | int | float | bool | none | uuid | enum => exact ⟨_, .leaf rfl⟩
    | any | list | dict | union | annotated | cls | text | other => exact h.elim
  | text => exact ⟨_, .leaf rfl⟩
  | list _ ih =>
    obtain ⟨s, hs⟩ := ih
    exact ⟨_, .list hs⟩
  | union _ ih =>
    obtain ⟨ss, hlen, hss⟩ := exists_zip ih
    exact ⟨_, .union hlen hss⟩
  | @cls c d hc hfields ih =>
    obtain ⟨ss, hlen, hss⟩ := exists_zip ih
    refine ⟨_, .cls ⟨hc, hlib _ (.cls hc hfields)⟩ hlen fun p hp => ?_⟩
    rw [(hfields _ (List.of_mem_zip hp).1).hint_eq]
    exact hss p hp

/-- The schema says something. -/
theorem Business.schemaOf_not_empty (hlib : ∀ t, Business D t → lib.modelSchema t = none)
    (ht : Business D t) (hs : SchemaOf D lib t s) : s.isEmpty = false := by
  cases ht with
  | scalar h =>
    cases t with
    | str | int | float | bool | none | uuid | enum =>
      cases hs with
      | leaf hleaf =>
        cases hleaf
        rfl
    | any | list | dict | union | annotated | cls | text | other => exact h.elim
  | text =>
    cases hs with
    | leaf hleaf =>
      cases hleaf
      rfl
  | list _ | union _ =>
    cases hs with
    | leaf hleaf => cases hleaf
    | _ => rfl
  | cls hc hfields =>
    obtain ⟨ss, rfl, -, -⟩ := hs.cases_cls ⟨hc, hlib _ (.cls hc hfields)⟩
    rfl

theorem Business.actualType_eq (ht : Business D t) : t.actualType = t := by
  cases ht with
  | scalar h => cases t <;> first | rfl | exact h.elim
  | text | list | union | cls => rfl

theorem Business.typed (ht : Business D t) : t.isUntyped = false ∧ t.isDict = false := by
  cases ht with
  | scalar h => cases t <;> first | exact ⟨rfl, rfl⟩ | exact h.elim
  | text | list | union | cls => exact ⟨rfl, rfl⟩

/-! ## Inputs -/

/-- An input schema is missing only where nothing is given, and is closed. -/
def InputClosed (D : Decls) (lib : Introspection) (ps : List BusinessParam) (r : Option Schema) :
    Prop :=
  (r = none → ps = []) ∧ ∀ s, r = some s → ∀ v, s.accepts v = true → DeclaredInput D lib ps v

/-- An object with a property for each parameter is closed. -/
theorem inputClosed_params (hlib : ∀ t, Business D t → lib.modelSchema t = none)
    {ps : List BusinessParam} (hps : ∀ p ∈ ps, Business D p.ann)
    {properties : List (String × Schema)} {required : List String}
    (hlen : ps.length = properties.length)
    (h : ∀ q ∈ ps.zip properties, q.2.1 = q.1.name ∧ SchemaOf D lib q.1.ann q.2.2) :
    InputClosed D lib ps (some (.closedObject properties required)) := by
  refine ⟨by simp, fun s heq v hv => ?_⟩
  cases heq
  obtain ⟨kvs, rfl, hproperties, -, hclosed⟩ := Schema.accepts_closedObject.mp hv
  refine .params ?_ ?_
  · intro name hname
    obtain ⟨e, he, rfl⟩ := List.mem_map.mp (hclosed name hname)
    obtain ⟨p, hp⟩ := List.exists_mem_zip_right hlen he
    rw [(h _ hp).1]
    exact List.mem_map_of_mem (List.of_mem_zip hp).1
  · intro p hp e he hname
    obtain ⟨property, hzip⟩ := List.exists_mem_zip_left hlen hp
    refine accepts_declared hlib (hps p hp) (h _ hzip).2 ?_
    exact hproperties property (List.of_mem_zip hzip).2 e he (hname.trans (h _ hzip).1.symm)

/-- The schema of a parameter's type is found on a stack that is deep enough. -/
theorem extractParam_returns (hlib : ∀ t, Business D t → lib.modelSchema t = none)
    {p : BusinessParam} (hp : Business D p.ann) : ∃ N, ∀ n ≥ N,
      (extractParam D lib none n p.actualType).Returns (Extracted D lib) fun r =>
        ∃ s, r = some s ∧ SchemaOf D lib p.ann s ∧ s.isEmpty = false := by
  obtain ⟨s, hs⟩ := hp.exists_schemaOf hlib
  obtain ⟨N, hN⟩ := extract_returns_schema (hlib _ hp) hs
  refine ⟨N, fun n hn => ?_⟩
  rw [BusinessParam.actualType, hp.actualType_eq]
  exact (hN n hn).mono fun r hr => ⟨s, hr, hs, hp.schemaOf_not_empty hlib hs⟩

theorem paramProperty_returns {p : BusinessParam} {n : Nat} (hp : Business D p.ann)
    (h : (extractParam D lib none n p.actualType).Returns (Extracted D lib) fun r =>
      ∃ s, r = some s ∧ SchemaOf D lib p.ann s ∧ s.isEmpty = false) :
    (paramProperty D lib none n p).Returns (Extracted D lib) fun e =>
      e.1 = p.name ∧ SchemaOf D lib p.ann e.2 := by
  have htyped : p.actualType.isUntyped = false := by
    rw [BusinessParam.actualType, hp.actualType_eq]
    exact hp.typed.1
  unfold paramProperty
  rw [if_neg (by simp [htyped])]
  refine ProgE.returns_bind h fun r hr => ProgE.returns_pure ?_
  obtain ⟨s, rfl, hs, hempty⟩ := hr
  rw [Schema.orElse_of_not_empty hempty]
  exact ⟨rfl, hs⟩

/-- **The schema of the parameters that a task gives is closed.** -/
theorem businessSchema_closed (hlib : ∀ t, Business D t → lib.modelSchema t = none)
    {ps : List BusinessParam} (hps : ∀ p ∈ ps, Business D p.ann) : ∃ N, ∀ n ≥ N,
      (businessSchema D lib none n ps).Returns (Extracted D lib) (InputClosed D lib ps) := by
  obtain ⟨N, hN⟩ := exists_common_bound fun p hp => extractParam_returns hlib (hps p hp)
  refine ⟨N, fun n hn => ?_⟩
  have hextract := hN n hn
  match ps with
  | [] =>
    apply ProgE.returns_pure
    exact ⟨fun _ => rfl, fun s h => by cases h⟩
  | [p] =>
    have hp := hps p (List.mem_singleton_self p)
    have hresult := hextract p (List.mem_singleton_self p)
    unfold businessSchema
    dsimp only
    rw [if_neg (by simp [hp.typed])]
    split
    · next hmodel =>
      refine hresult.mono fun r hr => ?_
      obtain ⟨s, rfl, hs, -⟩ := hr
      refine ⟨by simp, fun s' heq v hv => ?_⟩
      cases heq
      rw [BusinessParam.actualType, hp.actualType_eq] at hmodel
      exact .model hmodel (accepts_declared hlib hp hs hv)
    · refine ProgE.returns_bind hresult fun r hr => ProgE.returns_pure ?_
      obtain ⟨s, rfl, hs, hempty⟩ := hr
      rw [Schema.orElse_of_not_empty hempty]
      exact inputClosed_params hlib hps rfl (List.forall_mem_singleton.mpr ⟨rfl, hs⟩)
  | p :: q :: ps =>
    unfold businessSchema
    refine ProgE.returns_bind (ProgE.returns_forEach fun p hp =>
      paramProperty_returns (hps p hp) (hextract p hp)) fun properties h => ProgE.returns_pure ?_
    exact inputClosed_params hlib hps h.1 h.2

/-- What a handler's attribute may hold. -/
def AttributeClosed (D : Decls) (lib : Introspection) (ps : List BusinessParam) (func : Func) :
    Prop :=
  ∀ r, func.rxonInputSchema = some r → InputClosed D lib ps r

/-- One extraction returns a closed schema, and leaves no other on the handler. -/
theorem extract_closed {func : Func} {params : List Parameter} {n : Nat}
    (hcallable : func.callable = true) (hsignature : func.signature = some params)
    (hattribute : AttributeClosed D lib func.businessParams func)
    (h : (businessSchema D lib none n func.businessParams).Returns (Extracted D lib)
      (InputClosed D lib func.businessParams)) :
    (extractInputSchemaFromFunc D lib none n func).Returns (Extracted D lib) fun out =>
      InputClosed D lib func.businessParams out.1 ∧
        (out.2 = func ∨ out.2 = func.attach out.1) := by
  unfold extractInputSchemaFromFunc
  rw [if_pos hcallable]
  cases hstored : func.rxonInputSchema with
  | some schema =>
    exact ProgE.returns_pure ⟨hattribute schema hstored, Or.inl rfl⟩
  | none =>
    rw [hsignature]
    exact ProgE.returns_bind h fun schema hschema => ProgE.returns_pure ⟨hschema, Or.inr rfl⟩

end

/-- An order, with a note. -/
def orderDecls : Decls :=
  [("Order", ⟨.struct false, [⟨"order_id", .int, .required⟩,
    ⟨"notes", .optional .str, .value .none⟩, ⟨"_seen", .any, .value .none⟩]⟩)]

theorem business_order : Business orderDecls (.cls "Order") := by
  have hnotes : Business orderDecls (.optional .str) :=
    .union (List.forall_mem_cons.mpr ⟨.scalar trivial,
      List.forall_mem_singleton.mpr (.scalar trivial)⟩)
  exact .cls rfl (List.forall_mem_cons.mpr ⟨.scalar trivial, List.forall_mem_singleton.mpr hnotes⟩)

/-- `async def init(order: Order, ctx)`. -/
def orderHandler : Func where
  callable := true
  signature := some [{ name := "order", annotation := .cls "Order" }, { name := "ctx" }]
  rxonInputSchema := none
  keepsAttributes := true

end Rxon
