import Rxon.ExtractionReturns
import Rxon.InputSchema

/-! # A parameter alone and among others

A signature with one parameter and one with more are described by two paths of
`extract_input_schema_from_func`.  They fall back to different schemas where the
annotation says nothing: the first to a string, the second to anything.  And an annotation
is read as it is written where another one of the function does not resolve.  A parameter
has the same property in both iff its annotation is given, has a schema that is not empty,
and is read alike (`parameter_alone_iff_alike`). -/

namespace Schema

/-- The schema of a property. -/
def property? (s : Schema) (name : String) : Option Schema :=
  s.keywords.findSome? fun
    | .properties schemas => schemas.lookup name
    | _ => none

/-- Whether a property is required. -/
def requires (s : Schema) (name : String) : Bool :=
  s.keywords.any fun
    | .required names => decide (name ∈ names)
    | _ => false

@[simp] theorem property?_closedObject (properties : List (String × Schema))
    (required : List String) (name : String) :
    (closedObject properties required).property? name = properties.lookup name := by
  simp only [property?, closedObject, keywords, List.findSome?_cons, List.findSome?_nil]
  cases properties.lookup name <;> rfl

@[simp] theorem requires_closedObject (properties : List (String × Schema))
    (required : List String) (name : String) :
    (closedObject properties required).requires name = decide (name ∈ required) := by
  simp [requires, closedObject, keywords]

theorem orElse_some (s default : Schema) :
    orElse (some s) default = if s.isEmpty then default else s := rfl

/-- What is not the fallback is a schema that needs none. -/
theorem exists_of_orElse_ne {r : Option Schema} (h : orElse r (.mk []) ≠ .mk []) :
    ∃ s, r = some s ∧ s.isEmpty = false := by
  cases r with
  | none => exact absurd rfl h
  | some s =>
    rw [orElse_some] at h
    by_cases hs : s.isEmpty = true
    · rw [if_pos hs] at h
      exact absurd rfl h
    · exact ⟨s, rfl, Bool.eq_false_of_not_eq_true hs⟩

theorem orElse_typed_ne_empty (r : Option Schema) (t : JsonType) :
    orElse r (typed t) ≠ .mk [] := by
  cases r with
  | none => simp [orElse, typed]
  | some s =>
    rw [orElse_some]
    by_cases hs : s.isEmpty = true
    · simp [hs, typed]
    · rw [if_neg hs]
      rintro rfl
      exact hs rfl

end Schema

namespace Rxon
open Memo

section
variable (D : Decls) (lib : Introspection)

/-- The schema of the type is empty: it stands for anything, or for a class that says
nothing of itself. -/
def saysNothing : Ty → Bool
  | .any => true
  | .annotated t => saysNothing t
  | .other "list" | .other "dict" => false
  | .other name => (lib.modelSchema (.other name)).any Schema.isEmpty
  | .cls name => (lib.modelSchema (.cls name)).any Schema.isEmpty
  | _ => false

/-- The type has a schema, and that says something. -/
def Describes (t : Ty) : Prop :=
  match lib.modelSchema t with
  | some s => s.isEmpty = false
  | none => saysNothing lib t = false ∧ ∀ c ∈ t.mentions, Acc (Refers D lib) c

/-- The annotation of a parameter is given, and the extractor or the type itself has
something to say of it. -/
def Legible (extractor : Option (Ty → Except PyError (Option Schema))) (t : Ty) : Prop :=
  t.isUntyped = false ∧
    match extractor with
    | none => Describes D lib t
    | some extractor =>
      match extractor t with
      | .ok (some s) => s.isEmpty = false
      | .ok none => Describes D lib t
      | .error _ => False

variable {D lib} {t : Ty} {s : Schema}

/-! ## Types that say something -/

theorem saysNothing_other {name : String} (hlist : name ≠ "list") (hdict : name ≠ "dict") :
    saysNothing lib (.other name) = (lib.modelSchema (.other name)).any Schema.isEmpty := by
  unfold saysNothing
  split <;> simp_all

theorem SchemaOf.isEmpty_eq (h : SchemaOf D lib t s) : s.isEmpty = saysNothing lib t := by
  induction h with
  | @leaf t s h =>
    cases t with
    | any | str | int | float | bool | none | uuid | enum | dict | text =>
      cases h
      rfl
    | union | list | annotated => cases h
    | other name =>
      by_cases hlist : name = "list"
      · subst hlist
        cases h
        rfl
      by_cases hdict : name = "dict"
      · subst hdict
        cases h
        rfl
      rw [leafSchema_other hlist hdict] at h
      cases h
      rw [saysNothing_other hlist hdict]
      cases lib.modelSchema (.other name) <;> rfl
    | cls name =>
      rw [saysNothing]
      unfold leafSchema at h
      dsimp only at h
      cases hmodel : lib.modelSchema (.cls name) with
      | some schema =>
        rw [hmodel] at h
        cases h
        rfl
      | none =>
        rw [hmodel] at h
        dsimp only at h
        split at h
        · cases h
        · cases h
          rfl
  | union => rfl
  | list => rfl
  | annotated _ ih => exact ih
  | cls hc =>
    simp [saysNothing, hc.2, classSchema, Schema.closedObject, Schema.isEmpty, Schema.keywords]

/-- **A type describes iff it has a schema that is not empty.** -/
theorem describes_iff : Describes D lib t ↔ ∃ s, Extracted D lib t s ∧ s.isEmpty = false := by
  unfold Describes Extracted
  cases hmodel : lib.modelSchema t with
  | some s => simp
  | none =>
    rw [← exists_schemaOf_iff]
    constructor
    · rintro ⟨hsaid, s, hs⟩
      exact ⟨s, Or.inr ⟨rfl, hs⟩, by rw [hs.isEmpty_eq, hsaid]⟩
    · rintro ⟨s, h | ⟨-, hs⟩, hempty⟩
      · cases h
      · exact ⟨by rw [← hs.isEmpty_eq, hempty], s, hs⟩

/-! ## What the extractor says of a parameter -/

section
variable {extractor : Option (Ty → Except PyError (Option Schema))} {n : Nat}

variable (D lib extractor t) in
/-- The schema that is extracted for the type of a parameter. -/
def ParamSchema (s : Schema) : Prop :=
  match extractor with
  | none => Extracted D lib t s
  | some extractor =>
    match extractor t with
    | .ok (some s') => s = s'
    | .ok none => Extracted D lib t s
    | .error _ => False

theorem ParamSchema.unique {s s' : Schema} (h : ParamSchema D lib t extractor s)
    (h' : ParamSchema D lib t extractor s') : s = s' := by
  cases extractor with
  | none => exact Extracted.unique h h'
  | some extract =>
    unfold ParamSchema at h h'
    dsimp only at h h'
    cases hasked : extract t with
    | error e =>
      rw [hasked] at h
      exact h.elim
    | ok asked =>
      rw [hasked] at h h'
      cases asked with
      | some schema => exact Eq.trans h (Eq.symm h')
      | none => exact Extracted.unique h h'

theorem extractParam_asks (extract : Ty → Except PyError (Option Schema)) (n : Nat) (t : Ty) :
    extractParam D lib (some extract) (n + 2) t =
      (liftM (extract t) : Extraction (Option Schema)) >>= fun asked =>
        match asked with
        | some schema => pure (some schema)
        | none => extractUncached D lib (n + 1) t := rfl

/-- **What is extracted for a parameter is the schema of its type.** -/
theorem extractParam_sound (n : Nat) (t : Ty) :
    (extractParam D lib extractor n t).Yields (Extracted D lib) fun r =>
      ∀ s, r = some s → ParamSchema D lib t extractor s := by
  cases extractor with
  | none => exact ((extracts_schemaOf n).extract t).mono fun r hr => hr.1
  | some extract =>
    match n with
    | 0 | 1 => exact ProgE.yields_throw
    | n + 2 =>
      rw [extractParam_asks]
      unfold ParamSchema
      dsimp only
      cases extract t with
      | error e => exact ProgE.yields_throw
      | ok asked =>
        cases asked with
        | some schema =>
          refine ProgE.yields_pure fun s hs => ?_
          cases hs
          rfl
        | none => exact ((extracts_schemaOf (n + 1)).uncached t).mono fun r hr => hr.1

/-- A schema that there is to extract is extracted on deep enough stacks. -/
theorem ParamSchema.returns {s : Schema} (h : ParamSchema D lib t extractor s) :
    ∃ N, ∀ n ≥ N,
      (extractParam D lib extractor n t).Returns (Extracted D lib) fun r => r = some s := by
  cases extractor with
  | none => exact extract_returns_extracted h
  | some extract =>
    unfold ParamSchema at h
    dsimp only at h
    cases hasked : extract t with
    | error e =>
      rw [hasked] at h
      exact h.elim
    | ok asked =>
      rw [hasked] at h
      cases asked with
      | some schema =>
        subst h
        refine exists_deep_enough 2 0 fun n _ => ?_
        rw [extractParam_asks, hasked]
        exact ProgE.returns_pure rfl
      | none =>
        obtain ⟨N, hN⟩ := uncached_returns_extracted h
        refine exists_deep_enough 2 N fun n hn => ?_
        rw [extractParam_asks, hasked]
        exact hN (n + 1) (by omega)

/-- **Just the schema of its type is extracted for a parameter**, on every stack that is
deep enough for the type. -/
theorem extractParam_yields (extractor : Option (Ty → Except PyError (Option Schema))) (t : Ty) :
    ∃ N, ∀ n ≥ N, (extractParam D lib extractor n t).Yields (Extracted D lib) fun r =>
      ∀ s, r = some s ↔ ParamSchema D lib t extractor s := by
  by_cases h : ∃ s, ParamSchema D lib t extractor s
  · obtain ⟨s, hs⟩ := h
    obtain ⟨N, hN⟩ := hs.returns
    refine ⟨N, fun n hn => (ProgE.Returns.yields (hN n hn)).mono fun r hr s' => ?_⟩
    rw [hr, Option.some.injEq]
    exact ⟨fun heq => heq ▸ hs, fun hs' => hs.unique hs'⟩
  · exact ⟨0, fun n _ => (extractParam_sound n t).mono fun r hr s =>
      ⟨hr s, fun hs => absurd ⟨s, hs⟩ h⟩⟩

/-- The type describes a parameter iff what is extracted for it is there and not empty. -/
theorem legible_iff :
    Legible D lib extractor t ↔
      t.isUntyped = false ∧ ∃ s, ParamSchema D lib t extractor s ∧ s.isEmpty = false := by
  unfold Legible ParamSchema
  cases extractor with
  | none => rw [describes_iff]
  | some extract =>
    dsimp only
    cases extract t with
    | error e => simp
    | ok r =>
      cases r with
      | some s => simp
      | none =>
        dsimp only
        rw [describes_iff]

theorem extractParam_yields_trivial (n : Nat) (t : Ty) :
    (extractParam D lib extractor n t).Yields (Extracted D lib) fun _ => True := by
  cases extractor with
  | none => exact ((extracts_schemaOf n).extract t).mono fun _ _ => trivial
  | some extractor => exact extractWith_yields extractor n t

/-! ## The two paths -/

variable {p : BusinessParam}

variable (D lib extractor p) in
/-- What is extracted for the type of the parameter. -/
def ExtractedFor (r : Option Schema) : Prop :=
  ∀ s, r = some s ↔ ParamSchema D lib p.actualType extractor s

variable (D lib extractor p) in
/-- The parameter in the schema of a signature that has no other. -/
structure Alone (s : Schema) : Prop where
  requires : s.requires p.name = !p.hasDefault
  property : ∃ r, ExtractedFor D lib extractor p r ∧
    s.property? p.name = some (Schema.orElse r (.typed .string))

variable (D lib extractor p) in
/-- The parameter in the schema of a signature that has others. -/
structure Among (s : Schema) : Prop where
  requires : s.requires p.name = !p.hasDefault
  untyped : p.actualType.isUntyped = true → s.property? p.name = some (.mk [])
  typed : p.actualType.isUntyped = false → ∃ r, ExtractedFor D lib extractor p r ∧
    s.property? p.name = some (Schema.orElse r (.mk []))

theorem alone_yields (hname : p.name ≠ "input")
    (hmodel : isStructuredModel D lib p.actualType = false)
    (hp : (extractParam D lib extractor n p.actualType).Yields (Extracted D lib)
      (ExtractedFor D lib extractor p)) :
    (businessSchema D lib extractor n [p]).Yields (Extracted D lib) fun r =>
      ∃ s, r = some s ∧ Alone D lib extractor p s := by
  unfold businessSchema
  dsimp only
  rw [if_neg (fun h => hname h.1), if_neg (by simp [hmodel])]
  refine ProgE.yields_bind hp fun r hr => ProgE.yields_pure ⟨_, rfl, ?_, r, hr, ?_⟩
  · rw [Schema.requires_closedObject]
    cases p.hasDefault <;> simp
  · rw [Schema.property?_closedObject, Assoc.lookup_cons_self]

/-- One of the parameters, as a property. -/
theorem paramProperty_yields
    (hp : (extractParam D lib extractor n p.actualType).Yields (Extracted D lib)
      (ExtractedFor D lib extractor p)) :
    (paramProperty D lib extractor n p).Yields (Extracted D lib) fun e => e.1 = p.name ∧
      (p.actualType.isUntyped = true → e.2 = .mk []) ∧
      (p.actualType.isUntyped = false → ∃ r, ExtractedFor D lib extractor p r ∧
        e.2 = Schema.orElse r (.mk [])) := by
  unfold paramProperty
  split
  · next huntyped =>
    refine ProgE.yields_pure ⟨rfl, fun _ => rfl, fun htyped => ?_⟩
    rw [huntyped] at htyped
    cases htyped
  · next htyped =>
    refine ProgE.yields_bind hp fun r hr => ProgE.yields_pure ⟨rfl, ?_, fun _ => ⟨r, hr, rfl⟩⟩
    exact fun huntyped => absurd huntyped htyped

theorem paramProperty_name (q : BusinessParam) :
    (paramProperty D lib extractor n q).Yields (Extracted D lib) fun e => e.1 = q.name := by
  unfold paramProperty
  split
  · exact ProgE.yields_pure rfl
  · exact ProgE.yields_bind (extractParam_yields_trivial n _) fun r _ => ProgE.yields_pure rfl

theorem businessSchema_keeps (ps : List BusinessParam) :
    (businessSchema D lib extractor n ps).Yields (Extracted D lib) fun _ => True := by
  unfold businessSchema
  split
  · exact ProgE.yields_pure trivial
  · split
    · exact ProgE.yields_pure trivial
    · split
      · exact extractParam_yields_trivial n _
      · exact ProgE.yields_bind (extractParam_yields_trivial n _) fun _ _ =>
          ProgE.yields_pure trivial
  · exact ProgE.yields_bind (ProgE.yields_forEach fun q _ => paramProperty_name q) fun _ _ =>
      ProgE.yields_pure trivial

/-- The properties of a signature are found under the names of its parameters. -/
theorem lookup_property {ps : List BusinessParam} {properties : List (String × Schema)}
    (hlen : ps.length = properties.length)
    (hnames : ∀ q ∈ ps.zip properties, q.2.1 = q.1.name)
    (hnodup : (ps.map BusinessParam.name).Nodup) {q : BusinessParam × String × Schema}
    (hq : q ∈ ps.zip properties) : properties.lookup q.1.name = some q.2.2 := by
  have hkeys : Assoc.keys properties = ps.map BusinessParam.name := by
    calc Assoc.keys properties
        = ((ps.zip properties).map Prod.snd).map Prod.fst := by
          rw [List.map_snd_zip (Nat.le_of_eq hlen.symm)]
          rfl
      _ = (ps.zip properties).map fun q => q.1.name := by
          rw [List.map_map]
          exact List.map_congr_left hnames
      _ = ps.map BusinessParam.name := by
          conv_rhs => rw [← List.map_fst_zip (Nat.le_of_eq hlen), List.map_map]
          rfl
  have hunique : Assoc.Unique properties := by rwa [Assoc.Unique, hkeys]
  rw [← hnames q hq]
  exact Assoc.lookup_of_mem hunique (List.of_mem_zip hq).2

theorem among_yields {ps : List BusinessParam} (hmem : p ∈ ps) (hmore : 2 ≤ ps.length)
    (hnodup : (ps.map BusinessParam.name).Nodup)
    (hp : (extractParam D lib extractor n p.actualType).Yields (Extracted D lib)
      (ExtractedFor D lib extractor p)) :
    (businessSchema D lib extractor n ps).Yields (Extracted D lib) fun r =>
      ∃ s, r = some s ∧ Among D lib extractor p s := by
  have hschema : businessSchema D lib extractor n ps =
      (ProgE.forEach (fun q => paramProperty D lib extractor n q) ps >>= fun properties =>
        pure (some (.closedObject properties
          ((ps.filter fun q => !q.hasDefault).map BusinessParam.name)))) := by
    match ps with
    | q :: q' :: ps => rfl
    | [] | [_] => simp at hmore
  rw [hschema]
  -- of the other properties only the names matter
  have hall : ∀ q ∈ ps, (paramProperty D lib extractor n q).Yields (Extracted D lib) fun e =>
      e.1 = q.name ∧ (q = p → (p.actualType.isUntyped = true → e.2 = .mk []) ∧
        (p.actualType.isUntyped = false → ∃ r, ExtractedFor D lib extractor p r ∧
          e.2 = Schema.orElse r (.mk []))) := by
    intro q _
    by_cases hqp : q = p
    · subst hqp
      exact (paramProperty_yields hp).mono fun e he => ⟨he.1, fun _ => he.2⟩
    · exact (paramProperty_name q).mono fun e he => ⟨he, fun h => absurd h hqp⟩
  refine ProgE.yields_bind (ProgE.yields_forEach hall) fun properties h => ProgE.yields_pure ?_
  obtain ⟨hlen, hproperties⟩ := h
  obtain ⟨e, he⟩ := List.exists_mem_zip_left hlen hmem
  have hlookup : properties.lookup p.name = some e.2 :=
    lookup_property hlen (fun q hq => (hproperties q hq).1) hnodup he
  obtain ⟨-, hspec⟩ := hproperties _ he
  refine ⟨_, rfl, ?_, ?_, ?_⟩
  · -- no other parameter has the name
    have hiff : p.name ∈ (ps.filter fun q => !q.hasDefault).map BusinessParam.name ↔
        p.hasDefault = false := by
      rw [List.mem_map]
      constructor
      · rintro ⟨q, hq, heq⟩
        rw [List.mem_filter] at hq
        rw [← List.inj_on_of_nodup_map hnodup hq.1 hmem heq]
        simpa using hq.2
      · exact fun h => ⟨p, List.mem_filter.mpr ⟨hmem, by simp [h]⟩, rfl⟩
    rw [Schema.requires_closedObject]
    cases hdefault : p.hasDefault <;> simp [hiff, hdefault]
  · intro huntyped
    rw [Schema.property?_closedObject, hlookup, (hspec rfl).1 huntyped]
  · intro htyped
    obtain ⟨r, hr, heq⟩ := (hspec rfl).2 htyped
    exact ⟨r, hr, by rw [Schema.property?_closedObject, hlookup, heq]⟩

/-! ### Two annotations -/

variable (D lib extractor t) in
/-- The annotation tells this schema, which is not empty. -/
def Tells (s : Schema) : Prop := ParamSchema D lib t extractor s ∧ s.isEmpty = false

variable (D lib extractor t) in
/-- What a parameter with this annotation is described by alone: what the annotation tells,
else a text. -/
def TellsAlone (s : Schema) : Prop :=
  Tells D lib t extractor s ∨ s = .typed .string ∧ ∀ s', ¬ Tells D lib t extractor s'

variable (D lib extractor) in
/-- The annotation of a parameter alone is the one it has among others, or describes the
parameter in the same way. -/
def Alike (alone among : Ty) : Prop :=
  alone = among ∨ ∀ s, Tells D lib among extractor s → TellsAlone D lib alone extractor s

theorem tells_iff {r : Option Schema} (hr : ∀ s, r = some s ↔ ParamSchema D lib t extractor s) :
    Tells D lib t extractor s ↔ r = some s ∧ s.isEmpty = false := by
  rw [Tells, hr]

theorem orElse_string_iff {r : Option Schema}
    (hr : ∀ s, r = some s ↔ ParamSchema D lib t extractor s) :
    Schema.orElse r (.typed .string) = s ↔ TellsAlone D lib t extractor s := by
  simp only [TellsAlone, tells_iff hr]
  cases r with
  | none =>
    have hno : ∀ s', ¬ ((none : Option Schema) = some s' ∧ s'.isEmpty = false) :=
      fun s' h => by cases h.1
    exact ⟨fun h => Or.inr ⟨h.symm, hno⟩, fun h => (h.resolve_left (hno s)).1.symm⟩
  | some s₀ =>
    rw [Schema.orElse_some]
    by_cases hs : s₀.isEmpty = true
    · rw [if_pos hs]
      constructor
      · rintro rfl
        exact Or.inr ⟨rfl, fun s' h => by simp_all⟩
      · rintro (⟨heq, hempty⟩ | ⟨rfl, -⟩)
        · cases heq
          rw [hs] at hempty
          cases hempty
        · rfl
    · rw [if_neg hs]
      rw [Bool.not_eq_true] at hs
      constructor
      · rintro rfl
        exact Or.inl ⟨rfl, hs⟩
      · rintro (⟨heq, -⟩ | ⟨-, hnone⟩)
        · exact Option.some.inj heq
        · exact absurd ⟨rfl, hs⟩ (hnone s₀)

/-- **The property of a parameter alone and among others**, where it may have another
annotation. -/
theorem property_eq_iff {p' : BusinessParam} (hname : p'.name = p.name) {s s' : Schema}
    (h : Alone D lib extractor p s) (h' : Among D lib extractor p' s') :
    s.property? p.name = s'.property? p.name ↔ Legible D lib extractor p'.actualType ∧
      Alike D lib extractor p.actualType p'.actualType := by
  obtain ⟨r, hr, hs⟩ := h.property
  rw [legible_iff, hs]
  by_cases huntyped : p'.actualType.isUntyped = true
  · rw [← hname, h'.untyped huntyped, Option.some.injEq]
    refine iff_of_false (Schema.orElse_typed_ne_empty r _) fun hl => ?_
    rw [huntyped] at hl
    cases hl.1.1
  · rw [Bool.not_eq_true] at huntyped
    obtain ⟨r', hr', hs'⟩ := h'.typed huntyped
    rw [← hname, hs', Option.some.injEq]
    constructor
    · intro heq
      have hne := Schema.orElse_typed_ne_empty r .string
      rw [heq] at hne
      obtain ⟨s₀, rfl, hempty⟩ := Schema.exists_of_orElse_ne hne
      refine ⟨⟨huntyped, s₀, (hr' s₀).mp rfl, hempty⟩, Or.inr fun s₁ h₁ => ?_⟩
      obtain ⟨heq₁, -⟩ := (tells_iff hr').mp h₁
      cases heq₁
      rw [Schema.orElse_of_not_empty hempty] at heq
      exact (orElse_string_iff hr).mp heq
    · rintro ⟨⟨-, s₀, hs₀, hempty⟩, halike⟩
      obtain rfl := (hr' s₀).mpr hs₀
      rw [Schema.orElse_of_not_empty hempty, orElse_string_iff hr]
      rcases halike with heq | halike
      · exact Or.inl ⟨heq ▸ hs₀, hempty⟩
      · exact halike s₀ ⟨hs₀, hempty⟩

/-- A signature that has not been described before is described by its parameters. -/
theorem func_yields {func : Func} {Q : Schema → Prop}
    (hfresh : extractor = none → func.rxonInputSchema = none)
    (h : (businessSchema D lib extractor n func.businessParams).Yields (Extracted D lib) fun r =>
      ∃ s, r = some s ∧ Q s) :
    (extractInputSchemaFromFunc D lib extractor n func).Yields (Extracted D lib) fun out =>
      ∀ s, out.1 = some s → Q s := by
  unfold extractInputSchemaFromFunc
  split
  · split
    · next schema _ hstored =>
      rw [hfresh rfl] at hstored
      cases hstored
    · split
      · exact ProgE.yields_pure fun s hs => by cases hs
      · refine ProgE.yields_bind h fun r hr => ProgE.yields_pure fun s hs => ?_
        obtain ⟨s', rfl, hQ⟩ := hr
        cases hs
        exact hQ
  · exact ProgE.yields_pure fun s hs => by cases hs

end

end

/-- A handler with these parameters. -/
def handlerOf (ps : List Parameter) : Func where
  callable := true
  signature := some ps
  rxonInputSchema := none
  keepsAttributes := true

/-- `count: int`. -/
def countParam : Parameter := { name := "count", annotation := .int }

/-- `x: "list[int]"`. -/
def listParam : Parameter :=
  { name := "x", annotation := .text "list[int]", resolved := some (.list .int) }

/-- `y: "Missing"`, where no `Missing` is there at run time. -/
def missingParam : Parameter :=
  { name := "y", annotation := .text "Missing", resolved := none }

/-- What `x` is described by before `y`. -/
theorem not_alike_list : ¬ Alike [] .bare none (.list .int) (.text "list[int]") := by
  have hitems : Tells [] .bare (.list .int) none (.mk [.type .array, .items (.typed .integer)]) :=
    ⟨.inr ⟨rfl, .list (.leaf rfl)⟩, rfl⟩
  have htext : Tells [] .bare (.text "list[int]") none (.typed .string) :=
    ⟨.inr ⟨rfl, .leaf rfl⟩, rfl⟩
  rintro (h | h)
  · cases h
  · rcases h _ htext with hlist | ⟨-, hnone⟩
    · cases hlist.1.unique hitems.1
    · exact hnone _ hitems

end Rxon
