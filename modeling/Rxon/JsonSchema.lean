import Rxon.PyVal

/-! # JSON Schema

The part of JSON Schema that describes plain data: types, enumerations, alternatives,
arrays, and objects with declared, required and additional properties.  A schema is the
dict of its keywords, in the order they were written, and a document is accepted when
every keyword accepts it; a keyword that speaks of arrays or of objects says nothing
about other documents.

Any other keyword is an annotation, which accepts everything. -/

inductive JsonType where
  | object
  | array
  | string
  | integer
  | number
  | boolean
  | null
deriving DecidableEq

namespace JsonType

/-- An integral float is an integer to JSON Schema. -/
def admits : JsonType → Json → Bool
  | .object, .obj _ | .array, .arr _ | .string, .str _ | .boolean, .bool _ | .null, .null => true
  | .integer, .int _ | .number, .int _ | .number, .float _ => true
  | .integer, .float f => f.IsInteger
  | _, _ => false

end JsonType

mutual

inductive Schema where
  | mk (keywords : List Keyword)

inductive Keyword where
  | type (t : JsonType)
  | enum (values : List PyVal)
  | anyOf (alternatives : List Schema)
  | items (schema : Schema)
  | properties (schemas : List (String × Schema))
  | required (names : List String)
  | additionalProperties (allowed : Bool)
  | annotation (name : String) (value : PyVal)

end

namespace Schema

def keywords : Schema → List Keyword
  | .mk ks => ks

/-- `{"type": t}`. -/
def typed (t : JsonType) : Schema := .mk [.type t]

/-- Whether the dict is empty. -/
def isEmpty (s : Schema) : Bool := s.keywords.isEmpty

/-- An object that has declared properties only. -/
def closedObject (properties : List (String × Schema)) (required : List String) : Schema :=
  .mk [.type .object, .properties properties, .required required, .additionalProperties false]

end Schema

/-- The names that a keyword declares. -/
def Keyword.declares : Keyword → List String
  | .properties schemas => Assoc.keys schemas
  | _ => []

/-! ## Acceptance -/

namespace Schema

mutual

/-- Whether a schema accepts a document.  Enum values are compared as Python compares them,
so `True` stands for `1`; JSON Schema keeps the two apart. -/
def accepts : Schema → Json → Bool
  | .mk ks, v => acceptsAll (ks.flatMap Keyword.declares) ks v

/-- Whether every keyword accepts it, where the schema declares `names`. -/
def acceptsAll (names : List String) : List Keyword → Json → Bool
  | [], _ => true
  | k :: ks, v => acceptsKeyword names k v && acceptsAll names ks v

def acceptsKeyword (names : List String) : Keyword → Json → Bool
  | .type t, v => t.admits v
  | .enum values, v => values.any fun x => x.eq v.toPy
  | .anyOf alternatives, v => acceptsSome alternatives v
  | .items schema, .arr xs => xs.all fun x => accepts schema x
  | .properties schemas, .obj kvs => acceptsProperties schemas kvs
  | .required required, .obj kvs => required.all fun name => decide (name ∈ Assoc.keys kvs)
  | .additionalProperties false, .obj kvs => (Assoc.keys kvs).all fun name => decide (name ∈ names)
  | _, _ => true

def acceptsSome : List Schema → Json → Bool
  | [], _ => false
  | s :: ss, v => accepts s v || acceptsSome ss v

def acceptsProperties : List (String × Schema) → List (String × Json) → Bool
  | [], _ => true
  | (name, s) :: schemas, kvs =>
    (kvs.all fun e => decide (e.1 ≠ name) || accepts s e.2) && acceptsProperties schemas kvs

end

variable {names required : List String} {ks : List Keyword} {v : Json} {kvs : List (String × Json)}
  {xs : List Json} {s : Schema} {alternatives : List Schema} {properties : List (String × Schema)}
  {t : JsonType}

theorem acceptsSome_iff :
    acceptsSome alternatives v = true ↔ ∃ s ∈ alternatives, s.accepts v = true := by
  induction alternatives with
  | nil => simp [acceptsSome]
  | cons s ss ih => simp [acceptsSome, ih]

theorem acceptsProperties_iff :
    acceptsProperties properties kvs = true ↔
      ∀ p ∈ properties, ∀ e ∈ kvs, e.1 = p.1 → p.2.accepts e.2 = true := by
  induction properties with
  | nil => simp [acceptsProperties]
  | cons p ps ih =>
    obtain ⟨name, s⟩ := p
    simp only [acceptsProperties, Bool.and_eq_true, ih, List.all_eq_true, Bool.or_eq_true,
      decide_eq_true_eq, List.forall_mem_cons]
    refine and_congr_left fun _ => forall₂_congr fun e _ => ?_
    exact ⟨fun h heq => h.resolve_left (not_not_intro heq), fun h => or_iff_not_imp_left.mpr
      fun hne => h (not_not.mp hne)⟩

@[simp] theorem accepts_empty : (mk []).accepts v = true := rfl

@[simp] theorem accepts_typed : (typed t).accepts v = t.admits v := by
  simp [typed, accepts, acceptsAll, acceptsKeyword]

@[simp] theorem accepts_anyOf :
    (mk [.anyOf alternatives]).accepts v = true ↔ ∃ s ∈ alternatives, s.accepts v = true := by
  simp [accepts, acceptsAll, acceptsKeyword, acceptsSome_iff]

@[simp] theorem accepts_enum {values : List PyVal} :
    (mk [.type t, .enum values]).accepts v = true ↔
      t.admits v = true ∧ ∃ x ∈ values, x.eq v.toPy = true := by
  simp [accepts, acceptsAll, acceptsKeyword]

theorem accepts_array :
    (mk [.type .array, .items s]).accepts v = true ↔
      ∃ xs, v = .arr xs ∧ ∀ x ∈ xs, s.accepts x = true := by
  cases v <;> simp [accepts, acceptsAll, acceptsKeyword, JsonType.admits]

/-- **What a closed object accepts**: objects that have the required properties, no
other than the declared ones, and each as its schema says. -/
theorem accepts_closedObject :
    (closedObject properties required).accepts v = true ↔ ∃ kvs, v = .obj kvs ∧
      (∀ p ∈ properties, ∀ e ∈ kvs, e.1 = p.1 → p.2.accepts e.2 = true) ∧
      (∀ name ∈ required, name ∈ Assoc.keys kvs) ∧
      ∀ name ∈ Assoc.keys kvs, name ∈ Assoc.keys properties := by
  cases v with
  | obj kvs =>
    simp only [closedObject, accepts, acceptsAll, acceptsKeyword, JsonType.admits, Keyword.declares,
      acceptsProperties_iff, Bool.and_eq_true, List.all_eq_true, decide_eq_true_eq, Bool.true_and,
      and_true, List.flatMap_cons, List.flatMap_nil, List.append_nil, List.nil_append,
      Json.obj.injEq, exists_eq_left']
  | null | bool | int | float | str | arr =>
    simp [closedObject, accepts, acceptsAll, acceptsKeyword, JsonType.admits]

/-! ## Equality -/

mutual

/-- `s == s'`, on schemas: two dicts with equal entries. -/
def same : Schema → Schema → Bool
  | .mk ks, .mk ks' => sameKeywords ks ks' && ks'.all fun k' => hasKeyword ks k'

/-- Every keyword has an equal one. -/
def sameKeywords : List Keyword → List Keyword → Bool
  | [], _ => true
  | k :: ks, ks' => ks'.any (fun k' => sameKeyword k k') && sameKeywords ks ks'

/-- Some keyword is equal to this one. -/
def hasKeyword : List Keyword → Keyword → Bool
  | [], _ => false
  | k :: ks, k' => sameKeyword k k' || hasKeyword ks k'

def sameKeyword : Keyword → Keyword → Bool
  | .type t, .type t' => t = t'
  | .enum values, .enum values' => PyVal.sameList values values'
  | .anyOf alternatives, .anyOf alternatives' => sameList alternatives alternatives'
  | .items s, .items s' => same s s'
  | .properties schemas, .properties schemas' =>
    sameProperties schemas schemas' &&
      (Assoc.keys schemas').all fun name => decide (name ∈ Assoc.keys schemas)
  | .required names, .required names' => names = names'
  | .additionalProperties b, .additionalProperties b' => b = b'
  | Keyword.annotation name v, Keyword.annotation name' v' => decide (name = name') && v.same v'
  | _, _ => false

def sameList : List Schema → List Schema → Bool
  | [], [] => true
  | s :: ss, s' :: ss' => same s s' && sameList ss ss'
  | _, _ => false

/-- Every property has an equal one of its name. -/
def sameProperties : List (String × Schema) → List (String × Schema) → Bool
  | [], _ => true
  | (name, s) :: schemas, schemas' =>
    (match schemas'.lookup name with
      | some s' => same s s'
      | none => false) && sameProperties schemas schemas'

end

/-- Induction over a schema and its keywords. -/
@[elab_as_elim]
theorem induction {P : Schema → Prop} {Q : Keyword → Prop}
    (mk : ∀ ks : List Keyword, (∀ k ∈ ks, Q k) → P (.mk ks)) (type : ∀ t, Q (.type t))
    (enum : ∀ values, Q (.enum values))
    (anyOf : ∀ ss : List Schema, (∀ s ∈ ss, P s) → Q (.anyOf ss)) (items : ∀ s, P s → Q (.items s))
    (properties : ∀ ps : List (String × Schema), (∀ p ∈ ps, P p.2) → Q (.properties ps))
    (required : ∀ names, Q (.required names))
    (additionalProperties : ∀ b, Q (.additionalProperties b))
    (other : ∀ name v, Q <| Keyword.annotation name v) (s : Schema) : P s :=
  @Schema.rec P Q (fun ks => ∀ k ∈ ks, Q k) (fun ss => ∀ s ∈ ss, P s)
    (fun ps => ∀ p ∈ ps, P p.2) (fun p => P p.2)
    mk type enum anyOf items properties required additionalProperties other
    (fun _ h => nomatch h) (fun _ _ hk hks => List.forall_mem_cons.mpr ⟨hk, hks⟩)
    (fun _ h => nomatch h) (fun _ _ hs hss => List.forall_mem_cons.mpr ⟨hs, hss⟩)
    (fun _ h => nomatch h) (fun _ _ hp hps => List.forall_mem_cons.mpr ⟨hp, hps⟩)
    (fun _ _ hs => hs) s

section
variable {names names' : List String} {ks ks' : List Keyword} {v : Json} {s s' : Schema}

theorem acceptsAll_iff :
    acceptsAll names ks v = true ↔ ∀ k ∈ ks, acceptsKeyword names k v = true := by
  induction ks with
  | nil => simp [acceptsAll]
  | cons k ks ih => simp [acceptsAll, ih]

theorem sameKeywords_iff :
    sameKeywords ks ks' = true ↔ ∀ k ∈ ks, ∃ k' ∈ ks', sameKeyword k k' = true := by
  induction ks with
  | nil => simp [sameKeywords]
  | cons k ks ih => simp [sameKeywords, ih]

theorem hasKeyword_iff {k' : Keyword} :
    hasKeyword ks k' = true ↔ ∃ k ∈ ks, sameKeyword k k' = true := by
  induction ks with
  | nil => simp [hasKeyword]
  | cons k ks ih => simp [hasKeyword, ih]

theorem sameProperties_iff {ps ps' : List (String × Schema)} :
    sameProperties ps ps' = true ↔
      ∀ p ∈ ps, ∃ s', ps'.lookup p.1 = some s' ∧ p.2.same s' = true := by
  induction ps with
  | nil => simp [sameProperties]
  | cons p ps ih =>
    obtain ⟨name, s⟩ := p
    rw [sameProperties, Bool.and_eq_true, ih, List.forall_mem_cons]
    refine and_congr_left fun _ => ?_
    cases ps'.lookup name <;> simp

/-- How two keywords can be equal. -/
inductive SameKeyword : Keyword → Keyword → Prop
  | type (t : JsonType) : SameKeyword (.type t) (.type t)
  | enum {values values' : List PyVal} (h : PyVal.sameList values values' = true) :
      SameKeyword (.enum values) (.enum values')
  | anyOf {ss ss' : List Schema} (h : sameList ss ss' = true) :
      SameKeyword (.anyOf ss) (.anyOf ss')
  | items {s s' : Schema} (h : s.same s' = true) : SameKeyword (.items s) (.items s')
  | properties {ps ps' : List (String × Schema)} (h : sameProperties ps ps' = true)
      (hnames : Assoc.keys ps' ⊆ Assoc.keys ps) :
      SameKeyword (.properties ps) (.properties ps')
  | required (names : List String) : SameKeyword (.required names) (.required names)
  | additionalProperties (b : Bool) :
      SameKeyword (.additionalProperties b) (.additionalProperties b)
  | other {name name' : String} {v v' : PyVal} :
      SameKeyword (Keyword.annotation name v) (Keyword.annotation name' v')

theorem sameKeyword_cases {k k' : Keyword} (h : sameKeyword k k' = true) : SameKeyword k k' := by
  unfold sameKeyword at h
  split at h
  · rw [decide_eq_true_eq] at h
    rw [h]
    exact .type _
  · exact .enum h
  · exact .anyOf h
  · exact .items h
  · rw [Bool.and_eq_true, List.all_eq_true] at h
    exact .properties h.1 fun name hname => of_decide_eq_true (h.2 name hname)
  · rw [decide_eq_true_eq] at h
    rw [h]
    exact .required _
  · rw [decide_eq_true_eq] at h
    rw [h]
    exact .additionalProperties _
  · exact .other
  · cases h

/-- Equal keywords declare the same names. -/
theorem declares_of_same {k k' : Keyword} (h : sameKeyword k k' = true) :
    k'.declares ⊆ k.declares := by
  cases sameKeyword_cases h with
  | properties _ hnames => exact hnames
  | type | enum | anyOf | items | required | additionalProperties | other =>
    exact List.Subset.refl _

theorem acceptsSome_of_same {ss ss' : List Schema}
    (ih : ∀ s ∈ ss, ∀ s' v, s.same s' = true → s'.accepts v = true → s.accepts v = true)
    (h : sameList ss ss' = true) (hv : acceptsSome ss' v = true) : acceptsSome ss v = true := by
  induction ss generalizing ss' with
  | nil =>
    cases ss' with
    | nil => exact hv
    | cons => simp [sameList] at h
  | cons s ss ihss =>
    cases ss' with
    | nil => simp [sameList] at h
    | cons s' ss' =>
      rw [sameList, Bool.and_eq_true] at h
      obtain ⟨hs, hss⟩ := List.forall_mem_cons.mp ih
      rw [acceptsSome, Bool.or_eq_true] at hv ⊢
      exact hv.imp (hs s' v h.1) (ihss hss h.2)

/-- An object may have more properties where more are declared. -/
theorem accepts_more_names {b : Bool} (hnames : names' ⊆ names)
    (hv : acceptsKeyword names' (.additionalProperties b) v = true) :
    acceptsKeyword names (.additionalProperties b) v = true := by
  cases b with
  | true => rfl
  | false =>
    cases v with
    | obj kvs =>
      simp only [acceptsKeyword, List.all_eq_true, decide_eq_true_eq] at hv ⊢
      exact fun name hname => hnames (hv name hname)
    | null | bool | int | float | str | arr => rfl

variable (s) in
/-- **A schema accepts what one that is equal to it accepts.** -/
theorem accepts_of_same :
    ∀ s' v, s.same s' = true → s'.accepts v = true → s.accepts v = true := by
  -- keyword by keyword; only an object without additional properties looks at the others
  refine Schema.induction
    (Q := fun k => ∀ k' names names' v, sameKeyword k k' = true → names' ⊆ names →
      acceptsKeyword names' k' v = true → acceptsKeyword names k v = true)
    ?mk ?type ?enum ?anyOf ?items ?properties ?required ?additionalProperties ?other s
  case mk =>
    rintro ks ih ⟨ks'⟩ v h hv
    rw [same, Bool.and_eq_true, sameKeywords_iff, List.all_eq_true] at h
    obtain ⟨hks, hks'⟩ := h
    rw [accepts, acceptsAll_iff] at hv ⊢
    intro k hk
    obtain ⟨k', hk', hsame⟩ := hks k hk
    refine ih k hk k' _ _ v hsame (fun name hname => ?_) (hv k' hk')
    obtain ⟨k₁', hk₁', hname⟩ := List.mem_flatMap.mp hname
    obtain ⟨k₁, hk₁, hsame₁⟩ := hasKeyword_iff.mp (hks' k₁' hk₁')
    exact List.mem_flatMap.mpr ⟨k₁, hk₁, declares_of_same hsame₁ hname⟩
  case type =>
    intro t k' names names' v h _ hv
    cases sameKeyword_cases h with
    | type => exact hv
  case enum =>
    intro values k' names names' v h _ hv
    cases sameKeyword_cases h with
    | enum hsame =>
      rw [acceptsKeyword, List.any_eq_true] at hv ⊢
      obtain ⟨x', hx', heq⟩ := hv
      obtain ⟨x, hx, hxsame⟩ := PyVal.exists_same_of_sameList hsame hx'
      exact ⟨x, hx, PyVal.eq_of_same_of_eq hxsame heq⟩
  case anyOf =>
    intro ss ih k' names names' v h _ hv
    cases sameKeyword_cases h with
    | anyOf hsame =>
      rw [acceptsKeyword] at hv ⊢
      exact acceptsSome_of_same ih hsame hv
  case items =>
    intro s ih k' names names' v h _ hv
    cases sameKeyword_cases h with
    | @items _ s' hsame =>
      cases v with
      | arr xs =>
        rw [acceptsKeyword, List.all_eq_true] at hv ⊢
        exact fun x hx => ih s' x hsame (hv x hx)
      | null | bool | int | float | str | obj => rfl
  case properties =>
    intro ps ih k' names names' v h _ hv
    cases sameKeyword_cases h with
    | properties hsame _ =>
      cases v with
      | obj kvs =>
        rw [acceptsKeyword, acceptsProperties_iff] at hv ⊢
        intro p hp e he hname
        obtain ⟨s', hs', hps⟩ := sameProperties_iff.mp hsame p hp
        exact ih p hp s' e.2 hps (hv _ (Assoc.mem_of_lookup hs') e he hname)
      | null | bool | int | float | str | arr => rfl
  case required =>
    intro required k' names names' v h _ hv
    cases sameKeyword_cases h with
    | required => cases v <;> exact hv
  case additionalProperties =>
    intro b k' names names' v h hnames hv
    cases sameKeyword_cases h with
    | additionalProperties => exact accepts_more_names hnames hv
  case other =>
    intros
    rfl

end

end Schema
