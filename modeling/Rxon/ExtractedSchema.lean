import Rxon.Extraction

/-! # Extracted schemas

`SchemaOf D lib t s` says, without a stack and without a cache, that `s` is the schema of
the type `t`.  Whatever the extractor returns is that schema, as long as the cache holds
such schemas only, which it then keeps doing (`extracts_schemaOf`); a type has at most
one (`SchemaOf.unique`).

The other question is when the extractor returns at all.  A class refers to those that
its public fields mention; where no chain of references goes on forever, a stack that is
deep enough is never exhausted. -/

namespace Rxon
open Memo

section
variable (D : Decls) (lib : Introspection)

/-- The class is declared, and has no schema of its own to tell. -/
def Plain (c : String) (d : ClassDecl) : Prop :=
  D.lookup c = some d ∧ lib.modelSchema (.cls c) = none

/-- The schema of a type that is described without looking at another one. -/
def leafSchema : Ty → Option Schema
  | .any => some (.mk [])
  | .str | .uuid => some (.typed .string)
  | .int => some (.typed .integer)
  | .float => some (.typed .number)
  | .bool => some (.typed .boolean)
  | .none => some (.typed .null)
  | .text s => some (.typed (textType s))
  | .enum _ members => some (.mk [.type .string, .enum (members.map Prod.snd)])
  | .dict _ | .other "dict" => some (.typed .object)
  | .other "list" => some (.mk [.type .array, .items (.mk [])])
  | .other name => some ((lib.modelSchema (.other name)).getD (.typed .string))
  | .cls name =>
    match lib.modelSchema (.cls name) with
    | some schema => some schema
    | none => if (D.lookup name).isSome then none else some (.typed .string)
  | .union _ | .list _ | .annotated _ => none

/-- The schema of a class whose public fields have the schemas `ss`. -/
def classSchema (d : ClassDecl) (ss : List Schema) : Schema :=
  .closedObject ((d.publicFields.map FieldDecl.name).zip ss) d.requiredNames

/-- The properties of a class are its public fields. -/
theorem keys_properties {d : ClassDecl} {ss : List Schema}
    (hlen : d.publicFields.length = ss.length) :
    Assoc.keys ((d.publicFields.map FieldDecl.name).zip ss) =
      d.publicFields.map FieldDecl.name :=
  List.map_fst_zip (Nat.le_of_eq (by rw [List.length_map, hlen]))

theorem mem_properties {d : ClassDecl} {ss : List Schema} {p : String × Schema} :
    p ∈ (d.publicFields.map FieldDecl.name).zip ss ↔
      ∃ q ∈ d.publicFields.zip ss, (q.1.name, q.2) = p := by
  rw [List.zip_map_left]
  exact List.mem_map

/-- The schema of a type. -/
inductive SchemaOf : Ty → Schema → Prop
  | leaf {t : Ty} {s : Schema} (h : leafSchema D lib t = some s) : SchemaOf t s
  | union {ts : List Ty} {ss : List Schema} (hlen : ts.length = ss.length)
      (h : ∀ p ∈ ts.zip ss, SchemaOf p.1 p.2) : SchemaOf (.union ts) (.mk [.anyOf ss])
  | list {t : Ty} {s : Schema} (h : SchemaOf t s) :
      SchemaOf (.list t) (.mk [.type .array, .items s])
  | annotated {t : Ty} {s : Schema} (h : SchemaOf t s) : SchemaOf (.annotated t) s
  | cls {c : String} {d : ClassDecl} {ss : List Schema} (hc : Plain D lib c d)
      (hlen : d.publicFields.length = ss.length)
      (h : ∀ p ∈ d.publicFields.zip ss, SchemaOf (d.kind.hint p.1) p.2) :
      SchemaOf (.cls c) (classSchema d ss)

/-- What `extract_json_schema` returns for a type, which asks the type itself first. -/
def Extracted (t : Ty) (s : Schema) : Prop :=
  lib.modelSchema t = some s ∨ lib.modelSchema t = none ∧ SchemaOf D lib t s

/-! ## Rules for the extractor -/

/-- What suffices for every schema of the extractor to satisfy `P`, and for those that
are stored or returned at the top to satisfy `S`. -/
structure ExtractionRules (S P : Ty → Schema → Prop) : Prop where
  leaf : ∀ t s, leafSchema D lib t = some s → P t s
  union : ∀ (ts : List Ty) (ss : List Schema), ts.length = ss.length →
    (∀ p ∈ ts.zip ss, P p.1 p.2) → P (.union ts) (.mk [.anyOf ss])
  list : ∀ t s, P t s → P (.list t) (.mk [.type .array, .items s])
  annotated : ∀ t s, P t s → P (.annotated t) s
  nested : ∀ c d s, Plain D lib c d → S (.cls c) s →
    P (.cls c) (if s.isEmpty then .typed .object else s)
  model : ∀ t s, lib.modelSchema t = some s → S t s
  cls : ∀ c d (ss : List Schema), Plain D lib c d → d.publicFields.length = ss.length →
    (∀ p ∈ d.publicFields.zip ss, P (d.kind.hint p.1) p.2) → S (.cls c) (classSchema d ss)
  other : ∀ t s, lib.modelSchema t = none → (∀ c d, t = .cls c → ¬ Plain D lib c d) →
    P t s → S t s

/-- What the three functions return, where they return. -/
structure Extracts (S P : Ty → Schema → Prop) (n : Nat) : Prop where
  python : ∀ t, (pythonTypeToJsonSchema D lib n t).Yields S (P t)
  extract : ∀ t, (extractJsonSchema D lib n t).Yields S fun r =>
    (∀ s, r = some s → S t s) ∧ (r = none → ∀ c d, t = .cls c → ¬ Plain D lib c d)
  uncached : ∀ t, (extractUncached D lib n t).Yields S fun r =>
    (∀ s, r = some s → S t s) ∧ (r = none → ∀ c d, t = .cls c → ¬ Plain D lib c d)

variable {D lib} {S P : Ty → Schema → Prop} {n : Nat}

theorem python_any (n : Nat) :
    (pythonTypeToJsonSchema D lib n .any).Yields S fun s => s = .mk [] := by
  cases n with
  | zero => exact ProgE.yields_throw
  | succ n => exact ProgE.yields_pure rfl

theorem leafSchema_other {name : String} (hlist : name ≠ "list") (hdict : name ≠ "dict") :
    leafSchema D lib (.other name) =
      some ((lib.modelSchema (.other name)).getD (.typed .string)) := by
  unfold leafSchema
  split <;> simp_all

theorem python_other {name : String} (hlist : name ≠ "list") (hdict : name ≠ "dict") :
    pythonTypeToJsonSchema D lib (n + 1) (.other name) =
      pure ((lib.modelSchema (.other name)).getD (.typed .string)) := by
  unfold pythonTypeToJsonSchema
  split <;> simp_all

theorem ExtractionRules.python_succ (hrules : ExtractionRules D lib S P)
    (ih : Extracts D lib S P n) (t : Ty) :
    (pythonTypeToJsonSchema D lib (n + 1) t).Yields S (P t) := by
  cases t with
  | any | str | int | float | bool | none | uuid | enum | dict | text =>
    exact ProgE.yields_pure (hrules.leaf _ _ rfl)
  | union ts =>
    refine ProgE.yields_bind (ProgE.yields_forEach fun t _ => ih.python t) fun ss hss => ?_
    exact ProgE.yields_pure (hrules.union ts ss hss.1 hss.2)
  | list t =>
    exact ProgE.yields_bind (ih.python t) fun s hs => ProgE.yields_pure (hrules.list t s hs)
  | annotated t => exact (ih.python t).mono fun s hs => hrules.annotated t s hs
  | other name =>
    by_cases hlist : name = "list"
    · subst hlist
      refine ProgE.yields_bind (python_any n) fun s hs => ProgE.yields_pure ?_
      subst hs
      exact hrules.leaf _ _ rfl
    · by_cases hdict : name = "dict"
      · subst hdict
        exact ProgE.yields_pure (hrules.leaf _ _ rfl)
      · rw [python_other hlist hdict]
        exact ProgE.yields_pure (hrules.leaf _ _ (leafSchema_other hlist hdict))
  | cls name =>
    unfold pythonTypeToJsonSchema
    dsimp only
    cases hmodel : lib.modelSchema (.cls name) with
    | some schema =>
      refine ProgE.yields_pure (hrules.leaf _ _ ?_)
      simp [leafSchema, hmodel]
    | none =>
      cases hdecl : D.lookup name with
      | none =>
        refine ProgE.yields_pure (hrules.leaf _ _ ?_)
        simp [leafSchema, hmodel, hdecl]
      | some d =>
        refine ProgE.yields_bind (ih.extract (.cls name)) fun r hr => ?_
        cases r with
        | none => exact absurd ⟨hdecl, hmodel⟩ (hr.2 rfl name d rfl)
        | some s =>
          exact ProgE.yields_pure (hrules.nested name d s ⟨hdecl, hmodel⟩ (hr.1 s rfl))

theorem uncached_model {t : Ty} {s : Schema} (hmodel : lib.modelSchema t = some s) :
    extractUncached D lib (n + 1) t = pure (some s) := by
  unfold extractUncached
  rw [hmodel]

theorem uncached_plain {c : String} {d : ClassDecl} (hc : Plain D lib c d) :
    extractUncached D lib (n + 1) (.cls c) = do
      let properties ← ProgE.forEach (fun f => do
        return (f.name, ← pythonTypeToJsonSchema D lib n (d.kind.hint f))) d.publicFields
      return some (.closedObject properties d.requiredNames) := by
  unfold extractUncached
  rw [hc.2]
  dsimp only
  rw [hc.1]

theorem uncached_not_plain {t : Ty} (hmodel : lib.modelSchema t = none)
    (ht : ∀ c d, t = .cls c → ¬ Plain D lib c d) :
    extractUncached D lib (n + 1) t =
      tryCatch (do return some (← pythonTypeToJsonSchema D lib n t)) fun _ => return none := by
  unfold extractUncached
  rw [hmodel]
  dsimp only
  cases t with
  | cls name =>
    dsimp only
    cases hdecl : D.lookup name with
    | some d => exact absurd ⟨hdecl, hmodel⟩ (ht name d rfl)
    | none => rfl
  | any | str | int | float | bool | none | uuid | enum | list | dict | union | annotated
    | text | other => rfl

/-- What is caught is answered by `None`, which no declared class is. -/
theorem ExtractionRules.caught (hrules : ExtractionRules D lib S P)
    (ih : Extracts D lib S P n) {t : Ty} (hmodel : lib.modelSchema t = none)
    (ht : ∀ c d, t = .cls c → ¬ Plain D lib c d) :
    (extractUncached D lib (n + 1) t).Yields S fun r =>
      (∀ s, r = some s → S t s) ∧ (r = none → ∀ c d, t = .cls c → ¬ Plain D lib c d) := by
  rw [uncached_not_plain hmodel ht]
  refine ProgE.yields_tryCatch ?_ fun e => ProgE.yields_pure ⟨by simp, fun _ => ht⟩
  refine ProgE.yields_bind (ih.python t) fun s hs => ProgE.yields_pure ⟨?_, by simp⟩
  rintro s' heq
  cases heq
  exact hrules.other t s hmodel ht hs

/-- The properties that were collected field by field. -/
theorem eq_zip_of_names {fields : List FieldDecl} {properties : List (String × Schema)}
    (hlen : fields.length = properties.length)
    (h : ∀ p ∈ fields.zip properties, p.2.1 = p.1.name) :
    properties = (fields.map FieldDecl.name).zip (properties.map Prod.snd) := by
  induction fields generalizing properties with
  | nil =>
    cases properties with
    | nil => rfl
    | cons e es => cases hlen
  | cons f fs ih =>
    cases properties with
    | nil => cases hlen
    | cons e es =>
      obtain ⟨he, hes⟩ := List.forall_mem_cons.mp h
      rw [List.map_cons, List.map_cons, List.zip_cons_cons, ← ih (Nat.succ.inj hlen) hes, ← he]

theorem ExtractionRules.declared (hrules : ExtractionRules D lib S P)
    (ih : Extracts D lib S P n) {c : String} {d : ClassDecl} (hc : Plain D lib c d) :
    (extractUncached D lib (n + 1) (.cls c)).Yields S fun r => (∀ s, r = some s → S (.cls c) s) ∧
      (r = none → ∀ c' d, Ty.cls c = .cls c' → ¬ Plain D lib c' d) := by
  rw [uncached_plain hc]
  have hfield (f : FieldDecl) : (do
      return (f.name, ← pythonTypeToJsonSchema D lib n (d.kind.hint f)) :
        Extraction (String × Schema)).Yields S fun e => e.1 = f.name ∧ P (d.kind.hint f) e.2 :=
    ProgE.yields_bind (ih.python _) fun s hs => ProgE.yields_pure ⟨rfl, hs⟩
  refine ProgE.yields_bind (ProgE.yields_forEach fun f _ => hfield f) fun properties h => ?_
  obtain ⟨hlen, hproperties⟩ := h
  refine ProgE.yields_pure ⟨?_, by simp⟩
  rintro s heq
  cases heq
  rw [eq_zip_of_names hlen fun p hp => (hproperties p hp).1]
  refine hrules.cls c d _ hc (by simpa using hlen) fun p hp => ?_
  rw [List.zip_map_right] at hp
  obtain ⟨q, hq, rfl⟩ := List.mem_map.mp hp
  exact (hproperties q hq).2

theorem ExtractionRules.uncached_succ (hrules : ExtractionRules D lib S P)
    (ih : Extracts D lib S P n) (t : Ty) :
    (extractUncached D lib (n + 1) t).Yields S fun r =>
      (∀ s, r = some s → S t s) ∧ (r = none → ∀ c d, t = .cls c → ¬ Plain D lib c d) := by
  cases hmodel : lib.modelSchema t with
  | some schema =>
    rw [uncached_model hmodel]
    refine ProgE.yields_pure ⟨fun s heq => ?_, by simp⟩
    cases heq
    exact hrules.model t schema hmodel
  | none =>
    by_cases hplain : ∃ c d, t = .cls c ∧ Plain D lib c d
    · obtain ⟨c, d, rfl, hc⟩ := hplain
      exact hrules.declared ih hc
    · exact hrules.caught ih hmodel fun c d ht hc => hplain ⟨c, d, ht, hc⟩

theorem Extracts.extract_succ (ih : Extracts D lib S P n) (t : Ty) :
    (extractJsonSchema D lib (n + 1) t).Yields S fun r =>
      (∀ s, r = some s → S t s) ∧ (r = none → ∀ c d, t = .cls c → ¬ Plain D lib c d) := by
  unfold extractJsonSchema
  split
  · have hlookup : (liftM (Prog.lookup t : Prog Ty Schema (Option Schema)) :
        Extraction (Option Schema)).Yields S fun r => ∀ s, r = some s → S t s :=
      ProgE.yields_lookup (by simp) (by simp)
    refine ProgE.yields_bind hlookup fun r hr => ?_
    cases r with
    | some cached => exact ProgE.yields_pure ⟨hr, by simp⟩
    | none =>
      refine ProgE.yields_bind (ih.uncached t) fun schema hschema => ?_
      cases schema with
      | none => exact ProgE.yields_pure hschema
      | some s =>
        exact ProgE.yields_bind (ProgE.yields_save (hschema.1 s rfl)) fun _ _ =>
          ProgE.yields_pure hschema
  · exact ih.uncached t

/-- **The rules carry to every schema that the extractor returns.** -/
theorem ExtractionRules.extracts (hrules : ExtractionRules D lib S P) (n : Nat) :
    Extracts D lib S P n := by
  induction n with
  | zero =>
    exact ⟨fun _ => ProgE.yields_throw, fun _ => ProgE.yields_throw, fun _ => ProgE.yields_throw⟩
  | succ n ih => exact ⟨hrules.python_succ ih, ih.extract_succ, hrules.uncached_succ ih⟩

/-- The rules carry to every schema of a type, however it comes about. -/
theorem ExtractionRules.schemaOf (hrules : ExtractionRules D lib S P) {t : Ty} {s : Schema}
    (h : SchemaOf D lib t s) : P t s := by
  induction h with
  | leaf h => exact hrules.leaf _ _ h
  | union hlen _ ih => exact hrules.union _ _ hlen ih
  | list _ ih => exact hrules.list _ _ ih
  | annotated _ ih => exact hrules.annotated _ _ ih
  | cls hc hlen _ ih => exact hrules.nested _ _ _ hc (hrules.cls _ _ _ hc hlen ih)

/-! ## What is extracted is the schema -/

theorem SchemaOf.cases_cls {c : String} {d : ClassDecl} {s : Schema} (hc : Plain D lib c d)
    (h : SchemaOf D lib (.cls c) s) : ∃ ss, s = classSchema d ss ∧
      d.publicFields.length = ss.length ∧
      ∀ p ∈ d.publicFields.zip ss, SchemaOf D lib (d.kind.hint p.1) p.2 := by
  cases h with
  | leaf hleaf => simp [leafSchema, hc.1, hc.2] at hleaf
  | cls hc' hlen h =>
    have hd := hc.1
    rw [hc'.1] at hd
    cases hd
    exact ⟨_, rfl, hlen, h⟩

theorem extractionRules_schemaOf : ExtractionRules D lib (Extracted D lib) (SchemaOf D lib) where
  leaf _ _ h := .leaf h
  union _ _ hlen h := .union hlen h
  list _ _ h := .list h
  annotated _ _ h := .annotated h
  nested c d s hc h := by
    have hs : SchemaOf D lib (.cls c) s := by
      rcases h with hmodel | ⟨-, h⟩
      · rw [hc.2] at hmodel
        cases hmodel
      · exact h
    obtain ⟨ss, rfl, -, -⟩ := hs.cases_cls hc
    exact hs
  model _ _ h := Or.inl h
  cls _ _ _ hc hlen h := Or.inr ⟨hc.2, .cls hc hlen h⟩
  other _ _ hmodel _ h := Or.inr ⟨hmodel, h⟩

/-- **What the extractor returns is the schema of the type.** -/
theorem extracts_schemaOf (n : Nat) : Extracts D lib (Extracted D lib) (SchemaOf D lib) n :=
  extractionRules_schemaOf.extracts n

/-- What an extractor of one's own is used for leaves the cache to schemas, too. -/
theorem extractWith_yields (extractor : Ty → Except PyError (Option Schema)) (n : Nat) (t : Ty) :
    (extractWith D lib extractor n t).Yields (Extracted D lib) fun _ => True := by
  unfold extractWith
  split
  · exact ProgE.yields_throw
  · exact ProgE.yields_throw
  · next n =>
    have hcustom : (liftM (extractor t) : Extraction (Option Schema)).Yields (Extracted D lib)
        fun _ => True := by
      cases extractor t with
      | ok r => exact ProgE.yields_pure trivial
      | error e => exact ProgE.yields_throw
    refine ProgE.yields_bind hcustom fun r _ => ?_
    cases r with
    | some schema => exact ProgE.yields_pure trivial
    | none => exact ((extracts_schemaOf (n + 1)).uncached t).mono fun _ _ => trivial

theorem exists_zip {α : Type} {R : α → Schema → Prop} {xs : List α} (h : ∀ x ∈ xs, ∃ s, R x s) :
    ∃ ss, xs.length = ss.length ∧ ∀ p ∈ xs.zip ss, R p.1 p.2 := by
  induction xs with
  | nil => exact ⟨[], rfl, fun p hp => by cases hp⟩
  | cons x xs ih =>
    obtain ⟨hx, hxs⟩ := List.forall_mem_cons.mp h
    obtain ⟨s, hs⟩ := hx
    obtain ⟨ss, hlen, hss⟩ := ih hxs
    exact ⟨s :: ss, congrArg (· + 1) hlen, List.forall_mem_cons.mpr ⟨hs, hss⟩⟩

/-- A union has a schema iff all its alternatives have. -/
theorem exists_schemaOf_union {ts : List Ty} :
    (∃ s, SchemaOf D lib (.union ts) s) ↔ ∀ t ∈ ts, ∃ s, SchemaOf D lib t s := by
  constructor
  · rintro ⟨s, hs⟩ t ht
    cases hs with
    | leaf h => cases h
    | union hlen h =>
      obtain ⟨s, hp⟩ := List.exists_mem_zip_left hlen ht
      exact ⟨s, h _ hp⟩
  · intro h
    obtain ⟨ss, hlen, hss⟩ := exists_zip h
    exact ⟨_, .union hlen hss⟩

theorem eq_of_zip_unique {α : Type} {R : α → Schema → Prop} {xs : List α} {ss ss' : List Schema}
    (hlen : xs.length = ss.length) (hlen' : xs.length = ss'.length)
    (h : ∀ p ∈ xs.zip ss, ∀ s, R p.1 s → p.2 = s) (h' : ∀ p ∈ xs.zip ss', R p.1 p.2) :
    ss = ss' := by
  induction xs generalizing ss ss' with
  | nil =>
    cases ss with
    | nil =>
      cases ss' with
      | nil => rfl
      | cons => cases hlen'
    | cons => cases hlen
  | cons x xs ih =>
    cases ss with
    | nil => cases hlen
    | cons s ss =>
      cases ss' with
      | nil => cases hlen'
      | cons s' ss' =>
        obtain ⟨hs, hss⟩ := List.forall_mem_cons.mp h
        obtain ⟨hs', hss'⟩ := List.forall_mem_cons.mp h'
        rw [ih (Nat.succ.inj hlen) (Nat.succ.inj hlen') hss hss']
        exact congrArg (· :: ss') (hs s' hs')

/-- **A type has one schema at most.** -/
theorem SchemaOf.unique {t : Ty} {s s' : Schema} (h : SchemaOf D lib t s)
    (h' : SchemaOf D lib t s') : s = s' := by
  induction h generalizing s' with
  | @leaf t s h =>
    cases h' with
    | leaf h' => exact Option.some.inj (h.symm.trans h')
    | union | list | annotated => cases h
    | cls hc => simp [leafSchema, hc.1, hc.2] at h
  | union hlen _ ih =>
    cases h' with
    | leaf h' => cases h'
    | union hlen' h' => rw [eq_of_zip_unique hlen hlen' (fun p hp s hs => ih p hp hs) h']
  | list _ ih =>
    cases h' with
    | leaf h' => cases h'
    | list h' => rw [ih h']
  | annotated _ ih =>
    cases h' with
    | leaf h' => cases h'
    | annotated h' => exact ih h'
  | @cls c d ss hc hlen _ ih =>
    obtain ⟨ss', rfl, hlen', h'⟩ := h'.cases_cls hc
    have hss : ss = ss' :=
      eq_of_zip_unique (R := fun f s => SchemaOf D lib (d.kind.hint f) s) hlen hlen'
        (fun p hp s hs => ih p hp hs) h'
    rw [hss]

theorem Extracted.unique {t : Ty} {s s' : Schema} (h : Extracted D lib t s)
    (h' : Extracted D lib t s') : s = s' := by
  rcases h with h | ⟨hnone, h⟩
  · rcases h' with h' | ⟨hnone', -⟩
    · exact Option.some.inj (h.symm.trans h')
    · rw [hnone'] at h
      cases h
  · rcases h' with h' | ⟨-, h'⟩
    · rw [hnone] at h'
      cases h'
    · exact h.unique h'

end
end Rxon
