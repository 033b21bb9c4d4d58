import Rxon.ExtractedSchema

/-! # When schema extraction returns

A class refers to the classes that its public fields mention, inside lists, unions and
`Annotated`; what a dict holds is not described, so it is not mentioned either.

Where no chain of references from a class goes on forever, a stack that is deep enough
for the declarations is enough for every state of the cache.  Where one does, nothing
can be extracted from an empty cache, however deep the stack: a class's schema is stored
only after those of all classes it refers to (`extraction_returns_iff`).  Types other
than classes are extracted under a `try`, and always return. -/

namespace Ty

mutual

/-- The classes that the extractor follows a type into. -/
def mentions : Ty → List String
  | .cls c => [c]
  | .list t => mentions t
  | .annotated t => mentions t
  | .union ts => mentionsList ts
  | _ => []

def mentionsList : List Ty → List String
  | [] => []
  | t :: ts => mentions t ++ mentionsList ts

end

theorem mem_mentionsList {ts : List Ty} {c : String} :
    c ∈ mentionsList ts ↔ ∃ t ∈ ts, c ∈ mentions t := by
  induction ts with
  | nil => simp [mentionsList]
  | cons t ts ih => simp [mentionsList, ih]

end Ty

namespace Rxon
open Memo

section
variable (D : Decls) (lib : Introspection)

/-- `c` refers to `c'`. -/
def Refers (c' c : String) : Prop :=
  ∃ d, Plain D lib c d ∧ ∃ f ∈ d.publicFields, c' ∈ (d.kind.hint f).mentions

/-- An extraction does not raise, whatever it finds in the cache. -/
abbrev Terminates {α : Type} (p : Extraction α) : Prop :=
  p.Returns (fun _ _ => True) fun _ => True

variable {D lib} {t : Ty} {c : String} {n : Nat}

/-! ## Deep enough stacks -/

/-- Stacks with `k` frames to spare are deep enough when all from `N` frames on are. -/
theorem exists_deep_enough {p : Nat → Prop} (k N : Nat) (h : ∀ n ≥ N, p (n + k)) :
    ∃ N, ∀ n ≥ N, p n := by
  refine ⟨N + k, fun n hn => ?_⟩
  obtain ⟨m, rfl⟩ : ∃ m, n = m + k := ⟨n - k, by omega⟩
  exact h m (by omega)

theorem exists_common_bound {α : Type} {p : Nat → α → Prop} {xs : List α}
    (h : ∀ x ∈ xs, ∃ N, ∀ n ≥ N, p n x) : ∃ N, ∀ n ≥ N, ∀ x ∈ xs, p n x := by
  induction xs with
  | nil => exact ⟨0, fun n _ x hx => by cases hx⟩
  | cons x xs ih =>
    obtain ⟨hx, hxs⟩ := List.forall_mem_cons.mp h
    obtain ⟨N, hN⟩ := hx
    obtain ⟨M, hM⟩ := ih hxs
    refine ⟨max N M, fun n hn => List.forall_mem_cons.mpr ⟨hN n ?_, hM n ?_⟩⟩ <;> omega

theorem extract_terminates (h : Terminates (extractUncached D lib n t)) :
    Terminates (extractJsonSchema D lib (n + 1) t) := by
  unfold extractJsonSchema
  split
  · refine ProgE.returns_bind (ProgE.returns_lift (Prog.ensures_trivial _)) fun r _ => ?_
    cases r with
    | some cached => exact ProgE.returns_pure trivial
    | none =>
      refine ProgE.returns_bind h fun schema _ => ?_
      cases schema with
      | none => exact ProgE.returns_pure trivial
      | some s =>
        refine ProgE.returns_bind (ProgE.returns_lift (Prog.ensures_trivial _)) fun _ _ => ?_
        exact ProgE.returns_pure trivial
  · exact h

/-- What is no declared class is extracted under a `try`. -/
theorem uncached_terminates_of_not_plain (h : ∀ c d, t = .cls c → ¬ Plain D lib c d) :
    Terminates (extractUncached D lib (n + 1) t) := by
  cases hmodel : lib.modelSchema t with
  | some schema =>
    rw [uncached_model hmodel]
    exact ProgE.returns_pure trivial
  | none =>
    rw [uncached_not_plain hmodel h]
    exact ProgE.returns_handled ((Prog.ensures_trivial _).mono fun _ _ _ _ => trivial)
      fun _ => ProgE.returns_pure trivial

theorem uncached_terminates_of_plain {d : ClassDecl} (hc : Plain D lib c d)
    (h : ∀ f ∈ d.publicFields, Terminates (pythonTypeToJsonSchema D lib n (d.kind.hint f))) :
    Terminates (extractUncached D lib (n + 1) (.cls c)) := by
  rw [uncached_plain hc]
  refine ProgE.returns_bind (ProgE.returns_forEach (R := fun _ _ => True) fun f hf => ?_)
    fun _ _ => ProgE.returns_pure trivial
  exact ProgE.returns_bind (h f hf) fun _ _ => ProgE.returns_pure trivial

/-- A type returns when the classes that it mentions do. -/
theorem python_terminates
    (h : ∀ c ∈ t.mentions, ∃ N, ∀ n ≥ N, Terminates (extractJsonSchema D lib n (.cls c))) :
    ∃ N, ∀ n ≥ N, Terminates (pythonTypeToJsonSchema D lib n t) := by
  -- along the type; each level takes one frame of its own
  induction t with
  | union ts ih =>
    obtain ⟨N, hN⟩ := exists_common_bound fun t ht =>
      ih t ht fun c hc => h c (Ty.mem_mentionsList.mpr ⟨t, ht, hc⟩)
    refine exists_deep_enough 1 N fun n hn => ?_
    refine ProgE.returns_bind (ProgE.returns_forEach (R := fun _ _ => True) fun t ht => ?_)
      fun _ _ => ProgE.returns_pure trivial
    exact hN n hn t ht
  | list t ih =>
    obtain ⟨N, hN⟩ := ih h
    refine exists_deep_enough 1 N fun n hn => ?_
    exact ProgE.returns_bind (hN n hn) fun _ _ => ProgE.returns_pure trivial
  | annotated t ih =>
    obtain ⟨N, hN⟩ := ih h
    refine exists_deep_enough 1 N fun n hn => ?_
    exact hN n hn
  | cls c =>
    obtain ⟨N, hN⟩ := h c (List.mem_singleton_self c)
    refine exists_deep_enough 1 N fun n hn => ?_
    unfold pythonTypeToJsonSchema
    dsimp only
    split
    · exact ProgE.returns_pure trivial
    · split
      · refine ProgE.returns_bind (hN n hn) fun r _ => ?_
        cases r <;> exact ProgE.returns_pure trivial
      · exact ProgE.returns_pure trivial
  | other name =>
    refine exists_deep_enough 2 0 fun n _ => ?_
    by_cases hlist : name = "list"
    · subst hlist
      have hany : Terminates (pythonTypeToJsonSchema D lib (n + 1) .any) :=
        ProgE.returns_pure trivial
      exact ProgE.returns_bind hany fun _ _ => ProgE.returns_pure trivial
    · by_cases hdict : name = "dict"
      · subst hdict
        exact ProgE.returns_pure trivial
      · rw [python_other hlist hdict]
        exact ProgE.returns_pure trivial
  | any | str | int | float | bool | none | uuid | enum | dict | text =>
    refine exists_deep_enough 1 0 fun n _ => ?_
    exact ProgE.returns_pure trivial

/-- **Where references end, extraction returns**, whatever is cached. -/
theorem extract_terminates_of_acc (h : Acc (Refers D lib) c) :
    ∃ N, ∀ n ≥ N, Terminates (extractJsonSchema D lib n (.cls c)) := by
  induction h with
  | intro c _ ih =>
    by_cases hplain : ∃ d, Plain D lib c d
    · -- what its fields mention it refers to, which is before it in the recursion
      obtain ⟨d, hc⟩ := hplain
      obtain ⟨N, hN⟩ := exists_common_bound
        (p := fun n f => Terminates (pythonTypeToJsonSchema D lib n (d.kind.hint f)))
        fun f hf => python_terminates fun c' hc' => ih c' ⟨d, hc, f, hf, hc'⟩
      refine exists_deep_enough 2 N fun n hn => ?_
      exact extract_terminates (uncached_terminates_of_plain hc (hN n hn))
    · refine exists_deep_enough 2 0 fun n _ => ?_
      refine extract_terminates (uncached_terminates_of_not_plain ?_)
      rintro c' d heq hc
      cases heq
      exact hplain ⟨d, hc⟩

/-! ## Endless references -/

theorem acc_of_not_plain (h : ∀ d, ¬ Plain D lib c d) : Acc (Refers D lib) c := by
  constructor
  rintro c' ⟨d, hc, -⟩
  exact absurd hc (h d)

/-- A schema is extracted, or stored, only after those of all classes referred to. -/
theorem extractionRules_acc :
    ExtractionRules D lib (fun t _ => ∀ c, t = .cls c → Acc (Refers D lib) c)
      fun t _ => ∀ c ∈ t.mentions, Acc (Refers D lib) c where
  leaf t s h c hc := by
    cases t with
    | cls name =>
      obtain rfl := List.mem_singleton.mp hc
      refine acc_of_not_plain fun d hplain => ?_
      simp [leafSchema, hplain.1, hplain.2] at h
    | union | list | annotated => cases h
    | any | str | int | float | bool | none | uuid | enum | dict | text | other => cases hc
  union ts ss hlen h c hc := by
    obtain ⟨t, ht, hc⟩ := Ty.mem_mentionsList.mp hc
    obtain ⟨s, hp⟩ := List.exists_mem_zip_left hlen ht
    exact h _ hp c hc
  list t s h := h
  annotated t s h := h
  nested c d s hc h c' hc' := by
    rw [List.mem_singleton.mp hc']
    exact h c rfl
  model t s hmodel c ht := by
    subst ht
    refine acc_of_not_plain fun d hc => ?_
    rw [hc.2] at hmodel
    cases hmodel
  cls c d ss hc hlen h c' heq := by
    cases heq
    constructor
    rintro c' ⟨d', hc', f, hf, hmentions⟩
    obtain rfl : d = d' := Option.some.inj (hc.1.symm.trans hc'.1)
    obtain ⟨s, hp⟩ := List.exists_mem_zip_left hlen hf
    exact h _ hp c' hmentions
  other t s hmodel hplain h c ht := acc_of_not_plain fun d => hplain c d ht

/-- What an extraction from an empty cache returns has no endless references. -/
theorem acc_of_extract {r : Option Schema}
    (h : ((extractJsonSchema D lib n (.cls c)).run.run (Cache.empty : TypeSchemaCache)).1 = .ok r) :
    Acc (Refers D lib) c := by
  have hyields : Extracts D lib _ _ n := extractionRules_acc.extracts n
  have hresult := (hyields.extract (.cls c)).run (c := (Cache.empty : TypeSchemaCache))
    Cache.all_empty
  obtain ⟨hsome, hnone⟩ := hresult.1 r h
  cases r with
  | some s => exact hsome s rfl c rfl
  | none => exact acc_of_not_plain fun d => hnone rfl c d rfl

theorem uncached_some (hmodel : lib.modelSchema t = none) {s : Schema} (hs : SchemaOf D lib t s) :
    ∃ N, ∀ n ≥ N, (extractUncached D lib n t).Returns (fun _ _ => True)
      fun r => (∀ c d, t = .cls c → ¬ Plain D lib c d) → ∃ s, r = some s := by
  have hacc : ∀ c ∈ t.mentions, Acc (Refers D lib) c := extractionRules_acc.schemaOf hs
  by_cases hplain : ∃ c d, t = .cls c ∧ Plain D lib c d
  · obtain ⟨c, d, rfl, hc⟩ := hplain
    obtain ⟨N, hN⟩ := exists_common_bound
      (p := fun n f => Terminates (pythonTypeToJsonSchema D lib n (d.kind.hint f)))
      fun f hf => python_terminates fun c' hc' =>
        extract_terminates_of_acc ((hacc c (List.mem_singleton_self c)).inv ⟨d, hc, f, hf, hc'⟩)
    refine exists_deep_enough 1 N fun n hn => ?_
    exact (uncached_terminates_of_plain hc (hN n hn)).mono
      fun _ _ hnot => absurd hc (hnot c d rfl)
  · have hnot : ∀ c d, t = .cls c → ¬ Plain D lib c d := fun c d ht hc => hplain ⟨c, d, ht, hc⟩
    obtain ⟨N, hN⟩ := python_terminates fun c hc => extract_terminates_of_acc (hacc c hc)
    refine exists_deep_enough 1 N fun n hn => ?_
    rw [uncached_not_plain hmodel hnot]
    apply ProgE.returns_tryCatch
    exact ProgE.returns_bind (hN n hn) fun s _ => ProgE.returns_pure fun _ => ⟨s, rfl⟩

/-- The uncached extractor returns the schema of a type that has one. -/
theorem uncached_returns_schema (hmodel : lib.modelSchema t = none) {s : Schema}
    (hs : SchemaOf D lib t s) :
    ∃ N, ∀ n ≥ N, (extractUncached D lib n t).Returns (Extracted D lib) fun r => r = some s := by
  obtain ⟨N, hN⟩ := uncached_some hmodel hs
  refine ⟨N, fun n hn => ?_⟩
  refine (((extracts_schemaOf n).uncached t).returns (hN n hn)).mono fun r hr => ?_
  obtain ⟨⟨hsound, hnone⟩, hsome⟩ := hr
  cases r with
  | none =>
    obtain ⟨s', hs'⟩ := hsome (hnone rfl)
    cases hs'
  | some s' =>
    rcases hsound s' rfl with hmodel' | ⟨-, hs'⟩
    · rw [hmodel] at hmodel'
      cases hmodel'
    · rw [hs.unique hs']

theorem uncached_returns_extracted {s : Schema} (h : Extracted D lib t s) :
    ∃ N, ∀ n ≥ N, (extractUncached D lib n t).Returns (Extracted D lib) fun r => r = some s := by
  rcases h with hmodel | ⟨hmodel, hs⟩
  · refine exists_deep_enough 1 0 fun n _ => ?_
    rw [uncached_model hmodel]
    exact ProgE.returns_pure rfl
  · exact uncached_returns_schema hmodel hs

/-- **The cached extractor returns the same**, from every state that it leaves its cache
in. -/
theorem extract_returns_extracted {s : Schema} (h : Extracted D lib t s) :
    ∃ N, ∀ n ≥ N, (extractJsonSchema D lib n t).Returns (Extracted D lib) fun r => r = some s := by
  obtain ⟨N, hN⟩ := uncached_returns_extracted h
  refine exists_deep_enough 1 N fun n hn => ?_
  unfold extractJsonSchema
  split
  · have hlookup : (liftM (Prog.lookup t : Prog Ty Schema (Option Schema)) :
        Extraction (Option Schema)).Returns (Extracted D lib) fun r => r = none ∨ r = some s :=
      ProgE.returns_lift (Prog.ensures_lookup (Or.inl rfl) fun cached hcached =>
        Or.inr (by rw [h.unique hcached]))
    refine ProgE.returns_bind hlookup fun r hr => ?_
    rcases hr with rfl | rfl
    · refine ProgE.returns_bind (hN n hn) fun r hr => ?_
      subst hr
      have hsave := Prog.ensures_save (S := Extracted D lib) h
      exact ProgE.returns_bind (ProgE.returns_lift hsave) fun _ _ => ProgE.returns_pure rfl
    · exact ProgE.returns_pure rfl
  · exact hN n hn

theorem extract_returns_schema (hmodel : lib.modelSchema t = none) {s : Schema}
    (hs : SchemaOf D lib t s) :
    ∃ N, ∀ n ≥ N, (extractJsonSchema D lib n t).Returns (Extracted D lib) fun r => r = some s :=
  extract_returns_extracted (Or.inr ⟨hmodel, hs⟩)

/-- **A type has a schema iff no chain of references from it goes on forever.** -/
theorem exists_schemaOf_iff :
    (∃ s, SchemaOf D lib t s) ↔ ∀ c ∈ t.mentions, Acc (Refers D lib) c := by
  constructor
  · rintro ⟨s, hs⟩
    exact extractionRules_acc.schemaOf hs
  · intro h
    obtain ⟨N, hN⟩ := python_terminates fun c hc => extract_terminates_of_acc (h c hc)
    obtain ⟨s, hs, -⟩ := (hN N (Nat.le_refl N)).fresh
    exact ⟨s, ((extracts_schemaOf N).python t).fresh s hs⟩

/-- **The schema of a type is what the uncached extractor returns for it** on a stack
that is deep enough, when nothing is ever found in the cache. -/
theorem extracted_iff_fresh {s : Schema} :
    Extracted D lib t s ↔ ∃ n, (extractUncached D lib n t).run.fresh = .ok (some s) := by
  constructor
  · rintro (hmodel | ⟨hmodel, hs⟩)
    · refine ⟨1, ?_⟩
      rw [uncached_model hmodel]
      rfl
    · obtain ⟨N, hN⟩ := uncached_returns_schema hmodel hs
      obtain ⟨r, hr, rfl⟩ := (hN N (Nat.le_refl N)).fresh
      exact ⟨N, hr⟩
  · rintro ⟨n, hn⟩
    exact (((extracts_schemaOf n).uncached t).fresh _ hn).1 s rfl

end

/-- A Struct that holds a list of its own kind. -/
def nodeDecls : Decls := [("Node", ⟨.struct false, [⟨"children", .list (.cls "Node"), .required⟩]⟩)]

/-- Types that tell nothing of themselves. -/
def Introspection.bare : Introspection := ⟨fun _ => none, fun _ => false⟩

theorem node_refers : Refers nodeDecls .bare "Node" "Node" :=
  ⟨_, ⟨rfl, rfl⟩, _, List.mem_singleton_self _, List.mem_singleton_self _⟩

end Rxon
