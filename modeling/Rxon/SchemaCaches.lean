import Rxon.ExtractionReturns
import Rxon.Interleaving
import Rxon.Reference

/-! # The schema caches

All threads share two dictionaries: the validators that were compiled, under the sorted
JSON of their schemas, and the schemas of types.  A thread looks up when it likes, and
stores under a lock, where it looks again first and makes room by dropping the oldest
entry.

A lookup is one step of a thread, and so is a section under a lock, compilation
included; between any two of them others may run.  What is proved of the entries
(`caches_safe`) holds after every order of such steps. -/

namespace Rxon
open Memo Interleaving

def maxValidatorCacheSize : Nat := 1024

/-- The cache has room. -/
instance instFactValidators : Fact (0 < maxValidatorCacheSize) := ⟨by decide⟩

/-- fastjsonschema, as far as the cache depends on it, and Python's text of a value. -/
structure SchemaCompiler (Bytes V : Type) where
  /-- `compile`, which succeeds or fails with the schema alone. -/
  compile : List (String × PyVal) → Except PyError V
  /-- `str(items).encode("utf-8")`. -/
  encodeItems : List (String × PyVal) → Bytes

/-- What the threads share. -/
structure SchemaCaches (Bytes V : Type) where
  validators : Cache Bytes V maxValidatorCacheSize
  types : TypeSchemaCache

/-- The caches of a module that was just imported. -/
def SchemaCaches.empty {Bytes V : Type} : SchemaCaches Bytes V := ⟨.empty, .empty⟩

inductive CacheCall where
  | getCompiledValidator (schema : Option (List (String × PyVal)))
  | extractJsonSchema (frames : Nat) (tp : Ty)
      (extractor : Option (Ty → Except PyError (Option Schema)))

/-- Where a call stands: before its lookup, before the section under the lock, returned,
or at what is left of an extraction. -/
inductive CachePoint (V : Type) where
  | lookup (schema : List (String × PyVal))
  | lock (schema : List (String × PyVal))
  | validator (schema : Option (List (String × PyVal))) (result : Option V)
  | extraction (tp : Ty) (rest : Prog Ty Schema (Except PyError (Option Schema)))

section
variable (oj : Orjson) {V : Type} (fj : SchemaCompiler oj.Bytes V) (D : Decls)
  (lib : Introspection)

/-- The key of a schema: its sorted JSON, or the text of its sorted items. -/
def schemaKey (schema : List (String × PyVal)) : oj.Bytes :=
  match oj.dumps true Orjson.noDefault (.dict schema) with
  | .ok bytes => bytes
  | .error _ => fj.encodeItems (Assoc.sortByKey schema)

/-- A call up to its first access to the caches. -/
def startCacheCall : CacheCall → CachePoint V
  | .getCompiledValidator (some (e :: es)) => .lookup (e :: es)
  | .getCompiledValidator schema => .validator schema none
  | .extractJsonSchema frames tp none => .extraction tp (extractJsonSchema D lib frames tp).run
  | .extractJsonSchema frames tp (some extractor) =>
    .extraction tp (extractWith D lib extractor frames tp).run

variable [DecidableEq oj.Bytes]

/-- A call from one access to the next. -/
def resumeCacheCall (s : SchemaCaches oj.Bytes V) :
    CachePoint V → Option (CachePoint V × SchemaCaches oj.Bytes V)
  | .lookup schema =>
    match s.validators.get (schemaKey oj fj schema) with
    | some validator => some (.validator (some schema) (some validator), s)
    | none => some (.lock schema, s)
  | .lock schema =>
    let (result, validators) := s.validators.fetch (schemaKey oj fj schema) (fj.compile schema)
    some (.validator (some schema) result, { s with validators })
  | .validator _ _ => none
  | .extraction tp rest =>
    (rest.step s.types).map fun (rest, types) => (.extraction tp rest, { s with types })

/-- `get_compiled_validator`, called by one thread alone. -/
def getCompiledValidator (schema : Option (List (String × PyVal)))
    (validators : Cache oj.Bytes V maxValidatorCacheSize) :
    Option V × Cache oj.Bytes V maxValidatorCacheSize :=
  match schema with
  | none | some [] => (none, validators)
  | some schema => validators.fetch (schemaKey oj fj schema) (fj.compile schema)

/-- The threads that use the caches. -/
def cacheProgram : Program (SchemaCaches oj.Bytes V) CacheCall (CachePoint V) Unit where
  start call s := (startCacheCall D lib call, s)
  resume point _ s := resumeCacheCall oj fj s point

end

namespace CachePoint

/-- The schema of a call that has not returned yet. -/
def pending? {V : Type} : CachePoint V → Option (List (String × PyVal))
  | .lookup schema | .lock schema => some schema
  | .validator _ _ | .extraction _ _ => none

/-- How many more steps a call of `get_compiled_validator` takes at most. -/
def stepsLeft {V : Type} : CachePoint V → Nat
  | .lookup _ => 2
  | .lock _ => 1
  | .validator _ _ | .extraction _ _ => 0

end CachePoint

section
variable (oj : Orjson) {V : Type} (fj : SchemaCompiler oj.Bytes V) (D : Decls)
  (lib : Introspection)

/-- The validator was compiled from a schema that has this key. -/
def CompiledFor (key : oj.Bytes) (v : V) : Prop :=
  ∃ schema, schema ≠ [] ∧ fj.compile schema = .ok v ∧ schemaKey oj fj schema = key

/-- What is true of a call wherever it stands. -/
def CallSafe : CachePoint V → Prop
  | .lookup schema | .lock schema => schema ≠ []
  | .validator none result => result = none
  | .validator (some schema) result =>
    (∀ v, result = some v → CompiledFor oj fj (schemaKey oj fj schema) v) ∧
      (schema ≠ [] → ∀ v, fj.compile schema = .ok v → ∃ v', result = some v')
  | .extraction _ rest => rest.Ensures (Extracted D lib) fun _ => True

/-- What is true of all entries. -/
def EntriesSafe (s : SchemaCaches oj.Bytes V) : Prop :=
  s.validators.All (CompiledFor oj fj) ∧ s.types.All (Extracted D lib)

variable {D lib}

/-- A call that starts is safe. -/
theorem startCacheCall_safe (call : CacheCall) :
    CallSafe oj fj D lib (startCacheCall D lib call) := by
  cases call with
  | getCompiledValidator schema =>
    match schema with
    | none => rfl
    | some [] => exact ⟨fun v h => (nomatch h), fun h => absurd rfl h⟩
    | some (e :: es) => exact List.cons_ne_nil e es
  | extractJsonSchema frames tp extractor =>
    cases extractor with
    | none => exact Prog.Ensures.mono ((extracts_schemaOf frames).extract tp) fun _ _ => trivial
    | some extractor =>
      exact Prog.Ensures.mono (extractWith_yields extractor frames tp) fun _ _ => trivial

variable [DecidableEq oj.Bytes] {s s' : SchemaCaches oj.Bytes V} {point point' : CachePoint V}

/-- **One access keeps the entries and the call safe.** -/
theorem resumeCacheCall_safe (hs : EntriesSafe oj fj D lib s) (hpoint : CallSafe oj fj D lib point)
    (h : resumeCacheCall oj fj s point = some (point', s')) :
    EntriesSafe oj fj D lib s' ∧ CallSafe oj fj D lib point' := by
  obtain ⟨hvalidators, htypes⟩ := hs
  cases point with
  | lookup schema =>
    unfold resumeCacheCall at h
    dsimp only at h
    cases hget : s.validators.get (schemaKey oj fj schema) with
    | some v =>
      rw [hget] at h
      cases h
      refine ⟨⟨hvalidators, htypes⟩, fun v' heq => ?_, fun _ _ _ => ⟨v, rfl⟩⟩
      cases heq
      exact hvalidators.get hget
    | none =>
      rw [hget] at h
      cases h
      exact ⟨⟨hvalidators, htypes⟩, hpoint⟩
  | lock schema =>
    cases h
    have hmake : ∀ v, fj.compile schema = .ok v → CompiledFor oj fj (schemaKey oj fj schema) v :=
      fun v hv => ⟨schema, hpoint, hv, rfl⟩
    have hfetch := hvalidators.fetch hmake
    exact ⟨⟨hfetch.2, htypes⟩, hfetch.1, fun _ v hv => Cache.exists_fetch hv⟩
  | validator => cases h
  | extraction tp rest =>
    simp only [resumeCacheCall, Option.map_eq_some_iff] at h
    obtain ⟨⟨rest', types⟩, hstep, heq⟩ := h
    cases heq
    have hnext := Prog.Ensures.step hpoint htypes hstep
    exact ⟨⟨hvalidators, hnext.2⟩, hnext.1⟩

/-- A call whose schema does not compile stores nothing. -/
theorem resumeCacheCall_of_error {schema : List (String × PyVal)} {e : PyError}
    (hpending : point.pending? = some schema) (he : fj.compile schema = .error e)
    (h : resumeCacheCall oj fj s point = some (point', s')) : s' = s := by
  cases point with
  | lookup =>
    unfold resumeCacheCall at h
    dsimp only at h
    split at h <;> cases h <;> rfl
  | lock =>
    cases hpending
    simp only [resumeCacheCall, he, Cache.fetch_error] at h
    cases h
    rfl
  | validator | extraction => cases hpending

/-- A call that has steps left is not blocked, and has fewer left after its next one. -/
theorem exists_resumeCacheCall (s : SchemaCaches oj.Bytes V) (h : 0 < point.stepsLeft) :
    ∃ point' s', resumeCacheCall oj fj s point = some (point', s') ∧
      point'.stepsLeft < point.stepsLeft := by
  cases point with
  | lookup schema =>
    unfold resumeCacheCall
    dsimp only
    split
    · exact ⟨_, _, rfl, Nat.zero_lt_two⟩
    · exact ⟨_, _, rfl, Nat.one_lt_two⟩
  | lock => exact ⟨_, _, rfl, Nat.zero_lt_one⟩
  | validator | extraction => cases h

/-! ## Every order of steps -/

/-- What the caches promise to all threads. -/
structure CachesSafe (D : Decls) (lib : Introspection)
    (c : Program.Config (SchemaCaches oj.Bytes V) (CachePoint V)) : Prop where
  /-- The caches are bounded. -/
  validators_le : c.shared.validators.entries.length ≤ 1024
  types_le : c.shared.types.entries.length ≤ 2048
  /-- A validator is kept under the key of a schema that it was compiled from. -/
  validators_compiled : ∀ e ∈ c.shared.validators.entries, CompiledFor oj fj e.1 e.2
  /-- A schema is kept for the type that it is extracted from where nothing is cached. -/
  types_extracted : ∀ e ∈ c.shared.types.entries,
    ∃ n, (extractUncached D lib n e.1).run.fresh = .ok (some e.2)
  /-- A schema that compiles gets a validator that was compiled from one with its key. -/
  compilable : ∀ schema result, .validator (some schema) result ∈ c.points → schema ≠ [] →
    ∀ v, fj.compile schema = .ok v →
      ∃ v', result = some v' ∧ CompiledFor oj fj (schemaKey oj fj schema) v'
  /-- So does, if anything, one that does not. -/
  uncompilable : ∀ schema result, .validator (some schema) result ∈ c.points →
    ∀ e, fj.compile schema = .error e →
      result = none ∨ ∃ v', result = some v' ∧ CompiledFor oj fj (schemaKey oj fj schema) v'
  /-- One that does not leaves the caches as they are. -/
  unchanged : ∀ i point schema e c', c.points[i]? = some point → point.pending? = some schema →
    fj.compile schema = .error e → (cacheProgram oj fj D lib).Step c (.resume i ()) c' →
      c'.shared = c.shared
  /-- No call waits for another one, and each returns after two steps of its own. -/
  returns : ∀ (i : Nat) (point : CachePoint V), c.points[i]? = some point → 0 < point.stepsLeft →
    ∃ point' s', (cacheProgram oj fj D lib).Step c (.resume i ()) ⟨s', c.points.set i point'⟩ ∧
      point'.stepsLeft < point.stepsLeft

theorem run_safe {es : List (Program.Event CacheCall Unit)}
    {c : Program.Config (SchemaCaches oj.Bytes V) (CachePoint V)}
    (h : Run (cacheProgram oj fj D lib).Step ⟨.empty, []⟩ es c) :
    EntriesSafe oj fj D lib c.shared ∧ ∀ point ∈ c.points, CallSafe oj fj D lib point := by
  refine Program.run_invariant (J := fun _ s => EntriesSafe oj fj D lib s)
    (K := fun _ _ point => CallSafe oj fj D lib point) ?_ ?_
    ⟨Cache.all_empty, Cache.all_empty⟩ (fun q hq => by cases hq) h
  · rintro es s call point s' hs hstart
    cases hstart
    exact ⟨hs, startCacheCall_safe oj fj call, fun q hq => hq⟩
  · rintro es s i point answer point' s' hs hpoint hresume
    obtain ⟨hs', hpoint'⟩ := resumeCacheCall_safe oj fj hs hpoint hresume
    exact ⟨hs', hpoint', fun q hq => hq⟩

/-- **The caches are safe under threads**, in whatever order their steps happen. -/
theorem caches_safe {es : List (Program.Event CacheCall Unit)}
    {c : Program.Config (SchemaCaches oj.Bytes V) (CachePoint V)}
    (h : Run (cacheProgram oj fj D lib).Step ⟨.empty, []⟩ es c) : CachesSafe oj fj D lib c := by
  obtain ⟨⟨hvalidators, htypes⟩, hpoints⟩ := run_safe oj fj h
  constructor
  · exact c.shared.validators.length_le
  · exact c.shared.types.length_le
  · exact hvalidators
  · exact fun e he => extracted_iff_fresh.mp (htypes e he)
  · intro schema result hmem hne v hv
    obtain ⟨hcompiled, hsome⟩ := hpoints _ hmem
    obtain ⟨v', rfl⟩ := hsome hne v hv
    exact ⟨v', rfl, hcompiled v' rfl⟩
  · intro schema result hmem e he
    obtain ⟨hcompiled, -⟩ := hpoints _ hmem
    cases result with
    | none => exact Or.inl rfl
    | some v' => exact Or.inr ⟨v', rfl, hcompiled v' rfl⟩
  · intro i point schema e c' hi hpending he hstep
    obtain ⟨point', s', hr, rfl⟩ := Program.resume_cases hi hstep
    exact resumeCacheCall_of_error oj fj hpending he hr
  · intro i point hi hleft
    obtain ⟨point', s', hr, hlt⟩ := exists_resumeCacheCall oj fj c.shared hleft
    refine ⟨point', s', ?_, hlt⟩
    simp only [Program.Step, Program.next, hi, cacheProgram, hr, Option.bind_eq_bind,
      Option.bind_some]
    rfl

end

/-! ## Runs -/

/-- A compiler that knows types only, by their names, and keeps the schema for a
validator. -/
def SchemaCompiler.types : SchemaCompiler Json (List (String × PyVal)) where
  compile schema :=
    match schema.lookup "type" with
    | none | some (.str "string") | some (.str "object") => .ok schema
    | some _ => .error (.valueError "Unknown type")
  encodeItems _ := .null

/-- The reference encoder's bytes are compared as documents. -/
instance instDecidableEqReferenceBytes : DecidableEq Orjson.reference.Bytes :=
  inferInstanceAs (DecidableEq Json)

/-- `{"type": "string"}`. -/
def stringSchema : List (String × PyVal) := [("type", .str "string")]

/-- The same, with an enum member for the type: orjson writes it alike, but it is no
name of a type. -/
def memberSchema : List (String × PyVal) := [("type", .enum "Kind" "STRING" (.str "string"))]

/-- Two threads ask for a validator, one after the other. -/
def askTwice (schema schema' : List (String × PyVal)) : List (Program.Event CacheCall Unit) :=
  [.start (.getCompiledValidator (some schema)), .resume 0 (), .resume 0 (),
    .start (.getCompiledValidator (some schema')), .resume 1 ()]

/-- The threads, with the reference encoder and no classes. -/
abbrev plainCaches : Program (SchemaCaches Json (List (String × PyVal))) CacheCall
    (CachePoint (List (String × PyVal))) Unit :=
  cacheProgram Orjson.reference .types [] .bare

/-- `caches_safe`, after a run. -/
theorem caches_safe_after_string : ∃ c,
    plainCaches.runAll ⟨.empty, []⟩ (askTwice stringSchema stringSchema) = some c ∧
      CachesSafe Orjson.reference .types [] .bare c := by
  obtain ⟨c, hc⟩ : ∃ c, plainCaches.runAll ⟨.empty, []⟩ (askTwice stringSchema stringSchema) =
      some c := ⟨_, rfl⟩
  exact ⟨c, hc, caches_safe Orjson.reference .types (Program.runAll_iff.mp hc)⟩

/-- A schema that does not compile can be given the validator of another one. -/
theorem uncompilable_finds_validator : ∃ es c v e, Run plainCaches.Step ⟨.empty, []⟩ es c ∧
    SchemaCompiler.types.compile memberSchema = .error e ∧
    c.points[1]? = some (.validator (some memberSchema) (some v)) := by
  obtain ⟨c, hc, hpoint⟩ : ∃ c, plainCaches.runAll ⟨.empty, []⟩
      (askTwice stringSchema memberSchema) = some c ∧
        c.points[1]? = some (.validator (some memberSchema) (some stringSchema)) := ⟨_, rfl, rfl⟩
  exact ⟨_, c, stringSchema, _, Program.runAll_iff.mp hc, rfl, hpoint⟩

end Rxon
