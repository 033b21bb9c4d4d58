import Rxon.Translation
import Rxon.ValidatorEviction

/-! # Validation after other validations

A validator is kept under the sorted JSON of its schema, so that schemas that list the
same keys in another order share one.  The validator checks in the order of the schema
that it was compiled from.

`keptSchema` replays the calls with a compiler that hands out the schemas themselves; it
says which schema the kept validator was compiled from (`related_validatorsAfter`).  As
long as that is the schema of the call, the calls before it cannot be told from its
answer (`validation_history_free`). -/

namespace Memo.Cache
variable {κ ν ν' ε : Type} {bound : Nat} {R : ν → ν' → Prop}
  {c : Cache κ ν bound} {c' : Cache κ ν' bound}

/-! ## Two caches side by side -/

/-- The caches hold related values under the same keys, in the same order. -/
def Related (R : ν → ν' → Prop) (c : Cache κ ν bound) (c' : Cache κ ν' bound) : Prop :=
  List.Forall₂ (fun e e' => e.1 = e'.1 ∧ R e.2 e'.2) c.entries c'.entries

theorem Related.keys (h : Related R c c') : Assoc.keys c.entries = Assoc.keys c'.entries := by
  unfold Related at h
  generalize c.entries = es, c'.entries = es' at h ⊢
  induction h with
  | nil => rfl
  | cons he _ ih => rw [Assoc.keys_cons, Assoc.keys_cons, he.1, ih]

theorem Related.evicted (h : Related R c c') :
    List.Forall₂ (fun e e' => e.1 = e'.1 ∧ R e.2 e'.2) c.evicted c'.evicted := by
  unfold Cache.evicted
  rw [List.Forall₂.length_eq h]
  split
  · unfold Related at h
    generalize c.entries = es, c'.entries = es' at h ⊢
    cases h with
    | nil => exact .nil
    | cons _ hs => exact hs
  · exact h

variable [DecidableEq κ]

theorem Related.get (h : Related R c c') (key : κ) :
    Option.Rel R (c.get key) (c'.get key) := by
  unfold Related at h
  unfold Cache.get
  generalize c.entries = es, c'.entries = es' at h ⊢
  induction h with
  | nil => exact .none
  | @cons e e' es es' he _ ih =>
    obtain ⟨k, v⟩ := e
    obtain ⟨k', v'⟩ := e'
    obtain ⟨rfl, hv⟩ := he
    by_cases hk : key = k
    · rw [hk, Assoc.lookup_cons_self, Assoc.lookup_cons_self]
      exact .some hv
    · rw [Assoc.lookup_cons_ne hk, Assoc.lookup_cons_ne hk]
      exact ih

/-- Fetching keeps two caches related when what is made for them is. -/
theorem Related.fetch [Fact (0 < bound)] (h : Related R c c') {key : κ} {make : Except ε ν}
    {f : ν → ν'} (hf : ∀ v, make = .ok v → R v (f v)) :
    Related R (c.fetch key make).2 (c'.fetch key (make.map f)).2 := by
  have hget := h.get key
  unfold Cache.fetch
  cases hfound : c.get key with
  | some found =>
    rw [hfound] at hget
    cases hget' : c'.get key with
    | none =>
      rw [hget'] at hget
      cases hget
    | some found' => exact h
  | none =>
    rw [hfound] at hget
    cases hget' : c'.get key with
    | some found' =>
      rw [hget'] at hget
      cases hget
    | none =>
      cases make with
      | error e => exact h
      | ok v =>
        show Related R (c.insert key v) (c'.insert key (f v))
        unfold Cache.insert
        split
        · rename_i hmem
          rw [dif_pos (h.keys ▸ hmem)]
          exact h
        · rename_i hmem
          rw [dif_neg (h.keys ▸ hmem)]
          exact List.rel_append h.evicted (.cons ⟨rfl, hf v rfl⟩ .nil)

end Memo.Cache

namespace Rxon
open Memo

/-! ## Where a kept validator comes from -/

/-- The compiler that hands out the schemas that `fj` compiles. -/
def SchemaCompiler.sources {Bytes V : Type} (fj : SchemaCompiler Bytes V) :
    SchemaCompiler Bytes (List (String × PyVal)) where
  compile schema := (fj.compile schema).map fun _ => schema
  encodeItems := fj.encodeItems

section
variable (oj : Orjson) {V : Type} (fj : SchemaCompiler oj.Bytes V) [DecidableEq oj.Bytes]

/-- The schema that the validator under the key of `schema` was compiled from, if one is
kept after requests for these schemas. -/
def keptSchema (schemas : List (List (String × PyVal))) (schema : List (String × PyVal)) :
    Option (List (String × PyVal)) :=
  (validatorsAfter oj fj.sources schemas).get (schemaKey oj fj schema)

variable {schemas : List (List (String × PyVal))} {schema kept : List (String × PyVal)}

theorem validatorsAfter_snoc :
    validatorsAfter oj fj (schemas ++ [schema]) =
      (getCompiledValidator oj fj (some schema) (validatorsAfter oj fj schemas)).2 := by
  rw [validatorsAfter, List.foldl_append]
  rfl

/-- **The validators that are kept are those of the kept schemas.** -/
theorem related_validatorsAfter (schemas : List (List (String × PyVal))) :
    Cache.Related (fun v s => fj.compile s = .ok v) (validatorsAfter oj fj schemas)
      (validatorsAfter oj fj.sources schemas) := by
  induction schemas using List.reverseRecOn with
  | nil => exact .nil
  | append_singleton schemas schema ih =>
    rw [validatorsAfter_snoc, validatorsAfter_snoc]
    cases schema with
    | nil => exact ih
    | cons e es => exact ih.fetch fun v hv => hv

end

/-! ## Calls and what they leave behind -/

inductive ValidatorCall where
  | validateData (data : PyVal) (schema : Option (List (String × PyVal)))
  | getCompiledValidator (schema : Option (List (String × PyVal)))

def ValidatorCall.schema : ValidatorCall → Option (List (String × PyVal))
  | .validateData _ schema => schema
  | .getCompiledValidator schema => schema

section
variable (oj : Orjson) (fj : SchemaCompiler oj.Bytes Validator)
  (translate : String → PyVal → Except PyError String) [DecidableEq oj.Bytes]

/-- The cache after a call. -/
def ValidatorCall.perform (call : ValidatorCall)
    (validators : Cache oj.Bytes Validator maxValidatorCacheSize) :
    Cache oj.Bytes Validator maxValidatorCacheSize :=
  match call with
  | .validateData data schema =>
    (Rxon.validateData oj fj translate data schema validators).validators
  | .getCompiledValidator schema => (Rxon.getCompiledValidator oj fj schema validators).2

/-- The cache after these calls, from an empty one. -/
def afterCalls (calls : List ValidatorCall) : Cache oj.Bytes Validator maxValidatorCacheSize :=
  calls.foldl (fun validators call => call.perform oj fj translate validators) .empty

variable {oj fj translate} {calls : List ValidatorCall}

theorem validateData_validators {data : PyVal} {schema : Option (List (String × PyVal))}
    {validators : Cache oj.Bytes Validator maxValidatorCacheSize} :
    (validateData oj fj translate data schema validators).validators =
      (getCompiledValidator oj fj schema validators).2 := by
  match schema with
  | none | some [] => rfl
  | some (e :: es) =>
    unfold validateData
    dsimp only
    generalize getCompiledValidator oj fj (some (e :: es)) validators = got
    obtain ⟨result, validators'⟩ := got
    cases result with
    | none => rfl
    | some validator =>
      dsimp only
      generalize validator.run fills data = ran
      obtain ⟨verdict, data'⟩ := ran
      cases verdict <;> rfl

/-- What the calls leave behind is what their schemas do. -/
theorem afterCalls_eq :
    afterCalls oj fj translate calls =
      validatorsAfter oj fj (calls.filterMap ValidatorCall.schema) := by
  induction calls using List.reverseRecOn with
  | nil => rfl
  | append_singleton calls call ih =>
    have hstep : afterCalls oj fj translate (calls ++ [call]) =
        (getCompiledValidator oj fj call.schema (afterCalls oj fj translate calls)).2 := by
      rw [afterCalls, List.foldl_append]
      cases call with
      | validateData data schema => exact validateData_validators
      | getCompiledValidator schema => rfl
    rw [hstep, ih, List.filterMap_append]
    cases hschema : call.schema with
    | none =>
      simp only [List.filterMap_cons, hschema, List.filterMap_nil, List.append_nil]
      rfl
    | some schema =>
      simp only [List.filterMap_cons, hschema, List.filterMap_nil]
      rw [validatorsAfter_snoc]

/-- The validator that answers after some calls, if the one that is kept was compiled from
the schema itself, is the one that it compiles to. -/
theorem answering_afterCalls {schema : List (String × PyVal)}
    (h : ∀ kept, keptSchema oj fj (calls.filterMap ValidatorCall.schema) schema = some kept →
      kept = schema) :
    answering oj fj (some schema) (afterCalls oj fj translate calls) =
      answering oj fj (some schema) .empty := by
  cases schema with
  | nil => rfl
  | cons e es =>
    rw [afterCalls_eq]
    have hget : Option.Rel (fun v s => fj.compile s = .ok v) _
        (keptSchema oj fj (calls.filterMap ValidatorCall.schema) (e :: es)) :=
      (related_validatorsAfter oj fj _).get (schemaKey oj fj (e :: es))
    -- what is kept answers first, and it was compiled from what is kept among the sources
    show ((validatorsAfter oj fj _).get _).or _ = Option.or none _
    generalize (validatorsAfter oj fj (calls.filterMap ValidatorCall.schema)).get
      (schemaKey oj fj (e :: es)) = found at hget ⊢
    generalize keptSchema oj fj (calls.filterMap ValidatorCall.schema) (e :: es) = source at h hget
    cases hget with
    | none => rfl
    | some hv =>
      rw [h _ rfl] at hv
      rw [hv]
      rfl

/-- **Validation does not depend on the calls before it**, whatever they are, as long as
the validator that is kept under the key of the schema was compiled from the schema. -/
theorem validation_history_free (py : PyText) (data : PyVal) {schema : List (String × PyVal)}
    (h : ∀ kept, keptSchema oj fj (calls.filterMap ValidatorCall.schema) schema = some kept →
      kept = schema) :
    (validateData oj fj (translateError py) data (some schema)
        (afterCalls oj fj (translateError py) calls)).answer =
      (validateData oj fj (translateError py) data (some schema) .empty).answer := by
  rw [validateData_answer, validateData_answer, answering_afterCalls h]

end

/-- An object with two properties that are strings, listed in this order. -/
def twoStrings (name name' : String) : List (String × PyVal) :=
  [("properties", .dict [(name, .dict [("type", .str "string")]),
    (name', .dict [("type", .str "string")])])]

/-- `{"a": 1, "b": 2}`. -/
def twoNumbers : PyVal := .dict [("a", .int 1), ("b", .int 2)]

/-- What `validate_data` answers of `twoNumbers`, after these calls. -/
def answerAfter (calls : List ValidatorCall) (schema : List (String × PyVal)) :
    Except PyError (Bool × Option String) :=
  (validateData Orjson.reference .strings (translateError .latin) twoNumbers (some schema)
    (afterCalls Orjson.reference .strings (translateError .latin) calls)).answer

/-- The same schema may come before. -/
theorem validation_history_free_again :
    answerAfter [.getCompiledValidator (some (twoStrings "a" "b"))] (twoStrings "a" "b") =
      answerAfter [] (twoStrings "a" "b") :=
  validation_history_free .latin twoNumbers fun kept hkept => by
    have hsame : keptSchema Orjson.reference SchemaCompiler.strings [twoStrings "a" "b"]
        (twoStrings "a" "b") = some (twoStrings "a" "b") := rfl
    exact (Option.some.inj (hsame.symm.trans hkept)).symm

/-- After a schema that lists the properties the other way round, another one is found
fault with. -/
theorem shared_validator_answers :
    answerAfter [] (twoStrings "a" "b") = .ok (false, some "Field 'a': Expected string") ∧
    answerAfter [.validateData (.dict []) (some (twoStrings "b" "a"))] (twoStrings "a" "b") =
      .ok (false, some "Field 'b': Expected string") :=
  ⟨rfl, rfl⟩

end Rxon
