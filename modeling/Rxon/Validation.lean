import Rxon.Accretion
import Rxon.Messages
import Rxon.Requests
import Rxon.SchemaCaches

/-! # Validation

`validate_data` and `TaskPayload.validate_params` hand their data to a compiled
validator.  fastjsonschema compiles a schema to code that reads the data and, where a
property or an item is absent that has a default in the schema, writes the default into
the dict or list it is validating; a validator is such a program.

So what was validated is what was given exactly when the validator comes upon no absent
property with a default (`validation_frame_iff`). -/

/-! ## Places in a value -/

/-- A step into a dict or a list. -/
inductive PathStep where
  | key (name : String)
  | index (i : Nat)

namespace PyVal

/-- The value at a place. -/
def valueAt : List PathStep → PyVal → Option PyVal
  | [], v => some v
  | .key name :: path, .dict kvs => (kvs.lookup name).bind (valueAt path)
  | .index i :: path, .list xs => xs[i]?.bind (valueAt path)
  | _ :: _, _ => Option.none

/-- The value with another one at a place. -/
def modifyAt (f : PyVal → PyVal) : List PathStep → PyVal → PyVal
  | [], v => f v
  | .key name :: path, .dict kvs =>
    match kvs.lookup name with
    | some x => .dict (Assoc.set name (modifyAt f path x) kvs)
    | Option.none => .dict kvs
  | .index i :: path, .list xs =>
    match xs[i]? with
    | some x => .list (xs.set i (modifyAt f path x))
    | Option.none => .list xs
  | _ :: _, v => v

/-- Whether a dict has no such key, or a list no such item. -/
def lacks : PathStep → PyVal → Bool
  | .key name, .dict kvs => decide (name ∉ Assoc.keys kvs)
  | .index i, .list xs => decide (xs.length ≤ i)
  | _, _ => false

/-- `v[name] = value` or `v.append(value)`, where it is lacking. -/
def setDefault (step : PathStep) (value v : PyVal) : PyVal :=
  if v.lacks step then
    match step, v with
    | .key name, .dict kvs => .dict (kvs ++ [(name, value)])
    | .index _, .list xs => .list (xs ++ [value])
    | _, v => v
  else v

theorem sizeOf_lt_set {name : String} {x y : PyVal} {kvs : List (String × PyVal)}
    (hx : kvs.lookup name = some x) (h : sizeOf x < sizeOf y) :
    sizeOf kvs < sizeOf (Assoc.set name y kvs) := by
  induction kvs with
  | nil => cases hx
  | cons e kvs ih =>
    obtain ⟨k, v⟩ := e
    unfold Assoc.set
    by_cases hk : k = name
    · subst hk
      rw [Assoc.lookup_cons_self] at hx
      cases hx
      simp only [if_pos, List.cons.sizeOf_spec, Prod.mk.sizeOf_spec]
      omega
    · rw [Assoc.lookup_cons_ne (fun h => hk h.symm)] at hx
      have := ih hx
      simp only [if_neg hk, List.cons.sizeOf_spec]
      omega

theorem sizeOf_lt_listSet {i : Nat} {x y : PyVal} {xs : List PyVal} (hx : xs[i]? = some x)
    (h : sizeOf x < sizeOf y) : sizeOf xs < sizeOf (xs.set i y) := by
  induction xs generalizing i with
  | nil => cases hx
  | cons v xs ih =>
    cases i with
    | zero =>
      cases hx
      simp only [List.set_cons_zero, List.cons.sizeOf_spec]
      omega
    | succ i =>
      have := ih hx
      simp only [List.set_cons_succ, List.cons.sizeOf_spec]
      omega

theorem sizeOf_lt_append {α : Type} [SizeOf α] (xs : List α) (x : α) :
    sizeOf xs < sizeOf (xs ++ [x]) := by
  induction xs with
  | nil => simp only [List.nil_append, List.cons.sizeOf_spec]; omega
  | cons v xs ih => simp only [List.cons_append, List.cons.sizeOf_spec]; omega

variable {f : PyVal → PyVal} {p : PyVal → Bool} {path : List PathStep} {v : PyVal}

/-- Where there is no such place a change does nothing; else it does to the whole value
what dicts and lists pass on (`R`) of what it does to the value there. -/
theorem modifyAt_cases {R : PyVal → PyVal → Prop}
    (hdict : ∀ {name kvs x y}, kvs.lookup name = some x → R x y →
      R (.dict kvs) (.dict (Assoc.set name y kvs)))
    (hlist : ∀ {i : Nat} {xs x y}, xs[i]? = some x → R x y → R (.list xs) (.list (xs.set i y)))
    (f : PyVal → PyVal) (path : List PathStep) (v : PyVal) :
    valueAt path v = Option.none ∧ modifyAt f path v = v ∨
      ∃ w, valueAt path v = some w ∧ (R w (f w) → R v (modifyAt f path v)) := by
  induction path generalizing v with
  | nil => exact Or.inr ⟨v, rfl, id⟩
  | cons step path ih =>
    cases step with
    | key name =>
      cases v with
      | dict kvs =>
        unfold valueAt modifyAt
        cases hx : kvs.lookup name with
        | none => exact Or.inl ⟨rfl, rfl⟩
        | some x =>
          rcases ih x with ⟨hnone, hsame⟩ | ⟨w, hw, hR⟩
          · refine Or.inl ⟨hnone, ?_⟩
            dsimp only
            rw [hsame, Assoc.set_of_lookup hx]
          · exact Or.inr ⟨w, hw, fun h => hdict hx (hR h)⟩
      | _ => exact Or.inl ⟨rfl, rfl⟩
    | index i =>
      cases v with
      | list xs =>
        unfold valueAt modifyAt
        cases hx : xs[i]? with
        | none => exact Or.inl ⟨rfl, rfl⟩
        | some x =>
          rcases ih x with ⟨hnone, hsame⟩ | ⟨w, hw, hR⟩
          · refine Or.inl ⟨hnone, ?_⟩
            obtain ⟨hi, rfl⟩ := List.getElem?_eq_some_iff.mp hx
            dsimp only
            rw [hsame, List.set_getElem_self]
          · exact Or.inr ⟨w, hw, fun h => hlist hx (hR h)⟩
      | _ => exact Or.inl ⟨rfl, rfl⟩

/-- A change that does nothing to the value at the place does nothing. -/
theorem modifyAt_of_not (hf : ∀ w, p w = false → f w = w) (h : (valueAt path v).any p = false) :
    modifyAt f path v = v := by
  have hcases := modifyAt_cases (R := fun v v' => v' = v) ?_ ?_ f path v
  · rcases hcases with ⟨-, hsame⟩ | ⟨w, hw, hR⟩
    · exact hsame
    · rw [hw] at h
      exact hR (hf w h)
  · rintro name kvs x y hx rfl
    rw [Assoc.set_of_lookup hx]
  · rintro i xs x y hx rfl
    obtain ⟨hi, rfl⟩ := List.getElem?_eq_some_iff.mp hx
    rw [List.set_getElem_self]

/-- One that makes the value at the place larger makes the whole value larger. -/
theorem sizeOf_lt_modifyAt (hf : ∀ w, p w = true → sizeOf w < sizeOf (f w))
    (h : (valueAt path v).any p = true) : sizeOf v < sizeOf (modifyAt f path v) := by
  have hcases := modifyAt_cases (R := fun v v' => sizeOf v < sizeOf v') ?_ ?_ f path v
  · rcases hcases with ⟨hnone, -⟩ | ⟨w, hw, hR⟩
    · rw [hnone] at h
      cases h
    · rw [hw] at h
      exact hR (hf w h)
  · intro name kvs x y hx hlt
    have := sizeOf_lt_set hx hlt
    simp only [dict.sizeOf_spec]
    omega
  · intro i xs x y hx hlt
    have := sizeOf_lt_listSet hx hlt
    simp only [list.sizeOf_spec]
    omega

theorem setDefault_of_not_lacks {step : PathStep} {value v : PyVal} (h : v.lacks step = false) :
    setDefault step value v = v := by
  unfold setDefault
  rw [if_neg (by rw [h]; decide)]

theorem sizeOf_lt_setDefault {step : PathStep} {value v : PyVal} (h : v.lacks step = true) :
    sizeOf v < sizeOf (setDefault step value v) := by
  unfold setDefault
  rw [if_pos h]
  cases step with
  | key name =>
    cases v with
    | dict kvs =>
      have := sizeOf_lt_append kvs (name, value)
      simp only [dict.sizeOf_spec]
      omega
    | _ => cases h
  | index i =>
    cases v with
    | list xs =>
      have := sizeOf_lt_append xs value
      simp only [list.sizeOf_spec]
      omega
    | _ => cases h

end PyVal

namespace Rxon
open Memo

/-! ## Validators -/

/-- A default that is written where a step from a place leads nowhere. -/
structure Fill where
  path : List PathStep
  step : PathStep
  value : PyVal

/-- The data under validation, to which defaults are added. -/
def fills : Accretion.Store PyVal Fill where
  due w data := (PyVal.valueAt w.path data).any (PyVal.lacks w.step)
  add w data := PyVal.modifyAt (PyVal.setDefault w.step w.value) w.path data
  add_of_not_due _ _ h := PyVal.modifyAt_of_not (fun _ => PyVal.setDefault_of_not_lacks) h
  grows := ⟨sizeOf, fun _ _ h => PyVal.sizeOf_lt_modifyAt (fun _ => PyVal.sizeOf_lt_setDefault) h⟩

/-- How a validator ends: it returns, raises a `JsonSchemaValueException` with its message,
or raises another exception with its text. -/
inductive Verdict where
  | accepted
  | rejected (message : String)
  | failed (text : String)

/-- A validator as fastjsonschema compiles it. -/
abbrev Validator := Accretion.Prog PyVal Fill Verdict

/-- What a call of `validate_data` or `validate_params` leaves behind; `data` is the object
that it was given, afterwards. -/
structure Validated (Bytes : Type) where
  answer : Except PyError (Bool × Option String)
  data : PyVal
  validators : Cache Bytes Validator maxValidatorCacheSize

section
variable (oj : Orjson) (fj : SchemaCompiler oj.Bytes Validator)
  (translateError : String → PyVal → Except PyError String) [DecidableEq oj.Bytes]

def validateData (data : PyVal) (schema : Option (List (String × PyVal)))
    (validators : Cache oj.Bytes Validator maxValidatorCacheSize) : Validated oj.Bytes :=
  match schema with
  | none | some [] => ⟨.ok (true, none), data, validators⟩
  | some schema =>
    match getCompiledValidator oj fj (some schema) validators with
    | (none, validators) => ⟨.ok (false, some "Failed to compile schema"), data, validators⟩
    | (some validator, validators) =>
      match validator.run fills data with
      | (.accepted, data) => ⟨.ok (true, none), data, validators⟩
      | (.rejected message, data) =>
        ⟨do return (false, some (← translateError message data)), data, validators⟩
      | (.failed text, data) => ⟨.ok (false, some text), data, validators⟩

/-- A `SkillInfo`'s `input_schema`. -/
def inputSchema (skill : PyVal) : Option (List (String × PyVal)) :=
  match skill.getAttr "input_schema" with
  | .ok (.dict schema) => some schema
  | _ => none

/-- The task, with this for what its `params` have become. -/
def withParams (params : PyVal) : PyVal → PyVal
  | .struct cls fields => .struct cls (Assoc.set "params" params fields)
  | .dataclass cls fields => .dataclass cls (Assoc.set "params" params fields)
  | task => task

/-- `self.validate_params(skill)`; `data` is the task afterwards. -/
def validateParams (self skill : PyVal)
    (validators : Cache oj.Bytes Validator maxValidatorCacheSize) : Validated oj.Bytes :=
  match self.getAttr "params" with
  | .error e => ⟨.error e, self, validators⟩
  | .ok params =>
    match getCompiledValidator oj fj (inputSchema skill) validators with
    | (some validator, validators) =>
      match validator.run fills params with
      | (.accepted, params) => ⟨.ok (true, none), withParams params self, validators⟩
      | (.rejected msg, params) | (.failed msg, params) =>
        ⟨do return (false, some (← translateError msg params)), withParams params self, validators⟩
    | (none, validators) =>
      let result := validateData oj fj translateError params (inputSchema skill) validators
      { result with data := withParams result.data self }

/-! ## What was validated is what was given -/

/-- The validator that answers for a schema: the one kept under its key, or else the one
it compiles to.  None answers for no schema or an empty one. -/
def answering (schema : Option (List (String × PyVal)))
    (validators : Cache oj.Bytes Validator maxValidatorCacheSize) : Option Validator :=
  match schema with
  | none | some [] => none
  | some schema =>
    (validators.get (schemaKey oj fj schema)).or (fj.compile schema).toOption

variable {schema : Option (List (String × PyVal))}
  {validators : Cache oj.Bytes Validator maxValidatorCacheSize}

theorem getCompiledValidator_fst :
    (getCompiledValidator oj fj schema validators).1 = answering oj fj schema validators := by
  match schema with
  | none | some [] => rfl
  | some (e :: es) => exact Cache.fetch_fst

/-- A call that finds none and compiles none leaves the cache alone. -/
theorem getCompiledValidator_of_none (h : answering oj fj schema validators = none) :
    getCompiledValidator oj fj schema validators = (none, validators) := by
  rw [← getCompiledValidator_fst] at h
  refine Prod.ext h ?_
  match schema with
  | none | some [] => rfl
  | some (e :: es) => exact Cache.fetch_snd h

/-- The data, after the validator of a schema has run. -/
def afterwards (schema : Option (List (String × PyVal)))
    (validators : Cache oj.Bytes Validator maxValidatorCacheSize) (data : PyVal) : PyVal :=
  match answering oj fj schema validators with
  | none => data
  | some validator => (validator.run fills data).2

theorem validateData_data (data : PyVal) :
    (validateData oj fj translateError data schema validators).data =
      afterwards oj fj schema validators data := by
  match schema with
  | none | some [] => rfl
  | some (e :: es) =>
    have hfst : (getCompiledValidator oj fj (some (e :: es)) validators).1 =
        answering oj fj (some (e :: es)) validators := getCompiledValidator_fst oj fj
    unfold validateData afterwards
    rw [← hfst]
    dsimp only
    generalize getCompiledValidator oj fj (some (e :: es)) validators = got
    obtain ⟨validator, validators'⟩ := got
    cases validator with
    | none => rfl
    | some validator =>
      dsimp only
      generalize validator.run fills data = ran
      obtain ⟨_ | _ | _, data'⟩ := ran <;> rfl

theorem validateParams_data {self skill params : PyVal} (h : self.getAttr "params" = .ok params) :
    (validateParams oj fj translateError self skill validators).data =
      withParams (afterwards oj fj (inputSchema skill) validators params) self := by
  unfold validateParams
  rw [h]
  dsimp only
  cases hgot : getCompiledValidator oj fj (inputSchema skill) validators with
  | mk validator validators' =>
    have hfst : (getCompiledValidator oj fj (inputSchema skill) validators).1 =
        answering oj fj (inputSchema skill) validators := getCompiledValidator_fst oj fj
    rw [hgot] at hfst
    dsimp only at hfst
    cases validator with
    | none =>
      -- compiled again, it fails again
      have hsame := getCompiledValidator_of_none oj fj hfst.symm
      rw [hgot] at hsame
      cases hsame
      exact congrArg (withParams · self) (validateData_data oj fj translateError params)
    | some validator =>
      dsimp only [afterwards]
      rw [← hfst]
      dsimp only
      generalize validator.run fills params = ran
      obtain ⟨_ | _ | _, params'⟩ := ran <;> rfl

theorem afterwards_eq_iff {data : PyVal} :
    afterwards oj fj schema validators data = data ↔
      ∀ validator, answering oj fj schema validators = some validator →
        validator.Complete fills data := by
  unfold afterwards
  cases answering oj fj schema validators with
  | none => exact ⟨fun _ _ h => (nomatch h), fun _ => rfl⟩
  | some validator =>
    constructor
    · intro h v hv
      cases hv
      exact Accretion.Prog.run_eq_iff.mp h
    · exact fun h => Accretion.Prog.run_eq_iff.mpr (h validator rfl)

end

theorem withParams_self {self params : PyVal} (h : self.getAttr "params" = .ok params) :
    withParams params self = self := by
  cases self with
  | struct cls fields | dataclass cls fields =>
    unfold PyVal.getAttr at h
    dsimp only at h
    split at h
    · rename_i hx
      cases h
      rw [withParams, Assoc.set_of_lookup hx]
    · cases h
  | _ => rfl

theorem getAttr_withParams {self params params' : PyVal}
    (h : self.getAttr "params" = .ok params) :
    (withParams params' self).getAttr "params" = .ok params' := by
  cases self with
  | struct | dataclass => rw [withParams, PyVal.getAttr, Assoc.lookup_set_self]
  | _ => cases h

/-- **Validation leaves what it validates, and so what a signature covers, as it was
exactly when the validator that answers comes upon no absent property with a default.** -/
theorem validation_frame_iff {D : Decls} (rt : Runtime D) (crypto : Crypto rt.orjson.Bytes)
    [DecidableEq rt.orjson.Bytes] (fj : SchemaCompiler rt.orjson.Bytes Validator)
    (translateError : String → PyVal → Except PyError String)
    (validators : Cache rt.orjson.Bytes Validator maxValidatorCacheSize) :
    (∀ self skill : PyVal,
      ((validateParams rt.orjson fj translateError self skill validators).data.getAttr "params" =
          self.getAttr "params" ∧
        ∀ signature secret ignoreFields,
          verifySignature rt crypto
              (validateParams rt.orjson fj translateError self skill validators).data
              signature secret ignoreFields =
            verifySignature rt crypto self signature secret ignoreFields) ↔
      ∀ params validator, self.getAttr "params" = .ok params →
        answering rt.orjson fj (inputSchema skill) validators = some validator →
          validator.Complete fills params) ∧
    ∀ (data : PyVal) (schema : Option (List (String × PyVal))),
      (validateData rt.orjson fj translateError data schema validators).data = data ↔
        ∀ validator, answering rt.orjson fj schema validators = some validator →
          validator.Complete fills data := by
  constructor
  · intro self skill
    cases hparams : self.getAttr "params" with
    -- what has no `params` is left as it is
    | error e =>
      have hself : (validateParams rt.orjson fj translateError self skill validators).data =
          self := by
        unfold validateParams
        rw [hparams]
      rw [hself]
      exact ⟨fun _ params validator h => (nomatch h), fun _ => ⟨hparams, fun _ _ _ => rfl⟩⟩
    | ok params =>
      rw [validateParams_data rt.orjson fj translateError hparams]
      constructor
      · rintro ⟨hsame, -⟩ params' validator hparams' hanswer
        cases hparams'
        rw [getAttr_withParams hparams] at hsame
        exact (afterwards_eq_iff rt.orjson fj).mp (Except.ok.inj hsame) validator hanswer
      · intro h
        have hsame := (afterwards_eq_iff rt.orjson fj).mpr fun validator => h params validator rfl
        rw [hsame, withParams_self hparams]
        exact ⟨hparams, fun _ _ _ => rfl⟩
  · intro data schema
    rw [validateData_data]
    exact afterwards_eq_iff rt.orjson fj

/-! ## A default that is written -/

/-- A compiler of the properties of an object: those that are absent are given their
defaults. -/
def SchemaCompiler.defaults : SchemaCompiler Json Validator where
  compile schema :=
    match schema.lookup "properties" with
    | some (.dict properties) =>
      .ok (.look fun
        | .dict _ => properties.foldr (fun property next =>
            match property.2 with
            | .dict definition =>
              match definition.lookup "default" with
              | some value => .add ⟨[], .key property.1, value⟩ next
              | none => next
            | _ => next) (.done .accepted)
        | _ => .done (.rejected "data must be object"))
    | _ => .ok (.done .accepted)
  encodeItems _ := .null

/-- `{"type": "object", "properties": {"x": {"default": 1}}}`, the input schema of a skill. -/
def defaultSkill : PyVal := .struct ⟨"SkillInfo", ["schema_dialect", "risk"]⟩
  [("name", .str "s"), ("type", .none), ("description", .none), ("version", .none),
   ("input_schema", .dict [("type", .str "object"),
      ("properties", .dict [("x", .dict [("default", .int 1)])])]),
   ("output_schema", .none), ("events_schema", .none), ("output_statuses", .none),
   ("schema_dialect", .str "json-schema"), ("properties", .none), ("risk", .str "low"),
   ("permissions", .none)]

/-- A task with the given params. -/
def paramsTask (params : PyVal) : PyVal := withParams params (stepTask 0 .none)

/-- HMAC with the key `k` of `{"job_id":"j","params":{},"task_id":"t","type":"x"}`. -/
def emptyParamsSignature : String :=
  "bf1769118efaec434c896b9f59ecb6ca36472b11bd4aea65fe9c7cb3fedef0ab"

/-- HMAC with the key `k` of the same object with `{"x":1}` for the params, and of the
object itself. -/
def Crypto.defaulted : Crypto Json :=
  Crypto.reference Json
    (fun _ message => match message with
      | .obj [_, ("params", .obj []), _, _] => emptyParamsSignature
      | _ => "dc6d377d0dd64e9b23e2efc4a18d016145044ef79fbc460f6e29a75b71c2684c")
    (fun _ _ => by split <;> decide) (fun _ _ => by split <;> decide)

theorem hasType_paramsTask {kvs : List (String × PyVal)}
    (h : HasType rxonDecls (.dict .any) (.dict kvs)) :
    HasType rxonDecls (.cls "TaskPayload") (paramsTask (.dict kvs)) := by
  have hdecl : rxonDecls.lookup "TaskPayload" = some taskPayload := rfl
  have hf : ⟨"params", .optional (.dict .any), .value .none⟩ ∈ taskPayload.fields := by
    simp [taskPayload, model]
  exact hasType_set rxonDecls_wire hdecl hf (hasType_stepTask 0) (hasType_optional h)

theorem hasType_defaultSkill : HasType rxonDecls (.cls "SkillInfo") defaultSkill := by
  have hschema : HasType rxonDecls (.dict .any) (.dict [("type", .str "object"),
      ("properties", .dict [("x", .dict [("default", .int 1)])])]) := by
    refine .dict _ _ (by decide) ?_
    simp only [List.forall_mem_cons]
    exact ⟨.any (.str "object") (by decide +kernel),
      .any (.obj [("x", .obj [("default", .int 1)])]) (by decide +kernel), nofun⟩
  refine .struct "SkillInfo" _ rfl true _ _ rfl rfl ?_
  simp only [List.zip_cons_cons, List.zip_nil_right, List.forall_mem_cons]
  exact ⟨.str _, hasType_optional_none, hasType_optional_none, hasType_optional_none,
    hasType_optional hschema, hasType_optional_none, hasType_optional_none, hasType_optional_none,
    .str _, hasType_optional_none, .str _, hasType_optional_none, nofun⟩

/-- What `validate_params` leaves of a task, with an empty cache. -/
def validated (params : PyVal) : Validated Json :=
  validateParams Orjson.reference .defaults (fun msg _ => .ok msg) (paramsTask params)
    defaultSkill .empty

/-- A task that is validated loses its signature: the default is added to its params. -/
theorem validated_loses_signature :
    HasType rxonDecls (.cls "TaskPayload") (paramsTask (.dict [])) ∧
    HasType rxonDecls (.cls "SkillInfo") defaultSkill ∧
    (validated (.dict [])).answer = .ok (true, none) ∧
    (validated (.dict [])).data = paramsTask (.dict [("x", .int 1)]) ∧
    signPayload Runtime.messages Crypto.defaulted (paramsTask (.dict [])) "k" none =
      .ok emptyParamsSignature ∧
    verifySignature Runtime.messages Crypto.defaulted (paramsTask (.dict [])) emptyParamsSignature
      "k" none = .ok true ∧
    verifySignature Runtime.messages Crypto.defaulted (validated (.dict [])).data
      emptyParamsSignature "k" none = .ok false :=
  ⟨hasType_paramsTask (.dict _ _ List.nodup_nil nofun), hasType_defaultSkill, rfl, rfl,
    by decide +kernel, by decide +kernel, by decide +kernel⟩

end Rxon
