import Rxon.InferredSchemas
import Rxon.SkillContract

/-! # What handlers take

The contract of a skill says by its input schema what the start handler takes.  A caller
gives a single structured parameter as it is, and any other parameters by name, where
those with defaults may be missing.  Whatever types the parameters have, if schemas are
inferred for them, what a caller gives is accepted in the form that `to_dict` sends it
(`contract_accepts_inputs`), whenever and however often the contract is asked for. -/

namespace Rxon
open Memo
open Json (stripped)

section
variable (D : Decls) (lib : Introspection)

/-- Arguments by name: of the types of their parameters, with one that is not `None` for
each parameter that has no default. -/
structure Arguments (ps : List BusinessParam) (args : List (String × PyVal)) : Prop where
  unique : Assoc.Unique args
  conform : ∀ e ∈ args, ∃ p ∈ ps, p.name = e.1 ∧ Conforms D p.actualType e.2
  complete : ∀ p ∈ ps, p.hasDefault = false → ∃ e ∈ args, e.1 = p.name ∧ e.2 ≠ .none

/-- What a handler with these parameters is given. -/
inductive TakesInput : List BusinessParam → PyVal → Prop
  | model {p : BusinessParam} {v : PyVal} (hp : isStructuredModel D lib p.actualType = true)
      (h : Conforms D p.actualType v) : TakesInput [p] v
  | params {ps : List BusinessParam} {args : List (String × PyVal)}
      (hps : ∀ p, ps = [p] → isStructuredModel D lib p.actualType = false)
      (h : Arguments D ps args) : TakesInput ps (.dict args)

/-- The schema, if there is one, accepts what is sent of anything that is given. -/
def InputAccepts {D : Decls} (rt : Runtime D) (lib : Introspection) (ps : List BusinessParam)
    (r : Option Schema) : Prop :=
  ∀ v, TakesInput D lib ps v → PyVal.Sendable v → toDict rt v 0 = .error tooDeep ∨
    ∃ x, toDict rt v 0 = .ok x ∧ ∀ s, r = some s → s.accepts x = true

variable {D lib} {ps : List BusinessParam} {args : List (String × PyVal)}

/-- The parameter of a name. -/
theorem parameter_of_name (hnodup : (ps.map BusinessParam.name).Nodup) {p q : BusinessParam}
    (hp : p ∈ ps) (hq : q ∈ ps) (h : p.name = q.name) : p = q :=
  List.inj_on_of_nodup_map hnodup hp hq h

/-- **Arguments are accepted** by an object with a property for each parameter, which
requires those without a default. -/
theorem accepts_arguments (hlib : ∀ t, Inferable D t → lib.modelSchema t = none)
    (hnodup : (ps.map BusinessParam.name).Nodup) (hps : ∀ p ∈ ps, Inferable D p.actualType)
    {properties : List (String × Schema)} {required : List String}
    (hlen : ps.length = properties.length)
    (hproperties : ∀ q ∈ ps.zip properties,
      q.2.1 = q.1.name ∧ SchemaOf D lib q.1.actualType q.2.2)
    (hrequired : ∀ name ∈ required, ∃ p ∈ ps, p.hasDefault = false ∧ p.name = name)
    (hargs : Arguments D ps args) (hsend : PyVal.Sendable (.dict args)) {j : Json}
    (hw : PyVal.Writes D (.dict args) j) :
    (Schema.closedObject properties required).accepts (stripped j) = true := by
  have hsendable := hsend.written (D := D) rfl
  cases hw with
  | @obj _ kvs es g hwritten hperm hentries =>
    cases hwritten
    rw [Json.stripped_obj]
    refine Schema.accepts_closedObject.mpr ⟨_, rfl, ?_, ?_, ?_⟩
    · -- the property of an entry is that of the parameter which the entry is given for
      intro property hproperty e he hname
      obtain ⟨r, hr, -, rfl⟩ := (mem_stripped_iff hperm).mp he
      obtain ⟨p, hzip⟩ := List.exists_mem_zip_right hlen hproperty
      have hp := (List.of_mem_zip hzip).1
      obtain ⟨p', hp', hname', hconforms⟩ := hargs.conform r hr
      obtain rfl := parameter_of_name hnodup hp hp'
        ((hproperties _ hzip).1.symm.trans (hname.symm.trans hname'.symm))
      exact accepts_written hlib (hps p hp) hconforms (hsendable r hr) (hproperties _ hzip).2
        (hentries r hr)
    · intro name hname
      obtain ⟨p, hp, hdefault, rfl⟩ := hrequired name hname
      obtain ⟨r, hr, hrname, hnone⟩ := hargs.complete p hp hdefault
      obtain ⟨p', -, -, hconforms⟩ := hargs.conform r hr
      have hnull := hconforms.not_null hnone (hentries r hr)
      rw [← hrname]
      exact Assoc.mem_keys_of_mem ((mem_stripped_iff hperm).mpr ⟨r, hr, hnull, rfl⟩)
    · intro name hname
      obtain ⟨e, he, rfl⟩ := List.mem_map.mp hname
      obtain ⟨r, hr, -, rfl⟩ := (mem_stripped_iff hperm).mp he
      obtain ⟨p, hp, hpname, -⟩ := hargs.conform r hr
      obtain ⟨property, hzip⟩ := List.exists_mem_zip_left hlen hp
      refine List.mem_map.mpr ⟨property, (List.of_mem_zip hzip).2, ?_⟩
      exact (hproperties _ hzip).1.trans hpname

/-! ## One extraction -/

variable {rt : Runtime D} {n : Nat}

theorem inputAccepts_of {r : Option Schema} (h : ∀ v, TakesInput D lib ps v → PyVal.Sendable v →
    ∀ j, PyVal.Writes D v j → ∀ s, r = some s → s.accepts (stripped j) = true) :
    InputAccepts rt lib ps r := by
  intro v hv hsend
  obtain ⟨j, hw, hdict⟩ := toDict_writes rt hsend
  rw [hdict]
  split
  · exact Or.inr ⟨_, rfl, h v hv hsend j hw⟩
  · exact Or.inl rfl

/-- A schema of the one structured parameter accepts it. -/
theorem inputAccepts_model (hlib : ∀ t, Inferable D t → lib.modelSchema t = none)
    {p : BusinessParam} (hp : Inferable D p.actualType)
    (hmodel : isStructuredModel D lib p.actualType = true) {s : Schema}
    (hs : SchemaOf D lib p.actualType s) : InputAccepts rt lib [p] (some s) := by
  refine inputAccepts_of fun v hv hsend j hw s' heq => ?_
  cases heq
  cases hv with
  | model _ hconforms => exact accepts_written hlib hp hconforms hsend hs hw
  | params hps =>
    rw [hps p rfl] at hmodel
    cases hmodel

/-- The schema of parameters by name accepts what is given to them. -/
theorem inputAccepts_params (hlib : ∀ t, Inferable D t → lib.modelSchema t = none)
    (hnodup : (ps.map BusinessParam.name).Nodup) (hps : ∀ p ∈ ps, Inferable D p.actualType)
    (hplain : ∀ p, ps = [p] → isStructuredModel D lib p.actualType = false)
    {properties : List (String × Schema)} {required : List String}
    (hlen : ps.length = properties.length)
    (hproperties : ∀ q ∈ ps.zip properties,
      q.2.1 = q.1.name ∧ SchemaOf D lib q.1.actualType q.2.2)
    (hrequired : ∀ name ∈ required, ∃ p ∈ ps, p.hasDefault = false ∧ p.name = name) :
    InputAccepts rt lib ps (some (.closedObject properties required)) := by
  refine inputAccepts_of fun v hv hsend j hw s heq => ?_
  cases heq
  cases hv with
  | model hmodel =>
    rw [hplain _ rfl] at hmodel
    cases hmodel
  | params _ hargs =>
    exact accepts_arguments hlib hnodup hps hlen hproperties hrequired hargs hsend hw

/-- The schema of an inferable type says something. -/
theorem Inferable.saysSomething (hlib : ∀ t, Inferable D t → lib.modelSchema t = none) {t : Ty}
    (ht : Inferable D t) : saysNothing lib t = false ∧ t.isUntyped = false := by
  induction ht with
  | @scalar t h =>
    cases t with
    | str | int | float | bool | none | uuid | enum => exact ⟨rfl, rfl⟩
    | any | list | dict | union | annotated | cls | text | other => exact h.elim
  | list | dict | union => exact ⟨rfl, rfl⟩
  | annotated _ ih => exact ⟨ih.1, rfl⟩
  | @cls c d hc hfields =>
    refine ⟨?_, rfl⟩
    rw [saysNothing, hlib _ (.cls hc hfields)]
    rfl

/-- The schema of a parameter's type is found on a stack that is deep enough. -/
theorem Inferable.param_returns (hlib : ∀ t, Inferable D t → lib.modelSchema t = none) {t : Ty}
    (ht : Inferable D t) : ∃ N, ∀ n ≥ N,
      (extractParam D lib none n t).Returns (Extracted D lib) fun r =>
        ∃ s, r = some s ∧ SchemaOf D lib t s ∧ s.isEmpty = false := by
  obtain ⟨s, hs⟩ := (ht.exists_schemaOf hlib).1
  obtain ⟨N, hN⟩ := extract_returns_schema (hlib t ht) hs
  refine ⟨N, fun n hn => (hN n hn).mono fun r hr => ⟨s, hr, hs, ?_⟩⟩
  rw [hs.isEmpty_eq]
  exact (ht.saysSomething hlib).1

theorem property_returns (hlib : ∀ t, Inferable D t → lib.modelSchema t = none) {p : BusinessParam}
    (hp : Inferable D p.actualType)
    (h : (extractParam D lib none n p.actualType).Returns (Extracted D lib) fun r =>
      ∃ s, r = some s ∧ SchemaOf D lib p.actualType s ∧ s.isEmpty = false) :
    (paramProperty D lib none n p).Returns (Extracted D lib) fun e =>
      e.1 = p.name ∧ SchemaOf D lib p.actualType e.2 := by
  unfold paramProperty
  rw [if_neg (by simp [(hp.saysSomething hlib).2])]
  refine ProgE.returns_bind h fun r hr => ProgE.returns_pure ?_
  obtain ⟨s, rfl, hs, hempty⟩ := hr
  rw [Schema.orElse_of_not_empty hempty]
  exact ⟨rfl, hs⟩

/-- **The schema of the parameters accepts what is given**, however many there are. -/
theorem businessSchema_accepts (rt : Runtime D)
    (hlib : ∀ t, Inferable D t → lib.modelSchema t = none)
    (hnodup : (ps.map BusinessParam.name).Nodup) (hps : ∀ p ∈ ps, Inferable D p.actualType) :
    ∃ N, ∀ n ≥ N, (businessSchema D lib none n ps).Returns (Extracted D lib)
      (InputAccepts rt lib ps) := by
  obtain ⟨N, hN⟩ := exists_common_bound fun p hp => (hps p hp).param_returns hlib
  refine ⟨N, fun n hn => ?_⟩
  have hnone : InputAccepts rt lib ps none :=
    inputAccepts_of fun v _ _ j _ s heq => by cases heq
  match ps with
  | [] => exact ProgE.returns_pure hnone
  | [p] =>
    have hp := hps p (List.mem_singleton_self p)
    have hresult := hN n hn p (List.mem_singleton_self p)
    unfold businessSchema
    dsimp only
    split
    · exact ProgE.returns_pure hnone
    · split
      · next hmodel =>
        refine hresult.mono fun r hr => ?_
        obtain ⟨s, rfl, hs, -⟩ := hr
        exact inputAccepts_model hlib hp hmodel hs
      · next hmodel =>
        refine ProgE.returns_bind hresult fun r hr => ProgE.returns_pure ?_
        obtain ⟨s, rfl, hs, hempty⟩ := hr
        rw [Schema.orElse_of_not_empty hempty]
        refine inputAccepts_params hlib hnodup hps ?_ rfl ?_ ?_
        · intro q hq
          cases hq
          exact Bool.eq_false_of_not_eq_true hmodel
        · exact List.forall_mem_singleton.mpr ⟨rfl, hs⟩
        · intro name hname
          split at hname
          · cases hname
          · next hdefault =>
            obtain rfl := List.mem_singleton.mp hname
            exact ⟨p, List.mem_singleton_self p, Bool.eq_false_of_not_eq_true hdefault, rfl⟩
  | p :: q :: ps =>
    unfold businessSchema
    refine ProgE.returns_bind (ProgE.returns_forEach fun p hp =>
      property_returns hlib (hps p hp) (hN n hn p hp)) fun properties h => ProgE.returns_pure ?_
    refine inputAccepts_params hlib hnodup hps (fun r hr => by cases hr) h.1 h.2 ?_
    intro name hname
    obtain ⟨r, hr, rfl⟩ := List.mem_map.mp hname
    obtain ⟨hmem, hdefault⟩ := List.mem_filter.mp hr
    exact ⟨r, hmem, by simpa using hdefault, rfl⟩

/-! ## The contract -/

variable (D lib) in
/-- The contracts that are extracted one after another, each on the stack and from the
cache that there are then. -/
def contracts (b : Blueprint) (fs : Functions) :
    List (Nat × TypeSchemaCache) → List (Except PyError SkillContract)
  | [] => []
  | (frames, cache) :: calls =>
    match ((extractSkillContract D lib none frames b fs).run.run cache).1 with
    | .ok (contract, fs') => .ok contract :: contracts b fs' calls
    | .error e => .error e :: contracts b fs calls

/-- A handler with a signature, whose attribute, if it is set, is a schema that accepts
what the handler takes. -/
structure Ready (rt : Runtime D) (lib : Introspection) (ps : List BusinessParam) (func : Func) :
    Prop where
  callable : func.callable = true
  signature : func.signature.isSome = true
  params : func.businessParams = ps
  kept : ∀ r, func.rxonInputSchema = some r → InputAccepts rt lib ps r

theorem Ready.attach {func : Func} (h : Ready rt lib ps func) {schema : Option Schema}
    (hschema : InputAccepts rt lib ps schema) : Ready rt lib ps (func.attach schema) where
  callable := by rw [Func.attach_callable, h.callable]
  signature := by rw [Func.attach_signature, h.signature]
  params := by rw [Func.attach_businessParams, h.params]
  kept r hr := by
    rcases Func.attach_rxonInputSchema func schema with hkept | hnew
    · exact h.kept r (hkept ▸ hr)
    · rw [hnew] at hr
      cases hr
      exact hschema

/-- One extraction returns a schema that accepts what the handler takes, and leaves no other
on it. -/
theorem Ready.extract {func : Func} (h : Ready rt lib ps func)
    (hschema : (businessSchema D lib none n ps).Returns (Extracted D lib)
      (InputAccepts rt lib ps)) :
    (extractInputSchemaFromFunc D lib none n func).Returns (Extracted D lib) fun out =>
      InputAccepts rt lib ps out.1 ∧ Ready rt lib ps out.2 := by
  unfold extractInputSchemaFromFunc
  rw [if_pos h.callable]
  cases hstored : func.rxonInputSchema with
  | some schema => exact ProgE.returns_pure ⟨h.kept schema hstored, h⟩
  | none =>
    obtain ⟨params, hsignature⟩ := Option.isSome_iff_exists.mp h.signature
    rw [hsignature]
    dsimp only
    rw [h.params]
    refine ProgE.returns_bind hschema fun schema hs => ProgE.returns_pure ⟨hs, ?_⟩
    exact h.attach hs

/-- Looking at what a function returns never raises, and leaves what it takes alone. -/
theorem output_keeps_func (h : Handler) :
    (extractOutputSchemaFromFunc D lib none n h).Returns (Extracted D lib) fun out =>
      out.2.func = h.func := by
  have hreturn : (returnSchema D lib none n h.returnHint).Returns (Extracted D lib)
      fun _ => True := by
    unfold returnSchema
    split
    · exact ProgE.returns_pure trivial
    · split
      · exact ProgE.returns_pure trivial
      · exact ProgE.returns_handled (extractParam_yields_trivial _ _)
          fun _ => ProgE.returns_pure trivial
  unfold extractOutputSchemaFromFunc
  split
  · split
    · exact ProgE.returns_pure rfl
    · refine ProgE.returns_bind hreturn fun res _ => ProgE.returns_pure ?_
      exact Handler.attachOutput_func h res
  · exact ProgE.returns_pure rfl

theorem endSchemas_keep_func {b : Blueprint} (states : List String) (found : List Schema)
    (fs : Functions) : (endSchemas D lib none n b states found fs).Returns (Extracted D lib)
      fun out => ∀ i, (out.2 i).func = (fs i).func := by
  induction states generalizing found fs with
  | nil => exact ProgE.returns_pure fun _ => rfl
  | cons state states ih =>
    unfold endSchemas
    split
    · exact ih found fs
    · next i _ =>
      refine ProgE.returns_bind (output_keeps_func (fs i)) fun out hout => ?_
      refine (ih _ _).mono fun out' hout' j => (hout' j).trans ?_
      by_cases hj : j = i
      · rw [hj, Function.update_self]
        exact hout
      · rw [Function.update_of_ne hj]

/-- **A contract is returned**, and its input schema accepts what the start handler takes,
now and the next time. -/
theorem contract_returns {b : Blueprint} {fs : Functions} {i : Nat}
    (hstart : b.startHandler? = some i) (hready : Ready rt lib ps (fs i).func)
    (hschema : (businessSchema D lib none n ps).Returns (Extracted D lib)
      (InputAccepts rt lib ps)) :
    (extractSkillContract D lib none n b fs).Returns (Extracted D lib) fun out =>
      InputAccepts rt lib ps out.1.inputSchema ∧ Ready rt lib ps (out.2 i).func := by
  have hstarted : (startSchema D lib none n b fs).Returns (Extracted D lib) fun out =>
      InputAccepts rt lib ps out.1 ∧ Ready rt lib ps (out.2 i).func := by
    unfold startSchema
    rw [hstart]
    refine ProgE.returns_bind (hready.extract hschema) fun out hout => ProgE.returns_pure ?_
    refine ⟨hout.1, ?_⟩
    dsimp only
    rw [Function.update_self]
    exact hout.2
  unfold extractSkillContract
  refine ProgE.returns_bind hstarted fun out hout => ?_
  refine ProgE.returns_bind (endSchemas_keep_func _ _ _) fun found hfound =>
    ProgE.returns_pure ⟨hout.1, ?_⟩
  rw [hfound i]
  exact hout.2

end

/-- `def greet(ctx: "Context", name: str, limit: int = 10)`, where no `Context` is there at
run time, and `{"name": "a"}`. -/
def greetParams : List Parameter :=
  [{ name := "ctx", annotation := .text "Context", resolved := none },
    { name := "name", annotation := .str },
    { name := "limit", annotation := .int, hasDefault := true }]

def greetArgs : List (String × PyVal) := [("name", .str "a")]

def greetBlueprint : Blueprint where
  startState := some "greeting"
  handlers := [("greeting", 0)]

def greetFunctions : Functions := fun _ => ⟨handlerOf greetParams, none, none⟩

theorem takes_greetArgs :
    TakesInput [] .bare (greetFunctions 0).func.businessParams (.dict greetArgs) := by
  have hbusiness : (greetFunctions 0).func.businessParams =
    [{ name := "name", ann := .str }, { name := "limit", ann := .int, hasDefault := true }] := rfl
  rw [hbusiness]
  refine .params (fun p hp => by cases hp) ⟨by simp [Assoc.Unique, Assoc.keys, greetArgs], ?_, ?_⟩
  · exact List.forall_mem_singleton.mpr
      ⟨_, List.mem_cons_self, rfl, .str "a" (List.mem_singleton_self _)⟩
  · intro p hp hdefault
    simp only [List.mem_cons, List.not_mem_nil, or_false] at hp
    rcases hp with rfl | rfl
    · exact ⟨_, List.mem_singleton_self _, rfl, fun h => by cases h⟩
    · cases hdefault

end Rxon
