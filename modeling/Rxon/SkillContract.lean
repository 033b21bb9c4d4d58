import Rxon.ParameterSchemas

/-! # Skill contracts

A blueprint runs one handler for each of its states, some of them on a condition.  Its
contract describes what the handler of the start state is given and what those of the
end states return: the input schema of the one, and any of the output schemas of the
others, collected in the order of the states and each kept once.

An end state is passed over when its handler is a conditional one, or when nothing can
be said of what it returns.  The output schema covers all end states iff nothing is
collected, or what the handlers that are passed over return is covered by what is
(`output_covers_iff`). -/

namespace Ty

/-- `tp is type(None)`. -/
def isNoneType : Ty → Bool
  | .none => true
  | _ => false

end Ty

namespace Rxon
open Memo

/-- A function, with what `extract_output_schema_from_func` reads of it. -/
structure Handler where
  func : Func
  /-- The annotation of what it returns, if there is one and `get_type_hints` resolves all. -/
  returnAnn : Option Ty
  /-- `_rxon_output_schema`, if the attribute is set. -/
  rxonOutputSchema : Option (Option Schema)

namespace Handler

/-- `hints.get("return")`. -/
def returnHint (h : Handler) : Option Ty := h.returnAnn.map Ty.withoutExtras

def attachOutput (h : Handler) (schema : Option Schema) : Handler :=
  if h.func.keepsAttributes then { h with rxonOutputSchema := some schema } else h

section
variable (h : Handler) (schema : Option Schema)

@[simp] theorem attachOutput_func : (h.attachOutput schema).func = h.func := by
  unfold attachOutput
  split <;> rfl

@[simp] theorem attachOutput_returnAnn : (h.attachOutput schema).returnAnn = h.returnAnn := by
  unfold attachOutput
  split <;> rfl

theorem attachOutput_rxonOutputSchema :
    (h.attachOutput schema).rxonOutputSchema = h.rxonOutputSchema ∨
      (h.attachOutput schema).rxonOutputSchema = some schema := by
  unfold attachOutput
  split
  · exact Or.inr rfl
  · exact Or.inl rfl

end

end Handler

/-- The functions that there are. -/
abbrev Functions := Nat → Handler

/-- Handlers are functions by number, and conditional ones are in the order in which
they were registered. -/
structure Blueprint where
  startState : Option String := none
  handlers : List (String × Nat) := []
  conditionalHandlers : Option (List (String × Nat)) := none
  endStates : Option (List String) := none
  /-- It has an attribute `_get_all_transitions`. -/
  hasTransitions : Bool := false
  eventsSchema : Option Schema := none

structure SkillContract where
  inputSchema : Option Schema
  outputSchema : Option Schema
  eventsSchema : Option Schema
  outputStatuses : List String

namespace Blueprint

/-- The handler of the start state, which may be a conditional one. -/
def startHandler? (b : Blueprint) : Option Nat :=
  match b.startState with
  | none | some "" => none
  | some state =>
    (b.handlers.lookup state).or ((b.conditionalHandlers.getD []).lookup state)

/-- `sorted(output_statuses)`, or the default ones. -/
def outputStatuses (b : Blueprint) : List String :=
  if b.hasTransitions then
    match (b.endStates.getD []).dedup with
    | [] => ["failure", "success"]
    | statuses => statuses.mergeSort fun s s' => decide (s ≤ s')
  else ["success", "failure"]

end Blueprint

/-- `if schema and schema not in end_schemas: end_schemas.append(schema)`. -/
def collect (found : List Schema) : Option Schema → List Schema
  | some s => if s.isEmpty || found.any (fun s' => s'.same s) then found else found ++ [s]
  | none => found

/-- What a document is to be one of. -/
def anyOfThese : List Schema → Option Schema
  | [] => none
  | [s] => some s
  | ss => some (.mk [.anyOf ss])

section
variable (D : Decls) (lib : Introspection)
  (extractor : Option (Ty → Except PyError (Option Schema))) (frames : Nat)

/-- The schema of what is returned, where it is neither `None` nor a dict. -/
def returnSchema (hint : Option Ty) : Extraction (Option Schema) :=
  match hint with
  | none => return none
  | some hint =>
    if hint.isNoneType || hint.isDict then return none
    else tryCatch (extractParam D lib extractor frames hint) fun _ => return none

/-- `extract_output_schema_from_func`, and the function afterwards. -/
def extractOutputSchemaFromFunc (h : Handler) : Extraction (Option Schema × Handler) :=
  if h.func.callable then
    match extractor, h.rxonOutputSchema with
    | none, some schema => return (schema, h)
    | _, _ => do
      let res ← returnSchema D lib extractor frames h.returnHint
      return (res, if extractor.isNone then h.attachOutput res else h)
  else return (none, h)

variable (b : Blueprint)

/-- The input schema of the start state's handler. -/
def startSchema (fs : Functions) : Extraction (Option Schema × Functions) :=
  match b.startHandler? with
  | none => return (none, fs)
  | some i => do
    let (schema, func) ← extractInputSchemaFromFunc D lib extractor frames (fs i).func
    return (schema, Function.update fs i { fs i with func := func })

/-- The output schemas of the states' handlers, after those that were found before. -/
def endSchemas : List String → List Schema → Functions → Extraction (List Schema × Functions)
  | [], found, fs => return (found, fs)
  | state :: states, found, fs =>
    match b.handlers.lookup state with
    | none => endSchemas states found fs
    | some i => do
      let (schema, handler) ← extractOutputSchemaFromFunc D lib extractor frames (fs i)
      endSchemas states (collect found schema) (Function.update fs i handler)

/-- `extract_skill_contract`, and the functions afterwards. -/
def extractSkillContract (fs : Functions) : Extraction (SkillContract × Functions) := do
  let (inputSchema, fs) ← startSchema D lib extractor frames b fs
  let (found, fs) ← endSchemas D lib extractor frames b (b.endStates.getD []) [] fs
  return (⟨inputSchema, anyOfThese found, b.eventsSchema, b.outputStatuses⟩, fs)

/-! ## What is returned -/

/-- The schema that is derived from a return annotation. -/
def Derived (hint : Option Ty) (s : Schema) : Prop :=
  match hint with
  | none => False
  | some hint =>
    hint.isNoneType = false ∧ hint.isDict = false ∧ ParamSchema D lib hint extractor s

/-- The schema that is derived from what a function is annotated to return. -/
def OutputSchema (h : Handler) (s : Schema) : Prop :=
  h.func.callable = true ∧ Derived D lib extractor h.returnHint s

/-- What a function may return: what its schema accepts, if it has one. -/
def MayReturn (h : Handler) (v : Json) : Prop :=
  ∀ s, OutputSchema D lib extractor h s → s.accepts v = true

/-- The attribute of a function is not set, or as an extraction has left it. -/
def Remembered (h : Handler) : Prop :=
  extractor = none → ∀ r, h.rxonOutputSchema = some r →
    ∀ s, r = some s ↔ OutputSchema D lib extractor h s

end

/-- A function that the blueprint runs for an end state. -/
def Blueprint.Ends (b : Blueprint) (i : Nat) : Prop :=
  ∃ state ∈ b.endStates.getD [],
    b.handlers.lookup state = some i ∨ (state, i) ∈ b.conditionalHandlers.getD []

section
variable (D : Decls) (lib : Introspection)
  (extractor : Option (Ty → Except PyError (Option Schema))) (b : Blueprint) (fs : Functions)

/-- The schema says something, and is that of a handler proper of one of the states. -/
def Collected (states : List String) (s : Schema) : Prop :=
  s.isEmpty = false ∧ ∃ state ∈ states, ∃ i, b.handlers.lookup state = some i ∧
    OutputSchema D lib extractor (fs i) s

/-- Whether the output schema accepts all that may be returned in an end state. -/
def Covers (outputSchema : Option Schema) : Prop :=
  ∀ i, b.Ends i → ∀ v, MayReturn D lib extractor (fs i) v →
    ∀ s, outputSchema = some s → s.accepts v = true

/-- An end state's function that no schema is collected for: it is a conditional handler
only, or its annotation says nothing. -/
def PassedOver (i : Nat) : Prop :=
  b.Ends i ∧ ∀ state ∈ b.endStates.getD [], b.handlers.lookup state = some i →
    ∀ s, OutputSchema D lib extractor (fs i) s → s.isEmpty = true

end

section
variable {D : Decls} {lib : Introspection}
  {extractor : Option (Ty → Except PyError (Option Schema))} {n : Nat} {b : Blueprint}
  {h h' h'' : Handler} {fs fs' : Functions}

/-! ## One function -/

variable (D lib extractor h h') in
/-- A function is the same after an extraction, but for its attributes. -/
structure Stays : Prop where
  callable : h'.func.callable = h.func.callable
  returnAnn : h'.returnAnn = h.returnAnn
  remembered : Remembered D lib extractor h'

theorem outputSchema_congr (hcallable : h'.func.callable = h.func.callable)
    (hann : h'.returnAnn = h.returnAnn) {s : Schema} :
    OutputSchema D lib extractor h' s ↔ OutputSchema D lib extractor h s := by
  rw [OutputSchema, OutputSchema, hcallable, Handler.returnHint, Handler.returnHint, hann]

theorem Stays.outputSchema_iff (hstays : Stays D lib extractor h h') {s : Schema} :
    OutputSchema D lib extractor h' s ↔ OutputSchema D lib extractor h s :=
  outputSchema_congr hstays.callable hstays.returnAnn

theorem Stays.refl (hrem : Remembered D lib extractor h) : Stays D lib extractor h h :=
  ⟨rfl, rfl, hrem⟩

theorem Stays.trans (h₁ : Stays D lib extractor h h') (h₂ : Stays D lib extractor h' h'') :
    Stays D lib extractor h h'' :=
  ⟨h₂.callable.trans h₁.callable, h₂.returnAnn.trans h₁.returnAnn, h₂.remembered⟩

variable (D lib extractor) in
/-- **A stack that is deep enough for an annotation derives its schema**, if it has one. -/
theorem returnSchema_returns (hint : Option Ty) :
    ∃ N, ∀ n ≥ N, (returnSchema D lib extractor n hint).Returns (Extracted D lib) fun r =>
      ∀ s, r = some s ↔ Derived D lib extractor hint s := by
  cases hint with
  | none =>
    refine ⟨0, fun n _ => ProgE.returns_pure fun s => ?_⟩
    exact ⟨fun hs => (by cases hs), fun hs => hs.elim⟩
  | some hint =>
    unfold returnSchema Derived
    dsimp only
    by_cases hnot : (hint.isNoneType || hint.isDict) = true
    · refine ⟨0, fun n _ => ?_⟩
      rw [if_pos hnot]
      refine ProgE.returns_pure fun s => ⟨fun hs => (by cases hs), fun hs => ?_⟩
      simp [hs.1, hs.2.1] at hnot
    · obtain ⟨hnone, hdict⟩ : hint.isNoneType = false ∧ hint.isDict = false := by
        simpa using hnot
      by_cases hex : ∃ s, ParamSchema D lib hint extractor s
      · obtain ⟨s, hs⟩ := hex
        obtain ⟨N, hN⟩ := hs.returns
        refine ⟨N, fun n hn => ?_⟩
        rw [if_neg hnot]
        refine (ProgE.returns_tryCatch (hN n hn)).mono fun r hr s' => ?_
        rw [hr, Option.some.injEq]
        exact ⟨fun heq => heq ▸ ⟨hnone, hdict, hs⟩, fun hs' => hs.unique hs'.2.2⟩
      · -- whether the extraction raises or not, there is nothing to derive
        refine ⟨0, fun n _ => ?_⟩
        rw [if_neg hnot]
        refine ProgE.returns_handled ((extractParam_sound n hint).mono fun r hr s => ?_)
          fun e => ProgE.returns_pure fun s => ?_
        · exact ⟨fun heq => ⟨hnone, hdict, hr s heq⟩, fun hs => absurd ⟨s, hs.2.2⟩ hex⟩
        · exact ⟨fun heq => (by cases heq), fun hs => absurd ⟨s, hs.2.2⟩ hex⟩

/-- **`extract_output_schema_from_func` returns what is derived**, and remembers it. -/
theorem output_returns (hrem : Remembered D lib extractor h)
    (hdeep : (returnSchema D lib extractor n h.returnHint).Returns (Extracted D lib) fun r =>
      ∀ s, r = some s ↔ Derived D lib extractor h.returnHint s) :
    (extractOutputSchemaFromFunc D lib extractor n h).Returns (Extracted D lib) fun out =>
      (∀ s, out.1 = some s ↔ OutputSchema D lib extractor h s) ∧
        Stays D lib extractor h out.2 := by
  unfold extractOutputSchemaFromFunc
  by_cases hcallable : h.func.callable = true
  · rw [if_pos hcallable]
    have hfresh : ((returnSchema D lib extractor n h.returnHint) >>= fun res =>
        (pure (res, if extractor.isNone then h.attachOutput res else h) :
          Extraction (Option Schema × Handler))).Returns (Extracted D lib) fun out =>
        (∀ s, out.1 = some s ↔ OutputSchema D lib extractor h s) ∧
          Stays D lib extractor h out.2 := by
      refine ProgE.returns_bind hdeep fun r hr => ProgE.returns_pure ?_
      have hr' : ∀ s, r = some s ↔ OutputSchema D lib extractor h s := fun s =>
        (hr s).trans ⟨fun hs => ⟨hcallable, hs⟩, fun hs => hs.2⟩
      refine ⟨hr', ?_⟩
      split
      · refine ⟨by rw [Handler.attachOutput_func], Handler.attachOutput_returnAnn h r, ?_⟩
        intro hnone r' hr'' s
        rw [outputSchema_congr (by rw [Handler.attachOutput_func])
          (Handler.attachOutput_returnAnn h r)]
        rcases Handler.attachOutput_rxonOutputSchema h r with hkept | hnew
        · exact hrem hnone r' (hkept ▸ hr'') s
        · rw [hnew, Option.some.injEq] at hr''
          exact hr'' ▸ hr' s
      · exact Stays.refl hrem
    cases extractor with
    | some extract => exact hfresh
    | none =>
      cases hstored : h.rxonOutputSchema with
      -- what is remembered is what would be derived
      | some schema =>
        exact ProgE.returns_pure ⟨hrem rfl schema hstored, Stays.refl hrem⟩
      | none => exact hfresh
  · rw [if_neg hcallable]
    refine ProgE.returns_pure ⟨fun s => ?_, Stays.refl hrem⟩
    exact ⟨fun hs => (by cases hs), fun hs => absurd hs.1 hcallable⟩

/-! ## All functions -/

variable (D lib extractor fs fs') in
/-- All functions are the same, but for their attributes. -/
def AllStay : Prop := ∀ i, Stays D lib extractor (fs i) (fs' i)

theorem AllStay.update {i : Nat} (hfs : AllStay D lib extractor fs fs')
    (h : Stays D lib extractor (fs' i) h') :
    AllStay D lib extractor fs (Function.update fs' i h') := by
  intro j
  by_cases hj : j = i
  · subst hj
    rw [Function.update_self]
    exact (hfs j).trans h
  · rw [Function.update_of_ne hj]
    exact hfs j

/-- Looking at what a function is given leaves what it returns alone. -/
theorem input_keeps (func : Func) :
    (extractInputSchemaFromFunc D lib extractor n func).Yields (Extracted D lib) fun out =>
      out.2.callable = func.callable := by
  unfold extractInputSchemaFromFunc
  split
  · split
    · exact ProgE.yields_pure rfl
    · split
      · exact ProgE.yields_pure rfl
      · refine ProgE.yields_bind (businessSchema_keeps _) fun schema _ => ProgE.yields_pure ?_
        dsimp only
        split
        · exact Func.attach_callable func schema
        · rfl
  · exact ProgE.yields_pure rfl

theorem start_keeps (hrem : ∀ i, Remembered D lib extractor (fs i)) :
    (startSchema D lib extractor n b fs).Yields (Extracted D lib) fun out =>
      AllStay D lib extractor fs out.2 := by
  have hrefl : AllStay D lib extractor fs fs := fun i => Stays.refl (hrem i)
  unfold startSchema
  split
  · exact ProgE.yields_pure hrefl
  · next i _ =>
    refine ProgE.yields_bind (input_keeps _) fun out hout => ProgE.yields_pure ?_
    refine hrefl.update ⟨hout, rfl, fun hnone r hr s => ?_⟩
    rw [hrem i hnone r hr s]
    symm
    apply outputSchema_congr
    · exact hout
    · rfl

/-! ## The end states -/

theorem mem_collect {found : List Schema} {r : Option Schema} {s : Schema}
    (hs : s ∈ collect found r) : s ∈ found ∨ r = some s ∧ s.isEmpty = false := by
  unfold collect at hs
  split at hs
  · split at hs
    · exact Or.inl hs
    · next hnew =>
      rcases List.mem_append.mp hs with hs | hs
      · exact Or.inl hs
      · rw [List.mem_singleton.mp hs]
        rw [Bool.or_eq_true, not_or, Bool.not_eq_true] at hnew
        exact Or.inr ⟨rfl, hnew.1⟩
  · exact Or.inl hs

theorem subset_collect (found : List Schema) (r : Option Schema) : found ⊆ collect found r := by
  unfold collect
  split
  · split
    · exact List.Subset.refl _
    · exact List.subset_append_left _ _
  · exact List.Subset.refl _

/-- What is not kept for being there already is no loss. -/
theorem exists_mem_collect {found : List Schema} {s : Schema} (hs : s.isEmpty = false) :
    ∃ s' ∈ collect found (some s), ∀ v, s.accepts v = true → s'.accepts v = true := by
  unfold collect
  dsimp only
  by_cases hfound : found.any (fun s' => s'.same s) = true
  · obtain ⟨s', hs', hsame⟩ := List.any_eq_true.mp hfound
    rw [if_pos (by rw [hfound, Bool.or_true])]
    exact ⟨s', hs', fun v => Schema.accepts_of_same s' s v hsame⟩
  · rw [if_neg (by simp only [hs, Bool.false_or]; exact hfound)]
    exact ⟨s, List.mem_append_right _ (List.mem_singleton_self s), fun v hv => hv⟩

variable (D lib extractor b fs) in
/-- What the states' handlers add to the schemas that were found before. -/
structure Collects (states : List String) (found found' : List Schema) : Prop where
  kept : found ⊆ found'
  collected : ∀ s ∈ found', s ∈ found ∨ Collected D lib extractor b fs states s
  complete : ∀ s, Collected D lib extractor b fs states s →
    ∃ s' ∈ found', ∀ v, s.accepts v = true → s'.accepts v = true

theorem Collected.cons {states : List String} {s : Schema} (state : String)
    (h : Collected D lib extractor b fs states s) :
    Collected D lib extractor b fs (state :: states) s := by
  obtain ⟨hs, state', hstate', hi⟩ := h
  exact ⟨hs, state', List.mem_cons_of_mem state hstate', hi⟩

theorem Collects.skip {state : String} {states : List String} {found found' : List Schema}
    (h : Collects D lib extractor b fs states found found')
    (hnone : b.handlers.lookup state = none) :
    Collects D lib extractor b fs (state :: states) found found' := by
  refine ⟨h.kept, fun s hs => (h.collected s hs).imp_right (Collected.cons state), ?_⟩
  rintro s ⟨hs, state', hstate', i, hi, hout⟩
  rcases List.mem_cons.mp hstate' with rfl | hstate'
  · rw [hnone] at hi
    cases hi
  · exact h.complete s ⟨hs, state', hstate', i, hi, hout⟩

theorem Collects.step {state : String} {states : List String} {found found' : List Schema}
    {i : Nat} {r : Option Schema} (hi : b.handlers.lookup state = some i)
    (hr : ∀ s, r = some s ↔ OutputSchema D lib extractor (fs i) s)
    (h : Collects D lib extractor b fs states (collect found r) found') :
    Collects D lib extractor b fs (state :: states) found found' := by
  refine ⟨fun s hs => h.kept (subset_collect found r hs), fun s hs => ?_, ?_⟩
  · rcases h.collected s hs with hs | hs
    · refine (mem_collect hs).imp_right fun hs => ?_
      exact ⟨hs.2, state, List.mem_cons_self, i, hi, (hr s).mp hs.1⟩
    · exact Or.inr (hs.cons state)
  · rintro s ⟨hs, state', hstate', i', hi', hout⟩
    rcases List.mem_cons.mp hstate' with rfl | hstate'
    · obtain rfl : i = i' := Option.some.inj (hi.symm.trans hi')
      obtain ⟨s', hs', haccepts⟩ : ∃ s' ∈ collect found r,
          ∀ v, s.accepts v = true → s'.accepts v = true := by
        rw [(hr s).mpr hout]
        exact exists_mem_collect hs
      exact ⟨s', h.kept hs', haccepts⟩
    · exact h.complete s ⟨hs, state', hstate', i', hi', hout⟩

variable (D lib extractor n b fs) in
/-- The stack is deep enough for what the handlers are annotated to return. -/
def Deep : Prop :=
  ∀ e ∈ b.handlers, (returnSchema D lib extractor n (fs e.2).returnHint).Returns (Extracted D lib)
    fun r => ∀ s, r = some s ↔ Derived D lib extractor (fs e.2).returnHint s

/-- **The loop over the end states collects what their handlers' schemas accept.** -/
theorem endSchemas_returns (hdeep : Deep D lib extractor n b fs) (states : List String)
    (found : List Schema) (hfs : AllStay D lib extractor fs fs') :
    (endSchemas D lib extractor n b states found fs').Returns (Extracted D lib) fun out =>
      Collects D lib extractor b fs states found out.1 := by
  induction states generalizing found fs' with
  | nil =>
    refine ProgE.returns_pure ⟨List.Subset.refl _, fun s hs => Or.inl hs, ?_⟩
    rintro s ⟨-, state, hstate, -⟩
    cases hstate
  | cons state states ih =>
    unfold endSchemas
    split
    · next hnone => exact (ih found hfs).mono fun out hout => hout.skip hnone
    · next i hi =>
      have hreturns := hdeep (state, i) (Assoc.mem_of_lookup hi)
      have hhint : (fs i).returnHint = (fs' i).returnHint := by
        rw [Handler.returnHint, Handler.returnHint, (hfs i).returnAnn]
      dsimp only at hreturns
      rw [hhint] at hreturns
      refine ProgE.returns_bind (output_returns (hfs i).remembered hreturns) fun out hout => ?_
      refine (ih (collect found out.1) (hfs.update hout.2)).mono fun out' hout' => ?_
      exact hout'.step hi fun s => (hout.1 s).trans (hfs i).outputSchema_iff

theorem anyOfThese_accepts {found : List Schema} {v : Json} :
    (∀ s, anyOfThese found = some s → s.accepts v = true) ↔
      found = [] ∨ ∃ s ∈ found, s.accepts v = true := by
  match found with
  | [] => simp [anyOfThese]
  | [s] => simp [anyOfThese]
  | s :: s' :: ss =>
    have hor : anyOfThese (s :: s' :: ss) = some (.mk [.anyOf (s :: s' :: ss)]) := rfl
    rw [hor]
    constructor
    · exact fun h => Or.inr (Schema.accepts_anyOf.mp (h _ rfl))
    · rintro h t ht
      cases ht
      exact Schema.accepts_anyOf.mpr (h.resolve_left (List.cons_ne_nil s _))

/-- What is collected covers all end states iff it is nothing, or covers those that are
passed over. -/
theorem Collects.covers_iff {found : List Schema}
    (h : Collects D lib extractor b fs (b.endStates.getD []) [] found) :
    Covers D lib extractor b fs (anyOfThese found) ↔
      (∀ s, ¬ Collected D lib extractor b fs (b.endStates.getD []) s) ∨
        ∀ i, PassedOver D lib extractor b fs i → ∀ v, MayReturn D lib extractor (fs i) v →
          ∃ s, Collected D lib extractor b fs (b.endStates.getD []) s ∧ s.accepts v = true := by
  have hcollected : ∀ s ∈ found, Collected D lib extractor b fs (b.endStates.getD []) s := by
    intro s hs
    rcases h.collected s hs with hs | hs
    · cases hs
    · exact hs
  constructor
  · intro hcovers
    by_cases hnone : found = []
    · left
      intro s hs
      obtain ⟨s', hs', -⟩ := h.complete s hs
      rw [hnone] at hs'
      cases hs'
    · right
      rintro i hi v hv
      obtain ⟨s, hs, haccepts⟩ := (anyOfThese_accepts.mp (hcovers i hi.1 v hv)).resolve_left hnone
      exact ⟨s, hcollected s hs, haccepts⟩
  · rintro (hnone | hcovered) i hi v hv
    · refine anyOfThese_accepts.mpr (Or.inl (List.eq_nil_iff_forall_not_mem.mpr ?_))
      exact fun s hs => hnone s (hcollected s hs)
    · refine anyOfThese_accepts.mpr (Or.inr ?_)
      obtain ⟨s, hs, haccepts⟩ :
          ∃ s, Collected D lib extractor b fs (b.endStates.getD []) s ∧ s.accepts v = true := by
        by_cases hover : PassedOver D lib extractor b fs i
        · exact hcovered i hover v hv
        · -- a schema of its own has been collected for it
          simp only [PassedOver, not_and, not_forall, Bool.not_eq_true] at hover
          obtain ⟨state, hstate, hi, s, hs, hempty⟩ := hover hi
          exact ⟨s, ⟨hempty, state, hstate, i, hi, hs⟩, hv s hs⟩
      obtain ⟨s', hs', hle⟩ := h.complete s hs
      exact ⟨s', hs', hle v haccepts⟩

theorem exists_deep (D : Decls) (lib : Introspection)
    (extractor : Option (Ty → Except PyError (Option Schema))) (b : Blueprint) (fs : Functions) :
    ∃ N, ∀ n ≥ N, Deep D lib extractor n b fs :=
  exists_common_bound fun e _ => returnSchema_returns D lib extractor (fs e.2).returnHint

end

/-- **The output schema of a contract covers every end state iff no end state's schema is
collected, or what the handlers that are passed over return is accepted by those that
are.**  There is a contract unless the input schema cannot be had, whatever is in the
cache. -/
theorem output_covers_iff (D : Decls) (lib : Introspection)
    (extractor : Option (Ty → Except PyError (Option Schema))) (b : Blueprint) (fs : Functions)
    (hrem : ∀ i, Remembered D lib extractor (fs i)) :
    ∃ N, ∀ n ≥ N, ∀ cache : TypeSchemaCache, cache.All (Extracted D lib) →
      (∃ e, ((startSchema D lib extractor n b fs).run.run cache).1 = .error e ∧
        ((extractSkillContract D lib extractor n b fs).run.run cache).1 = .error e) ∨
      ∃ contract fs', ((extractSkillContract D lib extractor n b fs).run.run cache).1 =
          .ok (contract, fs') ∧
        (Covers D lib extractor b fs contract.outputSchema ↔
          (∀ s, ¬ Collected D lib extractor b fs (b.endStates.getD []) s) ∨
            ∀ i, PassedOver D lib extractor b fs i → ∀ v, MayReturn D lib extractor (fs i) v →
              ∃ s, Collected D lib extractor b fs (b.endStates.getD []) s ∧
                s.accepts v = true) := by
  obtain ⟨N, hN⟩ := exists_deep D lib extractor b fs
  refine ⟨N, fun n hn cache hcache => ?_⟩
  have hstart := (start_keeps (n := n) (b := b) hrem).run hcache
  unfold extractSkillContract
  rw [ProgE.run_bind]
  cases hrun : (startSchema D lib extractor n b fs).run.run cache with
  | mk r cache' =>
    rw [hrun] at hstart
    cases r with
    | error e => exact Or.inl ⟨e, rfl, rfl⟩
    | ok out =>
      right
      have hends : ((endSchemas D lib extractor n b (b.endStates.getD []) [] out.2) >>=
          fun found => (pure
            (⟨out.1, anyOfThese found.1, b.eventsSchema, b.outputStatuses⟩, found.2) :
            Extraction (SkillContract × Functions))).Returns (Extracted D lib) fun result =>
          ∃ found, Collects D lib extractor b fs (b.endStates.getD []) [] found ∧
            result.1.outputSchema = anyOfThese found :=
        ProgE.returns_bind (endSchemas_returns (hN n hn) _ [] (hstart.1 out rfl))
          fun found hfound => ProgE.returns_pure ⟨found.1, hfound, rfl⟩
      obtain ⟨⟨result, hresult, found, hfound, hout⟩, -⟩ := hends.run hstart.2
      refine ⟨result.1, result.2, hresult, ?_⟩
      rw [hout]
      exact hfound.covers_iff

/-- A function that is annotated to return this. -/
def returning (returnAnn : Option Ty) : Handler := ⟨handlerOf [], returnAnn, none⟩

/-- Two end states, of which the second has a conditional handler only. -/
def countBlueprint : Blueprint where
  handlers := [("counted", 0)]
  conditionalHandlers := some [("estimated", 1)]
  endStates := some ["counted", "estimated"]

/-- The conditional handler is passed over, and what it returns is covered by what the other one
returns. -/
theorem output_covers_iff_estimated : ∃ n contract fs',
    ((extractSkillContract [] .bare none n countBlueprint fun _ => returning (some .int)).run.run
      (Cache.empty : TypeSchemaCache)).1 = .ok (contract, fs') ∧
    PassedOver [] .bare none countBlueprint (fun _ => returning (some .int)) 1 ∧
    Covers [] .bare none countBlueprint (fun _ => returning (some .int)) contract.outputSchema := by
  have hint : OutputSchema [] .bare none (returning (some .int)) (.typed .integer) :=
    ⟨rfl, rfl, rfl, Or.inr ⟨rfl, .leaf rfl⟩⟩
  have hover : PassedOver [] .bare none countBlueprint (fun _ => returning (some .int)) 1 := by
    refine ⟨⟨"estimated", by decide, Or.inr (by decide)⟩, fun state hstate hlookup => ?_⟩
    rcases List.mem_pair.mp hstate with rfl | rfl <;> exact absurd hlookup (by decide)
  obtain ⟨N, hN⟩ := output_covers_iff [] .bare none countBlueprint (fun _ => returning (some .int))
    fun _ _ r hr => by cases hr
  rcases hN N (Nat.le_refl N) Cache.empty Cache.all_empty with
    ⟨e, he, -⟩ | ⟨contract, fs', hok, hiff⟩
  · cases he
  · refine ⟨N, contract, fs', hok, hover, hiff.mpr (Or.inr fun i _ v hmay => ?_)⟩
    exact ⟨.typed .integer, ⟨rfl, "counted", by decide, 0, rfl, hint⟩, hmay _ hint⟩

/-- Two end states, of which the second's handler is not annotated. -/
def mixedBlueprint : Blueprint where
  handlers := [("counted", 0), ("other", 1)]
  endStates := some ["counted", "other"]

def mixedFunctions : Functions
  | 0 => returning (some .int)
  | _ => returning none

/-- What a handler may return that nothing is known of is not accepted. -/
theorem unannotated_not_covered : ∃ contract fs',
    ((extractSkillContract [] .bare none 9 mixedBlueprint mixedFunctions).run.run
      (Cache.empty : TypeSchemaCache)).1 = .ok (contract, fs') ∧
    ¬ Covers [] .bare none mixedBlueprint mixedFunctions contract.outputSchema := by
  refine ⟨_, _, rfl, fun h => ?_⟩
  have hends : mixedBlueprint.Ends 1 := ⟨"other", by decide, Or.inl rfl⟩
  have hmay : MayReturn [] .bare none (mixedFunctions 1) (.str "done") :=
    fun s hs => hs.2.elim
  exact absurd (h 1 hends _ hmay _ rfl) (by decide)

end Rxon
