import Rxon.Recency
import Rxon.SchemaCaches

/-! # Which validators are kept

A hit does not move an entry: the dictionary keeps the order in which validators were stored,
and its first entry makes room.  The cache is first in, first out (`validators_fifo`); it keeps
the most recently requested schemas exactly as long as what it drops is the least recently
requested one, and a schema that every task asks for does not stay compiled
(`requested_schema_evicted`). -/

namespace Memo.Cache
variable {κ ν ε : Type} {bound : Nat} [DecidableEq κ] [Fact (0 < bound)]

/-- Fetching what can be made keeps the keys first in, first out. -/
theorem keys_fetch (c : Cache κ ν bound) (key : κ) (value : ν) :
    Assoc.keys (c.fetch key (.ok value : Except ε ν)).2.entries =
      Recency.fifo bound (Assoc.keys c.entries) key := by
  have hlen : (Assoc.keys c.entries).length = c.entries.length := List.length_map ..
  unfold Recency.fifo
  cases hget : c.get key with
  | some found =>
    rw [fetch_of_get hget, if_pos (Assoc.mem_keys_of_mem (Assoc.mem_of_lookup hget))]
  | none =>
    have hnot : key ∉ Assoc.keys c.entries := Assoc.lookup_eq_none.mp hget
    have hfetch : (c.fetch key (.ok value : Except ε ν)).2 = c.insert key value := by
      unfold fetch
      rw [hget]
    rw [hfetch, if_neg hnot, hlen, Cache.insert, dif_neg hnot]
    show Assoc.keys (c.evicted ++ [(key, value)]) = _
    rw [Assoc.keys_append, evicted]
    split
    · rw [Assoc.keys, List.map_tail]
      rfl
    · rfl

end Memo.Cache

namespace Rxon
open Memo Recency

section
variable (oj : Orjson) {V : Type} (fj : SchemaCompiler oj.Bytes V)

/-- The keys of the schemas that were requested, in order; an empty schema asks for
nothing. -/
def requestedKeys (schemas : List (List (String × PyVal))) : List oj.Bytes :=
  schemas.filterMap fun schema => if schema = [] then none else some (schemaKey oj fj schema)

variable [DecidableEq oj.Bytes]

/-- The validators after these calls, from an empty cache. -/
def validatorsAfter (schemas : List (List (String × PyVal))) :
    Cache oj.Bytes V maxValidatorCacheSize :=
  schemas.foldl (fun c schema => (getCompiledValidator oj fj (some schema) c).2) .empty

/-- The cache holds the schemas that were requested most recently, as many as fit. -/
def KeepsRecent (schemas : List (List (String × PyVal))) : Prop :=
  Recent maxValidatorCacheSize (requestedKeys oj fj schemas)
    (Assoc.keys (validatorsAfter oj fj schemas).entries)

/-- If a validator has to make room for that of `schema`, then the one of the schema that
was requested longest ago does. -/
def EvictsLeastRecent (schemas : List (List (String × PyVal))) (schema : List (String × PyVal)) :
    Prop :=
  DropsLeastRecent maxValidatorCacheSize (requestedKeys oj fj schemas)
    (Assoc.keys (validatorsAfter oj fj schemas).entries) (schemaKey oj fj schema)

variable {schemas : List (List (String × PyVal))}

omit [DecidableEq oj.Bytes] in
theorem requestedKeys_snoc {schema : List (String × PyVal)} (h : schema ≠ []) :
    requestedKeys oj fj (schemas ++ [schema]) =
      requestedKeys oj fj schemas ++ [schemaKey oj fj schema] := by
  simp [requestedKeys, List.filterMap_append, h]

omit [DecidableEq oj.Bytes] in
theorem requestedKeys_snoc_empty :
    requestedKeys oj fj (schemas ++ [[]]) = requestedKeys oj fj schemas := by
  simp [requestedKeys, List.filterMap_append]

omit [DecidableEq oj.Bytes] in
/-- A request comes from a call. -/
theorem exists_call {keys : List oj.Bytes} {key : oj.Bytes}
    (h : keys ++ [key] <+: requestedKeys oj fj schemas) :
    ∃ p schema, p ++ [schema] <+: schemas ∧ schema ≠ [] ∧ keys = requestedKeys oj fj p ∧
      key = schemaKey oj fj schema := by
  obtain ⟨p, hp, heq⟩ := List.prefix_filterMap_iff.mp h
  induction p using List.reverseRecOn with
  | nil => simp at heq
  | append_singleton p schema ih =>
    by_cases hempty : schema = []
    · -- an empty schema requests nothing: the request was made before
      subst hempty
      apply ih ((List.prefix_append p [[]]).trans hp)
      rw [heq]
      exact requestedKeys_snoc_empty oj fj
    · have hlast : keys ++ [key] = requestedKeys oj fj p ++ [schemaKey oj fj schema] :=
        heq.trans (requestedKeys_snoc oj fj hempty)
      obtain ⟨hkeys, hkey⟩ := List.append_inj' hlast rfl
      exact ⟨p, schema, hp, hempty, hkeys, (List.cons.inj hkey).1⟩

/-- A call does to the keys what a request does to those of a cache that is first in, first
out. -/
theorem keys_validatorsAfter (h : ∀ schema ∈ schemas, ∃ v, fj.compile schema = .ok v) :
    Assoc.keys (validatorsAfter oj fj schemas).entries =
      fifoAfter maxValidatorCacheSize (requestedKeys oj fj schemas) := by
  induction schemas using List.reverseRecOn with
  | nil => rfl
  | append_singleton schemas schema ih =>
    have hbefore := ih fun s hs => h s (List.mem_append_left _ hs)
    obtain ⟨v, hv⟩ := h schema (List.mem_append_right _ (List.mem_singleton_self schema))
    have hafter : validatorsAfter oj fj (schemas ++ [schema]) =
        (getCompiledValidator oj fj (some schema) (validatorsAfter oj fj schemas)).2 := by
      rw [validatorsAfter, List.foldl_append]
      rfl
    rw [hafter]
    cases schema with
    | nil =>
      rw [requestedKeys_snoc_empty]
      exact hbefore
    | cons e es =>
      rw [requestedKeys_snoc oj fj (List.cons_ne_nil e es), fifoAfter_snoc, ← hbefore]
      show Assoc.keys (Cache.fetch _ _ _).2.entries = _
      rw [hv]
      exact Cache.keys_fetch _ _ v

/-- The cache is LRU throughout a sequence of calls iff every validator that makes room is the
least recently requested one. -/
theorem validators_recent_iff (h : ∀ schema ∈ schemas, ∃ v, fj.compile schema = .ok v) :
    (∀ p, p <+: schemas → KeepsRecent oj fj p) ↔
      ∀ p schema, p ++ [schema] <+: schemas → schema ≠ [] → EvictsLeastRecent oj fj p schema := by
  have hkeys : ∀ p, p <+: schemas → Assoc.keys (validatorsAfter oj fj p).entries =
      fifoAfter maxValidatorCacheSize (requestedKeys oj fj p) := fun p hp =>
    keys_validatorsAfter oj fj fun schema hs => h schema (hp.subset hs)
  have hiff := fifo_recent_iff (Fact.out : 0 < maxValidatorCacheSize) (requestedKeys oj fj schemas)
  constructor
  · intro hall p schema hp hne
    have hp' := (List.prefix_append p [schema]).trans hp
    have hrequests : requestedKeys oj fj p ++ [schemaKey oj fj schema] <+:
        requestedKeys oj fj schemas := by
      rw [← requestedKeys_snoc oj fj hne]
      exact hp.filterMap _
    rw [EvictsLeastRecent, hkeys p hp']
    refine hiff.mp (fun keys hprefix => ?_) _ _ hrequests
    obtain ⟨q, hq, rfl⟩ := List.prefix_filterMap_iff.mp hprefix
    have hrecent := hall q hq
    rw [KeepsRecent, hkeys q hq] at hrecent
    exact hrecent
  · intro hall p hp
    rw [KeepsRecent, hkeys p hp]
    refine hiff.mpr (fun keys key hprefix => ?_) _ (hp.filterMap _)
    obtain ⟨q, schema, hq, hne, rfl, rfl⟩ := exists_call oj fj hprefix
    have hevicts := hall q schema hq hne
    rwa [EvictsLeastRecent, hkeys q ((List.prefix_append q [schema]).trans hq)] at hevicts

/-- **The validator cache is first in, first out**: after any calls its keys are, in order, what
is left of those that were requested.  It is LRU as well as long as every validator that makes
room is the least recently requested one. -/
theorem validators_fifo (h : ∀ schema ∈ schemas, ∃ v, fj.compile schema = .ok v) :
    Assoc.keys (validatorsAfter oj fj schemas).entries =
        fifoAfter maxValidatorCacheSize (requestedKeys oj fj schemas) ∧
      ((∀ p, p <+: schemas → KeepsRecent oj fj p) ↔
        ∀ p schema, p ++ [schema] <+: schemas → schema ≠ [] →
          EvictsLeastRecent oj fj p schema) :=
  ⟨keys_validatorsAfter oj fj h, validators_recent_iff oj fj h⟩

end

/-! ## A schema that every task asks for -/

/-- `{"minLength": i}`. -/
def lengthSchema (i : Nat) : List (String × PyVal) := [("minLength", .int i)]

/-- A schema that is requested again after 1023 others, before yet another one. -/
def requestedAgain : List (List (String × PyVal)) :=
  [stringSchema] ++ (List.range 1023).map lengthSchema ++ [stringSchema] ++ [lengthSchema 1023]

section
variable (oj : Orjson) {V : Type} (fj : SchemaCompiler oj.Bytes V)

/-- The key of a schema that is a flat document spells the document. -/
theorem encode_schemaKey {name : String} {j : Json} (hfit : j.IntsFit) (hflat : j.height = 0) :
    oj.encode (.obj [(name, j)]) = .ok (schemaKey oj fj [(name, j.toPy)]) := by
  have hfit' : Json.IntsFit (.obj [(name, j)]) := Json.intsFit_obj.mpr fun e he => by
    rwa [List.mem_singleton.mp he]
  have hheight : (Json.obj [(name, j)]).height ≤ oj.nesting := by
    have := oj.nesting_gt
    simp only [Json.height, Json.heightEntries, hflat]
    omega
  obtain ⟨b, hb⟩ := oj.encode_ok _ hfit' hheight
  have hsorted : (Json.obj [(name, j)]).sortKeys = .obj [(name, j)] := by
    cases j with
    | arr | obj => simp [Json.height] at hflat
    | null | bool | int | float | str => rfl
  have hdumps : oj.dumps true Orjson.noDefault (.dict [(name, j.toPy)]) = .ok b := by
    have hpy : PyVal.dict [(name, j.toPy)] = (Json.obj [(name, j)]).toPy := by
      rw [Json.toPy_obj]
      rfl
    rw [hpy, Orjson.dumps_toPy, if_pos rfl, hsorted, hb]
  rw [schemaKey, hdumps, hb]

theorem encode_lengthKey {i : Nat} (h : i < 1024) :
    oj.encode (.obj [("minLength", .int i)]) = .ok (schemaKey oj fj (lengthSchema i)) := by
  apply encode_schemaKey oj fj (j := .int i)
  · simp only [Json.IntsFit, Json.All, Json.nodes, List.mem_singleton, forall_eq, Json.Fits64]
    omega
  · rfl

theorem encode_stringKey :
    oj.encode (.obj [("type", .str "string")]) = .ok (schemaKey oj fj stringSchema) := by
  apply encode_schemaKey oj fj (j := .str "string")
  · simp [Json.IntsFit, Json.All, Json.nodes]
  · rfl

/-- The schemas have different keys. -/
theorem stringKey_ne {i : Nat} (h : i < 1024) :
    schemaKey oj fj stringSchema ≠ schemaKey oj fj (lengthSchema i) := by
  intro heq
  have hstring := encode_stringKey oj fj
  rw [heq] at hstring
  have hdocs := oj.encode_inj (encode_lengthKey oj fj h) hstring
  simp at hdocs

theorem lengthKey_inj {i j : Nat} (hi : i < 1024) (hj : j < 1024)
    (heq : schemaKey oj fj (lengthSchema i) = schemaKey oj fj (lengthSchema j)) : i = j := by
  have hdocs := oj.encode_inj (encode_lengthKey oj fj hi) (heq ▸ encode_lengthKey oj fj hj)
  simpa using hdocs

/-- The keys of the first `n` length schemas. -/
def lengthKeys (n : Nat) : List oj.Bytes :=
  (List.range n).map fun i => schemaKey oj fj (lengthSchema i)

theorem requestedKeys_requestedAgain :
    requestedKeys oj fj requestedAgain =
      schemaKey oj fj stringSchema :: lengthKeys oj fj 1023 ++ [schemaKey oj fj stringSchema] ++
        [schemaKey oj fj (lengthSchema 1023)] := by
  have hlengths : requestedKeys oj fj ((List.range 1023).map lengthSchema) =
      lengthKeys oj fj 1023 := by
    rw [requestedKeys, List.filterMap_map, lengthKeys, ← List.filterMap_eq_map]
    rfl
  have hfirst : requestedKeys oj fj ([stringSchema] ++ (List.range 1023).map lengthSchema) =
      schemaKey oj fj stringSchema :: lengthKeys oj fj 1023 := by
    rw [← hlengths, requestedKeys, List.filterMap_append]
    rfl
  have hlast : lengthSchema 1023 ≠ [] := List.cons_ne_nil _ _
  have hstring : stringSchema ≠ [] := List.cons_ne_nil _ _
  rw [requestedAgain, requestedKeys_snoc oj fj hlast, requestedKeys_snoc oj fj hstring, hfirst]

theorem nodup_lengthKeys {n : Nat} (hn : n ≤ 1024) : (lengthKeys oj fj n).Nodup := by
  refine List.Nodup.map_on (fun i hi j hj h => ?_) List.nodup_range
  have hlt := List.mem_range.mp hi
  have hlt' := List.mem_range.mp hj
  exact lengthKey_inj oj fj (by omega) (by omega) h

theorem stringKey_not_mem : schemaKey oj fj stringSchema ∉ lengthKeys oj fj 1023 := by
  intro hmem
  obtain ⟨i, hi, heq⟩ := List.mem_map.mp hmem
  have hlt := List.mem_range.mp hi
  exact stringKey_ne oj fj (by omega) heq.symm

variable [DecidableEq oj.Bytes]

/-- The schema that is requested again makes room for the last one. -/
theorem fifoAfter_requestedAgain :
    fifoAfter maxValidatorCacheSize (requestedKeys oj fj requestedAgain) =
      lengthKeys oj fj 1023 ++ [schemaKey oj fj (lengthSchema 1023)] := by
  have hnew : schemaKey oj fj (lengthSchema 1023) ∉
      schemaKey oj fj stringSchema :: lengthKeys oj fj 1023 := by
    rw [List.mem_cons]
    rintro (heq | hmem)
    · exact stringKey_ne oj fj (by omega) heq.symm
    · obtain ⟨i, hi, heq⟩ := List.mem_map.mp hmem
      have hlt := List.mem_range.mp hi
      have := lengthKey_inj oj fj (by omega) (by omega) heq
      omega
  have hlen : (schemaKey oj fj stringSchema :: lengthKeys oj fj 1023).length =
      maxValidatorCacheSize := by
    rw [List.length_cons, lengthKeys, List.length_map, List.length_range]
    rfl
  have hnodup := List.nodup_cons.mpr
    ⟨stringKey_not_mem oj fj, nodup_lengthKeys oj fj (n := 1023) (by omega)⟩
  rw [requestedKeys_requestedAgain, fifoAfter_requested_again hnodup hlen hnew]

/-- **A schema that is requested again and again is evicted.** -/
theorem requestedAgain_evicted
    (h : ∀ schema ∈ requestedAgain, ∃ v, fj.compile schema = .ok v) :
    ¬ KeepsRecent oj fj requestedAgain := by
  intro hrecent
  rw [KeepsRecent, keys_validatorsAfter oj fj h, fifoAfter_requestedAgain,
    requestedKeys_requestedAgain] at hrecent
  have hlast : schemaKey oj fj stringSchema ≠ schemaKey oj fj (lengthSchema 1023) :=
    stringKey_ne oj fj (by omega)
  -- it is the last request but one, and yet the entry that came in first
  have hmem := (hrecent (schemaKey oj fj stringSchema)).mpr
    (mem_mostRecent_of_last_two (by decide) hlast)
  rcases List.mem_append.mp hmem with hmem | hmem
  · exact stringKey_not_mem oj fj hmem
  · exact hlast (List.mem_singleton.mp hmem)

end

theorem requestedAgain_compiles : ∀ schema ∈ requestedAgain, schema ≠ [] ∧
    ∃ v, SchemaCompiler.types.compile schema = .ok v := by
  intro schema hs
  simp only [requestedAgain, List.mem_append, List.mem_singleton, List.mem_map] at hs
  rcases hs with ((rfl | ⟨i, -, rfl⟩) | rfl) | rfl
  · exact ⟨List.cons_ne_nil _ _, stringSchema, rfl⟩
  · exact ⟨List.cons_ne_nil _ _, lengthSchema i, rfl⟩
  · exact ⟨List.cons_ne_nil _ _, stringSchema, rfl⟩
  · exact ⟨List.cons_ne_nil _ _, lengthSchema 1023, rfl⟩

/-- The second request of `{"type": "string"}` is a hit, and the last request evicts its
validator; the 1024 others are kept in their order. -/
theorem validators_fifo_requestedAgain :
    Assoc.keys (validatorsAfter Orjson.reference SchemaCompiler.types requestedAgain).entries =
      lengthKeys Orjson.reference SchemaCompiler.types 1023 ++
        [schemaKey Orjson.reference SchemaCompiler.types (lengthSchema 1023)] :=
  (validators_fifo Orjson.reference .types fun schema hs =>
    (requestedAgain_compiles schema hs).2).1.trans
      (fifoAfter_requestedAgain Orjson.reference .types)

/-- The schema that was requested last but one is gone. -/
theorem requested_schema_evicted :
    (∀ schema ∈ requestedAgain, schema ≠ [] ∧
      ∃ v, SchemaCompiler.types.compile schema = .ok v) ∧
    ¬ KeepsRecent Orjson.reference SchemaCompiler.types requestedAgain :=
  ⟨requestedAgain_compiles, requestedAgain_evicted Orjson.reference .types fun schema hs =>
    (requestedAgain_compiles schema hs).2⟩

end Rxon
