import Rxon.Contents
import Rxon.Messages

/-! # Where a signature travels

A signature can be carried in `security.signature`, in the `_signature` entry of a
message's dict form, or in the field `sig` of a `TaskPayload`.  Signing leaves the
first two out of the message and `sig` in, so a signature put there covers itself and
does not verify.  A payload that msgspec does not encode is signed as its text, which
shows every field, and loses its signature wherever it is carried
(`carried_signature_verifies_iff`). -/

namespace Rxon
open Json (stripped)

inductive Carrier where
  | security
  | entry
  | sig
deriving DecidableEq

/-- No signature is in the fields of the payload. -/
structure Unsigned (fs : List (String × PyVal)) : Prop where
  sig : fs.lookup "sig" = some .none
  security : fs.lookup "security" = some .none ∨ ∃ context gs,
    fs.lookup "security" = some (.struct context gs) ∧ gs.lookup "signature" = some .none

section
variable {D : Decls} (rt : Runtime D)

/-- `q` is the payload `p` with the signature `s` put in a carrier.  A dict form of `p`
is a dict that normalizes as `p` does. -/
inductive Carries (p : PyVal) (s : String) : Carrier → PyVal → Prop
  | security : Carries p s .security (withSignature p s)
  | entry (kvs : List (String × PyVal)) (hunique : Assoc.Unique kvs)
      (h : toDict rt (.dict kvs) 0 = toDict rt p 0) :
      Carries p s .entry (.dict (Assoc.set "_signature" (.str s) kvs))
  | sig (head : StructHead) (fs : List (String × PyVal)) (h : p = .struct head fs) :
      Carries p s .sig (.struct head (Assoc.set "sig" (.str s) fs))

variable {rt} (crypto : Crypto rt.orjson.Bytes) {v : PyVal} {s secret : String}
  {ig : Option (List String)}

/-! ## What signing covers -/

/-- A signature that was made is the HMAC of the message. -/
theorem signPayload_eq_ok (h : signPayload rt crypto v secret ig = .ok s) :
    secret ≠ "" ∧ ∃ m, payloadMessage rt v ig = .ok m ∧ s = crypto.hmac secret m := by
  rw [signPayload] at h
  split at h
  · cases h
  · rename_i hs
    rcases hm : payloadMessage rt v ig with e | m
    · rw [hm] at h; cases h
    · rw [hm] at h
      cases h
      exact ⟨hs, m, rfl, rfl⟩

/-- A signature verifies on the payloads whose message has this HMAC. -/
theorem verifySignature_eq_true (h : verifySignature rt crypto v s secret ig = .ok true) :
    ∃ m, payloadMessage rt v ig = .ok m ∧ crypto.hmac secret m = s := by
  rw [verifySignature] at h
  split at h
  · cases h
  · rcases hsign : signPayload rt crypto v secret ig with e | t
    · rw [hsign] at h; cases h
    · rw [hsign] at h
      obtain ⟨-, m, hm, rfl⟩ := signPayload_eq_ok crypto hsign
      refine ⟨m, hm, ?_⟩
      change compareDigest (crypto.hmac secret m) s = .ok true at h
      rw [compareDigest] at h
      split at h
      · simpa using h
      · cases h

theorem toDict_of_message {m : rt.orjson.Bytes} (h : payloadMessage rt v ig = .ok m) :
    ∃ x, toDict rt v 0 = .ok x := by
  rw [payloadMessage] at h
  rcases hd : toDict rt v 0 with e | x
  · rw [hd] at h; cases h
  · exact ⟨x, rfl⟩

end

/-! ## Messages of objects -/

theorem writable_sortKeys {n : Nat} {j : Json} : Writable n j.sortKeys ↔ Writable n j :=
  ⟨fun h => ⟨Json.intsFit_sortKeys.mp h.ints, Json.keptDepth_sortKeys j ▸ h.depth⟩,
    fun h => ⟨Json.intsFit_sortKeys.mpr h.ints, (Json.keptDepth_sortKeys j).symm ▸ h.depth⟩⟩

/-- What is signed of an object with these entries. -/
def signedEntries (es : List (String × Json)) : List (String × Json) :=
  Assoc.popAll (unsignedFields none) (Assoc.mapVal stripped (Json.nonNull (Assoc.sortByKey es)))

section
variable {es es' : List (String × Json)}

theorem sorted_signedEntries (hu : Assoc.Unique es) : Assoc.Sorted (signedEntries es) :=
  (((Assoc.sorted_sortByKey hu).sublist List.filter_sublist).mapVal stripped).sublist
    (Assoc.popAll_sublist _ _)

theorem lookup_signedEntries (hu : Assoc.Unique es) (k : String) :
    (signedEntries es).lookup k =
      if k ∈ unsignedFields none then none else (Json.present (es.lookup k)).map stripped := by
  rw [signedEntries, Assoc.lookup_popAll, Assoc.lookup_mapVal, Json.lookup_nonNull hu.sortByKey,
    Assoc.lookup_sortByKey hu]

/-- The unsigned entries are not seen. -/
theorem signedEntries_congr (hu : Assoc.Unique es) (hu' : Assoc.Unique es')
    (h : ∀ k, k ∉ unsignedFields none → es.lookup k = es'.lookup k) :
    signedEntries es = signedEntries es' := by
  refine Assoc.ext_of_sorted (sorted_signedEntries hu) (sorted_signedEntries hu') fun k => ?_
  rw [lookup_signedEntries hu, lookup_signedEntries hu']
  by_cases hk : k ∈ unsignedFields none
  · rw [if_pos hk, if_pos hk]
  · rw [if_neg hk, if_neg hk, h k hk]

end

section
variable {D : Decls} (rt : Runtime D) {v w : PyVal} {es es' : List (String × Json)}
  {m : rt.orjson.Bytes}

/-- The value is written as an object with these entries, in the order of the keys. -/
structure HasEntries (v : PyVal) (es : List (String × Json)) : Prop where
  unique : Assoc.Unique es
  document : v.document true (fun o => .ok (defaultHandler rt o)) PyVal.defaultCalls =
    .ok (.obj (Assoc.sortByKey es))

variable {rt}

theorem HasEntries.toDict_eq_ok (h : HasEntries rt v es) {x : Json} : toDict rt v 0 = .ok x ↔
    Writable maxRecursionDepth (.obj es) ∧
      x = .obj (Assoc.mapVal stripped (Json.nonNull (Assoc.sortByKey es))) := by
  have hv : v ≠ .none := by
    rintro rfl
    cases h.document
  have hw : Writable maxRecursionDepth (.obj (Assoc.sortByKey es)) ↔
      Writable maxRecursionDepth (.obj es) := by
    rw [maxRecursionDepth, hereditary_writable.obj 29, hereditary_writable.obj 29]
    exact forall_congr' fun e => by rw [(Assoc.perm_sortByKey es).mem_iff]
  rw [Rxon.toDict_eq_ok rt hv h.document, Json.stripped_obj, ← hw]
  exact ⟨fun ⟨hi, hd, hx⟩ => ⟨⟨hi, hd⟩, hx⟩, fun ⟨hw, hx⟩ => ⟨hw.ints, hw.depth, hx⟩⟩

theorem HasEntries.message_iff (h : HasEntries rt v es) : payloadMessage rt v none = .ok m ↔
    Writable maxRecursionDepth (.obj es) ∧
      rt.orjson.encode (Json.obj (signedEntries es)).sortKeys = .ok m := by
  have hpart : ∀ x, toDict rt v 0 = .ok x →
      payloadMessage rt v none = rt.orjson.encode (Json.obj (signedEntries es)).sortKeys := by
    intro x hx
    obtain ⟨-, rfl⟩ := h.toDict_eq_ok.mp hx
    rw [payloadMessage, hx]
    exact Orjson.dumps_toPy _ _ _ _
  constructor
  · intro hm
    obtain ⟨x, hx⟩ := toDict_of_message hm
    exact ⟨(h.toDict_eq_ok.mp hx).1, (hpart x hx).symm.trans hm⟩
  · rintro ⟨hw, hm⟩
    rw [hpart _ (h.toDict_eq_ok.mpr ⟨hw, rfl⟩), hm]

/-- Values with the same signed entries have the same message. -/
theorem HasEntries.message_congr (h : HasEntries rt v es) (h' : HasEntries rt w es')
    (hlookup : ∀ k, k ∉ unsignedFields none → es.lookup k = es'.lookup k)
    (hw : Writable maxRecursionDepth (.obj es) → Writable maxRecursionDepth (.obj es'))
    (hm : payloadMessage rt v none = .ok m) : payloadMessage rt w none = .ok m := by
  obtain ⟨hwritable, hm⟩ := h.message_iff.mp hm
  rw [signedEntries_congr h.unique h'.unique hlookup] at hm
  exact h'.message_iff.mpr ⟨hw hwritable, hm⟩

/-- Values that differ in a signed entry have different messages. -/
theorem HasEntries.message_ne (h : HasEntries rt v es) (h' : HasEntries rt w es') {k s : String}
    (hk : k ∉ unsignedFields none) (hnone : es.lookup k = none)
    (hsome : es'.lookup k = some (.str s)) (hm : payloadMessage rt v none = .ok m) :
    payloadMessage rt w none ≠ .ok m := by
  intro hm'
  have hsame := rt.orjson.encode_inj (h.message_iff.mp hm).2 (h'.message_iff.mp hm').2
  rw [Json.sortKeys_obj, Json.sortKeys_obj, Json.obj.injEq] at hsame
  have hlook := congrArg (List.lookup k) hsame
  have hu := Assoc.unique_mapVal (f := Json.sortKeys).mpr (sorted_signedEntries h.unique).unique
  have hu' := Assoc.unique_mapVal (f := Json.sortKeys).mpr (sorted_signedEntries h'.unique).unique
  rw [Assoc.lookup_sortByKey hu, Assoc.lookup_sortByKey hu', Assoc.lookup_mapVal,
    Assoc.lookup_mapVal, lookup_signedEntries h.unique, lookup_signedEntries h'.unique,
    if_neg hk, if_neg hk, hnone, hsome] at hlook
  cases hlook

end

/-! ## The entries of a dict form -/

section
variable {D : Decls} {rt : Runtime D} {v : PyVal} {kvs : List (String × PyVal)}
  {es : List (String × Json)} {foreign : PyVal → Except PyError Json} {s : String}
  {m : rt.orjson.Bytes}

theorem keys_of_entries (h : PyVal.documentEntries true foreign kvs = .ok es) :
    Assoc.keys es = Assoc.keys kvs := by
  induction kvs generalizing es with
  | nil =>
    cases h
    rfl
  | cons e kvs ih =>
    rw [PyVal.documentEntries] at h
    rcases hd : PyVal.documentWith true foreign e.2 with err | d
    · rw [hd] at h; cases h
    · rcases hds : PyVal.documentEntries true foreign kvs with err | ds
      · rw [hd, hds] at h; cases h
      · rw [hd, hds] at h
        cases h
        rw [Assoc.keys_cons, Assoc.keys_cons, ih hds]

/-- A text that is set is written as it is. -/
theorem entries_set (k : String) (h : PyVal.documentEntries true foreign kvs = .ok es) :
    PyVal.documentEntries true foreign (Assoc.set k (.str s) kvs) =
      .ok (Assoc.set k (.str s) es) := by
  induction kvs generalizing es with
  | nil =>
    cases h
    rfl
  | cons e kvs ih =>
    rw [PyVal.documentEntries] at h
    rcases hd : PyVal.documentWith true foreign e.2 with err | d
    · rw [hd] at h; cases h
    · rcases hds : PyVal.documentEntries true foreign kvs with err | ds
      · rw [hd, hds] at h; cases h
      · rw [hd, hds] at h
        cases h
        rw [Assoc.set, Assoc.set]
        by_cases hk : e.1 = k
        · rw [if_pos hk, if_pos hk, PyVal.documentEntries, hds]
          rfl
        · rw [if_neg hk, if_neg hk, PyVal.documentEntries, hd, ih hds]
          rfl

/-- What `to_dict` accepts has been written. -/
theorem exists_document {x : Json} (hv : v ≠ .none) (h : toDict rt v 0 = .ok x) :
    ∃ j, v.document true (fun o => .ok (defaultHandler rt o)) PyVal.defaultCalls = .ok j := by
  rcases hd : v.document true (fun o => .ok (defaultHandler rt o)) PyVal.defaultCalls with e | j
  · have hdumps : rt.orjson.dumps true (fun o => .ok (defaultHandler rt o)) v = .error e := by
      rw [Orjson.dumps, hd]
      rfl
    rw [toDict_of_ne_none rt hv, hdumps] at h
    cases e <;> cases h
  · exact ⟨j, rfl⟩

theorem hasEntries_dict (hu : Assoc.Unique kvs) {x : Json}
    (h : toDict rt (.dict kvs) 0 = .ok x) :
    ∃ es, HasEntries rt (.dict kvs) es ∧
      ∀ s, HasEntries rt (.dict (Assoc.set "_signature" (.str s) kvs))
        (Assoc.set "_signature" (.str s) es) := by
  let foreign : PyVal → Except PyError Json := fun v => do
    PyVal.document true (fun o => .ok (defaultHandler rt o)) 253 (← .ok (defaultHandler rt v))
  have hdocument : ∀ kvs, (PyVal.dict kvs).document true (fun o => .ok (defaultHandler rt o))
      PyVal.defaultCalls = (PyVal.documentEntries true foreign kvs).map fun ds =>
        .obj (Assoc.sortByKey ds) := fun _ => rfl
  obtain ⟨j, hj⟩ := exists_document (by simp) h
  rw [hdocument] at hj
  rcases hes : PyVal.documentEntries true foreign kvs with e | es
  · rw [hes] at hj; cases hj
  · have hunique : Assoc.Unique es := by rwa [Assoc.Unique, keys_of_entries hes]
    refine ⟨es, ⟨hunique, ?_⟩, fun s => ⟨hunique.set _ _, ?_⟩⟩
    · rw [hdocument, hes]
      rfl
    · rw [hdocument, entries_set "_signature" hes]
      rfl

/-- The `_signature` entry of a dict is not signed. -/
theorem message_of_entry (hu : Assoc.Unique kvs) (hm : payloadMessage rt (.dict kvs) none = .ok m) :
    payloadMessage rt (.dict (Assoc.set "_signature" (.str s) kvs)) none = .ok m := by
  obtain ⟨x, hx⟩ := toDict_of_message hm
  obtain ⟨es, hes, hset⟩ := hasEntries_dict hu hx
  refine hes.message_congr (hset s) (fun k hk => ?_) (fun hw => ?_) hm
  · have hne : k ≠ "_signature" := by
      rintro rfl
      exact hk (by simp [unsignedFields])
    rw [Assoc.lookup_set_ne hne]
  · rw [maxRecursionDepth, hereditary_writable.obj 29] at hw ⊢
    intro e he
    rcases Assoc.mem_set he with rfl | he
    · exact hereditary_writable.str 29 s
    · exact hw e he

end

/-! ## The entries of a payload -/

section
variable {D : Decls} {rt : Runtime D} {head : StructHead} {fs : List (String × PyVal)}
  {k : String} {v w : PyVal}

/-- Setting a field to a value that is as known as the one it held. -/
theorem known_set (hv : fs.lookup k = some v)
    (h : (D.omits head k v || PyVal.known D v) = (D.omits head k w || PyVal.known D w)) :
    PyVal.known D (.struct head (Assoc.set k w fs)) = PyVal.known D (.struct head fs) := by
  show PyVal.knownFields D head _ = PyVal.knownFields D head _
  induction fs with
  | nil => cases hv
  | cons e fs ih =>
    obtain ⟨k', v'⟩ := e
    rw [Assoc.set]
    by_cases hk : k' = k
    · subst hk
      rw [Assoc.lookup_cons_self] at hv
      cases hv
      rw [if_pos rfl, PyVal.knownFields, PyVal.knownFields, h]
    · rw [Assoc.lookup_cons_ne (Ne.symm hk)] at hv
      rw [if_neg hk, PyVal.knownFields, PyVal.knownFields, ih hv]

/-- The entries of a Struct that msgspec encodes. -/
def structEntries (D : Decls) (head : StructHead) (fs : List (String × PyVal)) :
    List (String × Json) :=
  Assoc.mapVal (fun x => (PyVal.built D true x).sortKeys) (PyVal.publicKept D head fs)

theorem hasEntries_struct (hu : Assoc.Unique fs) (hknown : PyVal.known D (.struct head fs) = true) :
    HasEntries rt (.struct head fs) (structEntries D head fs) := by
  refine ⟨Assoc.unique_mapVal.mpr (hu.sublist (PyVal.publicKept_sublist D)), ?_⟩
  rw [PyVal.defaultCalls, document_struct_content rt head fs 253,
    PyVal.content_struct rt.pyStr hknown, Json.sortKeys_obj, structEntries, Assoc.mapVal,
    Assoc.mapVal, Assoc.mapVal, List.map_map]
  rfl

theorem lookup_structEntries (hu : Assoc.Unique fs) (k : String) :
    (structEntries D head fs).lookup k =
      ((fs.lookup k).filter fun x => !isPrivate k && !D.omits head k x).map fun x =>
        (PyVal.built D true x).sortKeys := by
  rw [structEntries, Assoc.lookup_mapVal, PyVal.publicKept, Decls.kept, List.filter_filter,
    Assoc.lookup_filter hu]

/-- Setting a field keeps the limits that its value keeps. -/
theorem writable_structEntries_set {n : Nat}
    (hw : Writable (n + 1) (.obj (structEntries D head fs)))
    (h : D.omits head k w = false → Writable n (PyVal.built D true w)) :
    Writable (n + 1) (.obj (structEntries D head (Assoc.set k w fs))) := by
  rw [hereditary_writable.obj, structEntries, Assoc.mapVal, List.forall_mem_map] at hw ⊢
  intro e he
  obtain ⟨hkept, hpublic⟩ := List.mem_filter.mp he
  obtain ⟨hmem, hsent⟩ := List.mem_filter.mp hkept
  rcases Assoc.mem_set hmem with rfl | hmem
  · exact writable_sortKeys.mpr (h (by simpa using hsent))
  · exact hw e (List.mem_filter.mpr ⟨List.mem_filter.mpr ⟨hmem, hsent⟩, hpublic⟩)

end

/-! ## The text of a payload -/

/-- The text of a Struct: its class, and each field with its `repr`. -/
def structText (repr : PyVal → String) (head : StructHead) (fs : List (String × PyVal)) : String :=
  head.cls ++ "(" ++ ", ".intercalate (fs.map fun e => e.1 ++ "=" ++ repr e.2) ++ ")"

/-- What msgspec and Python say of texts: a Struct is printed with all of its fields, and
the `repr` of a text is in quotes. -/
structure PrintsFields (pyStr repr : PyVal → String) : Prop where
  str_struct : ∀ head fs, pyStr (.struct head fs) = structText repr head fs
  repr_struct : ∀ head fs, repr (.struct head fs) = structText repr head fs
  repr_none : repr .none = "None"
  repr_str : ∀ s, repr (.str s) ≠ "None"

section
variable {repr : PyVal → String} {head : StructHead} {fs : List (String × PyVal)} {k : String}
  {v w : PyVal}

/-- A field that is set can be seen. -/
theorem structText_set_ne (hv : fs.lookup k = some v) (h : repr w ≠ repr v) :
    structText repr head (Assoc.set k w fs) ≠ structText repr head fs := by
  rw [structText, structText, Ne, String.append_left_inj, String.append_right_inj]
  induction fs with
  | nil => cases hv
  | cons e fs ih =>
    obtain ⟨k', v'⟩ := e
    rw [Assoc.set]
    by_cases hk : k' = k
    · subst hk
      rw [Assoc.lookup_cons_self] at hv
      cases hv
      rw [if_pos rfl, List.map_cons, List.map_cons]
      cases fs with
      | nil =>
        rw [List.map_nil, String.intercalate_singleton, String.intercalate_singleton,
          String.append_right_inj]
        exact h
      | cons e fs =>
        rw [List.map_cons, String.intercalate_cons_cons, String.intercalate_cons_cons,
          String.append_left_inj, String.append_left_inj, String.append_right_inj]
        exact h
    · rw [Assoc.lookup_cons_ne (Ne.symm hk)] at hv
      have hne : fs ≠ [] := by rintro rfl; cases hv
      have hset : Assoc.set k w fs ≠ [] := by
        cases fs with
        | nil => exact absurd rfl hne
        | cons e fs => unfold Assoc.set; split <;> simp
      rw [if_neg hk, List.map_cons, List.map_cons,
        String.intercalate_cons_of_ne_nil (by simpa using hset),
        String.intercalate_cons_of_ne_nil (by simpa using hne), String.append_right_inj]
      exact ih hv

end

section
variable {D : Decls} (rt : Runtime D) {head : StructHead} {fs : List (String × PyVal)}

/-- A Struct that msgspec does not encode normalizes to its text. -/
theorem toDict_of_unknown (h : ¬ PyVal.known D (.struct head fs) = true) :
    toDict rt (.struct head fs) 0 = .ok (.str (rt.pyStr (.struct head fs))) := by
  have hdoc := document_struct_content rt head fs 253
  rw [PyVal.content_struct_unknown rt.pyStr h] at hdoc
  have hwritable := hereditary_writable.str maxRecursionDepth (rt.pyStr (.struct head fs))
  exact (toDict_eq_ok rt (by simp) hdoc).mpr ⟨hwritable.ints, hwritable.depth, rfl⟩

theorem message_of_unknown (h : ¬ PyVal.known D (.struct head fs) = true) :
    payloadMessage rt (.struct head fs) none =
      rt.orjson.encode (.str (rt.pyStr (.struct head fs))) := by
  rw [payloadMessage, toDict_of_unknown rt h]
  exact Orjson.dumps_toPy rt.orjson true Orjson.noDefault (.str _)

end

/-! ## Verifying from each carrier -/

section
variable {rt : Runtime rxonDecls} {repr : PyVal → String} {head : StructHead}
  {fs : List (String × PyVal)} {s : String} {m : rt.orjson.Bytes}

/-- The context that holds the signature. -/
abbrev contextWith (fs : List (String × PyVal)) (s : String) : PyVal :=
  signedContext (fs.lookup "security") s

theorem contextWith_none (h : fs.lookup "security" = some .none) :
    contextWith fs s = freshContext s := by
  rw [contextWith, h]
  rfl

theorem taskPayload_lookup : rxonDecls.lookup "TaskPayload" = some taskPayload := rfl

theorem omits_taskPayload (hhead : head.cls = "TaskPayload") {k : String} {t : Ty}
    (hf : ⟨k, t, .value .none⟩ ∈ taskPayload.fields) {v : PyVal} (hv : v ≠ .none) :
    rxonDecls.omits head k v = false :=
  Decls.omits_optional rxonDecls_wire (hhead ▸ taskPayload_lookup) hf hv

theorem sig_mem_taskPayload : ⟨"sig", .optional .str, .value .none⟩ ∈ taskPayload.fields := by
  simp [taskPayload, model]

theorem security_mem_taskPayload :
    ⟨"security", .optional (.cls "SecurityContext"), .value .none⟩ ∈ taskPayload.fields := by
  simp [taskPayload, model]

/-- The signature makes no difference to what msgspec knows. -/
theorem known_security (hhead : head.cls = "TaskPayload") (hfs : Unsigned fs) :
    PyVal.known rxonDecls (.struct head (Assoc.set "security" (contextWith fs s) fs)) =
      PyVal.known rxonDecls (.struct head fs) := by
  obtain hnone | ⟨context, gs, hsome, hsignature⟩ := hfs.security
  · refine known_set hnone ?_
    rw [contextWith_none hnone]
    simp [freshContext, PyVal.known, PyVal.knownFields]
  · refine known_set hsome ?_
    have hinner : PyVal.known rxonDecls (.struct context (Assoc.set "signature" (.str s) gs)) =
        PyVal.known rxonDecls (.struct context gs) := known_set hsignature (by simp [PyVal.known])
    rw [contextWith, hsome, signedContext, hinner,
      omits_taskPayload hhead security_mem_taskPayload (by simp),
      omits_taskPayload hhead security_mem_taskPayload (by simp)]

theorem known_sig (hfs : Unsigned fs) :
    PyVal.known rxonDecls (.struct head (Assoc.set "sig" (.str s) fs)) =
      PyVal.known rxonDecls (.struct head fs) :=
  known_set hfs.sig (by simp [PyVal.known])

/-- The context with the signature is within the limits of the payload. -/
theorem writable_context (hhead : head.cls = "TaskPayload") (hfs : Unsigned fs)
    (hw : Writable 30 (.obj (structEntries rxonDecls head fs))) :
    Writable 29 (PyVal.built rxonDecls true (contextWith fs s)) := by
  obtain hnone | ⟨context, gs, hsome, -⟩ := hfs.security
  · rw [contextWith_none hnone, freshContext, PyVal.built_struct_true,
      hereditary_writable.obj, Assoc.mapVal, List.forall_mem_map]
    intro e he
    have hmem := List.mem_of_mem_filter he
    simp only [List.mem_cons, List.not_mem_nil, or_false] at hmem
    rcases hmem with rfl | rfl | rfl | rfl
    exacts [hereditary_writable.str _ s, hereditary_writable.null _, hereditary_writable.null _,
      hereditary_writable.null _]
  · -- the context of the payload is sent, so it is within them
    have hsent : Writable 29 (PyVal.built rxonDecls true (.struct context gs)) := by
      have hkept := omits_taskPayload hhead security_mem_taskPayload
        (v := .struct context gs) (by simp)
      rw [hereditary_writable.obj, structEntries, Assoc.mapVal, List.forall_mem_map] at hw
      have hpublic : isPrivate "security" = false := by decide
      refine writable_sortKeys.mp (hw ("security", .struct context gs) ?_)
      exact List.mem_filter.mpr ⟨List.mem_filter.mpr
        ⟨Assoc.mem_of_lookup hsome, by simp [hkept]⟩, by simp [hpublic]⟩
    rw [PyVal.built_struct_true, hereditary_writable.obj, Assoc.mapVal, List.forall_mem_map]
      at hsent
    rw [contextWith, hsome, signedContext, PyVal.built_struct_true, hereditary_writable.obj,
      Assoc.mapVal, List.forall_mem_map]
    intro e he
    obtain ⟨hmem, hkept⟩ := List.mem_filter.mp he
    rcases Assoc.mem_set hmem with rfl | hmem
    · exact hereditary_writable.str _ s
    · exact hsent e (List.mem_filter.mpr ⟨hmem, hkept⟩)

/-- The field `security` is not signed. -/
theorem message_of_security (hhead : head.cls = "TaskPayload") (hu : Assoc.Unique fs)
    (hfs : Unsigned fs) (hknown : PyVal.known rxonDecls (.struct head fs) = true)
    (hm : payloadMessage rt (.struct head fs) none = .ok m) :
    payloadMessage rt (withSignature (.struct head fs) s) none = .ok m := by
  have hentries : HasEntries rt (.struct head fs) _ := hasEntries_struct hu hknown
  have hentries' : HasEntries rt (withSignature (.struct head fs) s) _ :=
    hasEntries_struct (hu.set "security" (contextWith fs s))
      ((known_security hhead hfs).trans hknown)
  refine hentries.message_congr hentries' (fun k hk => ?_) (fun hw => ?_) hm
  · have hne : k ≠ "security" := by
      rintro rfl
      exact hk (by simp [unsignedFields])
    rw [lookup_structEntries hu, lookup_structEntries (hu.set _ _), Assoc.lookup_set_ne hne]
  · exact writable_structEntries_set hw fun _ => writable_context hhead hfs hw

/-- The field `sig` is signed. -/
theorem message_of_sig_ne (hhead : head.cls = "TaskPayload") (hu : Assoc.Unique fs)
    (hfs : Unsigned fs) (hknown : PyVal.known rxonDecls (.struct head fs) = true)
    (hm : payloadMessage rt (.struct head fs) none = .ok m) :
    payloadMessage rt (.struct head (Assoc.set "sig" (.str s) fs)) none ≠ .ok m := by
  have hentries : HasEntries rt (.struct head fs) _ := hasEntries_struct hu hknown
  have hentries' : HasEntries rt (.struct head (Assoc.set "sig" (.str s) fs)) _ :=
    hasEntries_struct (hu.set "sig" (.str s)) ((known_sig hfs).trans hknown)
  refine hentries.message_ne hentries' (k := "sig") (s := s) (by decide) ?_ ?_ hm
  · have hdefault : ∀ held, taskPayload.omits held "sig" .none = true := by decide +kernel
    have homits : rxonDecls.omits head "sig" .none = true := by
      rw [Decls.omits, hhead, taskPayload_lookup, Option.any_some, hdefault]
    rw [lookup_structEntries hu, hfs.sig]
    simp [homits]
  · have homits : rxonDecls.omits head "sig" (.str s) = false :=
      omits_taskPayload hhead sig_mem_taskPayload (by simp)
    have hpublic : isPrivate "sig" = false := by decide
    rw [lookup_structEntries (hu.set _ _), Assoc.lookup_set_self]
    simp [homits, hpublic, PyVal.built, Json.sortKeys]

/-- A payload signed as its text has another text once it carries a signature. -/
theorem message_of_text_ne {k : String} {v w : PyVal} (htexts : PrintsFields rt.pyStr repr)
    (hunknown : ¬ PyVal.known rxonDecls (.struct head fs) = true)
    (hunknown' : ¬ PyVal.known rxonDecls (.struct head (Assoc.set k w fs)) = true)
    (hv : fs.lookup k = some v) (h : repr w ≠ repr v)
    (hm : payloadMessage rt (.struct head fs) none = .ok m) :
    payloadMessage rt (.struct head (Assoc.set k w fs)) none ≠ .ok m := by
  intro hm'
  rw [message_of_unknown rt hunknown] at hm
  rw [message_of_unknown rt hunknown'] at hm'
  have hsame := rt.orjson.encode_inj hm' hm
  rw [Json.str.injEq, htexts.str_struct, htexts.str_struct] at hsame
  exact structText_set_ne hv h hsame

theorem repr_context_ne (htexts : PrintsFields rt.pyStr repr) {v : PyVal}
    (hfs : Unsigned fs) (hv : fs.lookup "security" = some v) :
    repr (contextWith fs s) ≠ repr v := by
  obtain hnone | ⟨context, gs, hsome, hsignature⟩ := hfs.security
  · obtain rfl := Option.some.inj (hnone.symm.trans hv)
    rw [contextWith_none hnone, freshContext, htexts.repr_struct, htexts.repr_none, structText]
    intro h
    have hchars := congrArg (fun t => t.toList.head?) h
    simp at hchars
  · obtain rfl := Option.some.inj (hsome.symm.trans hv)
    rw [contextWith, hsome, signedContext, htexts.repr_struct, htexts.repr_struct]
    refine structText_set_ne hsignature ?_
    rw [htexts.repr_none]
    exact htexts.repr_str s

end

section
variable (rt : Runtime rxonDecls) (crypto : Crypto rt.orjson.Bytes) {repr : PyVal → String}
  {head : StructHead} {fs : List (String × PyVal)} {s secret : String} {m : rt.orjson.Bytes}
  {q : PyVal} {carrier : Carrier}

/-- What carries the signature has the message of the payload, if msgspec encodes the payload
and the carrier is not `sig`. -/
theorem message_of_carries (htexts : PrintsFields rt.pyStr repr) (hhead : head.cls = "TaskPayload")
    (hu : Assoc.Unique fs) (hfs : Unsigned fs) (hq : Carries rt (.struct head fs) s carrier q)
    (hm : payloadMessage rt (.struct head fs) none = .ok m) :
    payloadMessage rt q none = .ok m ↔
      carrier ≠ .sig ∧ PyVal.known rxonDecls (.struct head fs) = true := by
  by_cases hknown : PyVal.known rxonDecls (.struct head fs) = true
  · cases hq with
    | security =>
      exact iff_of_true (message_of_security hhead hu hfs hknown hm) ⟨by decide, hknown⟩
    | entry kvs hunique hform =>
      have hform' : payloadMessage rt (.dict kvs) none = .ok m :=
        (payloadMessage_congr rt hform none).trans hm
      exact iff_of_true (message_of_entry hunique hform') ⟨by decide, hknown⟩
    | sig head fs h =>
      cases h
      exact iff_of_false (message_of_sig_ne hhead hu hfs hknown hm) fun h => h.1 rfl
  · refine iff_of_false ?_ fun h => hknown h.2
    cases hq with
    | security =>
      obtain ⟨v, hv⟩ : ∃ v, fs.lookup "security" = some v :=
        hfs.security.elim (fun h => ⟨_, h⟩) fun ⟨_, _, h, _⟩ => ⟨_, h⟩
      exact message_of_text_ne htexts hknown
        (fun h => hknown ((known_security hhead hfs).symm.trans h)) hv
        (repr_context_ne htexts hfs hv) hm
    | entry kvs hunique hform =>
      -- a text is no dict form
      obtain ⟨x, hx⟩ := toDict_of_message hm
      obtain ⟨es, hes, -⟩ := hasEntries_dict hunique (hform.trans hx)
      have hobj := (hes.toDict_eq_ok.mp (hform.trans hx)).2
      have htext := toDict_of_unknown rt hknown
      rw [hx, hobj] at htext
      cases htext
    | sig head fs h =>
      cases h
      refine message_of_text_ne htexts hknown (fun h => hknown ((known_sig hfs).symm.trans h))
        hfs.sig ?_ hm
      rw [htexts.repr_none]
      exact htexts.repr_str s

/-- **A signature verifies wherever it is carried, except in the field `sig`**, if msgspec
encodes the payload, and nowhere if it does not.  The HMAC is asked not to collide on the
messages with and without the signature. -/
theorem carried_signature_verifies_iff (htexts : PrintsFields rt.pyStr repr)
    (hhead : head.cls = "TaskPayload") (hnames : taskPayload.fieldNames = Assoc.keys fs)
    (hfs : Unsigned fs) (hs : signPayload rt crypto (.struct head fs) secret none = .ok s)
    (hq : Carries rt (.struct head fs) s carrier q)
    (hhmac : ∀ m m', payloadMessage rt (.struct head fs) none = .ok m →
      payloadMessage rt q none = .ok m' → crypto.hmac secret m = crypto.hmac secret m' → m = m') :
    verifySignature rt crypto q s secret none = .ok true ↔
      carrier ≠ .sig ∧ PyVal.known rxonDecls (.struct head fs) = true := by
  have hu : Assoc.Unique fs := by
    rw [Assoc.Unique, ← hnames]
    decide +kernel
  obtain ⟨hsecret, m, hm, rfl⟩ := signPayload_eq_ok crypto hs
  rw [← message_of_carries rt htexts hhead hu hfs hq hm]
  constructor
  · intro hv
    obtain ⟨m', hm', hmac⟩ := verifySignature_eq_true crypto hv
    rw [hhmac m m' hm hm' hmac.symm, hm']
  · exact verifySignature_of_message rt crypto hsecret

end

/-! ## Two tasks -/

section

mutual

/-- The `repr` of values made of these kinds, of texts without quotes and of the double 0. -/
def plainRepr : PyVal → String
  | .bool b => if b then "True" else "False"
  | .int i => toString i
  | .float _ => "0.0"
  | .str s => "'" ++ s ++ "'"
  | .dict kvs => "\x7b" ++ ", ".intercalate (plainEntries kvs) ++ "\x7d"
  | .struct head fs => head.cls ++ "(" ++ ", ".intercalate (plainFields fs) ++ ")"
  | .object _ => "<object object at 0x7f0000000010>"
  | _ => "None"

def plainEntries : List (String × PyVal) → List String
  | [] => []
  | (k, x) :: kvs => ("'" ++ k ++ "': " ++ plainRepr x) :: plainEntries kvs

def plainFields : List (String × PyVal) → List String
  | [] => []
  | (k, x) :: fs => (k ++ "=" ++ plainRepr x) :: plainFields fs

end

theorem plainRepr_struct (head : StructHead) (fs : List (String × PyVal)) :
    plainRepr (.struct head fs) = structText plainRepr head fs := by
  rw [plainRepr, structText, List.eq_map_of_cons (f := plainFields) rfl fun _ _ => rfl]

theorem plainRepr_str (s : String) : plainRepr (.str s) ≠ "None" := by
  intro h
  have hchars := congrArg (fun t => t.toList.head?) h
  simp [plainRepr] at hchars

def Runtime.showing : Runtime rxonDecls := { Runtime.messages with pyStr := plainRepr }

theorem printsFields_plainRepr : PrintsFields Runtime.showing.pyStr plainRepr :=
  ⟨plainRepr_struct, plainRepr_struct, rfl, plainRepr_str⟩

/-- A task with an object of its own among the params, which msgspec does not encode. -/
def objectTask : PyVal := .struct ⟨"TaskPayload", ["priority"]⟩
  [("job_id", .str "j"), ("task_id", .str "t"), ("type", .str "x"),
   ("params", .dict [("f", .object 1)]), ("tracing_context", .none), ("params_metadata", .none),
   ("priority", .float (.finite .zero)), ("deadline", .none), ("security", .none),
   ("metadata", .none), ("timestamp", .none), ("policy", .none), ("sig", .none),
   ("step", .int 7), ("depth", .int 0), ("parent_hash", .none)]

/-- The HMACs with the key `k` of a minimal task and of the same task with this signature
in its field `sig`; and of the text of a task with an object in it, without a signature
and with it. -/
def Crypto.carried : Crypto Json :=
  Crypto.reference Json
    (fun _ message => match message with
      | .obj [_, ("sig", _), _, _, _] =>
        "ed18b75823afe311b1bc950f485cef75cf33f6c18fc7ebc0b6470ecf872e9e06"
      | .str text =>
        if text = plainRepr objectTask then
          "5e30b3bfa40037bcb61cdf43e3308c882a93739ed2f926eece8a2400ff761015"
        else "d6f9c27ca28a97b2ffff107bdafe94c4f0f46446331dcb9484de6fe380624520"
      | _ => "6585c91ce5021b0524a9fcc36e72cbae5692879cd8f4496fe0f73e642bd481ce")
    (fun _ _ => by split <;> (try split) <;> decide)
    (fun _ _ => by split <;> (try split) <;> decide)

def carriedSignature : String :=
  "6585c91ce5021b0524a9fcc36e72cbae5692879cd8f4496fe0f73e642bd481ce"

def objectSignature : String :=
  "5e30b3bfa40037bcb61cdf43e3308c882a93739ed2f926eece8a2400ff761015"

theorem signPayload_carried :
    signPayload Runtime.showing Crypto.carried (stepTask 7 .none) "k" none =
      .ok carriedSignature := by
  decide +kernel

theorem signPayload_object :
    signPayload Runtime.showing Crypto.carried objectTask "k" none = .ok objectSignature := by
  decide +kernel

/-- Two payloads that sign differently have messages with different HMACs. -/
theorem eq_of_signatures_ne {p q : PyVal} {s t : String} {m m' : Json}
    (hp : signPayload Runtime.showing Crypto.carried p "k" none = .ok s)
    (hq : signPayload Runtime.showing Crypto.carried q "k" none = .ok t) (hne : s ≠ t)
    (hm : payloadMessage Runtime.showing p none = .ok m)
    (hm' : payloadMessage Runtime.showing q none = .ok m')
    (hmac : Crypto.carried.hmac "k" m = Crypto.carried.hmac "k" m') : m = m' := by
  have hsecret : "k" ≠ "" := by decide
  have hsigned := signPayload_of_message Runtime.showing Crypto.carried hsecret hm
  have hsigned' := signPayload_of_message Runtime.showing Crypto.carried hsecret hm'
  rw [hsigned] at hp
  rw [hsigned', ← hmac] at hq
  exact absurd (Except.ok.inj (hp.symm.trans hq)) hne

/-- The minimal task verifies from `security.signature`, the task with an object in it does
not. -/
theorem carried_signature_verifies_iff_security :
    verifySignature Runtime.showing Crypto.carried
        (withSignature (stepTask 7 .none) carriedSignature) carriedSignature "k" none = .ok true ∧
      verifySignature Runtime.showing Crypto.carried
        (withSignature objectTask objectSignature) objectSignature "k" none ≠ .ok true := by
  have hunsigned : ∀ fs : List (String × PyVal), fs.lookup "sig" = some .none →
      fs.lookup "security" = some .none → Unsigned fs := fun fs h h' => ⟨h, .inl h'⟩
  constructor
  · refine (carried_signature_verifies_iff Runtime.showing Crypto.carried printsFields_plainRepr rfl
      (by rfl) (hunsigned _ rfl rfl) signPayload_carried .security fun m m' hm hm' _ => ?_).mpr
        ⟨by decide, by decide +kernel⟩
    -- the two messages are the same
    have hmessage := message_of_security (s := carriedSignature) rfl (by decide)
      (hunsigned _ rfl rfl) (by decide +kernel) hm
    exact Except.ok.inj (hmessage.symm.trans hm')
  · have hother : signPayload Runtime.showing Crypto.carried
        (withSignature objectTask objectSignature) "k" none =
          .ok "d6f9c27ca28a97b2ffff107bdafe94c4f0f46446331dcb9484de6fe380624520" := by
      decide +kernel
    have hiff : verifySignature Runtime.showing Crypto.carried
        (withSignature objectTask objectSignature) objectSignature "k" none = .ok true ↔
          Carrier.security ≠ .sig ∧ PyVal.known rxonDecls objectTask = true :=
      carried_signature_verifies_iff Runtime.showing Crypto.carried printsFields_plainRepr rfl
        (by rfl) (hunsigned _ rfl rfl) signPayload_object .security fun m m' hm hm' =>
          eq_of_signatures_ne signPayload_object hother (by decide) hm hm'
    exact fun h => absurd (hiff.mp h).2 (by decide +kernel)

/-- With its own signature in `sig` the task has another message. -/
theorem signature_in_sig_fails :
    HasType rxonDecls (.cls "TaskPayload") (stepTask 7 .none) ∧
    signPayload Runtime.showing Crypto.carried (stepTask 7 .none) "k" none =
      .ok carriedSignature ∧
    ∃ q, Carries Runtime.showing (stepTask 7 .none) carriedSignature .sig q ∧
      verifySignature Runtime.showing Crypto.carried q carriedSignature "k" none = .ok false :=
  ⟨hasType_stepTask 7, signPayload_carried, _, .sig _ _ rfl, by decide +kernel⟩

end

end Rxon
