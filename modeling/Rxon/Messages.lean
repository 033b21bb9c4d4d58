import Rxon.RoundTrip
import Rxon.Signing

/-! # Signed messages on the wire

The sender signs a message, attaches the signature and sends the text; the receiver
restores the message and verifies it.  What the receiver holds normalizes to what
was signed (`signed_message_verifies`).  A message that was signed as a plain dict
survives exactly when the dict is faithful to the message type, whichever of its values
are objects of the classes (`dict_message_verifies_iff`). -/

namespace Rxon
open Json (canon)

/-- The Structs that carry a `security` field. -/
def messageTypes : List String :=
  ["WorkerRegistration", "Heartbeat", "TaskPayload", "TaskResult", "WorkerEventPayload"]

/-- `SecurityContext(signature=signature)`. -/
def freshContext (signature : String) : PyVal :=
  .struct ⟨"SecurityContext", []⟩ [("signature", .str signature), ("signer_id", .none),
    ("identity_chain", .none), ("metadata", .none)]

/-- `security` with the signature put in. -/
def signedContext (security : Option PyVal) (signature : String) : PyVal :=
  match security with
  | some (.struct head fields) => .struct head (Assoc.set "signature" (.str signature) fields)
  | _ => freshContext signature

/-- The message with `security.signature` set. -/
def withSignature (m : PyVal) (signature : String) : PyVal :=
  match m with
  | .struct head fields =>
    .struct head
      (Assoc.set "security" (signedContext (fields.lookup "security") signature) fields)
  | m => m

section
variable {D : Decls} (rt : Runtime D) (crypto : Crypto rt.orjson.Bytes) {c : String} {S : Sharing}

/-- The message depends on the normal form only. -/
theorem payloadMessage_congr {v w : PyVal} (h : toDict rt v 0 = toDict rt w 0)
    (ig : Option (List String)) : payloadMessage rt v ig = payloadMessage rt w ig := by
  rw [payloadMessage, payloadMessage, h]

/-- A signature verifies on the payload it was made for. -/
theorem verifySignature_of_message {v : PyVal} {secret : String} {ig : Option (List String)}
    {m : rt.orjson.Bytes} (hs : secret ≠ "") (h : payloadMessage rt v ig = .ok m) :
    verifySignature rt crypto v (crypto.hmac secret m) secret ig = .ok true := by
  rw [verifySignature, if_neg (by simp [hs, crypto.hmac_ne]),
    signPayload_of_message rt crypto hs h]
  change compareDigest (crypto.hmac secret m) (crypto.hmac secret m) = .ok true
  rw [compareDigest, crypto.hmac_ascii, Bool.and_self, if_pos rfl, beq_self_eq_true]

/-- The instances of a message class, as far as `to_dict` is concerned. -/
theorem toDict_instance (hD : D.wire = true) {v : PyVal} {b : Bool} {fields : List FieldDecl}
    {head : StructHead} {fs : List (String × PyVal)} {x : Json} (hv : v = .struct head fs)
    (hdecl : D.lookup c = some ⟨.struct b, fields⟩)
    (hnames : fields.map FieldDecl.name = Assoc.keys fs) (hw : v.Wire) (hwf : (v.tree D).WF) :
    toDict rt v 0 = .ok x ↔
      (v.tree D).IntsFit ∧ (v.tree D).keptDepth ≤ maxRecursionDepth ∧ x = canon (v.tree D) := by
  subst hv
  refine toDict_struct rt hw (fun e he => ?_) hwf
  have hmem : e.1 ∈ fields.map FieldDecl.name := hnames ▸ Assoc.mem_keys_of_mem he
  obtain ⟨f, hf, hfe⟩ := List.mem_map.mp hmem
  exact hfe ▸ (FieldDecl.wire_iff.mp ((Decls.wire_lookup hD hdecl).2.2 f hf)).1

theorem toDict_of_hasType (hD : D.wire = true) {v : PyVal} {x : Json}
    (h : HasType D (.cls c) v) :
    toDict rt v 0 = .ok x ↔
      (v.tree D).IntsFit ∧ (v.tree D).keptDepth ≤ maxRecursionDepth ∧ x = canon (v.tree D) := by
  have hr := h.restores hD rfl
  cases h with
  | struct c head _ b fields fs hdecl hnames _ =>
    exact toDict_instance rt hD rfl hdecl hnames hr.wire hr.wf
  | dataclass c fields fs hdecl _ _ => cases (Decls.wire_lookup hD hdecl).1

theorem toDict_of_reads (hD : D.wire = true) {d : Json} {v : PyVal} {x : Json} (hd : d.WF)
    (h : Reads D S (.cls c) d v) :
    toDict rt v 0 = .ok x ↔
      (v.tree D).IntsFit ∧ (v.tree D).keptDepth ≤ maxRecursionDepth ∧ x = canon (v.tree D) := by
  have hw := h.wire hD
  have hwf := h.wf_tree hD hd
  cases h with
  | struct c b fields kvs fs hdecl hnames _ _ =>
    exact toDict_instance rt hD rfl hdecl hnames hw hwf

/-- `to_dict` of what was restored from a faithful document is its normal form. -/
theorem toDict_restored (hD : D.wire = true) {d : Json} {v : PyVal} (hd : d.WF)
    (h : Reads D S (.cls c) d v) (hf : Json.Faithful D S d (.cls c))
    (hi : (canon d).IntsFit) (hdepth : d.keptDepth ≤ maxRecursionDepth) :
    toDict rt v 0 = .ok (canon d) := by
  have hsame := (canon_tree_iff hD hd rfl h).mpr hf
  rw [← hsame] at hi
  rw [← Json.keptDepth_canon, ← hsame, Json.keptDepth_canon] at hdepth
  rw [toDict_of_reads rt hD hd h]
  exact ⟨(Json.intsFit_canon.mp hi).1, hdepth, hsame.symm⟩

/-- An object and the Struct restored from it normalize and sign alike exactly when
the object is faithful to the class. -/
theorem dict_restored_iff (hD : D.wire = true) {kvs : List (String × Json)}
    (hd : Signable (.obj kvs)) {m : PyVal} (hm : fromDict rt c (Json.obj kvs).toPy S = .ok m) :
    (toDict rt m 0 = toDict rt (Json.obj kvs).toPy 0 ∧
      ∀ secret, secret ≠ "" → ∃ s, signPayload rt crypto (Json.obj kvs).toPy secret none = .ok s ∧
        verifySignature rt crypto m s secret none = .ok true) ↔
      Json.Faithful D S (.obj kvs) (.cls c) := by
  have hreads := rt.msgspec.convert_sound _ _ _ _ ((fromDict_obj rt).mp hm)
  have hdict := toDict_ok rt hd.wf hd.ints hd.depth
  constructor
  · rintro ⟨h, -⟩
    rw [hdict] at h
    rw [← canon_tree_iff hD hd.wf rfl hreads]
    exact ((toDict_of_reads rt hD hd.wf hreads).mp h).2.2.symm
  · intro h
    have hsame : toDict rt m 0 = toDict rt (Json.obj kvs).toPy 0 := by
      rw [hdict]
      exact toDict_restored rt hD hd.wf hreads h (Json.intsFit_canon.mpr ⟨hd.ints, hd.floats⟩)
        hd.depth
    refine ⟨hsame, fun secret hs => ?_⟩
    obtain ⟨msg, hmsg⟩ := payloadMessage_isOk rt hd none
    exact ⟨_, signPayload_of_message rt crypto hs hmsg,
      verifySignature_of_message rt crypto hs ((payloadMessage_congr rt hsame none).trans hmsg)⟩

end

/-! ## Attaching the signature -/

section
variable {D : Decls} {c : String} {head : StructHead} {n : Nat}

/-- The limits of a document nested `n` levels above the depth limit. -/
structure Within (n : Nat) (j : Json) : Prop where
  ints : j.IntsFit
  floats : j.FloatsFit
  depth : j.keptDepth ≤ n

/-- The limits that writing alone asks for. -/
structure Writable (n : Nat) (j : Json) : Prop where
  ints : j.IntsFit
  depth : j.keptDepth ≤ n

/-- A limit for every level of nesting, which an object keeps when its entries keep that
of the next level. -/
structure Hereditary (limit : Nat → Json → Prop) : Prop where
  obj : ∀ (n : Nat) (kvs : List (String × Json)),
    limit (n + 1) (.obj kvs) ↔ ∀ e ∈ kvs, limit n e.2
  str : ∀ n s, limit n (.str s)
  null : ∀ n, limit n .null

theorem hereditary_writable : Hereditary Writable where
  obj n kvs := by
    have hdepth : 0 + (Json.obj kvs).keptDepth ≤ n + 1 ↔ _ :=
      Json.keptDepth_obj_le (Nat.zero_le (n + 1))
    rw [Nat.zero_add] at hdepth
    constructor
    · rintro ⟨hi, hd⟩ e he
      refine ⟨Json.intsFit_obj.mp hi e he, ?_⟩
      cases hn : e.2.isNull with
      | true => rw [Json.isNull_iff.mp hn]; exact Nat.zero_le n
      | false => have := hdepth.mp hd e he hn; omega
    · intro h
      refine ⟨Json.intsFit_obj.mpr fun e he => (h e he).ints, hdepth.mpr fun e he _ => ?_⟩
      have := (h e he).depth
      omega
  str n s := ⟨by simp [Json.IntsFit, Json.All, Json.nodes], Nat.zero_le n⟩
  null n := ⟨Json.intsFit_of_isNull rfl, Nat.zero_le n⟩

theorem within_iff {j : Json} : Within n j ↔ Writable n j ∧ j.FloatsFit :=
  ⟨fun h => ⟨⟨h.ints, h.depth⟩, h.floats⟩, fun h => ⟨h.1.ints, h.2, h.1.depth⟩⟩

theorem hereditary_within : Hereditary Within where
  obj n kvs := by
    simp only [within_iff, hereditary_writable.obj, Json.floatsFit_obj, ← forall₂_and]
  str n s := within_iff.mpr
    ⟨hereditary_writable.str n s, by simp [Json.FloatsFit, Json.All, Json.nodes]⟩
  null n := within_iff.mpr ⟨hereditary_writable.null n, Json.floatsFit_of_isNull rfl⟩

/-- Setting a field keeps a limit. -/
theorem Hereditary.set {limit : Nat → Json → Prop} (hlimit : Hereditary limit)
    {fs : List (String × PyVal)} {k : String} {v : PyVal}
    (h : limit (n + 1) ((PyVal.struct head fs).tree D)) (hv : limit n (v.tree D)) :
    limit (n + 1) ((PyVal.struct head (Assoc.set k v fs)).tree D) := by
  rw [PyVal.tree_struct, hlimit.obj, Assoc.mapVal, List.forall_mem_map] at h ⊢
  intro e he
  obtain ⟨hmem, hkeep⟩ := List.mem_filter.mp he
  rcases Assoc.mem_set hmem with rfl | hmem
  · exact hv
  · exact h e (List.mem_filter.mpr ⟨hmem, hkeep⟩)

/-- Setting a field to a value of its type keeps the type. -/
theorem hasType_set (hD : D.wire = true) {b : Bool} {fields : List FieldDecl}
    {fs : List (String × PyVal)} {f : FieldDecl} {v : PyVal}
    (hdecl : D.lookup c = some ⟨.struct b, fields⟩) (hf : f ∈ fields)
    (h : HasType D (.cls c) (.struct head fs)) (hv : HasType D f.type v) :
    HasType D (.cls c) (.struct head (Assoc.set f.name v fs)) := by
  cases h with
  | struct _ _ hhead b' fields' _ hdecl' hnames hall =>
    rw [hdecl] at hdecl'
    cases hdecl'
    have hnodup := (Decls.wire_lookup hD hdecl).2.1
    have hkeys : Assoc.keys (Assoc.set f.name v fs) = Assoc.keys fs :=
      Assoc.keys_set (hnames ▸ List.mem_map_of_mem hf) v
    refine .struct c head hhead b fields _ hdecl (hnames.trans hkeys.symm) fun p hp => ?_
    rcases Assoc.mem_zip_set hp with hpv | hp'
    · have hname : f.name = p.1.name := by
        rw [← FieldDecl.name_eq_of_mem_zip (hnames.trans hkeys.symm) hp, hpv]
      have hpf : p.1 = f := List.inj_on_of_nodup_map hnodup (List.of_mem_zip hp).1 hf hname.symm
      rw [hpf, hpv]
      exact hv
    · exact hall p hp'

end

/-- Every message class declares `security: SecurityContext | None = None`. -/
theorem messageTypes_security {T : String} (hT : T ∈ messageTypes) :
    ∃ fields, rxonDecls.lookup T = some ⟨.struct true, fields⟩ ∧
      ⟨"security", .optional (.cls "SecurityContext"), .value .none⟩ ∈ fields := by
  simp only [messageTypes, List.mem_cons, List.not_mem_nil, or_false] at hT
  rcases hT with rfl | rfl | rfl | rfl | rfl <;>
  exact ⟨_, rfl, by simp⟩

theorem securityContext_lookup :
    rxonDecls.lookup "SecurityContext" = some ⟨.struct true,
      [⟨"signature", .optional .str, .value .none⟩, ⟨"signer_id", .optional .str, .value .none⟩,
       ⟨"identity_chain", .optional (.list .str), .value .none⟩,
       ⟨"metadata", .optional (.dict .any), .value .none⟩]⟩ := rfl

theorem hasType_optional {D : Decls} {t : Ty} {v : PyVal} (h : HasType D t v) :
    HasType D t.optional v := .union t _ v List.mem_cons_self h

theorem hasType_optional_none {D : Decls} {t : Ty} : HasType D t.optional .none :=
  .union .none _ _ (List.mem_cons_of_mem t List.mem_cons_self) .none

/-- The context a message without one gets. -/
theorem hasType_freshContext (s : String) :
    HasType rxonDecls (.cls "SecurityContext") (freshContext s) := by
  refine .struct "SecurityContext" _ rfl true _ _ securityContext_lookup rfl ?_
  simp only [List.zip_cons_cons, List.zip_nil_right, List.forall_mem_cons]
  exact ⟨hasType_optional (.str s), hasType_optional_none, hasType_optional_none,
    hasType_optional_none, nofun⟩

theorem Hereditary.freshContext {limit : Nat → Json → Prop} (hlimit : Hereditary limit)
    (s : String) (n : Nat) : limit (n + 1) ((freshContext s).tree rxonDecls) := by
  rw [Rxon.freshContext, PyVal.tree_struct, hlimit.obj, Assoc.mapVal, List.forall_mem_map]
  intro e he
  have hmem := List.mem_of_mem_filter he
  simp only [List.mem_cons, List.not_mem_nil, or_false] at hmem
  rcases hmem with rfl | rfl | rfl | rfl
  exacts [hlimit.str n s, hlimit.null n, hlimit.null n, hlimit.null n]

/-- The field of a message instance that holds its security context. -/
theorem security_cases {T : String} {head : StructHead} {fs : List (String × PyVal)}
    (hT : T ∈ messageTypes) (h : HasType rxonDecls (.cls T) (.struct head fs)) :
    fs.lookup "security" = some .none ∨ ∃ context sfs,
      fs.lookup "security" = some (.struct context sfs) ∧
      HasType rxonDecls (.cls "SecurityContext") (.struct context sfs) := by
  obtain ⟨fields, hdecl, hf⟩ := messageTypes_security hT
  cases h with
  | struct _ _ _ b' fields' _ hdecl' hnames hall =>
    rw [hdecl] at hdecl'
    cases hdecl'
    obtain ⟨⟨k, x⟩, hx⟩ := FieldDecl.exists_mem_zip hnames hf
    have hlook := FieldDecl.lookup_of_mem_zip hnames
      (Decls.wire_lookup rxonDecls_wire hdecl).2.1 hx
    have htype : HasType rxonDecls (.optional (.cls "SecurityContext")) x := hall _ hx
    rw [hlook]
    cases htype with
    | union t _ _ ht h =>
      rcases List.mem_cons.mp ht with rfl | ht
      · right
        cases h with
        | struct _ context hc b fields fs hd hn ha =>
          exact ⟨context, fs, rfl, .struct _ context hc b fields fs hd hn ha⟩
        | dataclass _ fields fs hd hn ha =>
          cases (Decls.wire_lookup rxonDecls_wire hd).1
      · obtain rfl := List.mem_singleton.mp ht
        cases h
        exact Or.inl rfl

/-- The signed message is well typed and within the limits of the message. -/
theorem hasType_withSignature {T : String} {m : PyVal} (hT : T ∈ messageTypes)
    (h : HasType rxonDecls (.cls T) m) (s : String) :
    HasType rxonDecls (.cls T) (withSignature m s) := by
  obtain ⟨fields, hdecl, hf⟩ := messageTypes_security hT
  have hm := h
  cases h with
  | struct _ head hhead b' fields' fs hdecl' hnames hall =>
    refine hasType_set rxonDecls_wire hdecl hf hm (hasType_optional ?_)
    obtain hx | ⟨context, sfs, hx, hs⟩ := security_cases hT hm
    · rw [hx]
      exact hasType_freshContext s
    · rw [hx]
      exact hasType_set rxonDecls_wire securityContext_lookup List.mem_cons_self hs
        (hasType_optional (.str s))
  | dataclass _ fields fs hd _ _ => cases (Decls.wire_lookup rxonDecls_wire hd).1

theorem Hereditary.withSignature {limit : Nat → Json → Prop} (hlimit : Hereditary limit)
    {T : String} {m : PyVal} {n : Nat} (hT : T ∈ messageTypes)
    (h : HasType rxonDecls (.cls T) m) (s : String) (hw : limit (n + 2) (m.tree rxonDecls)) :
    limit (n + 2) ((withSignature m s).tree rxonDecls) := by
  obtain ⟨fields, hdecl, hf⟩ := messageTypes_security hT
  have hm := h
  cases h with
  | struct _ head hhead b' fields' fs hdecl' hnames hall =>
    refine hlimit.set hw ?_
    obtain hx | ⟨context, sfs, hx, hs⟩ := security_cases hT hm
    · rw [hx]
      exact hlimit.freshContext s n
    · rw [hx]
      refine hlimit.set ?_ (hlimit.str n s)
      -- a context that is there is not the default, so it is sent
      have hkeep : rxonDecls.omits head "security" (.struct context sfs) = false :=
        Decls.omits_optional rxonDecls_wire (hhead ▸ hdecl) hf (by simp)
      rw [PyVal.tree_struct, hlimit.obj, Assoc.mapVal, List.forall_mem_map] at hw
      exact hw _ (List.mem_filter.mpr ⟨Assoc.mem_of_lookup hx, by simp [hkeep]⟩)
  | dataclass _ fields fs hd _ _ => cases (Decls.wire_lookup rxonDecls_wire hd).1

/-- What is signed of a message does not see its security context. -/
theorem signedPart_set {D : Decls} {c : StructHead} {fs : List (String × PyVal)} (v : PyVal)
    (ig : Option (List String)) (hu : Assoc.Unique fs) (hk : "security" ∈ Assoc.keys fs) :
    canon (signedPart ig ((PyVal.struct c (Assoc.set "security" v fs)).tree D)) =
      canon (signedPart ig ((PyVal.struct c fs).tree D)) := by
  have hu' : Assoc.Unique (Assoc.set "security" v fs) := by
    rwa [Assoc.Unique, Assoc.keys_set hk]
  rw [PyVal.tree_struct, PyVal.tree_struct, signedPart, signedPart, Json.canon_obj_eq_iff
    ((Decls.unique_kept hu').sublist (Assoc.popAll_sublist _ _))
    ((Decls.unique_kept hu).sublist (Assoc.popAll_sublist _ _))]
  intro k
  rw [Assoc.lookup_popAll, Assoc.lookup_popAll, Decls.lookup_kept hu', Decls.lookup_kept hu]
  by_cases hks : k = "security"
  · rw [if_pos (by simp [unsignedFields, hks]), if_pos (by simp [unsignedFields, hks])]
  · rw [Assoc.lookup_set_ne hks]

theorem signedPart_withSignature {T : String} {m : PyVal} (hT : T ∈ messageTypes)
    (h : HasType rxonDecls (.cls T) m) (s : String) (ig : Option (List String)) :
    canon (signedPart ig ((withSignature m s).tree rxonDecls)) =
      canon (signedPart ig (m.tree rxonDecls)) := by
  obtain ⟨fields, hdecl, hf⟩ := messageTypes_security hT
  cases h with
  | struct _ head hhead b' fields' fs hdecl' hnames hall =>
    rw [hdecl] at hdecl'
    cases hdecl'
    refine signedPart_set _ ig ?_ (hnames ▸ List.mem_map_of_mem hf)
    rw [Assoc.Unique, ← hnames]
    exact (Decls.wire_lookup rxonDecls_wire hdecl).2.1
  | dataclass _ fields fs hd _ _ => cases (Decls.wire_lookup rxonDecls_wire hd).1

section
variable (rt : Runtime rxonDecls) (crypto : Crypto rt.orjson.Bytes)

/-- **Sign, attach, send, restore, verify.**  For a well-typed message within the
limits, the text of the signed message restores to a message with the same normal
form, and the signature verifies on it. -/
theorem signed_message_verifies {T : String} {m : PyVal} (hT : T ∈ messageTypes)
    (hm : HasType rxonDecls (.cls T) m) (hi : (m.tree rxonDecls).IntsFit)
    (hf : (m.tree rxonDecls).FloatsFit) (hd : (m.tree rxonDecls).keptDepth ≤ maxRecursionDepth)
    {secret : String} (hs : secret ≠ "") :
    ∃ s, signPayload rt crypto m secret none = .ok s ∧
    ∃ text, jsonDumps rt (withSignature m s) = .ok text ∧
    ∃ data, rt.orjson.loads text = .ok data ∧
    ∃ restored, fromDict rt T data.toPy = .ok restored ∧
    (∃ dict, toDict rt restored 0 = .ok dict ∧ toDict rt (withSignature m s) 0 = .ok dict) ∧
    verifySignature rt crypto restored s secret none = .ok true := by
  have hr := hm.restores rxonDecls_wire rfl
  have hdict : toDict rt m 0 = .ok (canon (m.tree rxonDecls)) :=
    (toDict_of_hasType rt rxonDecls_wire hm).mpr ⟨hi, hd, rfl⟩
  have hpart := payloadMessage_of_toDict rt none hr.wf hdict
  obtain ⟨-, hpi, hpd⟩ := Signable.signedPart ⟨hr.wf, hi, hf, hd⟩ none
  obtain ⟨msg, hmsg⟩ := (encode_isOk_iff rt hpd).mpr hpi
  refine ⟨_, signPayload_of_message rt crypto hs (hpart.trans hmsg), ?_⟩
  generalize hsig : crypto.hmac secret msg = s
  -- the signed message: well typed, within the limits, and restored from its text
  have hm' := hasType_withSignature hT hm s
  have hr' := hm'.restores rxonDecls_wire rfl
  obtain ⟨hi', hf', hd'⟩ := hereditary_within.withSignature (n := 28) hT hm s ⟨hi, hf, hd⟩
  have hdict' : toDict rt (withSignature m s) 0 =
      .ok (canon ((withSignature m s).tree rxonDecls)) :=
    (toDict_of_hasType rt rxonDecls_wire hm').mpr ⟨hi', hd', rfl⟩
  have hpart' := signedPart_withSignature hT hm s none
  generalize withSignature m s = m' at hr' hi' hf' hd' hdict' hpart' ⊢
  have hcd : (canon (m'.tree rxonDecls)).keptDepth ≤ maxRecursionDepth := by
    rwa [Json.keptDepth_canon]
  have hci : (canon (m'.tree rxonDecls)).IntsFit := Json.intsFit_canon.mpr ⟨hi', hf'⟩
  obtain ⟨text, htext⟩ := encode_canon_isOk rt ⟨hr'.wf, hi', hf', hd'⟩
  obtain ⟨r, hr⟩ := hr'.readable
  obtain ⟨restored, hconv⟩ := rt.msgspec.convert_complete _ _ _ r hr
  have hreads := rt.msgspec.convert_sound _ _ _ _ hconv
  obtain ⟨kvs, hobj⟩ := hreads.exists_obj
  have hrestored : toDict rt restored 0 = .ok (canon (m'.tree rxonDecls)) := by
    rw [toDict_restored rt rxonDecls_wire (Json.wf_canon hr'.wf) hreads hr'.faithful
      (by rwa [Json.canon_canon hr'.wf]) hcd, Json.canon_canon hr'.wf]
  -- the same normal form is signed and restored
  refine ⟨text, (jsonDumps_of_toDict rt hdict').trans htext, _, rt.orjson.loads_encode _ _ htext,
    restored, ?_, ⟨_, hrestored, hdict'⟩, ?_⟩
  · rw [hobj] at hconv ⊢
    exact (fromDict_obj rt).mpr hconv
  · rw [← hsig]
    refine verifySignature_of_message rt crypto hs ?_
    rw [payloadMessage_of_toDict rt none hr'.wf hrestored, hpart', hmsg]

/-- **A message signed as a plain dict verifies as the restored Struct exactly when
the dict is faithful to the message type**: at no Struct-typed position of `T` does
it give an undeclared field, or a field its default by the very object that the class
keeps; of a boolean or a small integer there is one object only, and `S` says at which
other places the dict shares a default with its class. -/
theorem dict_message_verifies_iff {T : String} {kvs : List (String × Json)} {S : Sharing}
    (hd : Signable (.obj kvs)) {m : PyVal} (hm : fromDict rt T (Json.obj kvs).toPy S = .ok m) :
    (toDict rt m 0 = toDict rt (Json.obj kvs).toPy 0 ∧
      ∀ secret, secret ≠ "" → ∃ s, signPayload rt crypto (Json.obj kvs).toPy secret none = .ok s ∧
        verifySignature rt crypto m s secret none = .ok true) ↔
      Json.Faithful rxonDecls S (.obj kvs) (.cls T) :=
  dict_restored_iff rt crypto rxonDecls_wire hd hm

end

/-! ## Two TaskPayloads -/

/-- HMAC with the key `k` of `{"job_id":"j","step":0,"task_id":"t","type":"x"}`, of the same
object with the step 7, and of it without the step. -/
def Crypto.stepped : Crypto Json :=
  Crypto.reference Json
    (fun _ message => match message with
      | .obj [_, ("step", .int 0), _, _] =>
        "62ab904e7e2c18d7e49da4650eeb560f372ae60914a3bb71ba850069389c0f90"
      | .obj [_, ("step", .int 7), _, _] =>
        "6585c91ce5021b0524a9fcc36e72cbae5692879cd8f4496fe0f73e642bd481ce"
      | _ => "576e1f29b03d5d1d59cbda63159e7da2be2a1e5af03a1cd6dec896c6bb30081a")
    (fun _ _ => by split <;> decide) (fun _ _ => by split <;> decide)

def Runtime.messages : Runtime rxonDecls := Runtime.reference rxonDecls fun _ => "0"

/-- A TaskPayload made with the given step and security context only. -/
def stepTask (step : Int) (security : PyVal) : PyVal := .struct ⟨"TaskPayload", ["priority"]⟩
  [("job_id", .str "j"), ("task_id", .str "t"), ("type", .str "x"), ("params", .none),
   ("tracing_context", .none), ("params_metadata", .none), ("priority", .float (.finite .zero)),
   ("deadline", .none), ("security", security), ("metadata", .none), ("timestamp", .none),
   ("policy", .none), ("sig", .none), ("step", .int step), ("depth", .int 0),
   ("parent_hash", .none)]

theorem hasType_stepTask (step : Int) :
    HasType rxonDecls (.cls "TaskPayload") (stepTask step .none) := by
  refine .struct "TaskPayload" _ rfl true _ _ rfl rfl ?_
  simp only [List.zip_cons_cons, List.zip_nil_right, List.forall_mem_cons]
  exact ⟨.str _, .str _, .str _, hasType_optional_none, hasType_optional_none,
    hasType_optional_none, .float _, hasType_optional_none, hasType_optional_none,
    hasType_optional_none, hasType_optional_none, hasType_optional_none, hasType_optional_none,
    .int step, .int 0, hasType_optional_none, nofun⟩

theorem signed_message_verifies_task :
    ∃ s, signPayload Runtime.messages Crypto.stepped (stepTask 7 .none) "k" none = .ok s ∧
    ∃ text, jsonDumps Runtime.messages (withSignature (stepTask 7 .none) s) = .ok text ∧
    ∃ data, Runtime.messages.orjson.loads text = .ok data ∧
    ∃ restored, fromDict Runtime.messages "TaskPayload" data.toPy = .ok restored ∧
    (∃ dict, toDict Runtime.messages restored 0 = .ok dict ∧
      toDict Runtime.messages (withSignature (stepTask 7 .none) s) 0 = .ok dict) ∧
    verifySignature Runtime.messages Crypto.stepped restored s "k" none = .ok true :=
  signed_message_verifies Runtime.messages Crypto.stepped (by decide) (hasType_stepTask 7)
    (by decide +kernel) (by decide +kernel) (by decide +kernel) (by decide)

/-- A TaskPayload as a dict, with the given further entries. -/
def taskDict (entries : List (String × Json)) : Json :=
  .obj ([("job_id", .str "j"), ("task_id", .str "t"), ("type", .str "x")] ++ entries)

/-- A default given in the dict is kept when it is another object than the class's. -/
theorem dict_message_verifies_iff_priority :
    let d := taskDict [("priority", .float .zero), ("step", .int 7)]
    ∃ m, fromDict Runtime.messages "TaskPayload" d.toPy = .ok m ∧
      toDict Runtime.messages m 0 = toDict Runtime.messages d.toPy 0 ∧
      ∃ s, signPayload Runtime.messages Crypto.stepped d.toPy "k" none = .ok s ∧
        verifySignature Runtime.messages Crypto.stepped m s "k" none = .ok true := by
  suffices h : Json.Faithful rxonDecls .none
      (taskDict [("priority", .float .zero), ("step", .int 7)]) (.cls "TaskPayload") by
    obtain ⟨hdict, hverifies⟩ := (dict_message_verifies_iff Runtime.messages Crypto.stepped
      (by decide +kernel) rfl).mpr h
    exact ⟨_, rfl, hdict, hverifies "k" (by decide)⟩
  refine ⟨nofun, fun c d hc hd => ?_⟩
  cases hc
  cases hd
  exact ⟨fun _ => ⟨_, rfl, trivial, nofun⟩, fun _ => ⟨_, rfl, trivial, nofun⟩,
    fun _ => ⟨_, rfl, trivial, nofun⟩,
    fun _ => ⟨_, rfl, trivial, fun w hw _ => by cases hw; rfl⟩,
    fun _ => ⟨_, rfl, nofun, fun w hw => by cases hw; decide⟩, trivial⟩

/-- A step given as 0 is signed in the dict and left out of the Struct, and so is a
priority given by the object that the class keeps. -/
theorem dict_message_default_given :
    (∃ m, fromDict Runtime.messages "TaskPayload" (taskDict [("step", .int 0)]).toPy = .ok m ∧
      toDict Runtime.messages m 0 ≠
        toDict Runtime.messages (taskDict [("step", .int 0)]).toPy 0 ∧
      ∃ s, signPayload Runtime.messages Crypto.stepped
          (taskDict [("step", .int 0)]).toPy "k" none = .ok s ∧
        verifySignature Runtime.messages Crypto.stepped m s "k" none = .ok false) ∧
    ∃ m, fromDict Runtime.messages "TaskPayload" (taskDict [("priority", .float .zero)]).toPy
        (fun path => path = [.key "priority"]) = .ok m ∧
      toDict Runtime.messages m 0 ≠
        toDict Runtime.messages (taskDict [("priority", .float .zero)]).toPy 0 :=
  ⟨⟨_, rfl, by decide +kernel, _, rfl, by decide +kernel⟩, _, rfl, by decide +kernel⟩

end Rxon
