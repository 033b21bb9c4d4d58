import Rxon.Carriers
import Rxon.Deliveries

/-! # Signed messages in the exchanges

The worker signs its messages, the orchestrator its tasks.  Between the one's signature and the
other's verification lie a normal form, a text, a network that delays and repeats, and a
restored Struct.  The joins hold in every run: what the handler is called with verifies
(`messages_verify`), and so does the task that a poll returns (`tasks_verify`). -/

namespace Rxon
open Json (canon)
open Interleaving

/-! ## A signed message and its document -/

/-- `payload["security"]["signature"]`, where it is there. -/
def shownSignature : PyVal → Option PyVal
  | .dict kvs =>
    match kvs.lookup "security" with
    | some (.dict security) => security.lookup "signature"
    | _ => none
  | _ => none

section
variable (rt : Runtime rxonDecls) (crypto : Crypto rt.orjson.Bytes)

/-- A well-typed message that carries its own signature. -/
structure SignedMessage (T secret s : String) (sent : PyVal) : Prop where
  type : T ∈ messageTypes
  signed : ∃ m, HasType rxonDecls (.cls T) m ∧ (m.tree rxonDecls).FloatsFit ∧
    signPayload rt crypto m secret none = .ok s ∧ sent = withSignature m s

/-- What has arrived shows the signature and verifies, as it is and as the message that it
restores to, which has the normal form of the one that was sent. -/
structure Verified (T secret s : String) (sent received : PyVal) : Prop where
  shown : shownSignature received = some (.str s)
  verifies : verifySignature rt crypto received s secret none = .ok true
  restores : ∃ restored, fromDict rt T received = .ok restored ∧ restored.IsA T ∧
    (∃ dict, toDict rt restored 0 = .ok dict ∧ toDict rt sent 0 = .ok dict) ∧
    verifySignature rt crypto restored s secret none = .ok true

end

/-! ## What is seen of a Struct -/

section
variable {D : Decls} {c : StructHead} {fs : List (String × PyVal)}

/-- A field that is not omitted stands in the normal form. -/
theorem lookup_canon_tree (hu : Assoc.Unique fs) {k : String} {x : PyVal}
    (hx : fs.lookup k = some x) (hkept : D.omits c k x = false)
    (hnull : (x.tree D).isNull = false) :
    ∃ kvs, canon ((PyVal.struct c fs).tree D) = .obj kvs ∧
      kvs.lookup k = some (canon (x.tree D)) := by
  refine ⟨_, by rw [PyVal.tree_struct, Json.canon_obj], ?_⟩
  rw [Json.lookup_canon (Decls.unique_kept hu), Decls.lookup_kept hu, hx]
  simp only [Option.filter, hkept, Bool.not_false, if_true, Option.map_some]
  exact Json.shown_of_not hnull

end

section
variable {T : String} {m : PyVal}

theorem unique_of_hasType {c : String} {head : StructHead} {fs : List (String × PyVal)}
    (h : HasType rxonDecls (.cls c) (.struct head fs)) : Assoc.Unique fs := by
  cases h with
  | struct _ _ _ b fields _ hdecl hnames _ =>
    rw [Assoc.Unique, ← hnames]
    exact (Decls.wire_lookup rxonDecls_wire hdecl).2.1

/-- The context that a message is sent with has the signature in it. -/
theorem signedContext_cases {head : StructHead} {fs : List (String × PyVal)}
    (hT : T ∈ messageTypes) (h : HasType rxonDecls (.cls T) (.struct head fs)) (s : String) :
    ∃ context gs, signedContext (fs.lookup "security") s = .struct context gs ∧
      context.cls = "SecurityContext" ∧ Assoc.Unique gs ∧
      gs.lookup "signature" = some (.str s) := by
  obtain hnone | ⟨context, sfs, hsome, hcontext⟩ := security_cases hT h
  · rw [hnone]
    exact ⟨_, _, rfl, rfl, by simp [Assoc.Unique, Assoc.keys], rfl⟩
  · have hcls : context.cls = "SecurityContext" := by
      cases hcontext
      assumption
    rw [hsome]
    exact ⟨_, _, rfl, hcls, (unique_of_hasType hcontext).set _ _, Assoc.lookup_set_self _ _ _⟩

/-- The signature can be read from the normal form of a signed message. -/
theorem shownSignature_withSignature (hT : T ∈ messageTypes)
    (h : HasType rxonDecls (.cls T) m) (s : String) :
    shownSignature (canon ((withSignature m s).tree rxonDecls)).toPy = some (.str s) := by
  obtain ⟨fields, hdecl, hf⟩ := messageTypes_security hT
  have hm := h
  cases h with
  | dataclass _ fields fs hd _ _ => cases (Decls.wire_lookup rxonDecls_wire hd).1
  | struct _ head hhead b' fields' fs hdecl' hnames hall =>
    obtain ⟨context, gs, hgs, hcls, hu, hsig⟩ := signedContext_cases hT hm s
    -- neither the context nor the signature is a default, so both are sent
    have hcontext : rxonDecls.omits head "security" (.struct context gs) = false :=
      Decls.omits_optional rxonDecls_wire (hhead ▸ hdecl) hf (by simp)
    have htext : rxonDecls.omits context "signature" (.str s) = false :=
      Decls.omits_optional rxonDecls_wire (hcls ▸ securityContext_lookup) List.mem_cons_self
        (by simp)
    obtain ⟨kvs', hkvs', hlook'⟩ := lookup_canon_tree hu hsig htext rfl
    obtain ⟨kvs, hkvs, hlook⟩ := lookup_canon_tree
      ((unique_of_hasType hm).set "security" (.struct context gs))
      (Assoc.lookup_set_self _ _ _) hcontext rfl
    show shownSignature (canon ((PyVal.struct head (Assoc.set "security" _ fs)).tree _)).toPy = _
    rw [hgs, hkvs, Json.toPy_obj, shownSignature, Assoc.lookup_mapVal, hlook, hkvs',
      Option.map_some, Json.toPy_obj]
    show List.lookup "signature" (Assoc.mapVal Json.toPy kvs') = _
    rw [Assoc.lookup_mapVal, hlook']
    rfl

end

section
variable {rt : Runtime rxonDecls} {crypto : Crypto rt.orjson.Bytes} {T secret s : String}
  {sent : PyVal}

/-- The limits of a signed message, and the normal form that is sent of it. -/
theorem SignedMessage.limits (h : SignedMessage rt crypto T secret s sent) :
    HasType rxonDecls (.cls T) sent ∧ Signable (sent.tree rxonDecls) ∧
      toDict rt sent 0 = .ok (canon (sent.tree rxonDecls)) := by
  obtain ⟨hT, m, hm, hf, hsign, rfl⟩ := h
  obtain ⟨-, msg, hmsg, -⟩ := signPayload_eq_ok crypto hsign
  obtain ⟨x, hx⟩ := toDict_of_message hmsg
  obtain ⟨hi, hd, -⟩ := (toDict_of_hasType rt rxonDecls_wire hm).mp hx
  have hsent := hasType_withSignature hT hm s
  obtain ⟨hi', hf', hd'⟩ := hereditary_within.withSignature (n := 28) hT hm s ⟨hi, hf, hd⟩
  have hwf := (hsent.restores rxonDecls_wire rfl).wf
  exact ⟨hsent, ⟨hwf, hi', hf', hd'⟩,
    (toDict_of_hasType rt rxonDecls_wire hsent).mpr ⟨hi', hd', rfl⟩⟩

/-- Whatever has the normal form of a signed message verifies. -/
theorem SignedMessage.verifies (h : SignedMessage rt crypto T secret s sent) {v : PyVal}
    (hv : toDict rt v 0 = toDict rt sent 0) :
    verifySignature rt crypto v s secret none = .ok true := by
  obtain ⟨hsent, hlimits, hdict⟩ := h.limits
  obtain ⟨hT, m, hm, hf, hsign, rfl⟩ := h
  obtain ⟨hs, msg, hmsg, rfl⟩ := signPayload_eq_ok crypto hsign
  obtain ⟨x, hx⟩ := toDict_of_message hmsg
  obtain ⟨-, -, rfl⟩ := (toDict_of_hasType rt rxonDecls_wire hm).mp hx
  refine verifySignature_of_message rt crypto hs ?_
  have hwf := (hm.restores rxonDecls_wire rfl).wf
  rw [payloadMessage_congr rt hv, payloadMessage_of_toDict rt none hlimits.wf hdict,
    signedPart_withSignature hT hm _ none, ← payloadMessage_of_toDict rt none hwf hx, hmsg]

/-- **The document that is sent of a signed message verifies where it arrives.** -/
theorem SignedMessage.verified (h : SignedMessage rt crypto T secret s sent) {d : Json}
    (hd : toDict rt sent 0 = .ok d) : Verified rt crypto T secret s sent d.toPy := by
  obtain ⟨hsent, hlimits, hdict⟩ := h.limits
  rw [hdict] at hd
  cases hd
  have hr := hsent.restores rxonDecls_wire rfl
  have hci : (canon (sent.tree rxonDecls)).IntsFit :=
    Json.intsFit_canon.mpr ⟨hlimits.ints, hlimits.floats⟩
  have hcd : (canon (sent.tree rxonDecls)).keptDepth ≤ maxRecursionDepth := by
    rw [Json.keptDepth_canon]
    exact hlimits.depth
  refine ⟨?_, h.verifies ?_, ?_⟩
  · obtain ⟨hT, m, hm, -, -, rfl⟩ := h
    exact shownSignature_withSignature hT hm s
  · rw [hdict, toDict_ok rt (Json.wf_canon hr.wf) hci hcd, Json.canon_canon hr.wf]
  · obtain ⟨r, hreadable⟩ := hr.readable
    obtain ⟨restored, hconvert⟩ := rt.msgspec.convert_complete _ _ _ r hreadable
    have hreads := rt.msgspec.convert_sound _ _ _ _ hconvert
    obtain ⟨kvs, hobj⟩ := hreads.exists_obj
    have hfrom : fromDict rt T (canon (sent.tree rxonDecls)).toPy = .ok restored := by
      rw [hobj] at hconvert ⊢
      exact (fromDict_obj rt).mpr hconvert
    have hsame : toDict rt restored 0 = .ok (canon (sent.tree rxonDecls)) := by
      rw [toDict_restored rt rxonDecls_wire (Json.wf_canon hr.wf) hreads hr.faithful
        (by rwa [Json.canon_canon hr.wf]) hcd, Json.canon_canon hr.wf]
    exact ⟨restored, hfrom, fromDict_isA rt hfrom ⟨kvs, hobj⟩, ⟨_, hsame, hdict⟩,
      h.verifies (hsame.trans hdict.symm)⟩

/-- A signed message is a Struct, and is answered as its document. -/
theorem SignedMessage.onWire (h : SignedMessage rt crypto T secret s sent) {d : Json}
    (hd : onWire rt sent = .ok d) : toDict rt sent 0 = .ok d := by
  obtain ⟨hsent, hlimits, hdict⟩ := h.limits
  have hwf := Json.wf_canon hlimits.wf
  have hagain : toDict rt (canon (sent.tree rxonDecls)).toPy 0 =
      .ok (canon (sent.tree rxonDecls)) := by
    rw [toDict_ok rt hwf (Json.intsFit_canon.mpr ⟨hlimits.ints, hlimits.floats⟩)
      (by rw [Json.keptDepth_canon]; exact hlimits.depth), Json.canon_canon hlimits.wf]
  rw [Rxon.onWire, hdict] at hd
  change toDict rt (canon (sent.tree rxonDecls)).toPy 0 = .ok d at hd
  rw [hagain] at hd
  rw [hdict, hd]

theorem SignedMessage.truthy (h : SignedMessage rt crypto T secret s sent) :
    sent.truthy = true := by
  obtain ⟨hsent, -, -⟩ := h.limits
  cases hsent with
  | struct => rfl
  | dataclass => rfl

/-- What `poll_task` makes of a signed task. -/
theorem Verified.polled {v : PyVal} (h : Verified rt crypto "TaskPayload" secret s sent v) :
    ∃ task, pollTask rt (.returned v) = .returned task ∧ task.IsA "TaskPayload" ∧
      (∃ dict, toDict rt task 0 = .ok dict ∧ toDict rt sent 0 = .ok dict) ∧
      verifySignature rt crypto task s secret none = .ok true := by
  obtain ⟨hshown, -, task, hfrom, hisA, hsame, hverifies⟩ := h
  have htruthy : v.truthy = true := by
    unfold shownSignature at hshown
    split at hshown
    · rename_i kvs
      cases kvs with
      | nil => cases hshown
      | cons => rfl
    · cases hshown
  refine ⟨task, ?_, hisA, hsame, hverifies⟩
  rw [pollTask, if_pos htruthy, hfrom]

end

/-! ## Signed messages in every run -/

namespace Exchanges

section
variable {ι : Type} {rt : Runtime rxonDecls} {floatOf : String → Option PyFloat}
  (crypto : Crypto rt.orjson.Bytes) {x : Exchange ι rt.orjson.Bytes}

theorem message_ne_tokens (endpoint : Endpoint) :
    endpoint.message ≠ "sts_token" ∧ endpoint.message ≠ "sts_refresh" := by
  cases endpoint <;> decide

/-- **A message verifies whenever the handler is called with it.**  In every run, where the call
of a worker hands over a signed message, each call of the handler for it is with a document that
shows the signature, verifies, and restores to the message. -/
theorem messages_verify [DecidableEq ι] {workers : ι → Worker}
    (hrouted : ∀ k, (workers k).Routed) {es : List (Event ι rt.orjson.Bytes)} {w : World rt ι}
    (hrun : Run (Step rt floatOf) (World.initial rt workers) es w) (hx : x ∈ w.log)
    {op : Operation} (hop : (w.calls x.worker)[x.call]? = some (.operation op))
    {payload : PyVal} {context : Context}
    {result : Except HandlerError (HandlerResult rt.orjson.Bytes)}
    (hcall : x.Invokes floatOf op.endpoint.message payload context result)
    {T secret s : String}
    (hsigned : SignedMessage rt crypto T secret s (op.document (workers x.worker).workerId)) :
    Verified rt crypto T secret s (op.document (workers x.worker).workerId) payload ∧
      context.lookup "worker_id_hint" = some (.str (workers x.worker).workerId) := by
  obtain ⟨n, hn⟩ := List.getElem?_of_mem hx
  obtain ⟨htakes, hgenuine⟩ := (run_accounted hrun).log n x hn
  obtain ⟨call, hcall', hasked, hvouched⟩ := asked_of_genuine hrouted htakes hgenuine hcall
  rw [hop] at hcall'
  cases hcall'
  refine ⟨?_, hvouched.workerId⟩
  obtain ⟨htoken, hrefresh⟩ := message_ne_tokens op.endpoint
  generalize hmessage : op.endpoint.message = message at hasked htoken hrefresh
  cases hasked with
  | operation heq hd =>
    cases heq
    exact hsigned.verified hd
  | token => exact absurd rfl htoken
  | refresh => exact absurd rfl hrefresh

/-- **A signed task verifies where `poll_task` returns it.**  In every run, the task that a poll
returns was handled in an exchange of that very poll; and if the handler returned a signed task
there, `poll_task` returns the task, and the signature verifies on it. -/
theorem tasks_verify [DecidableEq ι] {workers : ι → Worker}
    (hrouted : ∀ k, (workers k).Routed) {es : List (Event ι rt.orjson.Bytes)} {w : World rt ι}
    (hrun : Run (Step rt floatOf) (World.initial rt workers) es w) {k : ι} {i : Nat}
    {timeout : PyFloat} {availableSkills hotSkills : Option (List String)} {v : PyVal}
    (hcall : (w.calls k)[i]? = some (.operation (.poll timeout availableSkills hotSkills)))
    (hdone : (w.clients k).points[i]? = some (.done (.returned v))) :
    ∃ x ∈ w.log, x.worker = k ∧ x.call = i ∧ ∃ context result,
      x.Invokes floatOf "poll" (.str (workers k).workerId) context result ∧
      ∀ secret s sent, result = .ok (.data sent) →
        SignedMessage rt crypto "TaskPayload" secret s sent →
        Verified rt crypto "TaskPayload" secret s sent v ∧
        ∃ task, pollTask rt (.returned v) = .returned task ∧ task.IsA "TaskPayload" ∧
          (∃ dict, toDict rt task 0 = .ok dict ∧ toDict rt sent 0 = .ok dict) ∧
          verifySignature rt crypto task s secret none = .ok true := by
  have hreturns : Returns w.log k (workers k) i (.poll timeout availableSkills hotSkills) v :=
    ends_of_run hrun hcall hdone
  obtain ⟨x, hx, hk, hi, d, context, result, hd, hinvokes, hyields⟩ :=
    hreturns.handled (hrouted k) (takes_of_run hrun)
  have hid : toDict rt (.str (workers k).workerId) 0 = .ok (.str (workers k).workerId) :=
    toDict_ok rt (j := .str (workers k).workerId) (Json.wf_str _)
      (by simp [Json.IntsFit, Json.All, Json.nodes]) (by simp [Json.keptDepth])
  obtain rfl : Json.str (workers k).workerId = d := Except.ok.inj (hid.symm.trans hd)
  refine ⟨x, hx, hk, hi, context, result, hinvokes, fun secret s sent hresult hsigned => ?_⟩
  have hverified : Verified rt crypto "TaskPayload" secret s sent v := by
    subst hresult
    cases hyields with
    | document hwire => exact hsigned.verified (hsigned.onWire hwire)
    | nothing _ hfalse =>
      rw [hsigned.truthy] at hfalse
      cases hfalse
  exact ⟨hverified, hverified.polled⟩

end

/-! ### A signed result and a signed task -/

/-- HMAC with the key `k` of `{"job_id":"j","task_id":"t"}`, and of
`{"job_id":"j","task_id":"t","type":"x"}`. -/
def Crypto.joined : Crypto Json :=
  Crypto.reference Json
    (fun _ message => match message with
      | .obj [_, _] => "4e13979bb91d983c51769818e3d768e55821417775a1077e2204efbfbcbd2346"
      | _ => "576e1f29b03d5d1d59cbda63159e7da2be2a1e5af03a1cd6dec896c6bb30081a")
    (fun _ _ => by split <;> decide) (fun _ _ => by split <;> decide)

def resultSignature : String := "4e13979bb91d983c51769818e3d768e55821417775a1077e2204efbfbcbd2346"

/-- A minimal TaskResult. -/
def briefResult : PyVal := .struct ⟨"TaskResult", ["status"]⟩
  [("job_id", .str "j"), ("task_id", .str "t"), ("worker_id", .none),
   ("origin_worker_id", .none), ("status", .str "success"), ("data", .none), ("error", .none),
   ("data_metadata", .none), ("security", .none), ("metadata", .none), ("timestamp", .none),
   ("costs", .none)]

theorem hasType_briefResult : HasType rxonDecls (.cls "TaskResult") briefResult := by
  refine .struct "TaskResult" _ rfl true _ _ rfl rfl ?_
  simp only [List.zip_cons_cons, List.zip_nil_right, List.forall_mem_cons]
  exact ⟨.str _, .str _, hasType_optional_none, hasType_optional_none, .str _,
    hasType_optional_none, hasType_optional_none, hasType_optional_none, hasType_optional_none,
    hasType_optional_none, hasType_optional_none, hasType_optional_none, fun _ h => by cases h⟩

theorem signed_briefResult : SignedMessage Runtime.messages Crypto.joined "TaskResult" "k"
    resultSignature (withSignature briefResult resultSignature) :=
  ⟨by decide, briefResult, hasType_briefResult, by decide +kernel, by decide +kernel, rfl⟩

/-- The document that is sent of it. -/
def sentResult : Json :=
  .obj [("job_id", .str "j"), ("security", .obj [("signature", .str resultSignature)]),
    ("task_id", .str "t")]

def reported : Exchange Unit Runtime.messages.orjson.Bytes where
  worker := ()
  call := 0
  request := (lone ()).request (.result (withSignature briefResult resultSignature))
    (lone ()).transport.headers
  received := ⟨0, none, [], true, .ok sentResult, some "secret", some "w-1", some "1.0.0", none⟩
  handler := some fun _ _ _ => .ok (.data (.dict []))
  response := WebResponse.withVersion
    ⟨200, [("Content-Type", "application/json; charset=utf-8")],
      .json (.obj [("status", .str "ok")])⟩

theorem jsonDumps_sentResult : jsonDumps Runtime.messages
    (withSignature briefResult resultSignature) = .ok sentResult := by
  obtain ⟨-, -, hdict⟩ := signed_briefResult.limits
  rw [jsonDumps_of_toDict Runtime.messages hdict]
  have hcanon : canon ((withSignature briefResult resultSignature).tree rxonDecls) =
    sentResult := by decide +kernel
  rw [hcanon]
  rfl

theorem reported_takes : reported.Takes Runtime.messages fun _ => none := by
  refine ⟨⟨fun params h => ?_, rfl, rfl, rfl,
    Or.inr ⟨?_, rfl, sentResult, sentResult, jsonDumps_sentResult, rfl, rfl⟩⟩, ?_, rfl⟩
  · cases h
  · exact fun h => by cases h
  · have hroute : resolve reported.request.method (urlPath reported.request.url) =
        some (.action (.worker .result), []) := by decide +kernel
    exact .served hroute rfl rfl

/-- A worker reports a signed result. -/
theorem run_reported : ∃ es w,
    Run (Step Runtime.messages fun _ => none) (World.initial Runtime.messages lone) es w ∧
    w.log = [reported] ∧
    w.calls () = [.operation (.result (withSignature briefResult resultSignature))] :=
  ⟨_, _, .snoc (.snoc .nil
    (.call _ () (.operation (.result (withSignature briefResult resultSignature))) _ rfl))
    (.handle _ reported (List.mem_singleton_self _) reported_takes), rfl, rfl⟩

/-- The handler is called with a result that verifies. -/
theorem messages_verify_reported : ∃ es w,
    Run (Step Runtime.messages fun _ => none) (World.initial Runtime.messages lone) es w ∧
    reported ∈ w.log ∧
    Verified Runtime.messages Crypto.joined "TaskResult" "k" resultSignature
      (withSignature briefResult resultSignature) sentResult.toPy := by
  obtain ⟨es, w, hrun, hlog, hcalls⟩ := run_reported
  have hx : reported ∈ w.log := by rw [hlog]; exact List.mem_singleton_self _
  have hop : (w.calls ())[0]? =
      some (.operation (.result (withSignature briefResult resultSignature))) := by
    rw [hcalls]
    rfl
  have hcall : reported.Invokes (fun _ => none) "result" sentResult.toPy
      (extractContext reported.received) (.ok (.data (.dict []))) :=
    ⟨.worker .result, [], by decide +kernel, rfl, ⟨_, rfl, rfl, rfl⟩, rfl, rfl⟩
  exact ⟨es, w, hrun, hx,
    (messages_verify Crypto.joined lone_routed hrun hx hop hcall signed_briefResult).1⟩

/-- A process in which `str(30.0)` is `30.0`. -/
def Runtime.polling : Runtime rxonDecls := { Runtime.messages with pyStr := fun _ => "30.0" }

def taskSignature : String := "576e1f29b03d5d1d59cbda63159e7da2be2a1e5af03a1cd6dec896c6bb30081a"

theorem signed_stepTask : SignedMessage Runtime.polling Crypto.joined "TaskPayload" "k"
    taskSignature (withSignature (stepTask 0 .none) taskSignature) :=
  ⟨by decide, stepTask 0 .none, hasType_stepTask 0, by decide +kernel, by decide +kernel, rfl⟩

/-- The document that is answered with it. -/
def sentTask : Json :=
  .obj [("job_id", .str "j"), ("security", .obj [("signature", .str taskSignature)]),
    ("task_id", .str "t"), ("type", .str "x")]

theorem documentResponse_sentTask :
    documentResponse Runtime.polling (withSignature (stepTask 0 .none) taskSignature) 200 =
      .ok ⟨200, [("Content-Type", "application/json; charset=utf-8")], .json sentTask⟩ := by
  obtain ⟨-, -, hdict⟩ := signed_stepTask.limits
  have hcanon : canon ((withSignature (stepTask 0 .none) taskSignature).tree rxonDecls) =
    sentTask := by decide +kernel
  rw [hcanon] at hdict
  have hagain : toDict Runtime.polling sentTask.toPy 0 = .ok (canon sentTask) :=
    toDict_ok Runtime.polling (by decide +kernel) (by decide +kernel) (by decide +kernel)
  have hsame : canon sentTask = sentTask := by decide +kernel
  have htext : jsonDumps Runtime.polling sentTask.toPy = .ok sentTask := by
    rw [jsonDumps_of_toDict Runtime.polling hagain, hsame]
    rfl
  rw [documentResponse, hdict]
  change (jsonDumps Runtime.polling sentTask.toPy).bind _ = _
  rw [htext]
  rfl

/-- `poll_task(30.0)`. -/
def pollOperation : Operation := .poll (.finite (Binary64.ofInt 30)) none none

def polled : Exchange Unit Runtime.polling.orjson.Bytes where
  worker := ()
  call := 0
  request := (lone ()).request pollOperation (lone ()).transport.headers
  received := ⟨0, some "w-1", [("timeout", "30.0")], false, .error (.value "no body"),
    some "secret", some "w-1", some "1.0.0", none⟩
  handler := some fun _ _ _ => .ok (.data (withSignature (stepTask 0 .none) taskSignature))
  response := WebResponse.withVersion
    ⟨200, [("Content-Type", "application/json; charset=utf-8")], .json sentTask⟩

def floatOfThirty (text : String) : Option PyFloat :=
  if text = "30.0" then some (.finite (Binary64.ofInt 30)) else none

theorem polled_takes : polled.Takes Runtime.polling floatOfThirty := by
  refine ⟨⟨fun params h k => ?_, rfl, rfl, rfl, Or.inl ⟨rfl, rfl, _, rfl⟩⟩, ?_, rfl⟩
  · cases h
    by_cases hk : k = "timeout"
    · rw [hk]
      rfl
    · have hbeq : (k == "timeout") = false := by simpa using hk
      show List.lookup k [("timeout", "30.0")] = (List.lookup k _).map _
      rw [List.lookup_cons, List.lookup_cons, hbeq]
      rfl
  · have hroute : resolve polled.request.method (urlPath polled.request.url) =
        some (.action (.worker .poll), ["w-1"]) := by decide +kernel
    have hanswer : (Action.worker .poll).answer Runtime.polling
        (.data (withSignature (stepTask 0 .none) taskSignature)) =
          .ok ⟨200, [("Content-Type", "application/json; charset=utf-8")], .json sentTask⟩ := by
      rw [Action.answer_data, if_neg (fun h => by cases h.2)]
      exact documentResponse_sentTask
    refine .served hroute rfl ?_
    rw [Action.serve_eq]
    change guarded _ (((Action.worker .poll).answer Runtime.polling
      (.data (withSignature (stepTask 0 .none) taskSignature))).mapError HandlerError.ofPy) = _
    rw [hanswer]
    rfl

/-- A worker polls, and is given a signed task. -/
theorem run_polled : ∃ es w,
    Run (Step Runtime.polling floatOfThirty) (World.initial Runtime.polling lone) es w ∧
    w.log = [polled] ∧ w.calls () = [.operation pollOperation] ∧
    (w.clients ()).points = [.done (.returned sentTask.toPy)] := by
  refine ⟨_, _, .snoc (.snoc (.snoc (.snoc (.snoc .nil
    (.call _ () (.operation pollOperation) _ rfl))
    (.handle _ polled (List.mem_singleton_self _) polled_takes))
    (.resume _ () 0 _ _ _ _ rfl (.head none rfl (List.mem_singleton_self _) rfl) rfl))
    (.resume _ () 0 _ _ _ _ rfl (.json rfl rfl) rfl))
    (.resume _ () 0 _ _ _ _ rfl (.left _) rfl), rfl, rfl, rfl⟩

/-- The task that the poll returns verifies. -/
theorem tasks_verify_polled : ∃ task,
    pollTask Runtime.polling (.returned sentTask.toPy) = .returned task ∧
      task.IsA "TaskPayload" ∧
      verifySignature Runtime.polling Crypto.joined task taskSignature "k" none = .ok true := by
  obtain ⟨es, w, hrun, hlog, hcalls, hpoints⟩ := run_polled
  have hcall : (w.calls ())[0]? = some (.operation pollOperation) := by rw [hcalls]; rfl
  have hdone : (w.clients ()).points[0]? = some (.done (.returned sentTask.toPy)) := by
    rw [hpoints]
    rfl
  obtain ⟨x, hx, -, -, context, result, ⟨_, _, -, -, ⟨h, hhandler, -, hresult⟩, -, -⟩, htask⟩ :=
    tasks_verify (show Crypto Runtime.polling.orjson.Bytes from Crypto.joined) lone_routed hrun
      hcall hdone
  rw [hlog] at hx
  obtain rfl := List.mem_singleton.mp hx
  cases hhandler
  obtain ⟨-, task, htask, hisA, -, hverifies⟩ := htask _ _ _ hresult.symm signed_stepTask
  exact ⟨task, htask, hisA, hverifies⟩

end Exchanges
end Rxon
