import Rxon.Exchanges

/-! # What reaches the handler, and what comes back

What the two ends of the system know of each other, in every run of it.

The handler is called only for what a worker has asked: with the message of one of its calls,
as it reads on the wire, in a context that names the worker and shows a token that the worker
held by then (`invocations_genuine`).  A worker's call returns only what the handler made of
its own request (`returned_by_handler`), raises only what the handler raised of it or the network
did to it (`raised_by_handler`), and its tokens are its own (`tokens_own`). -/

namespace Rxon.Exchanges
open Interleaving

/-! ## Where the requests go -/

/-- A worker that finds the listener: its orchestrator's address is an origin, slashes behind it
or not, and its id an identifier. -/
structure Worker.Routed (worker : Worker) : Prop where
  baseUrl : ∃ base n, IsOrigin base ∧
    worker.baseUrl = base ++ String.ofList (List.replicate n '/')
  workerId : IsIdentifier worker.workerId

section
variable {worker : Worker} {op : Operation} {ι : Type} {rt : Runtime rxonDecls}
  {floatOf : String → Option PyFloat} {x : Exchange ι rt.orjson.Bytes} {action : Action}
  {ids : List String}

theorem Worker.Routed.reaches (h : worker.Routed) (target : Target) :
    resolve target.method
        (urlPath (worker.transport.baseUrl ++ target.endpoint worker.workerId)) =
      some (target, target.ids worker.workerId) := by
  obtain ⟨base, n, hbase, heq⟩ := h.baseUrl
  have hstrip : worker.transport.baseUrl = base := by
    show rstripSlash worker.baseUrl = base
    rw [heq, rstripSlash_origin hbase n]
  rw [hstrip]
  exact resolve_endpoint hbase h.workerId target

/-- The request of an operation goes to its endpoint. -/
theorem Worker.Routed.request (h : worker.Routed) (op : Operation)
    (headers : List (String × PyVal)) :
    resolve (worker.request op headers).method (urlPath (worker.request op headers).url) =
      some (.action (.worker op.endpoint),
        (Target.action (.worker op.endpoint)).ids worker.workerId) := by
  have htarget := h.reaches (.action (.worker op.endpoint))
  cases op <;> exact htarget

/-- What has been responded to a request that fits a route. -/
theorem Exchange.Takes.cases (h : x.Takes rt floatOf)
    (hroute : resolve x.request.method (urlPath x.request.url) = some (.action action, ids)) :
    x.received.workerId = ids.head? ∧
      ((∃ response, action.serve rt floatOf x.handler x.received = .ok response ∧
          x.response = response.withVersion) ∨
        ∃ e text, action.serve rt floatOf x.handler x.received = .error e ∧
          x.response = textResponse rt 500 text) := by
  obtain ⟨-, hresponds, -⟩ := h
  generalize x.response = response at hresponds ⊢
  cases hresponds with
  | served hroute' hid hserve =>
    rw [hroute] at hroute'
    cases hroute'
    exact ⟨hid, Or.inl ⟨_, hserve, rfl⟩⟩
  | crashed hroute' hid hserve =>
    rw [hroute] at hroute'
    cases hroute'
    exact ⟨hid, Or.inr ⟨_, _, hserve, rfl⟩⟩
  | unrouted hroute' =>
    rw [hroute] at hroute'
    cases hroute'

end

/-! ## What the handler is called with -/

section
variable {ι : Type} {rt : Runtime rxonDecls} (floatOf : String → Option PyFloat)

/-- In the exchange the handler is called. -/
def Exchange.Invokes (x : Exchange ι rt.orjson.Bytes) (message : String) (payload : PyVal)
    (context : Context) (result : Except HandlerError (HandlerResult rt.orjson.Bytes)) : Prop :=
  ∃ action ids, resolve x.request.method (urlPath x.request.url) = some (.action action, ids) ∧
    x.received.workerId = ids.head? ∧ action.Invokes floatOf x.handler x.received payload result ∧
    message = action.message ∧ context = action.context floatOf x.received

variable (log : List (Exchange ι rt.orjson.Bytes)) (k : ι) (worker : Worker)

/-- A context that names the worker, and shows a token that it holds. -/
structure Vouched (context : Context) : Prop where
  token : ∃ pair, Held log k worker pair ∧ context.lookup "token" = some pair.1
  workerId : context.lookup "worker_id_hint" = some (.str worker.workerId)
  version : context.lookup "protocol_version" = some (.str protocolVersion)

variable (rt) in
/-- What the handler may be told for a call: what the operation hands over, or a request for
tokens. -/
inductive Asked (call : WorkerCall) : String → PyVal → Prop
  | operation {op : Operation} {d : Json} (hop : call = .operation op)
      (hd : toDict rt (op.document worker.workerId) 0 = .ok d) :
      Asked call op.endpoint.message d.toPy
  | token : Asked call "sts_token" .none
  | refresh {pair : PyVal × PyVal} {d : Json} (hheld : Held log k worker pair)
      (hd : toDict rt (.dict [("refresh_token", pair.2)]) 0 = .ok d) :
      Asked call "sts_refresh" d.toPy

variable {log k worker floatOf} {x : Exchange ι rt.orjson.Bytes} {request : Request}
  {received : WebRequest} {action : Action} {op : Operation} {payload : PyVal}

/-- What every endpoint puts into the context. -/
theorem lookup_context {name : String} (h : name = "token" ∨ name = "protocol_version") :
    (action.context floatOf received).lookup name = (extractContext received).lookup name := by
  have hhint : name ≠ "worker_id_hint" := by rcases h with rfl | rfl <;> decide
  have hpoll : name ≠ "poll_timeout" := by rcases h with rfl | rfl <;> decide
  have havailable : name ≠ "available_skills" := by rcases h with rfl | rfl <;> decide
  have hhot : name ≠ "hot_skills" := by rcases h with rfl | rfl <;> decide
  rcases action with endpoint | _ | _
  · cases endpoint with
    | register | result | event => rfl
    | heartbeat => exact Assoc.lookup_set_ne hhint _ _
    | poll =>
      show (pollContext received floatOf _).lookup name = _
      rw [pollContext, lookup_skillFilter, if_neg hhot, lookup_skillFilter, if_neg havailable,
        Assoc.lookup_set_ne hpoll, Assoc.lookup_set_ne hhint]
  · rfl
  · rfl

theorem vouched (hconveys : Conveys rt request received)
    (hb : Bearing log k worker request.headers)
    (hhint : (action.context floatOf received).lookup "worker_id_hint" =
      some (.str worker.workerId)) :
    Vouched log k worker (action.context floatOf received) := by
  obtain ⟨pair, hheld, htoken⟩ := hb.token
  refine ⟨⟨pair, hheld, ?_⟩, hhint, ?_⟩
  · rw [lookup_context (Or.inl rfl)]
    show some (optStr received.token) = some pair.1
    rw [hconveys.token, Request.header, htoken]
    rfl
  · rw [lookup_context (Or.inr rfl)]
    show some (optStr received.version) = _
    rw [hconveys.version, Request.header, hb.version]
    rfl

theorem given_of_identifier {workerId : String} (h : IsIdentifier workerId) :
    given (some workerId) = some workerId := by
  have hne : workerId ≠ "" := by
    rintro rfl
    exact absurd h.1 (by decide)
  simp [given, hne]

/-- The worker's id is in the header, and in the path where the route has it. -/
theorem lookup_hint (hid : IsIdentifier worker.workerId)
    (hconveys : Conveys rt request received) (hb : Bearing log k worker request.headers)
    (hreceived : received.workerId = ((Target.action action).ids worker.workerId).head?) :
    (action.context floatOf received).lookup "worker_id_hint" = some (.str worker.workerId) := by
  have hheader : (extractContext received).lookup "worker_id_hint" =
      some (.str worker.workerId) := by
    show some (optStr received.workerIdHint) = _
    rw [hconveys.workerIdHint, Request.header, hb.workerId]
    rfl
  rcases action with endpoint | _ | _
  · cases endpoint with
    | register | result | event => exact hheader
    | heartbeat =>
      have hpath : received.workerId = some worker.workerId := hreceived
      show (heartbeatContext received).lookup _ = _
      rw [heartbeatContext, Assoc.lookup_set_self, hpath]
      rfl
    | poll =>
      have hpath : received.workerId = some worker.workerId := hreceived
      have hhot : "worker_id_hint" ≠ "hot_skills" := by decide
      have havailable : "worker_id_hint" ≠ "available_skills" := by decide
      have hpoll : "worker_id_hint" ≠ "poll_timeout" := by decide
      show (pollContext received floatOf _).lookup _ = _
      rw [pollContext, lookup_skillFilter, if_neg hhot, lookup_skillFilter, if_neg havailable,
        Assoc.lookup_set_ne hpoll, Assoc.lookup_set_self, hpath, given_of_identifier hid]
      rfl
  · exact hheader
  · exact hheader

/-- The payload is the document in the body. -/
theorem payload_conveyed (hconveys : Conveys rt request received)
    (hread : received.payload = .ok payload) :
    ∃ d, toDict rt request.json 0 = .ok d ∧ payload = d.toPy := by
  rcases hconveys.body with ⟨-, -, str, hjson⟩ | ⟨-, -, bytes, d, hdumps, hload, hjson⟩
  · rw [WebRequest.payload, hjson] at hread
    cases hread
  · rw [WebRequest.payload, hjson] at hread
    cases hread
    obtain ⟨d', hdict, hload'⟩ := loads_jsonDumps hdumps
    rw [hload] at hload'
    cases hload'
    exact ⟨d, hdict, rfl⟩

/-- What is read of the request of an operation. -/
theorem read_operation {headers : List (String × PyVal)} (hid : IsIdentifier worker.workerId)
    (hconveys : Conveys rt (worker.request op headers) received)
    (hreceived : received.workerId =
      ((Target.action (.worker op.endpoint)).ids worker.workerId).head?)
    (hread : (Action.worker op.endpoint).read received = .ok payload) :
    ∃ d, toDict rt (op.document worker.workerId) 0 = .ok d ∧ payload = d.toPy := by
  cases op with
  | register | result | event => exact payload_conveyed hconveys hread
  | heartbeat m =>
    change (if received.canReadBody then received.payload else .ok .none) = .ok payload at hread
    split at hread
    · exact payload_conveyed hconveys hread
    · rename_i hempty
      cases hread
      rcases hconveys.body with ⟨hnone, -, -⟩ | ⟨-, hbody, -⟩
      · exact ⟨.null, by rw [show m = .none from hnone]; rfl, rfl⟩
      · exact absurd hbody hempty
  | poll =>
    have hpath : received.workerId = some worker.workerId := hreceived
    rw [Operation.endpoint, Action.read, hpath, given_of_identifier hid] at hread
    cases hread
    refine ⟨.str worker.workerId, toDict_ok rt (j := .str worker.workerId) ?_ ?_ ?_, rfl⟩
    · simp [Json.WF, Json.All, Json.nodes]
    · simp [Json.IntsFit, Json.All, Json.nodes]
    · simp [Json.keptDepth]

/-- An exchange of a request that the worker has sent calls the handler for what was asked. -/
theorem asked_of_genuine {workers : ι → Worker} (hrouted : ∀ k, (workers k).Routed)
    {calls : ι → List WorkerCall} {message : String} {context : Context}
    {result : Except HandlerError (HandlerResult rt.orjson.Bytes)} (htakes : x.Takes rt floatOf)
    (hgenuine : Genuine workers calls log x.toSent)
    (hcall : x.Invokes floatOf message payload context result) :
    ∃ call, (calls x.worker)[x.call]? = some call ∧
      Asked rt log x.worker (workers x.worker) call message payload ∧
      Vouched log x.worker (workers x.worker) context := by
  obtain ⟨action, ids, hroute, hid, ⟨h, hhandler, hread, -⟩, rfl, rfl⟩ := hcall
  obtain ⟨call, hcalled, hsent⟩ := hgenuine
  have hworker := hrouted x.worker
  refine ⟨call, hcalled, ?_⟩
  rcases hsent with ⟨op, headers, hop, hrequest, hb⟩ | hrefreshes
  · have hconveys := htakes.conveys
    have hto := hworker.request op headers
    rw [hrequest] at hroute hconveys
    rw [hto] at hroute
    cases hroute
    obtain ⟨d, hd, rfl⟩ := read_operation hworker.workerId hconveys hid hread
    exact ⟨.operation hop hd,
      vouched hconveys hb (lookup_hint hworker.workerId hconveys hb hid)⟩
  · have hconveys := htakes.conveys
    generalize x.request = request at hroute hconveys hrefreshes
    cases hrefreshes with
    | token hb =>
      have hto := hworker.reaches (.action .stsToken)
      have hsame := hroute.symm.trans hto
      cases hsame
      cases hread
      exact ⟨.token, vouched hconveys hb (lookup_hint hworker.workerId hconveys hb hid)⟩
    | refresh hb hheld =>
      have hto := hworker.reaches (.action .stsRefresh)
      have hsame := hroute.symm.trans hto
      cases hsame
      obtain ⟨d, hd, rfl⟩ := payload_conveyed hconveys hread
      exact ⟨.refresh hheld hd, vouched hconveys hb (lookup_hint hworker.workerId hconveys hb hid)⟩

/-- **The handler is called only for what a worker has asked.**  In every run, each call of the
handler is for a call of a worker: with the message and what it hands over, in a context that
names the worker and shows a token that it held before. -/
theorem invocations_genuine [DecidableEq ι] {workers : ι → Worker}
    (hrouted : ∀ k, (workers k).Routed) {es : List (Event ι rt.orjson.Bytes)} {w : World rt ι}
    (hrun : Run (Step rt floatOf) (World.initial rt workers) es w) {n : Nat} {message : String}
    {context : Context} {result : Except HandlerError (HandlerResult rt.orjson.Bytes)}
    (hx : w.log[n]? = some x) (hcall : x.Invokes floatOf message payload context result) :
    ∃ call, (w.calls x.worker)[x.call]? = some call ∧
      Asked rt (w.log.take n) x.worker (workers x.worker) call message payload ∧
      Vouched (w.log.take n) x.worker (workers x.worker) context := by
  obtain ⟨htakes, hgenuine⟩ := (run_accounted hrun).log n x hx
  exact asked_of_genuine hrouted htakes hgenuine hcall

end

/-! ### Two runs -/

/-- One worker, whose orchestrator's address ends in a slash. -/
def lone (_ : Unit) : Worker := ⟨"http://orchestrator/", "w-1", "secret", some 0⟩

theorem lone_routed (k : Unit) : (lone k).Routed where
  baseUrl :=
    ⟨"http" ++ "://" ++ "orchestrator", 1,
      isOrigin_of_all (by decide) (by decide) (by decide), rfl⟩
  workerId := by
    show IsIdentifier "w-1"
    exact ⟨by decide, by decide, List.all_eq_true.mp (by decide)⟩

/-- The tokens that a registration is granted. -/
def granted : Json :=
  .obj [("access_token", .str "new"), ("expires_in", .int 300), ("refresh_token", .str "next"),
    ("worker_id", .str "w-1")]

def registered : Exchange Unit (Runtime.reference rxonDecls fun _ => "").orjson.Bytes where
  worker := ()
  call := 0
  request := (lone ()).request (.register (.dict [])) (lone ()).transport.headers
  received := ⟨0, none, [], true, .ok (.obj []), some "secret", some "w-1", some "1.0.0", none⟩
  handler := some fun _ _ _ => .ok (.data granted.toPy)
  response := WebResponse.withVersion
    ⟨200, [("Content-Type", "application/json; charset=utf-8")], .json granted⟩

theorem registered_takes :
    registered.Takes (Runtime.reference rxonDecls fun _ => "") fun _ => none := by
  refine ⟨⟨fun params h => ?_, rfl, rfl, rfl,
    Or.inr ⟨?_, rfl, .obj [], .obj [], rfl, rfl, rfl⟩⟩, ?_, rfl⟩
  · cases h
  · exact fun h => by cases h
  · have hroute : resolve registered.request.method (urlPath registered.request.url) =
        some (.action (.worker .register), []) := by decide +kernel
    exact .served hroute rfl rfl

theorem registered_invokes : registered.Invokes (fun _ => none) "register" (.dict [])
    (extractContext registered.received) (.ok (.data granted.toPy)) :=
  ⟨.worker .register, [], by decide +kernel, rfl, ⟨_, rfl, rfl, rfl⟩, rfl, rfl⟩

/-- A worker registers, and is granted tokens. -/
theorem run_registered : ∃ es w,
    Run (Step (Runtime.reference rxonDecls fun _ => "") fun _ => none)
      (World.initial (Runtime.reference rxonDecls fun _ => "") lone) es w ∧
    w.log = [registered] ∧ w.calls () = [.operation (.register (.dict []))] ∧
    (w.clients ()).points = [.done (.returned granted.toPy)] ∧
    (w.clients ()).shared.token = .str "new" := by
  refine ⟨_, _, .snoc (.snoc (.snoc (.snoc (.snoc .nil
    (.call _ () (.operation (.register (.dict []))) _ rfl))
    (.handle _ registered (List.mem_singleton_self _) registered_takes))
    (.resume _ () 0 _ _ _ _ rfl (.head none rfl (List.mem_singleton_self _) rfl) rfl))
    (.resume _ () 0 _ _ _ _ rfl (.json rfl rfl) rfl))
    (.resume _ () 0 _ _ _ _ rfl (.left _) rfl), rfl, rfl, rfl, rfl⟩

def refused : Exchange Unit (Runtime.reference rxonDecls fun _ => "").orjson.Bytes where
  worker := ()
  call := 0
  request := (lone ()).request (.heartbeat .none) (lone ()).transport.headers
  received := ⟨0, some "w-1", [], false, .error (.value "no body"), some "secret", some "w-1",
    some "1.0.0", none⟩
  handler := some fun _ _ _ =>
    .ok (.finished ⟨403, [("Content-Type", "text/plain; charset=utf-8")], .text "banned"⟩)
  response := WebResponse.withVersion
    ⟨403, [("Content-Type", "text/plain; charset=utf-8")], .text "banned"⟩

theorem refused_takes :
    refused.Takes (Runtime.reference rxonDecls fun _ => "") fun _ => none := by
  refine ⟨⟨fun params h => ?_, rfl, rfl, rfl, Or.inl ⟨rfl, rfl, _, rfl⟩⟩, ?_, rfl⟩
  · cases h
  · have hroute : resolve refused.request.method (urlPath refused.request.url) =
        some (.action (.worker .heartbeat), ["w-1"]) := by decide +kernel
    exact .served hroute rfl rfl

/-- The error of a worker that is refused. -/
def refusal : RxonError :=
  ⟨.protocol, .str "HTTP 403: banned", [("status", .int 403)]⟩

/-- A worker sends a heartbeat, and is refused. -/
theorem run_refused : ∃ es w,
    Run (Step (Runtime.reference rxonDecls fun _ => "") fun _ => none)
      (World.initial (Runtime.reference rxonDecls fun _ => "") lone) es w ∧
    w.calls () = [.operation (.heartbeat .none)] ∧
    (w.clients ()).points = [.done (.raised refusal)] := by
  refine ⟨_, _, .snoc (.snoc (.snoc (.snoc (.snoc .nil
    (.call _ () (.operation (.heartbeat .none)) _ rfl))
    (.handle _ refused (List.mem_singleton_self _) refused_takes))
    (.resume _ () 0 _ _ _ _ rfl (.head none rfl (List.mem_singleton_self _) rfl) rfl))
    (.resume _ () 0 _ _ _ _ rfl (.text _ "banned") rfl))
    (.resume _ () 0 _ _ _ _ rfl (.left _) rfl), rfl, rfl⟩

/-- The handler is called once, for the registration. -/
theorem invocations_genuine_registered : ∃ es w,
    Run (Step (Runtime.reference rxonDecls fun _ => "") fun _ => none)
      (World.initial (Runtime.reference rxonDecls fun _ => "") lone) es w ∧
    w.log[0]? = some registered ∧
    ∃ call, (w.calls ())[0]? = some call ∧
      Asked (Runtime.reference rxonDecls fun _ => "") (w.log.take 0) () (lone ()) call "register"
        (.dict []) := by
  obtain ⟨es, w, hrun, hlog, -, -, -⟩ := run_registered
  have hx : w.log[0]? = some registered := by rw [hlog]; rfl
  obtain ⟨call, hcall, hasked, -⟩ := invocations_genuine lone_routed hrun hx registered_invokes
  exact ⟨es, w, hrun, hx, call, hcall, hasked⟩

/-! ## What a call returns -/

section
variable {ι : Type} (rt : Runtime rxonDecls)

/-- What a call returns for what came of the handler: its data or the default in their place, as
they read on the wire, or nothing for a poll without a task; what its finished response says;
or, for an HTTP exception that is no error, its text. -/
inductive Yields (endpoint : Endpoint) :
    Except HandlerError (HandlerResult rt.orjson.Bytes) → PyVal → Prop
  | document {data : PyVal} {d : Json}
      (hd : onWire rt ((Action.worker endpoint).document data) = .ok d)
      (hpoll : endpoint = .poll → data.truthy = true) : Yields endpoint (.ok (.data data)) d.toPy
  | nothing {data : PyVal} (hpoll : endpoint = .poll) (hdata : data.truthy = false) :
      Yields endpoint (.ok (.data data)) .none
  | finished {response : WebResponse rt.orjson.Bytes} {v : PyVal} (h : response.Says rt v) :
      Yields endpoint (.ok (.finished response)) v
  | exception {status : Nat} {text : Option String} {str : String} {d : Json}
      (hstatus : status < 400) (h204 : status ≠ 204)
      (hd : onWire rt (errorBody (.str ((given text).getD str))) = .ok d) :
      Yields endpoint (.error (.http status text str)) d.toPy
  | noContent {text : Option String} {str : String} :
      Yields endpoint (.error (.http 204 text str)) .none

variable {rt} {floatOf : String → Option PyFloat} {log : List (Exchange ι rt.orjson.Bytes)} {k : ι}
  {worker : Worker} {i : Nat} {op : Operation} {x : Exchange ι rt.orjson.Bytes}
  {action : Action} {response : WebResponse rt.orjson.Bytes}

/-- A request that cannot be read has no body, or names no worker. -/
theorem read_error {request : Request} {received : WebRequest} {e : HandlerError}
    (hconveys : Conveys rt request received) (h : action.read received = .error e) :
    ∃ str, e = .value str := by
  have hpayload : received.payload = .error e → ∃ str, e = .value str := by
    intro h
    rcases hconveys.body with ⟨-, -, str, hjson⟩ | ⟨-, -, bytes, d, -, -, hjson⟩
    · rw [WebRequest.payload, hjson] at h
      cases h
      exact ⟨str, rfl⟩
    · rw [WebRequest.payload, hjson] at h
      cases h
  rcases action with endpoint | _ | _
  · cases endpoint with
    | register | result | event => exact hpayload h
    | heartbeat =>
      change (if received.canReadBody then received.payload else .ok .none) = _ at h
      split at h
      · exact hpayload h
      · cases h
    | poll =>
      rw [Action.read] at h
      cases hgiven : given received.workerId with
      | some workerId =>
        rw [hgiven] at h
        cases h
      | none =>
        rw [hgiven] at h
        cases h
        exact ⟨_, rfl⟩
  · cases h
  · exact hpayload h

theorem read_not_http {request : Request} {received : WebRequest}
    (hconveys : Conveys rt request received) (status : Nat) (text : Option String) (str : String) :
    action.read received ≠ .error (.http status text str) := fun h => by
  obtain ⟨_, he⟩ := read_error hconveys h
  cases he

/-- What a response says that was written as a document. -/
theorem says_document {data v : PyVal} {status : Nat} (hsaid : response.Says rt v)
    (h : documentResponse rt data status = .ok response) :
    status = 204 ∧ v = .none ∨ status ≠ 204 ∧ ∃ d, onWire rt data = .ok d ∧ v = d.toPy := by
  obtain ⟨hstatus, bytes, d, hbody, hload, hd⟩ := documentResponse_ok h
  rw [← hstatus]
  rcases hsaid with ⟨h204, rfl⟩ | ⟨h204, -, bytes', d', hbody', hload', rfl⟩
  · exact Or.inl ⟨h204, rfl⟩
  · cases hbody.symm.trans hbody'
    cases hload.symm.trans hload'
    exact Or.inr ⟨h204, d, hd, rfl⟩

/-- What is said by the answer to what the handler returned. -/
theorem yields_of_answer {endpoint : Endpoint} {resp : HandlerResult rt.orjson.Bytes} {v : PyVal}
    (h : (Action.worker endpoint).answer rt resp = .ok response) (hsaid : response.Says rt v) :
    Yields rt endpoint (.ok resp) v := by
  cases resp with
  | finished finished =>
    rw [Action.answer_finished] at h
    cases h
    exact .finished hsaid
  | data data =>
    rw [Action.answer_data] at h
    split at h
    · rename_i hnothing
      cases h
      rcases hsaid with ⟨-, rfl⟩ | ⟨h204, -⟩
      · exact .nothing (Action.worker.inj hnothing.1) hnothing.2
      · exact absurd rfl h204
    · rename_i hsome
      rcases says_document hsaid h with ⟨h204, -⟩ | ⟨-, d, hd, rfl⟩
      · exact absurd h204 (by decide)
      · refine .document hd fun hpoll => ?_
        rw [← Bool.not_eq_false]
        exact fun hfalse => hsome ⟨congrArg Action.worker hpoll, hfalse⟩

/-- **What a response to an operation's own request says is what came of the handler.** -/
theorem Own.yields (hworker : worker.Routed) (hown : Own log k worker i op x)
    (htakes : x.Takes rt floatOf) {v : PyVal} (hsaid : x.response.Says rt v) :
    ∃ d context result, toDict rt (op.document worker.workerId) 0 = .ok d ∧
      x.Invokes floatOf op.endpoint.message d.toPy context result ∧
      Yields rt op.endpoint result v := by
  obtain ⟨headers, hsent⟩ := hown.sent
  have hrequest : x.request = worker.request op headers := congrArg Sent.request hsent
  have hroute := hworker.request op headers
  rw [← hrequest] at hroute
  obtain ⟨hid, hserved⟩ := htakes.cases hroute
  have hconveys := htakes.conveys
  rw [hrequest] at hconveys
  have hlt : x.response.status < 400 := by
    rcases hsaid with ⟨h204, -⟩ | ⟨-, hlt, -⟩
    · rw [h204]
      decide
    · exact hlt
  rcases hserved with ⟨response, hserve, hx⟩ | ⟨e, text, -, hx⟩
  · rw [hx] at hlt hsaid
    have hstatus : response.status < 400 := hlt
    have hsays : response.Says rt v := hsaid
    rcases (Action.means_of_serve hserve).of_lt (read_not_http hconveys) hstatus with
      ⟨payload, resp, hcall, hanswer⟩ | ⟨payload, text, str, hcall, hfailure⟩
    · obtain ⟨-, -, hread, -⟩ := id hcall
      obtain ⟨d, hd, rfl⟩ := read_operation hworker.workerId hconveys hid hread
      exact ⟨d, _, .ok resp, hd, ⟨_, _, hroute, hid, hcall, rfl, rfl⟩,
        yields_of_answer hanswer hsays⟩
    · obtain ⟨-, -, hread, -⟩ := id hcall
      obtain ⟨d, hd, rfl⟩ := read_operation hworker.workerId hconveys hid hread
      refine ⟨d, _, _, hd, ⟨_, _, hroute, hid, hcall, rfl, rfl⟩, ?_⟩
      rw [failureResponse_eq] at hfailure
      rcases says_document hsays hfailure with ⟨h204, rfl⟩ | ⟨h204, d, hd, rfl⟩
      · have hsame : response.status = 204 := h204
        rw [hsame]
        exact .noContent
      · exact .exception hstatus h204 hd
  · rw [hx] at hlt
    exact absurd hlt (show ¬ 500 < 400 by decide)

/-- Exchanges that have taken place could take place. -/
theorem takes_of_run [DecidableEq ι] {workers : ι → Worker}
    {es : List (Event ι rt.orjson.Bytes)} {w : World rt ι}
    (hrun : Run (Step rt floatOf) (World.initial rt workers) es w) :
    ∀ x ∈ w.log, x.Takes rt floatOf := by
  intro x hx
  obtain ⟨n, hn⟩ := List.getElem?_of_mem hx
  exact ((run_accounted hrun).log n x hn).1

/-- How the call of an operation has ended is accounted for. -/
theorem ends_of_run [DecidableEq ι] {workers : ι → Worker}
    {es : List (Event ι rt.orjson.Bytes)} {w : World rt ι}
    (hrun : Run (Step rt floatOf) (World.initial rt workers) es w) {outcome : Outcome}
    (hcall : (w.calls k)[i]? = some (.operation op))
    (hdone : (w.clients k).points[i]? = some (.done outcome)) :
    Ends w.log k (workers k) i (Met es k i) op outcome := by
  obtain ⟨call, hcall', haccounts⟩ := (run_accounted hrun).points k i _ hdone
  rw [hcall] at hcall'
  cases hcall'
  exact haccounts op rfl

/-- What is got from a response was handled. -/
theorem Returns.handled {v : PyVal} (h : Returns log k worker i op v) (hworker : worker.Routed)
    (htakes : ∀ x ∈ log, x.Takes rt floatOf) :
    ∃ x ∈ log, x.worker = k ∧ x.call = i ∧ ∃ d context result,
      toDict rt (op.document worker.workerId) 0 = .ok d ∧
        x.Invokes floatOf op.endpoint.message d.toPy context result ∧
        Yields rt op.endpoint result v := by
  obtain ⟨x, hown, hsaid⟩ := h
  obtain ⟨headers, hsent⟩ := hown.sent
  exact ⟨x, hown.mem, congrArg Sent.worker hsent, congrArg Sent.call hsent,
    hown.yields hworker (htakes x hown.mem) hsaid⟩

/-- **A call returns only what the handler made of its own request.**  In every run, what the
call of an operation returns was handled in an exchange of that call, with its message, and is
the handler's result as it reads on the wire. -/
theorem returned_by_handler [DecidableEq ι] {workers : ι → Worker}
    (hrouted : ∀ k, (workers k).Routed) {es : List (Event ι rt.orjson.Bytes)} {w : World rt ι}
    (hrun : Run (Step rt floatOf) (World.initial rt workers) es w) {v : PyVal}
    (hcall : (w.calls k)[i]? = some (.operation op))
    (hdone : (w.clients k).points[i]? = some (.done (.returned v))) :
    ∃ x ∈ w.log, x.worker = k ∧ x.call = i ∧ ∃ d context result,
      toDict rt (op.document (workers k).workerId) 0 = .ok d ∧
        x.Invokes floatOf op.endpoint.message d.toPy context result ∧
        Yields rt op.endpoint result v := by
  have hends : Returns w.log k (workers k) i op v := ends_of_run hrun hcall hdone
  exact hends.handled (hrouted k) (takes_of_run hrun)

/-- What the registration returns is what the handler granted. -/
theorem returned_by_handler_registered : ∃ es w,
    Run (Step (Runtime.reference rxonDecls fun _ => "") fun _ => none)
      (World.initial (Runtime.reference rxonDecls fun _ => "") lone) es w ∧
    ∃ x ∈ w.log, x.worker = () ∧ x.call = 0 ∧ ∃ d context result,
      toDict (Runtime.reference rxonDecls fun _ => "") (.dict []) 0 = .ok d ∧
        x.Invokes (fun _ => none) "register" d.toPy context result ∧
        Yields (Runtime.reference rxonDecls fun _ => "") .register result granted.toPy := by
  obtain ⟨es, w, hrun, -, hcalls, hpoints, -⟩ := run_registered
  have hcall : (w.calls ())[0]? = some (.operation (.register (.dict []))) := by rw [hcalls]; rfl
  have hdone : (w.clients ()).points[0]? = some (.done (.returned granted.toPy)) := by
    rw [hpoints]
    rfl
  exact ⟨es, w, hrun, returned_by_handler lone_routed hrun hcall hdone⟩

/-! ## What a call raises -/

/-- What went wrong in the exchange, and the status that it was answered with. -/
inductive Exchange.Fails (floatOf : String → Option PyFloat) (x : Exchange ι rt.orjson.Bytes)
    (op : Operation) : Nat → Prop
  | raised {payload : PyVal} {context : Context} {e : HandlerError}
      (h : x.Invokes floatOf op.endpoint.message payload context (.error e)) :
      Fails floatOf x op e.status
  | unread {str : String}
      (h : (Action.worker op.endpoint).read x.received = .error (.value str)) :
      Fails floatOf x op 400
  | unwritable {payload : PyVal} {resp : HandlerResult rt.orjson.Bytes} {context : Context}
      {e : PyError} (h : x.Invokes floatOf op.endpoint.message payload context (.ok resp))
      (hanswer : (Action.worker op.endpoint).answer rt resp = .error e) :
      Fails floatOf x op (HandlerError.ofPy e).status
  | unwritableLimit {payload : PyVal} {context : Context} {limit : RxonError} {e : PyError}
      (h : x.Invokes floatOf op.endpoint.message payload context (.error (.rateLimit limit)))
      (hanswer : failureResponse rt (.rateLimit limit) = .error e) : Fails floatOf x op 500
  | finished {payload : PyVal} {context : Context} {response : WebResponse rt.orjson.Bytes}
      (h : x.Invokes floatOf op.endpoint.message payload context (.ok (.finished response)))
      (hstatus : 400 ≤ response.status) : Fails floatOf x op response.status
  | initializing (h : x.handler = none) : Fails floatOf x op 503

theorem Own.fails (hworker : worker.Routed) (hown : Own log k worker i op x)
    (htakes : x.Takes rt floatOf) (hstatus : 400 ≤ x.response.status) :
    x.Fails floatOf op x.response.status := by
  obtain ⟨headers, hsent⟩ := hown.sent
  have hrequest : x.request = worker.request op headers := congrArg Sent.request hsent
  have hroute := hworker.request op headers
  rw [← hrequest] at hroute
  obtain ⟨hid, hserved⟩ := htakes.cases hroute
  have hconveys := htakes.conveys
  rw [hrequest] at hconveys
  have hcalls : ∀ {payload result},
      (Action.worker op.endpoint).Invokes floatOf x.handler x.received payload result →
        x.Invokes floatOf op.endpoint.message payload
          ((Action.worker op.endpoint).context floatOf x.received) result := fun hcall =>
    ⟨_, _, hroute, hid, hcall, rfl, rfl⟩
  have hread : ∀ {e}, (Action.worker op.endpoint).read x.received = .error e →
      ∃ str, e = .value str := fun h => read_error hconveys h
  rcases hserved with ⟨response, hserve, hx⟩ | ⟨e, text, hserve, hx⟩
  · have hsame : x.response.status = response.status := by rw [hx]; rfl
    rw [hsame] at hstatus ⊢
    rcases (Action.means_of_serve hserve).of_ge hstatus with
      ⟨e, hfails, -, he⟩ | ⟨payload, hcall⟩ | ⟨hnone, h503⟩
    · rw [← he]
      cases hfails with
      | unread h =>
        obtain ⟨str, rfl⟩ := hread h
        exact .unread h
      | raised h => exact .raised (hcalls h)
      | unwritable h hanswer => exact .unwritable (hcalls h) hanswer
    · exact .finished (hcalls hcall) hstatus
    · rw [h503]
      exact .initializing hnone
  · -- only what a limit is answered with can fail to be written
    have hsame : x.response.status = 500 := by rw [hx]; rfl
    rw [hsame]
    rcases Action.attempt_cases rt floatOf x.handler x.received (.worker op.endpoint) with
      ⟨e', hfails⟩ | ⟨response, hok, -⟩
    · rw [Action.serve_of_fails hfails] at hserve
      cases e' with
      | rateLimit limit =>
        have hnot : (Action.worker op.endpoint).read x.received ≠ .error (.rateLimit limit) :=
          fun h => by
            obtain ⟨str, he⟩ := hread h
            cases he
        obtain ⟨payload, hcall⟩ := hfails.invokes hnot Action.ofPy_ne_rateLimit
        exact .unwritableLimit (hcalls hcall) hserve
      | http status text str =>
        obtain ⟨response, hwritten⟩ := errorBody_isOk rt ((given text).getD str) status
        exact absurd (hserve.symm.trans hwritten) fun h => by cases h
      | permission str | value str | other str =>
        obtain ⟨response, hwritten⟩ := errorBody_isOk rt str _
        exact absurd (hserve.symm.trans hwritten) fun h => by cases h
    · rw [Action.serve_eq, hok] at hserve
      cases hserve

def errorKind (status : Nat) : ErrorKind :=
  if status = 401 then .auth else if status = 429 then .rateLimit else .protocol

variable (floatOf log k worker i op) in
/-- What the error of a call comes of: a fault that one of its awaits has met; there being no
session; or, with the kind of the status, what went wrong in an exchange of its own. -/
inductive Caused (met : Fault → Prop) (e : RxonError) : Prop
  | fault {f : Fault} (hf : met f) (he : surface (op.args worker.transport) (.fault f) = .raised e)
  | unconnected (hsession : worker.session = none) (he : e = notConnected)
  | exchange {x : Exchange ι rt.orjson.Bytes} (hx : x ∈ log) (hworker : x.worker = k)
      (hcall : x.call = i) (hfails : x.Fails floatOf op x.response.status)
      (hkind : e.kind = errorKind x.response.status)
      (hdetails : e.kind = .protocol → e.details = [("status", .int x.response.status)])

theorem Raises.caused {met : Fault → Prop} {e : RxonError} (h : Raises log k worker i met op e)
    (hworker : worker.Routed) (htakes : ∀ x ∈ log, x.Takes rt floatOf) :
    Caused floatOf log k worker i op met e := by
  have hfails : ∀ x, Own log k worker i op x → 400 ≤ x.response.status →
      x.worker = k ∧ x.call = i ∧ x.Fails floatOf op x.response.status := by
    intro x hown hstatus
    obtain ⟨headers, hsent⟩ := hown.sent
    exact ⟨congrArg Sent.worker hsent, congrArg Sent.call hsent,
      hown.fails hworker (htakes x hown.mem) hstatus⟩
  cases h with
  | lost hf he => exact .fault hf he
  | unconnected hsession => exact .unconnected hsession rfl
  | @unauthorized x hown h401 =>
    obtain ⟨hk, hi, hx⟩ := hfails x hown (by omega)
    refine .exchange hown.mem hk hi hx ?_ fun h => by cases h
    rw [errorKind, if_pos h401]
    rfl
  | @limited x e hown h429 hkind =>
    obtain ⟨hk, hi, hx⟩ := hfails x hown (by omega)
    refine .exchange hown.mem hk hi hx ?_ fun h => ?_
    · rw [hkind, h429]
      rfl
    · rw [hkind] at h
      cases h
  | @failed x text hown h400 h401 h429 =>
    obtain ⟨hk, hi, hx⟩ := hfails x hown h400
    refine .exchange hown.mem hk hi hx ?_ fun _ => rfl
    rw [errorKind, if_neg h401, if_neg h429]

/-- **A call raises only what came of its own request.**  In every run, an error that the call
of an operation raises is that of a fault which one of its awaits has met or, with the kind of
the status, what went wrong in an exchange of that call; or there is no session at all. -/
theorem raised_by_handler [DecidableEq ι] {workers : ι → Worker}
    (hrouted : ∀ k, (workers k).Routed) {es : List (Event ι rt.orjson.Bytes)} {w : World rt ι}
    (hrun : Run (Step rt floatOf) (World.initial rt workers) es w) {e : RxonError}
    (hcall : (w.calls k)[i]? = some (.operation op))
    (hdone : (w.clients k).points[i]? = some (.done (.raised e))) :
    Caused floatOf w.log k (workers k) i op (Met es k i) e := by
  have hends : Raises w.log k (workers k) i (Met es k i) op e := ends_of_run hrun hcall hdone
  exact hends.caused (hrouted k) (takes_of_run hrun)

/-- The refused heartbeat was refused by the handler. -/
theorem raised_by_handler_refused : ∃ es w,
    Run (Step (Runtime.reference rxonDecls fun _ => "") fun _ => none)
      (World.initial (Runtime.reference rxonDecls fun _ => "") lone) es w ∧
    ∃ x ∈ w.log, x.Fails (fun _ => none) (.heartbeat .none) 403 := by
  obtain ⟨es, w, hrun, hcalls, hpoints⟩ := run_refused
  refine ⟨es, w, hrun, ?_⟩
  have hcall : (w.calls ())[0]? = some (.operation (.heartbeat .none)) := by rw [hcalls]; rfl
  have hdone : (w.clients ()).points[0]? = some (.done (.raised refusal)) := by rw [hpoints]; rfl
  cases raised_by_handler lone_routed hrun hcall hdone with
  | @fault f hf he =>
    cases f with
    | contentType text =>
      have hdetails : ([] : List (String × PyVal)) = refusal.details :=
        congrArg RxonError.details (Outcome.raised.inj he)
      exact absurd hdetails (List.cons_ne_nil _ _).symm
    | client | timeout | value | unexpected | interrupted => cases he
  | unconnected hsession => cases hsession
  | @exchange x hx hworker hi hfails hkind hdetails =>
    have hstatus : x.response.status = 403 := by
      have hint : (x.response.status : Int) = 403 := by simpa [refusal] using (hdetails rfl).symm
      exact_mod_cast hint
    rw [hstatus] at hfails
    exact ⟨x, hx, hfails⟩

end

/-! ## Whose tokens a worker uses -/

section
variable {ι : Type} {rt : Runtime rxonDecls} {floatOf : String → Option PyFloat}
  {log : List (Exchange ι rt.orjson.Bytes)} {k : ι} {worker : Worker}
  {x : Exchange ι rt.orjson.Bytes} {pair : PyVal × PyVal}

/-- The text of an error is no token response. -/
theorem not_grants_errorBody {text : String} {d : Json}
    (hd : onWire rt (errorBody (.str text)) = .ok d) : ¬ Rxon.Grants rt d.toPy pair := by
  have hcanon : d = (Json.obj [("error", .str text)]).canon :=
    Except.ok.inj (hd.symm.trans (onWire_toPy rt (signable_errorBody text)))
  rintro ⟨head, fs, hfs, -⟩
  obtain ⟨kvs, y, hkvs, -, hfrom⟩ := Decodes.lookup hfs (f := ⟨"access_token", .str, .required⟩)
    (by simp [tokenResponse, model])
  have hnone : kvs.lookup "access_token" = none := by
    rw [hcanon, Json.canon_obj] at hkvs
    cases hkvs
    rw [Json.lookup_canon (by simp [Assoc.Unique, Assoc.keys])]
    rfl
  rcases hfrom with ⟨v, hv, -⟩ | ⟨-, hmake⟩
  · rw [hnone] at hv
    cases hv
  · cases hmake

variable (rt) in
/-- The document that is read of what the handler has returned. -/
inductive Reads (action : Action) : HandlerResult rt.orjson.Bytes → Json → Prop
  | data {data : PyVal} {d : Json} (hd : onWire rt (action.document data) = .ok d) :
      Reads action (.data data) d
  | finished {response : WebResponse rt.orjson.Bytes} {bytes : rt.orjson.Bytes} {d : Json}
      (hbody : response.body = .json bytes) (hload : rt.orjson.loads bytes = .ok d) :
      Reads action (.finished response) d

/-- An exchange grants tokens only as the handler has returned them. -/
theorem Exchange.Grants.invokes (hgrants : x.Grants worker pair) (hworker : worker.Routed)
    (htakes : x.Takes rt floatOf) :
    ∃ action ∈ tokenActions, ∃ payload context resp d,
      x.Invokes floatOf action.message payload context (.ok resp) ∧
        Reads rt action resp d ∧ Rxon.Grants rt d.toPy pair := by
  obtain ⟨⟨action, haction, hmethod, hurl⟩, hlt, bytes, d, hbody, hload, hpair⟩ := hgrants
  have hroute := hworker.reaches (.action action)
  rw [← hmethod, ← hurl] at hroute
  obtain ⟨hid, ⟨response, hserve, hx⟩ | ⟨e, text, -, hx⟩⟩ := htakes.cases hroute
  · rw [hx] at hlt hbody
    rcases (Action.means_of_serve hserve).of_lt (read_not_http htakes.conveys) hlt with
      ⟨payload, resp, hcall, hanswer⟩ | ⟨payload, text, str, hcall, hfailure⟩
    · refine ⟨action, haction, payload, _, resp, d, ⟨_, _, hroute, hid, hcall, rfl, rfl⟩, ?_, hpair⟩
      cases resp with
      | finished finished =>
        rw [Action.answer_finished] at hanswer
        cases hanswer
        exact .finished hbody hload
      | data data =>
        have hpoll : action ≠ .worker .poll := by
          rintro rfl
          exact absurd haction (by decide)
        rw [Action.answer_data, if_neg fun h => hpoll h.1] at hanswer
        obtain ⟨-, bytes', d', hbody', hload', hd⟩ := documentResponse_ok hanswer
        cases hbody.symm.trans hbody'
        cases hload.symm.trans hload'
        exact .data hd
    · rw [failureResponse_eq] at hfailure
      obtain ⟨-, bytes', d', hbody', hload', hd⟩ := documentResponse_ok hfailure
      cases hbody.symm.trans hbody'
      cases hload.symm.trans hload'
      exact absurd hpair (not_grants_errorBody hd)
  · rw [hx] at hbody
    cases hbody

/-- **A worker's tokens are its own**: those that it was built with, or those that the handler
has returned in one single exchange of this worker, to a registration or a request for
tokens. -/
theorem tokens_own [DecidableEq ι] {workers : ι → Worker} (hrouted : ∀ k, (workers k).Routed)
    {es : List (Event ι rt.orjson.Bytes)} {w : World rt ι}
    (hrun : Run (Step rt floatOf) (World.initial rt workers) es w) (k : ι) :
    (w.clients k).shared.pair = (.str (workers k).token, .none) ∨
      ∃ x ∈ w.log, x.worker = k ∧ ∃ action ∈ tokenActions, ∃ payload context resp d,
        x.Invokes floatOf action.message payload context (.ok resp) ∧
          Reads rt action resp d ∧ Rxon.Grants rt d.toPy (w.clients k).shared.pair := by
  have haccounted := run_accounted hrun
  rcases (haccounted.steady k).held with hinitial | ⟨x, hx, hworker, hgrants⟩
  · exact Or.inl hinitial
  · obtain ⟨n, hn⟩ := List.getElem?_of_mem hx
    exact Or.inr ⟨x, hx, hworker, hgrants.invokes (hrouted k) (haccounted.log n x hn).1⟩

/-- The tokens that the registration was granted. -/
theorem tokens_own_registered : ∃ es w,
    Run (Step (Runtime.reference rxonDecls fun _ => "") fun _ => none)
      (World.initial (Runtime.reference rxonDecls fun _ => "") lone) es w ∧
    ∃ x ∈ w.log, ∃ action ∈ tokenActions, ∃ payload context resp,
      x.Invokes (fun _ => none) action.message payload context (.ok resp) := by
  obtain ⟨es, w, hrun, -, -, -, htoken⟩ := run_registered
  refine ⟨es, w, hrun, ?_⟩
  rcases tokens_own lone_routed hrun () with
    hinitial | ⟨x, hx, -, action, haction, payload, context, resp, d, hcall, -⟩
  · have hold : (w.clients ()).shared.token = .str "secret" := congrArg Prod.fst hinitial
    rw [htoken] at hold
    exact absurd (PyVal.str.inj hold) (by decide)
  · exact ⟨x, hx, action, haction, payload, context, resp, hcall⟩

end
end Rxon.Exchanges
