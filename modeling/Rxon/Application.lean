import Rxon.Routes

/-! # The application

What the listener's application answers a request.  The seven endpoints that answer with a
document are one function, `handle`, at different arguments (`Action.serve_eq`): a payload is
read, the orchestrator's handler called with it, and what it returns is answered or what is
raised explained.

An endpoint answers whatever its handler does, unless the handler limits the worker with a code
that cannot be written (`Action.answers_iff`), and what it answers says what the handler did
(`Action.means_of_serve`). -/

namespace Rxon

section
variable (rt : Runtime rxonDecls)

/-- What is read of a value that was answered as a document. -/
def onWire (data : PyVal) : Except PyError Json := do
  let document ← toDict rt data 0
  toDict rt document.toPy 0

variable {rt} {data : PyVal} {status : Nat} {response : WebResponse rt.orjson.Bytes}

/-- What was written reads back. -/
theorem loads_jsonDumps {bytes : rt.orjson.Bytes} (h : jsonDumps rt data = .ok bytes) :
    ∃ d, toDict rt data 0 = .ok d ∧ rt.orjson.loads bytes = .ok d := by
  cases hdict : toDict rt data 0 with
  | error e =>
    rw [jsonDumps, hdict] at h
    cases h
  | ok d =>
    have hdumps : jsonDumps rt data = rt.orjson.encode d := by
      have hstep : jsonDumps rt data = rt.orjson.dumps false Orjson.noDefault d.toPy := by
        rw [jsonDumps, hdict]
        rfl
      rw [hstep, Orjson.dumps_toPy, if_neg Bool.false_ne_true]
    rw [hdumps] at h
    exact ⟨d, rfl, rt.orjson.loads_encode d bytes h⟩

/-- A response that is a document: its status, and what its body reads as. -/
theorem documentResponse_ok (h : documentResponse rt data status = .ok response) :
    response.status = status ∧ ∃ bytes d, response.body = .json bytes ∧
      rt.orjson.loads bytes = .ok d ∧ onWire rt data = .ok d := by
  rw [documentResponse] at h
  cases hdict : toDict rt data 0 with
  | error e =>
    rw [hdict] at h
    cases h
  | ok document =>
    rw [hdict] at h
    change (jsonDumps rt document.toPy).bind _ = _ at h
    cases htext : jsonDumps rt document.toPy with
    | error e =>
      rw [htext] at h
      cases h
    | ok bytes =>
      rw [htext] at h
      cases h
      obtain ⟨d, hagain, hload⟩ := loads_jsonDumps htext
      refine ⟨rfl, bytes, d, rfl, hload, ?_⟩
      rw [onWire, hdict]
      exact hagain

variable (rt) in
/-- What is read of a document within the limits is its normal form. -/
theorem onWire_toPy {j : Json} (h : Signable j) : onWire rt j.toPy = .ok j.canon := by
  have hdocument : toDict rt j.toPy 0 = .ok j.canon := toDict_ok rt h.wf h.ints h.depth
  have hagain : toDict rt j.canon.toPy 0 = .ok j.canon.canon :=
    toDict_ok rt (Json.wf_canon h.wf) (Json.intsFit_canon.mpr ⟨h.ints, h.floats⟩)
      (by rw [Json.keptDepth_canon]; exact h.depth)
  rw [onWire, hdocument]
  exact hagain.trans (by rw [Json.canon_canon h.wf])

theorem signable_errorBody (text : String) : Signable (.obj [("error", .str text)]) := by
  refine ⟨Json.wf_obj.mpr ⟨by simp [Assoc.Unique, Assoc.keys], ?_⟩, Json.intsFit_obj.mpr ?_,
    Json.floatsFit_obj.mpr ?_, Nat.le_add_left 1 29⟩
  all_goals simp [Json.IntsFit, Json.FloatsFit, Json.All, Json.nodes]

variable (rt) in
/-- An error can always be answered with its text. -/
theorem errorBody_isOk (text : String) (status : Nat) :
    ∃ response, documentResponse rt (errorBody (.str text)) status = .ok response := by
  obtain ⟨bytes, h, -⟩ := documentResponse_toPy rt (signable_errorBody text) status
  exact ⟨_, h⟩

end

/-! ## What is answered for an error -/

namespace HandlerError

def status : HandlerError → Nat
  | http status _ _ => status
  | permission _ => 403
  | rateLimit _ => 429
  | value _ => 400
  | other _ => 500

/-- The document that names the error. -/
def document (rt : Runtime rxonDecls) : HandlerError → PyVal
  | http _ text str => errorBody (.str ((given text).getD str))
  | permission str | value str | other str => errorBody (.str str)
  | rateLimit e => .dict [("error", e.str rt), ("code", (e.details.lookup "code").getD .none)]

end HandlerError

theorem failureResponse_eq (rt : Runtime rxonDecls) (e : HandlerError) :
    failureResponse rt e = documentResponse rt (e.document rt) e.status := by
  cases e <;> rfl

/-! ## One function for every endpoint -/

namespace Action

/-- The message type that is handed to the handler. -/
def message : Action → String
  | worker endpoint => endpoint.message
  | stsToken => "sts_token"
  | stsRefresh => "sts_refresh"

/-- What is read of the request before the handler is called. -/
def read (request : WebRequest) : Action → Except HandlerError PyVal
  | worker .register | worker .result | worker .event | stsRefresh => request.payload
  | worker .poll =>
    match given request.workerId with
    | some workerId => .ok (.str workerId)
    | none => .error (.value "worker_id required")
  | worker .heartbeat => if request.canReadBody then request.payload else .ok .none
  | stsToken => .ok .none

/-- The context that is handed to the handler. -/
def context (floatOf : String → Option PyFloat) (request : WebRequest) : Action → Context
  | worker .poll => pollContext request floatOf ((given request.workerId).getD "")
  | worker .heartbeat => heartbeatContext request
  | _ => extractContext request

/-- The handler is called, with this payload and this result. -/
def Invokes {Bytes : Type} (floatOf : String → Option PyFloat)
    (handler : Option (MessageHandler Bytes)) (request : WebRequest) (action : Action)
    (payload : PyVal) (result : Except HandlerError (HandlerResult Bytes)) : Prop :=
  ∃ h, handler = some h ∧ action.read request = .ok payload ∧
    h action.message payload (action.context floatOf request) = result

section
variable (rt : Runtime rxonDecls) (floatOf : String → Option PyFloat)

/-- What the handler's result is answered with. -/
def answer : Action → HandlerResult rt.orjson.Bytes → Except PyError (WebResponse rt.orjson.Bytes)
  | worker .register => answerOr rt (.dict [("status", .str "registered")])
  | worker .poll => answerPoll rt
  | worker .result => answerOr rt (.dict [("status", .str "ok")])
  | worker .event => answerOr rt (.dict [("status", .str "event_accepted")])
  | worker .heartbeat | stsToken | stsRefresh => (jsonResponse rt · 200)

/-- The document that data are answered as: `resp or default`. -/
def document (data : PyVal) : Action → PyVal
  | worker .register => if data.truthy then data else .dict [("status", .str "registered")]
  | worker .result => if data.truthy then data else .dict [("status", .str "ok")]
  | worker .event => if data.truthy then data else .dict [("status", .str "event_accepted")]
  | worker .poll | worker .heartbeat | stsToken | stsRefresh => data

def initializing : Action → Except PyError (WebResponse rt.orjson.Bytes)
  | worker .register | worker .result | worker .event => initializingJson rt
  | worker .poll | worker .heartbeat | stsToken | stsRefresh => initializingText rt

variable (handler : Option (MessageHandler rt.orjson.Bytes)) (request : WebRequest)

def serve : Action → Except PyError (WebResponse rt.orjson.Bytes)
  | worker endpoint => endpoint.serve rt floatOf handler request
  | stsToken => handleSts rt handler request
  | stsRefresh => handleStsRefresh rt handler request

/-- What the `try` of an endpoint comes to. -/
def attempt (action : Action) : Except HandlerError (WebResponse rt.orjson.Bytes) := do
  let payload ← action.read request
  match handler with
  | some handler =>
    let resp ← handler action.message payload (action.context floatOf request)
    (action.answer rt resp).mapError HandlerError.ofPy
  | none => (action.initializing rt).mapError HandlerError.ofPy

variable {rt floatOf handler request} {action : Action}
  {response : WebResponse rt.orjson.Bytes} {e : HandlerError}

/-- **Every endpoint is the same function**, of what it reads, whom it calls and how it
answers. -/
theorem serve_eq (action : Action) : action.serve rt floatOf handler request =
    guarded rt (action.attempt rt floatOf handler request) := by
  rcases action with endpoint | _ | _
  · cases endpoint with
    | poll =>
      cases hid : given request.workerId with
      | some workerId =>
        simp only [serve, Endpoint.serve, handlePoll, attempt, read, context, hid]
        rfl
      | none =>
        obtain ⟨response, hresponse⟩ := errorBody_isOk rt "worker_id required" 400
        have hjson : jsonResponse rt (.data (errorBody (.str "worker_id required"))) 400 =
            .ok response := hresponse
        simp only [serve, Endpoint.serve, handlePoll, attempt, read, hid, hjson]
        exact hresponse.symm
    | register | result | heartbeat | event => rfl
  · rfl
  · rfl

variable (rt floatOf handler request) in
/-- An error that an endpoint explains: its request cannot be read, its handler raises it, or
what the handler returns cannot be written. -/
inductive Fails (action : Action) : HandlerError → Prop
  | unread {e : HandlerError} (h : action.read request = .error e) : Fails action e
  | raised {payload : PyVal} {e : HandlerError}
      (h : action.Invokes floatOf handler request payload (.error e)) : Fails action e
  | unwritable {payload : PyVal} {resp : HandlerResult rt.orjson.Bytes} {e : PyError}
      (h : action.Invokes floatOf handler request payload (.ok resp))
      (hanswer : action.answer rt resp = .error e) : Fails action (.ofPy e)

variable (rt floatOf handler request) in
/-- What a response says of the handler: what it returned, what went wrong, or that there is
none. -/
inductive Means (action : Action) (response : WebResponse rt.orjson.Bytes) : Prop
  | returned {payload : PyVal} {resp : HandlerResult rt.orjson.Bytes}
      (h : action.Invokes floatOf handler request payload (.ok resp))
      (hanswer : action.answer rt resp = .ok response)
  | failed {e : HandlerError} (h : action.Fails rt floatOf handler request e)
      (hfailure : failureResponse rt e = .ok response)
  | initializing (h : handler = none) (hstatus : response.status = 503)

variable (rt) in
theorem initializing_isOk (action : Action) :
    ∃ response, action.initializing rt = .ok response ∧ response.status = 503 := by
  obtain ⟨response, hjson⟩ := errorBody_isOk rt "Service is initializing" 503
  rcases action with endpoint | _ | _
  · cases endpoint with
    | register | result | event => exact ⟨response, hjson, (documentResponse_ok hjson).1⟩
    | poll | heartbeat => exact ⟨_, rfl, rfl⟩
  · exact ⟨_, rfl, rfl⟩
  · exact ⟨_, rfl, rfl⟩

theorem attempt_of_invokes {payload : PyVal}
    {result : Except HandlerError (HandlerResult rt.orjson.Bytes)}
    (h : action.Invokes floatOf handler request payload result) :
    action.attempt rt floatOf handler request =
      result.bind fun resp => (action.answer rt resp).mapError HandlerError.ofPy := by
  obtain ⟨h, rfl, hread, rfl⟩ := h
  rw [attempt, hread]
  rfl

/-- An error that is explained is what the `try` comes to. -/
theorem attempt_of_fails (h : action.Fails rt floatOf handler request e) :
    action.attempt rt floatOf handler request = .error e := by
  cases h with
  | unread hread =>
    rw [attempt, hread]
    rfl
  | raised hcall => exact attempt_of_invokes hcall
  | unwritable hcall hanswer =>
    rw [attempt_of_invokes hcall]
    show (action.answer rt _).mapError _ = _
    rw [hanswer]
    rfl

/-- What the `try` of an endpoint can come to. -/
theorem attempt_cases (rt : Runtime rxonDecls) (floatOf : String → Option PyFloat)
    (handler : Option (MessageHandler rt.orjson.Bytes)) (request : WebRequest) (action : Action) :
    (∃ e, action.Fails rt floatOf handler request e) ∨
      ∃ response, action.attempt rt floatOf handler request = .ok response ∧
        action.Means rt floatOf handler request response := by
  cases hread : action.read request with
  | error e => exact Or.inl ⟨e, .unread hread⟩
  | ok payload =>
    cases handler with
    | none =>
      right
      obtain ⟨response, hinitial, hstatus⟩ := initializing_isOk rt action
      refine ⟨response, ?_, .initializing rfl hstatus⟩
      rw [attempt, hread]
      show (action.initializing rt).mapError _ = _
      rw [hinitial]
      rfl
    | some h =>
      have hcall : action.Invokes floatOf (some h) request payload _ := ⟨h, rfl, hread, rfl⟩
      cases hresult : h action.message payload (action.context floatOf request) with
      | error e =>
        rw [hresult] at hcall
        exact Or.inl ⟨e, .raised hcall⟩
      | ok resp =>
        rw [hresult] at hcall
        cases hanswer : action.answer rt resp with
        | error e => exact Or.inl ⟨_, .unwritable hcall hanswer⟩
        | ok response =>
          refine Or.inr ⟨response, ?_, .returned hcall hanswer⟩
          rw [attempt_of_invokes hcall]
          show (action.answer rt resp).mapError _ = _
          rw [hanswer]
          rfl

theorem serve_of_fails (h : action.Fails rt floatOf handler request e) :
    action.serve rt floatOf handler request = failureResponse rt e := by
  rw [serve_eq, attempt_of_fails h]
  rfl

/-- **Every answer means something.** -/
theorem means_of_serve (h : action.serve rt floatOf handler request = .ok response) :
    action.Means rt floatOf handler request response := by
  rcases attempt_cases rt floatOf handler request action with ⟨e, hfails⟩ | ⟨answered, hok, hmeans⟩
  · rw [serve_of_fails hfails] at h
    exact .failed hfails h
  · rw [serve_eq, hok] at h
    cases h
    exact hmeans

/-- Writing raises neither an HTTP exception nor a limit. -/
theorem Fails.invokes (h : action.Fails rt floatOf handler request e)
    (hread : action.read request ≠ .error e) (hne : ∀ err, e ≠ .ofPy err) :
    ∃ payload, action.Invokes floatOf handler request payload (.error e) := by
  cases h with
  | unread h => exact absurd h hread
  | raised h => exact ⟨_, h⟩
  | unwritable => exact absurd rfl (hne _)

theorem ofPy_ne_http {status : Nat} {text : Option String} {str : String} (err : PyError) :
    HandlerError.http status text str ≠ .ofPy err := by
  cases err <;> exact fun h => by cases h

theorem ofPy_ne_rateLimit {limit : RxonError} (err : PyError) :
    HandlerError.rateLimit limit ≠ .ofPy err := by
  cases err <;> exact fun h => by cases h

variable (rt) in
/-- **A finished response is answered as it is**, by every endpoint. -/
theorem answer_finished (action : Action) (response : WebResponse rt.orjson.Bytes) :
    action.answer rt (.finished response) = .ok response := by
  rcases action with endpoint | _ | _
  · cases endpoint <;> rfl
  · rfl
  · rfl

variable (rt) in
/-- What is answered for data: nothing to a poll without a task, and a document else. -/
theorem answer_data (action : Action) (data : PyVal) :
    action.answer rt (.data data) =
      if action = .worker .poll ∧ data.truthy = false then .ok ⟨204, [], .empty⟩
      else documentResponse rt (action.document data) 200 := by
  have hdefault : ∀ default : PyVal, answerOr rt default (.data data) =
      documentResponse rt (if data.truthy then data else default) 200 := by
    intro default
    unfold answerOr
    rw [HandlerResult.truthy_data]
    cases data.truthy <;> rfl
  rcases action with endpoint | _ | _
  · cases endpoint with
    | poll =>
      show answerPoll rt (.data data) = _
      unfold answerPoll
      rw [HandlerResult.truthy_data]
      cases data.truthy <;> rfl
    | register | result | event => exact hdefault _
    | heartbeat => rfl
  · rfl
  · rfl

/-- What is answered for data is no error. -/
theorem status_of_data {data : PyVal} (h : action.answer rt (.data data) = .ok response) :
    response.status < 400 := by
  rw [answer_data] at h
  split at h
  · cases h
    exact show 204 < 400 by decide
  · rw [(documentResponse_ok h).1]
    decide

/-- A response that is no error is what the handler returned, or an HTTP exception that is none
either. -/
theorem Means.of_lt (h : action.Means rt floatOf handler request response)
    (hread : ∀ status text str, action.read request ≠ .error (.http status text str))
    (hstatus : response.status < 400) :
    (∃ payload resp, action.Invokes floatOf handler request payload (.ok resp) ∧
        action.answer rt resp = .ok response) ∨
      ∃ payload text str,
        action.Invokes floatOf handler request payload (.error (.http response.status text str)) ∧
        failureResponse rt (.http response.status text str) = .ok response := by
  cases h with
  | returned hcall hanswer => exact Or.inl ⟨_, _, hcall, hanswer⟩
  | initializing _ h503 => omega
  | @failed e hfails hfailure =>
    right
    have hsame : response.status = e.status :=
      (documentResponse_ok ((failureResponse_eq rt e).symm.trans hfailure)).1
    rw [hsame] at hstatus ⊢
    cases e with
    | http status text str =>
      obtain ⟨payload, hcall⟩ := hfails.invokes (hread _ _ _) ofPy_ne_http
      exact ⟨payload, text, str, hcall, hfailure⟩
    | permission => exact absurd hstatus (by simp [HandlerError.status])
    | rateLimit => exact absurd hstatus (by simp [HandlerError.status])
    | value => exact absurd hstatus (by simp [HandlerError.status])
    | other => exact absurd hstatus (by simp [HandlerError.status])

/-- A response that is an error is one that was explained, or that the handler has finished, or
there is no handler yet. -/
theorem Means.of_ge (h : action.Means rt floatOf handler request response)
    (hstatus : 400 ≤ response.status) :
    (∃ e, action.Fails rt floatOf handler request e ∧ failureResponse rt e = .ok response ∧
        e.status = response.status) ∨
      (∃ payload, action.Invokes floatOf handler request payload (.ok (.finished response))) ∨
        handler = none ∧ response.status = 503 := by
  cases h with
  | failed hfails hfailure =>
    exact Or.inl ⟨_, hfails, hfailure,
      (documentResponse_ok ((failureResponse_eq rt _).symm.trans hfailure)).1.symm⟩
  | initializing hnone h503 => exact Or.inr (Or.inr ⟨hnone, h503⟩)
  | @returned payload resp hcall hanswer =>
    cases resp with
    | data => exact absurd (status_of_data hanswer) (Nat.not_lt.mpr hstatus)
    | finished finished =>
      rw [answer_finished] at hanswer
      cases hanswer
      exact Or.inr (Or.inl ⟨payload, hcall⟩)

end
end Action

/-! ## The application as a whole -/

section
variable (rt : Runtime rxonDecls) (floatOf : String → Option PyFloat)

/-- How the application responds: the endpoint of the route answers, and the middleware marks
the answer.  What an endpoint raises, and what fits no route, is answered by aiohttp. -/
inductive Responds (handler : Option (MessageHandler rt.orjson.Bytes)) (method path : String)
    (request : WebRequest) : WebResponse rt.orjson.Bytes → Prop
  | served {action : Action} {ids : List String} {response : WebResponse rt.orjson.Bytes}
      (hroute : resolve method path = some (.action action, ids))
      (hid : request.workerId = ids.head?)
      (h : action.serve rt floatOf handler request = .ok response) :
      Responds handler method path request response.withVersion
  | crashed {action : Action} {ids : List String} {e : PyError} {text : String}
      (hroute : resolve method path = some (.action action, ids))
      (hid : request.workerId = ids.head?)
      (h : action.serve rt floatOf handler request = .error e) :
      Responds handler method path request (textResponse rt 500 text)
  | unrouted {status : Nat} {text : String} (hroute : resolve method path = none)
      (hstatus : status = 404 ∨ status = 405) :
      Responds handler method path request (textResponse rt status text)

end
end Rxon
