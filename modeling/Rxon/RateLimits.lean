import Rxon.HttpListener
import Rxon.Signing

/-! # Rate limits over the wire

An orchestrator limits a worker by raising `RxonRateLimitError` in its handler.  The
listener answers 429 with the error's text and code, and `_request` raises the error
again from that answer, so that kind, message and code come through.

A `retry_after` does not: `_request` reads it from the `Retry-After` header, which the
listener never sends (`rateLimit_survives_iff`). -/

namespace Rxon

/-! ## The endpoints of a worker -/

inductive Endpoint where
  | register
  | poll
  | result
  | heartbeat
  | event
deriving DecidableEq

namespace Endpoint

/-- The message type that is handed to the handler. -/
def message : Endpoint → String
  | .register => "register"
  | .poll => "poll"
  | .result => "result"
  | .heartbeat => "heartbeat"
  | .event => "event"

section
variable (rt : Runtime rxonDecls) (floatOf : String → Option PyFloat)

def serve (handler : Option (MessageHandler rt.orjson.Bytes)) (request : WebRequest) :
    Endpoint → Except PyError (WebResponse rt.orjson.Bytes)
  | .register => handleRegister rt handler request
  | .poll => handlePoll rt handler request floatOf
  | .result => handleResult rt handler request
  | .heartbeat => handleHeartbeat rt handler request
  | .event => handleEvent rt handler request

end

/-- The endpoint comes to call the handler, with this payload and this context. -/
inductive Calls (floatOf : String → Option PyFloat) (request : WebRequest) :
    Endpoint → PyVal → Context → Prop
  | register {payload : PyVal} (h : request.payload = .ok payload) :
      Calls floatOf request .register payload (extractContext request)
  | poll {workerId : String} (h : given request.workerId = some workerId) :
      Calls floatOf request .poll (.str workerId) (pollContext request floatOf workerId)
  | result {payload : PyVal} (h : request.payload = .ok payload) :
      Calls floatOf request .result payload (extractContext request)
  | heartbeat {payload : PyVal}
      (h : (if request.canReadBody then request.payload else .ok .none) = .ok payload) :
      Calls floatOf request .heartbeat payload (heartbeatContext request)
  | event {payload : PyVal} (h : request.payload = .ok payload) :
      Calls floatOf request .event payload (extractContext request)

end Endpoint

section
variable {rt : Runtime rxonDecls} {floatOf : String → Option PyFloat}
  {handler : MessageHandler rt.orjson.Bytes} {request : WebRequest} {endpoint : Endpoint}
  {payload : PyVal} {context : Context}

theorem handle_of_raised {message : String} {read : Except HandlerError PyVal}
    {e : HandlerError}
    {answer : HandlerResult rt.orjson.Bytes → Except PyError (WebResponse rt.orjson.Bytes)}
    {initializing : Except PyError (WebResponse rt.orjson.Bytes)} (hread : read = .ok payload)
    (h : handler message payload context = .error e) :
    handle rt (some handler) message read context answer initializing = failureResponse rt e := by
  have hstep : handle rt (some handler) message (.ok payload) context answer initializing =
      guarded rt ((handler message payload context).bind fun resp =>
        (answer resp).mapError HandlerError.ofPy) := rfl
  rw [hread, hstep, h]
  rfl

/-- **Every endpoint answers what its handler raises in the same way.** -/
theorem serve_of_raised {e : HandlerError}
    (hcalls : endpoint.Calls floatOf request payload context)
    (h : handler endpoint.message payload context = .error e) :
    endpoint.serve rt floatOf (some handler) request = failureResponse rt e := by
  cases hcalls with
  | register hp =>
    rw [Endpoint.serve, handleRegister]
    exact handle_of_raised hp h
  | poll hw =>
    rw [Endpoint.serve, handlePoll, hw]
    exact handle_of_raised rfl h
  | result hp =>
    rw [Endpoint.serve, handleResult]
    exact handle_of_raised hp h
  | heartbeat hp =>
    rw [Endpoint.serve, handleHeartbeat]
    exact handle_of_raised hp h
  | event hp =>
    rw [Endpoint.serve, handleEvent]
    exact handle_of_raised hp h

end

/-! ## The answer on its way -/

section
variable {Bytes : Type}

/-- `version_middleware`, which sees every response of the application. -/
def WebResponse.withVersion (response : WebResponse Bytes) : WebResponse Bytes :=
  { response with headers := Assoc.set protocolVersionHeader protocolVersion response.headers }

/-- What `_request` reads of the response before its body. -/
def WebResponse.head (response : WebResponse Bytes) (httpDate : Option PyFloat) : Head where
  status := response.status
  version := response.headers.lookup protocolVersionHeader
  retryAfter := response.headers.lookup "Retry-After"
  httpDate := httpDate

end

/-- What a `_request` is answered that a JSON response reaches as a whole. -/
inductive Arrives (rt : Runtime rxonDecls) (response : WebResponse rt.orjson.Bytes) :
    List Answer → Prop
  | json {bytes : rt.orjson.Bytes} {data : Json} (hbody : response.body = .json bytes)
      (hload : rt.orjson.loads bytes = .ok data) (httpDate : Option PyFloat) :
      Arrives rt response [.head (response.head httpDate), .json data, .left]

/-- The answers lead from `point` to the end of the call, whatever other calls make of
the transport in between. -/
def Point.EndsIn (rt : Runtime rxonDecls) (floatOf : String → Option PyFloat) (point : Point)
    (outcome : Outcome) : List Answer → Prop
  | [] => point = .done outcome
  | answer :: answers => ∀ self, ∃ point' self',
      resume rt floatOf point answer self = some (point', self') ∧
        point'.EndsIn rt floatOf outcome answers

/-- A JSON response is written, and reads back as the normal form of its document. -/
theorem documentResponse_toPy (rt : Runtime rxonDecls) {j : Json} (h : Signable j) (status : Nat) :
    ∃ bytes, documentResponse rt j.toPy status =
        .ok ⟨status, [("Content-Type", "application/json; charset=utf-8")], .json bytes⟩ ∧
      rt.orjson.loads bytes = .ok j.canon := by
  obtain ⟨bytes, hbytes⟩ := encode_canon_isOk rt h
  have hdocument : toDict rt j.toPy 0 = .ok j.canon := toDict_ok rt h.wf h.ints h.depth
  have hagain : toDict rt j.canon.toPy 0 = .ok j.canon.canon :=
    toDict_ok rt (Json.wf_canon h.wf) (Json.intsFit_canon.mpr ⟨h.ints, h.floats⟩)
      (by rw [Json.keptDepth_canon]; exact h.depth)
  have htext : jsonDumps rt j.canon.toPy = .ok bytes := by
    rw [jsonDumps_of_toDict rt hagain, Json.canon_canon h.wf, hbytes]
  refine ⟨bytes, ?_, rt.orjson.loads_encode _ _ hbytes⟩
  rw [documentResponse, hdocument]
  show (jsonDumps rt j.canon.toPy).bind _ = _
  rw [htext]
  rfl

theorem Point.EndsIn.unique {rt : Runtime rxonDecls} {floatOf : String → Option PyFloat}
    {outcome outcome' : Outcome} {answers : List Answer} {point : Point}
    (h : point.EndsIn rt floatOf outcome answers) (h' : point.EndsIn rt floatOf outcome' answers) :
    outcome = outcome' := by
  induction answers generalizing point with
  | nil =>
    have hsame : Point.done outcome = .done outcome' := h.symm.trans h'
    cases hsame
    rfl
  | cons answer answers ih =>
    -- any transport will do
    let self := HttpTransport.init "" "" "" none
    obtain ⟨point₁, self₁, hresume, hends⟩ := h self
    obtain ⟨point₂, self₂, hresume', hends'⟩ := h' self
    rw [hresume] at hresume'
    cases hresume'
    exact ih hends hends'

/-! ## What the error becomes -/

/-- The document that a rate limit is answered. -/
def limitDocument (message : String) (code : Option String) : Json :=
  .obj [("error", .str message), ("code", (code.map Json.str).getD .null)]

/-- The error that `_request` raises from it. -/
def limitError (message : String) (code : Option String) : RxonError :=
  .rateLimit (.str message)
    (limitDetails none ++ (code.map fun c => ("code", PyVal.str c)).toList)

theorem toPy_limitDocument (message : String) (code : Option String) :
    (limitDocument message code).toPy = .dict [("error", .str message), ("code", optStr code)] := by
  cases code <;> rfl

theorem unique_limitDocument (message : String) (code : Option String) :
    Assoc.Unique [("error", Json.str message), ("code", (code.map Json.str).getD .null)] := by
  simp [Assoc.Unique, Assoc.keys]

theorem signable_limitDocument (message : String) (code : Option String) :
    Signable (limitDocument message code) := by
  have hu := unique_limitDocument message code
  cases code
  all_goals
    refine ⟨Json.wf_obj.mpr ⟨hu, ?_⟩, Json.intsFit_obj.mpr ?_, Json.floatsFit_obj.mpr ?_,
      Nat.le_add_left 1 29⟩
    all_goals simp [Json.IntsFit, Json.FloatsFit, Json.All, Json.nodes]

/-- The body of the answer is read as an error with that message and that code. -/
theorem onLimitBody_limitDocument (frame : Frame) {message : String} (hm : message ≠ "")
    (code : Option String) :
    onLimitBody frame none (limitDocument message code).canon =
      .leave frame (.raise (.error (limitError message code))) := by
  have herror : Json.shown (some (.str message)) = some (.str message) := rfl
  have hcode : Json.shown (some ((code.map Json.str).getD .null)) = code.map Json.str := by
    cases code <;> rfl
  have htruthy : (PyVal.str message).truthy = true := by
    simp [PyVal.truthy, hm]
  rw [limitDocument, Json.canon_obj, onLimitBody, Json.toPy_obj]
  simp only [Assoc.lookup_mapVal, Json.lookup_canon (unique_limitDocument message code)]
  have hfirst : List.lookup "error"
      [("error", Json.str message), ("code", (code.map Json.str).getD .null)] =
        some (.str message) := rfl
  have hsecond : List.lookup "code"
      [("error", Json.str message), ("code", (code.map Json.str).getD .null)] =
        some ((code.map Json.str).getD .null) := rfl
  rw [hfirst, hsecond, herror, hcode]
  show Point.leave frame _ = _
  simp only [Option.map_some, Option.getD_some, Json.toPy, htruthy, if_true, Option.map_map]
  rfl

/-- What a rate limit error is about, as the handler gave it: a message, details, and in
them a code or none. -/
structure RxonError.Limit (message : String) (details : List (String × PyVal))
    (code : Option String) (e : RxonError) : Prop where
  kind : e.kind = .rateLimit
  message : e.message = .str message
  code : e.details.lookup "code" = some (.str (code.getD errorCodeLimitExceeded))
  retryAfter : e.details.lookup "retry_after" = details.lookup "retry_after"

/-- The error that `_request` raises has no `retry_after`. -/
theorem limitError_limit_iff {message : String} {details : List (String × PyVal)}
    {code sent : Option String}
    (hsent : sent.getD errorCodeLimitExceeded = code.getD errorCodeLimitExceeded) :
    (limitError message sent).Limit message details code ↔ details.lookup "retry_after" = none := by
  have hretry : (limitError message sent).details.lookup "retry_after" = none := by
    cases sent <;> rfl
  have hcode : (limitError message sent).details.lookup "code" =
      some (.str (sent.getD errorCodeLimitExceeded)) := by
    cases sent <;> rfl
  constructor
  · intro h
    rw [← h.retryAfter, hretry]
  · intro h
    exact ⟨rfl, rfl, by rw [hcode, hsent], by rw [hretry, h]⟩

section
variable {rt : Runtime rxonDecls} {floatOf : String → Option PyFloat}
  {handler : MessageHandler rt.orjson.Bytes} {request : WebRequest} {endpoint : Endpoint}
  {payload : PyVal} {context : Context} {message : String} {details : List (String × PyVal)}
  {code : Option String}

variable (message) in
/-- The code that the listener sends; the constructor has put one where the key was
missing. -/
theorem exists_sent (hcode : (details.lookup "code").getD .none = optStr code) :
    ∃ sent : Option String, sent.getD errorCodeLimitExceeded = code.getD errorCodeLimitExceeded ∧
      ((RxonError.rateLimit (.str message) details).details.lookup "code").getD .none =
        optStr sent := by
  by_cases hkey : "code" ∈ Assoc.keys details
  · -- a key that is there is sent as it is, null included
    refine ⟨code, rfl, ?_⟩
    rw [RxonError.rateLimit, if_pos hkey, hcode]
  · have hnone : details.lookup "code" = none := Assoc.lookup_eq_none.mpr hkey
    have habsent : code = none := by
      rw [hnone] at hcode
      cases code with
      | none => rfl
      | some c => cases hcode
    refine ⟨some errorCodeLimitExceeded, by rw [habsent]; rfl, ?_⟩
    rw [RxonError.rateLimit, if_neg hkey]
    simp [List.lookup_append, hnone, optStr]

/-- From the handler to the end of `_request`: the answer is written, and whoever is
given it raises `limitError`. -/
theorem rateLimit_delivered (hm : message ≠ "")
    (hcode : (details.lookup "code").getD .none = optStr code)
    (hcalls : endpoint.Calls floatOf request payload context)
    (h : handler endpoint.message payload context =
      .error (.rateLimit (.rateLimit (.str message) details))) :
    ∃ response sent, endpoint.serve rt floatOf (some handler) request = .ok response ∧
      sent.getD errorCodeLimitExceeded = code.getD errorCodeLimitExceeded ∧
      (∃ answers, Arrives rt response.withVersion answers) ∧
      ∀ answers, Arrives rt response.withVersion answers → ∀ frame asked,
        (Point.response frame asked).EndsIn rt floatOf (.raised (limitError message sent))
          answers := by
  obtain ⟨sent, hdefault, hsent⟩ := exists_sent message hcode
  obtain ⟨bytes, hresponse, hload⟩ :=
    documentResponse_toPy rt (signable_limitDocument message sent) 429
  refine ⟨⟨429, [("Content-Type", "application/json; charset=utf-8")], .json bytes⟩, sent, ?_,
    hdefault, ⟨_, .json rfl hload none⟩, ?_⟩
  · rw [serve_of_raised hcalls h, ← hresponse, toPy_limitDocument, ← hsent]
    rfl
  · rintro answers ⟨hbody, hdata, httpDate⟩ frame asked self
    cases hbody
    rw [hload] at hdata
    cases hdata
    -- the head is a 429 without a delay, and the body is read as a document
    refine ⟨.limitBody frame none, _, rfl, fun self => ⟨_, self, rfl, fun self => ?_⟩⟩
    rw [onLimitBody_limitDocument frame hm]
    refine ⟨.done (.raised (limitError message sent)), self, ?_, rfl⟩
    cases hregistering : frame.registering with
    | true => simp [resume, onLeft, finish, surface, hregistering]
    | false => simp [resume, onLeft, finish, surface, hregistering]

variable (rt floatOf endpoint handler request message details code) in
/-- The endpoint answers, and the `_request` that the answer reaches raises the error that
the handler raised. -/
def Survives : Prop :=
  ∃ response, endpoint.serve rt floatOf (some handler) request = .ok response ∧
    (∃ answers, Arrives rt response.withVersion answers) ∧
    ∀ answers, Arrives rt response.withVersion answers → ∀ frame asked, ∃ e : RxonError,
      (Point.response frame asked).EndsIn rt floatOf (.raised e) answers ∧
        e.Limit message details code

/-- It does iff the error that it does raise is the same. -/
theorem survives_iff_limit (hm : message ≠ "")
    (hcode : (details.lookup "code").getD .none = optStr code)
    (hcalls : endpoint.Calls floatOf request payload context)
    (h : handler endpoint.message payload context =
      .error (.rateLimit (.rateLimit (.str message) details))) :
    Survives rt floatOf handler request endpoint message details code ↔
      ∃ sent : Option String, sent.getD errorCodeLimitExceeded = code.getD errorCodeLimitExceeded ∧
        (limitError message sent).Limit message details code := by
  obtain ⟨response, sent, hserve, hdefault, ⟨answers, harrives⟩, hends⟩ :=
    rateLimit_delivered hm hcode hcalls h
  constructor
  · rintro ⟨response', hserve', -, hraises⟩
    rw [hserve] at hserve'
    cases hserve'
    let frame : Frame := ⟨⟨"", "", .none, .none⟩, "", 0, false⟩
    obtain ⟨e, he, hlimit⟩ := hraises answers harrives frame ⟨"", "", .none, .none, []⟩
    cases (hends answers harrives frame _).unique he
    exact ⟨sent, hdefault, hlimit⟩
  · rintro ⟨sent', hdefault', hlimit⟩
    rw [limitError_limit_iff hdefault'] at hlimit
    exact ⟨response, hserve, ⟨answers, harrives⟩, fun answers harrives frame asked =>
      ⟨_, hends answers harrives frame asked, (limitError_limit_iff hdefault).mpr hlimit⟩⟩

/-- **A rate limit error survives the wire iff it has no `retry_after`.**  Its kind, its
message and its code, or the default one, always do. -/
theorem rateLimit_survives_iff (hm : message ≠ "")
    (hcode : (details.lookup "code").getD .none = optStr code)
    (hcalls : endpoint.Calls floatOf request payload context)
    (h : handler endpoint.message payload context =
      .error (.rateLimit (.rateLimit (.str message) details))) :
    Survives rt floatOf handler request endpoint message details code ↔
      details.lookup "retry_after" = none := by
  rw [survives_iff_limit hm hcode hcalls h]
  constructor
  · rintro ⟨sent, hdefault, hlimit⟩
    exact (limitError_limit_iff hdefault).mp hlimit
  · intro hretry
    exact ⟨code, rfl, (limitError_limit_iff rfl).mpr hretry⟩

end

/-- A heartbeat without a body. -/
def bareHeartbeat : WebRequest where
  id := 0
  workerId := some "w-1"
  query := []
  canReadBody := false
  json := .error (.value "no body")
  token := some "secret"
  workerIdHint := some "w-1"
  version := some protocolVersion
  certIdentity := none

/-- A handler that limits every call. -/
def limiting {Bytes : Type} (message : String) (details : List (String × PyVal)) :
    MessageHandler Bytes :=
  fun _ _ _ => .error (.rateLimit (.rateLimit (.str message) details))

/-- A custom code comes through. -/
theorem rateLimit_survives_custom_code :
    Survives (Runtime.reference rxonDecls fun _ => "") (fun _ => none)
      (limiting "Skill limit exceeded" [("code", .str "SKILL_QUOTA_EXCEEDED")]) bareHeartbeat
      .heartbeat "Skill limit exceeded" [("code", .str "SKILL_QUOTA_EXCEEDED")]
      (some "SKILL_QUOTA_EXCEEDED") :=
  (rateLimit_survives_iff (by decide) rfl (.heartbeat rfl) rfl).mpr rfl

/-- And the half minute that a worker is told to wait does not. -/
theorem retry_after_lost :
    ¬ Survives (Runtime.reference rxonDecls fun _ => "") (fun _ => none)
      (limiting "Too busy" [("retry_after", .int 30)]) bareHeartbeat .heartbeat "Too busy"
      [("retry_after", .int 30)] none := by
  rw [survives_iff_limit (by decide) rfl (.heartbeat rfl) rfl]
  rintro ⟨sent, hdefault, hlimit⟩
  cases (limitError_limit_iff hdefault).mp hlimit

end Rxon
