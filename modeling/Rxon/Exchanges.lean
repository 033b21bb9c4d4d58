import Rxon.Application
import Rxon.Tokens

/-! # Exchanges

Workers and their orchestrator, with the network between them.  Each worker's transport runs
any number of calls.  What a call sends may reach the listener late, more than once or never,
and so may the response; nothing else reaches either side.  The orchestrator's handler may
answer each time as it likes.

A call accounts for the exchange that it is in (`Point.Accounts`): what it reads is a response
to its own request, its headers carry the worker's own id, and a token that the worker was
given at the start or granted since (`run_accounted`). -/

namespace Rxon
open Interleaving

/-! ## Operations -/

/-- What a worker asks for. -/
inductive Operation where
  | register (m : PyVal)
  | poll (timeout : PyFloat) (availableSkills hotSkills : Option (List String))
  | result (m : PyVal)
  | heartbeat (m : PyVal)
  | event (m : PyVal)

namespace Operation

def endpoint : Operation → Endpoint
  | .register _ => .register
  | .poll _ _ _ => .poll
  | .result _ => .result
  | .heartbeat _ => .heartbeat
  | .event _ => .event

/-- The arguments of the `_request` that the operation makes. -/
def args (self : HttpTransport) : Operation → RequestArgs
  | .register m => ⟨"POST", endpointWorkerRegister, .none, m⟩
  | .poll timeout availableSkills hotSkills => pollRequest self timeout availableSkills hotSkills
  | .result m => ⟨"POST", endpointTaskResult, .none, m⟩
  | .heartbeat m => ⟨"PATCH", endpointWorkerHeartbeat self.workerId, .none, m⟩
  | .event m => ⟨"POST", endpointWorkerEvents, .none, m⟩

/-- What the operation hands over. -/
def document (workerId : String) : Operation → PyVal
  | .poll _ _ _ => .str workerId
  | .register m | .result m | .heartbeat m | .event m => m

end Operation

/-- A call of a transport: an operation, or a refresh of the tokens. -/
inductive WorkerCall where
  | operation (op : Operation)
  | refreshToken

def WorkerCall.call (self : HttpTransport) : WorkerCall → TransportCall
  | .operation (.register m) => .register m
  | .operation op => .request (op.args self)
  | .refreshToken => .refreshToken

/-! ## The network -/

section
variable (rt : Runtime rxonDecls)

/-- `None` or the text that stands in a header. -/
def Request.header (request : Request) (name : String) : PyVal :=
  (request.headers.lookup name).getD .none

/-- A request as the listener gets it: query, headers and body arrive as they were sent. -/
structure Conveys (sent : Request) (request : WebRequest) : Prop where
  query : ∀ params, sent.params = .dict params → ∀ k,
    request.query.lookup k = (params.lookup k).map (queryText rt.pyStr)
  token : optStr request.token = sent.header authHeaderWorker
  workerIdHint : optStr request.workerIdHint = sent.header authHeaderWorkerId
  version : optStr request.version = sent.header protocolVersionHeader
  body : (sent.json = .none ∧ request.canReadBody = false ∧
      ∃ str, request.json = .error (.value str)) ∨
    sent.json ≠ .none ∧ request.canReadBody = true ∧
      ∃ bytes d, jsonDumps rt sent.json = .ok bytes ∧ rt.orjson.loads bytes = .ok d ∧
        request.json = .ok d

end

/-- The client does not return the response, but follows it to where it says. -/
def WebResponse.redirects {Bytes : Type} (response : WebResponse Bytes) : Bool :=
  [301, 302, 303, 307, 308].contains response.status &&
    ((given (response.headers.lookup "Location")).isSome ||
      (response.headers.lookup "URI").isSome)

/-- The value that a call makes of the response. -/
def WebResponse.Says (rt : Runtime rxonDecls) (response : WebResponse rt.orjson.Bytes)
    (v : PyVal) : Prop :=
  response.status = 204 ∧ v = .none ∨
    response.status ≠ 204 ∧ response.status < 400 ∧
      ∃ bytes d, response.body = .json bytes ∧ rt.orjson.loads bytes = .ok d ∧ v = d.toPy

namespace Exchanges

/-- A request in the network, with the call that has sent it. -/
structure Sent (ι : Type) where
  worker : ι
  call : Nat
  request : Request

/-- A request that was handled: as it was sent, as it arrived, by which handler, and what was
responded. -/
structure Exchange (ι Bytes : Type) extends Sent ι where
  received : WebRequest
  handler : Option (MessageHandler Bytes)
  response : WebResponse Bytes

section
variable {ι : Type} (rt : Runtime rxonDecls) (floatOf : String → Option PyFloat)

/-- The exchange is one that can take place: the request arrives, the application responds, and
the response is the worker's answer, no redirect that its client follows to another address. -/
structure Exchange.Takes (x : Exchange ι rt.orjson.Bytes) : Prop where
  conveys : Conveys rt x.request x.received
  responds : Responds rt floatOf x.handler x.request.method (urlPath x.request.url) x.received
    x.response
  stays : x.response.redirects = false

/-- The system: the workers' transports with their calls, what these were called for, the
requests that were sent, the exchanges so far, and the one whose response a call is reading. -/
structure World (ι : Type) where
  clients : ι → Program.Config HttpTransport Point
  calls : ι → List WorkerCall
  sent : List (Sent ι)
  log : List (Exchange ι rt.orjson.Bytes)
  reading : ι → Nat → Option (Exchange ι rt.orjson.Bytes)

/-- What a worker is built with. -/
structure Worker where
  baseUrl : String
  workerId : String
  token : String
  session : Option Nat

def Worker.transport (worker : Worker) : HttpTransport :=
  HttpTransport.init worker.baseUrl worker.workerId worker.token worker.session

/-- Before anything has happened. -/
def World.initial (workers : ι → Worker) : World rt ι where
  clients k := ⟨(workers k).transport, []⟩
  calls _ := []
  sent := []
  log := []
  reading _ _ := none

inductive Event (ι Bytes : Type) where
  | call (worker : ι) (call : WorkerCall)
  | handle (x : Exchange ι Bytes)
  | resume (worker : ι) (call : Nat) (answer : Answer)

/-- An await of the call has failed so. -/
def Met {ι Bytes : Type} (es : List (Event ι Bytes)) (k : ι) (i : Nat) (f : Fault) : Prop :=
  .resume k i (.fault f) ∈ es

end

/-- The request that a call has sent when it is suspended here. -/
def asks : Point → Option Request
  | .response _ sent | .refresh _ sent => some sent
  | _ => none

section
variable {ι : Type} (rt : Runtime rxonDecls) (floatOf : String → Option PyFloat)

/-- What a call may be answered, and the response that it reads from then on: the head of any
response to what it has sent, the document in the body of the one that it reads, and anything
else that can come of an await. -/
inductive Delivers (log : List (Exchange ι rt.orjson.Bytes)) (k : ι) (i : Nat) (point : Point) :
    Option (Exchange ι rt.orjson.Bytes) → Answer → Option (Exchange ι rt.orjson.Bytes) → Prop
  | head {reading : Option (Exchange ι rt.orjson.Bytes)} {x : Exchange ι rt.orjson.Bytes}
      {sent : Request} (httpDate : Option PyFloat) (hasks : asks point = some sent)
      (hx : x ∈ log) (hown : x.toSent = ⟨k, i, sent⟩) :
      Delivers log k i point reading (.head (x.response.head httpDate)) (some x)
  | json {x : Exchange ι rt.orjson.Bytes} {bytes : rt.orjson.Bytes} {data : Json}
      (hbody : x.response.body = .json bytes) (hload : rt.orjson.loads bytes = .ok data) :
      Delivers log k i point (some x) (.json data) (some x)
  | text (reading : Option (Exchange ι rt.orjson.Bytes)) (text : String) :
      Delivers log k i point reading (.text text) reading
  | left (reading : Option (Exchange ι rt.orjson.Bytes)) :
      Delivers log k i point reading .left reading
  | fault (reading : Option (Exchange ι rt.orjson.Bytes)) (f : Fault) :
      Delivers log k i point reading (.fault f) reading

/-- What a call has sent by a step, if it has come to ask. -/
def newlySent (k : ι) (i : Nat) (c : Program.Config HttpTransport Point) : List (Sent ι) :=
  ((c.points[i]?.bind asks).map (Sent.mk k i)).toList

/-- One step of the system: a worker makes a call, the listener handles a request that was sent
at some time, or a call goes on. -/
inductive Step [DecidableEq ι] :
    World rt ι → Event ι rt.orjson.Bytes → World rt ι → Prop
  | call (w : World rt ι) (k : ι) (call : WorkerCall) (c : Program.Config HttpTransport Point)
      (h : (transportProgram rt floatOf).Step (w.clients k)
        (.start (call.call (w.clients k).shared)) c) :
      Step w (.call k call)
        { w with
          clients := Function.update w.clients k c
          calls := Function.update w.calls k (w.calls k ++ [call])
          sent := w.sent ++ newlySent k (w.clients k).points.length c }
  | handle (w : World rt ι) (x : Exchange ι rt.orjson.Bytes) (hsent : x.toSent ∈ w.sent)
      (h : x.Takes rt floatOf) :
      Step w (.handle x) { w with log := w.log ++ [x] }
  | resume (w : World rt ι) (k : ι) (i : Nat) (point : Point) (answer : Answer)
      (reading : Option (Exchange ι rt.orjson.Bytes)) (c : Program.Config HttpTransport Point)
      (hi : (w.clients k).points[i]? = some point)
      (hd : Delivers rt w.log k i point (w.reading k i) answer reading)
      (h : (transportProgram rt floatOf).Step (w.clients k) (.resume i answer) c) :
      Step w (.resume k i answer)
        { w with
          clients := Function.update w.clients k c
          sent := w.sent ++ newlySent k i c
          reading := Function.update w.reading k (Function.update (w.reading k) i reading) }

end

/-! ## What a call accounts for -/

section
variable {ι : Type} {rt : Runtime rxonDecls}

/-- The request of an operation, with these headers. -/
def Worker.request (worker : Worker) (op : Operation) (headers : List (String × PyVal)) :
    Request where
  method := (op.args worker.transport).method
  url := worker.transport.baseUrl ++ (op.args worker.transport).endpoint
  params := (op.args worker.transport).params
  json := (op.args worker.transport).json
  headers := headers

/-- The locals of the call that makes an operation's request. -/
structure Worker.Frames (worker : Worker) (op : Operation) (frame : Frame) : Prop where
  args : frame.args = op.args worker.transport
  url : frame.url = worker.transport.baseUrl ++ frame.args.endpoint
  registering : frame.registering = decide (op.endpoint = .register)
  attempt : frame.attempt < 2

/-- The endpoints whose responses are taken for tokens. -/
def tokenActions : List Action := [.worker .register, .stsToken, .stsRefresh]

/-- The exchange has granted the worker these tokens. -/
def Exchange.Grants (x : Exchange ι rt.orjson.Bytes) (worker : Worker) (pair : PyVal × PyVal) :
    Prop :=
  (∃ action ∈ tokenActions, x.request.method = (Target.action action).method ∧
      x.request.url =
        worker.transport.baseUrl ++ (Target.action action).endpoint worker.workerId) ∧
    x.response.status < 400 ∧ ∃ bytes d, x.response.body = .json bytes ∧
      rt.orjson.loads bytes = .ok d ∧ Rxon.Grants rt d.toPy pair

section
variable (log : List (Exchange ι rt.orjson.Bytes)) (k : ι) (worker : Worker)

/-- The tokens that the worker was built with, or some that it was granted. -/
def Held (pair : PyVal × PyVal) : Prop :=
  pair = worker.transport.pair ∨ ∃ x ∈ log, x.worker = k ∧ x.Grants worker pair

/-- Headers with the worker's id, the protocol's version and a token that is held. -/
structure Bearing (headers : List (String × PyVal)) : Prop where
  workerId : headers.lookup authHeaderWorkerId = some (.str worker.workerId)
  version : headers.lookup protocolVersionHeader = some (.str protocolVersion)
  token : ∃ pair, Held log k worker pair ∧ headers.lookup authHeaderWorker = some pair.1

/-- A transport that is the worker's, and holds tokens that are its own. -/
structure Steady (transport : HttpTransport) : Prop where
  baseUrl : transport.baseUrl = worker.transport.baseUrl
  workerId : transport.workerId = worker.workerId
  session : transport.session = worker.session
  held : Held log k worker transport.pair
  header : transport.header? = some transport.token
  workerIdHeader : transport.headers.lookup authHeaderWorkerId = some (.str worker.workerId)
  versionHeader : transport.headers.lookup protocolVersionHeader = some (.str protocolVersion)

/-- A request for new tokens: by the refresh token that is held, or by the access token. -/
inductive Refreshes : Request → Prop
  | token {headers : List (String × PyVal)} (hb : Bearing log k worker headers) :
      Refreshes ⟨"POST", worker.transport.baseUrl ++ stsTokenEndpoint, .none, .none, headers⟩
  | refresh {headers : List (String × PyVal)} {pair : PyVal × PyVal}
      (hb : Bearing log k worker headers) (hheld : Held log k worker pair) :
      Refreshes ⟨"POST", worker.transport.baseUrl ++ stsRefreshEndpoint, .none,
        .dict [("refresh_token", pair.2)], headers⟩

variable (i : Nat)

/-- An exchange of the call's own request for an operation. -/
structure Own (op : Operation) (x : Exchange ι rt.orjson.Bytes) : Prop where
  mem : x ∈ log
  sent : ∃ headers, x.toSent = ⟨k, i, worker.request op headers⟩

/-- The call has got the value that it returns from a response to its own request. -/
def Returns (op : Operation) (v : PyVal) : Prop :=
  ∃ x, Own log k worker i op x ∧ x.response.Says rt v

variable (met : Fault → Prop)

/-- What a call without a session raises. -/
def notConnected : RxonError :=
  ⟨.network, .str "Transport not connected. Call connect() first.", []⟩

/-- What an error that a call raises comes from: a response to its own request, a fault that it
has met, or that there is no session. -/
inductive Raises (op : Operation) : RxonError → Prop
  | unauthorized {x : Exchange ι rt.orjson.Bytes} (hx : Own log k worker i op x)
      (h401 : x.response.status = 401) :
      Raises op (unauthorized (op.args worker.transport))
  | limited {x : Exchange ι rt.orjson.Bytes} {e : RxonError} (hx : Own log k worker i op x)
      (h429 : x.response.status = 429) (hkind : e.kind = .rateLimit) : Raises op e
  | failed {x : Exchange ι rt.orjson.Bytes} {text : String} (hx : Own log k worker i op x)
      (h400 : 400 ≤ x.response.status) (h401 : x.response.status ≠ 401)
      (h429 : x.response.status ≠ 429) :
      Raises op ⟨.protocol, .str s!"HTTP {x.response.status}: {text}",
        [("status", .int x.response.status)]⟩
  | lost {f : Fault} {e : RxonError} (hf : met f)
      (he : surface (op.args worker.transport) (.fault f) = .raised e) : Raises op e
  | unconnected (h : worker.session = none) : Raises op notConnected

/-- How a call for an operation ends. -/
def Ends (op : Operation) : Outcome → Prop
  | .returned v => Returns log k worker i op v
  | .raised e => Raises log k worker i met op e
  | .interrupted => True

/-- How the context of a response is left. -/
def Leaves (op : Operation) (frame : Frame) : Exit → Prop
  | .return v => Returns log k worker i op v
  | .raise (.error e) => Raises log k worker i met op e
  | .raise (.fault f) => met f
  | .resend headers => frame.attempt = 0 ∧ Bearing log k worker headers

variable (call : WorkerCall)

/-- The locals of the call, which is for the operation. -/
def InFrame (op : Operation) (frame : Frame) : Prop :=
  call = .operation op ∧ worker.Frames op frame

/-- Who awaits a refresh: nobody, or a call whose first attempt was answered 401. -/
def Awaits : Option Frame → Prop
  | none => call = .refreshToken
  | some frame => frame.attempt = 0 ∧ ∃ op, InFrame worker call op frame ∧
      ∃ x, Own log k worker i op x ∧ x.response.status = 401

/-- The call reads a response to its own request, with a status of which `P` holds. -/
def ReadsOwn (reading : Option (Exchange ι rt.orjson.Bytes)) (op : Operation) (P : Nat → Prop) :
    Prop :=
  ∃ x, reading = some x ∧ Own log k worker i op x ∧ P x.response.status

/-- **What a suspended call accounts for**, with the exchange whose response it reads. -/
def Accounts (reading : Option (Exchange ι rt.orjson.Bytes)) : Point → Prop
  | .response frame sent => ∃ op headers, InFrame worker call op frame ∧
      sent = worker.request op headers ∧ Bearing log k worker headers
  | .body frame => ∃ op, InFrame worker call op frame ∧
      ReadsOwn log k worker i reading op fun status => status ≠ 204 ∧ status < 400
  | .limitBody frame _ | .limitText frame _ _ | .limitFallback frame _ =>
    ∃ op, InFrame worker call op frame ∧ ReadsOwn log k worker i reading op (· = 429)
  | .errorText frame status => ∃ op, InFrame worker call op frame ∧
      ReadsOwn log k worker i reading op fun s => s = status ∧ 400 ≤ s ∧ s ≠ 401 ∧ s ≠ 429
  | .leave frame exit => ∃ op, InFrame worker call op frame ∧
      Leaves log k worker i met op frame exit
  | .refresh outer sent => Awaits log k worker i call outer ∧ Refreshes log k worker sent
  | .refreshBody outer sent => Awaits log k worker i call outer ∧ Refreshes log k worker sent ∧
      ∃ x ∈ log, reading = some x ∧ x.toSent = ⟨k, i, sent⟩ ∧ x.response.status = 200
  | .refreshLeave outer result => Awaits log k worker i call outer ∧
      (result = none → met .interrupted)
  | .done outcome => ∀ op, call = .operation op → Ends log k worker i met op outcome

end

/-! ### The log only grows -/

section
variable {log log' : List (Exchange ι rt.orjson.Bytes)} {k : ι} {worker : Worker} {i : Nat}
  {call : WorkerCall} {op : Operation} {pair : PyVal × PyVal} {self : HttpTransport}
  {headers : List (String × PyVal)} {sent : Request}
  {reading : Option (Exchange ι rt.orjson.Bytes)} {point : Point} {met met' : Fault → Prop}

theorem Held.mono (h : Held log k worker pair) (hlog : log ⊆ log') : Held log' k worker pair :=
  h.imp_right fun ⟨x, hx, hgrants⟩ => ⟨x, hlog hx, hgrants⟩

theorem Bearing.mono (h : Bearing log k worker headers) (hlog : log ⊆ log') :
    Bearing log' k worker headers :=
  { h with token := h.token.imp fun _ ⟨hheld, ht⟩ => ⟨hheld.mono hlog, ht⟩ }

theorem Steady.mono (h : Steady log k worker self) (hlog : log ⊆ log') :
    Steady log' k worker self :=
  { h with held := h.held.mono hlog }

theorem Refreshes.mono (h : Refreshes log k worker sent) (hlog : log ⊆ log') :
    Refreshes log' k worker sent := by
  cases h with
  | token hb => exact .token (hb.mono hlog)
  | refresh hb hheld => exact .refresh (hb.mono hlog) (hheld.mono hlog)

theorem Own.mono {x : Exchange ι rt.orjson.Bytes} (h : Own log k worker i op x)
    (hlog : log ⊆ log') : Own log' k worker i op x :=
  { h with mem := hlog h.mem }

theorem Returns.mono {v : PyVal} (h : Returns log k worker i op v) (hlog : log ⊆ log') :
    Returns log' k worker i op v :=
  h.imp fun _ ⟨hx, hsaid⟩ => ⟨hx.mono hlog, hsaid⟩

theorem Raises.mono {e : RxonError} (h : Raises log k worker i met op e) (hlog : log ⊆ log')
    (hmet : ∀ f, met f → met' f) : Raises log' k worker i met' op e := by
  cases h with
  | unauthorized hx h401 => exact .unauthorized (hx.mono hlog) h401
  | limited hx h429 hkind => exact .limited (hx.mono hlog) h429 hkind
  | failed hx h400 h401 h429 => exact .failed (hx.mono hlog) h400 h401 h429
  | lost hf he => exact .lost (hmet _ hf) he
  | unconnected h => exact .unconnected h

theorem Ends.mono {outcome : Outcome} (h : Ends log k worker i met op outcome)
    (hlog : log ⊆ log') (hmet : ∀ f, met f → met' f) : Ends log' k worker i met' op outcome := by
  cases outcome with
  | returned v => exact Returns.mono h hlog
  | raised e => exact Raises.mono h hlog hmet
  | interrupted => trivial

theorem Leaves.mono {frame : Frame} {exit : Exit} (h : Leaves log k worker i met op frame exit)
    (hlog : log ⊆ log') (hmet : ∀ f, met f → met' f) :
    Leaves log' k worker i met' op frame exit := by
  rcases exit with v | ⟨f | e⟩ | headers
  · exact Returns.mono h hlog
  · exact hmet f h
  · exact Raises.mono h hlog hmet
  · exact ⟨h.1, h.2.mono hlog⟩

theorem ReadsOwn.mono {P : Nat → Prop} (h : ReadsOwn log k worker i reading op P)
    (hlog : log ⊆ log') : ReadsOwn log' k worker i reading op P :=
  h.imp fun _ ⟨hr, hx, hp⟩ => ⟨hr, hx.mono hlog, hp⟩

theorem Awaits.mono {outer : Option Frame} (h : Awaits log k worker i call outer)
    (hlog : log ⊆ log') : Awaits log' k worker i call outer := by
  cases outer with
  | none => exact h
  | some frame =>
    obtain ⟨hattempt, op, hframe, x, hx, h401⟩ := h
    exact ⟨hattempt, op, hframe, x, hx.mono hlog, h401⟩

theorem Accounts.mono (h : Accounts log k worker i met call reading point) (hlog : log ⊆ log')
    (hmet : ∀ f, met f → met' f) : Accounts log' k worker i met' call reading point := by
  cases point with
  | response frame sent =>
    obtain ⟨op, headers, hframe, hsent, hb⟩ := h
    exact ⟨op, headers, hframe, hsent, hb.mono hlog⟩
  | body | limitBody | limitText | limitFallback | errorText =>
    obtain ⟨op, hframe, hreads⟩ := h
    exact ⟨op, hframe, hreads.mono hlog⟩
  | leave frame exit =>
    obtain ⟨op, hframe, hleaves⟩ := h
    exact ⟨op, hframe, hleaves.mono hlog hmet⟩
  | refresh outer sent => exact ⟨h.1.mono hlog, h.2.mono hlog⟩
  | refreshBody outer sent =>
    obtain ⟨houter, hsent, x, hx, hown⟩ := h
    exact ⟨houter.mono hlog, hsent.mono hlog, x, hlog hx, hown⟩
  | refreshLeave outer result => exact ⟨h.1.mono hlog, fun hnone => hmet _ (h.2 hnone)⟩
  | done outcome => exact fun op hop => (h op hop).mono hlog hmet

end

/-! ## What a step keeps -/

section
variable {floatOf : String → Option PyFloat} {log : List (Exchange ι rt.orjson.Bytes)} {k : ι}
  {worker : Worker} {i : Nat} {call : WorkerCall} {op : Operation} {self self' : HttpTransport}
  {reading reading' : Option (Exchange ι rt.orjson.Bytes)} {point point' : Point} {answer : Answer}
  {frame : Frame} {outer : Option Frame} {headers : List (String × PyVal)} {met : Fault → Prop}

theorem Steady.bearing (h : Steady log k worker self) : Bearing log k worker self.headers :=
  ⟨h.workerIdHeader, h.versionHeader, self.pair, h.held, h.header⟩

/-- What a transport with its worker's fields asks a refresh with. -/
theorem Steady.refreshes (h : Steady log k worker self) :
    Refreshes log k worker (refreshRequest self) := by
  have hb : Bearing log k worker
      (Assoc.set authHeaderWorkerId (.str self.workerId) self.headers) := by
    have hversion : protocolVersionHeader ≠ authHeaderWorkerId := by decide
    have htoken : authHeaderWorker ≠ authHeaderWorkerId := by decide
    refine ⟨?_, ?_, self.pair, h.held, ?_⟩
    · rw [Assoc.lookup_set_self, h.workerId]
    · rw [Assoc.lookup_set_ne hversion, h.versionHeader]
    · rw [Assoc.lookup_set_ne htoken]
      exact h.header
  unfold refreshRequest
  dsimp only
  rw [h.baseUrl]
  split
  · exact .refresh hb h.held
  · exact .token hb

theorem Worker.Frames.sendRequest (h : worker.Frames op frame) (headers : List (String × PyVal)) :
    sendRequest frame headers = .response frame (worker.request op headers) := by
  unfold Rxon.sendRequest Worker.request
  rw [h.url, h.args]

theorem ends_surface {f : Fault} (hf : met f) :
    Ends log k worker i met op (surface (op.args worker.transport) (.fault f)) := by
  cases he : surface (op.args worker.transport) (.fault f) with
  | returned v => exact absurd he (surface_ne_returned _ _ _)
  | raised e => exact .lost hf he
  | interrupted => trivial

theorem accounts_surface (hframe : InFrame worker call op frame) {f : Fault} (hf : met f) :
    Accounts log k worker i met call reading (.done (surface frame.args (.fault f))) := by
  intro op' hop'
  cases hframe.1.symm.trans hop'
  rw [hframe.2.args]
  exact ends_surface hf

/-- A refresh that a fault leaves without a result was interrupted. -/
theorem interrupted_of_result {f : Fault} (hf : met f) (h : f.result? = none) :
    met .interrupted := by
  cases f with
  | interrupted => exact hf
  | client | timeout | contentType | value | unexpected => cases h

/-- A refresh is over: the call that awaits it sends its request again, or is refused. -/
theorem accounts_refreshOver (hself : Steady log k worker self)
    (houter : Awaits log k worker i call outer) {res : Option PyVal}
    (hres : res = none → met .interrupted) :
    Accounts log k worker i met call reading (refreshOver outer self res) := by
  cases outer with
  | none =>
    have hnot : ∀ op, call ≠ .operation op := fun op hop => by
      rw [show call = .refreshToken from houter] at hop
      cases hop
    cases res <;> exact fun op hop => absurd hop (hnot op)
  | some frame =>
    obtain ⟨hattempt, op, hframe, x, hx, h401⟩ := houter
    cases res with
    | none => exact ⟨op, hframe, hres rfl⟩
    | some res =>
      have hover : refreshOver (some frame) self (some res) =
          if res.truthy then .leave frame (.resend self.headers)
          else .leave frame (.raise (.error (unauthorized frame.args))) := rfl
      rw [hover]
      split
      · exact ⟨op, hframe, hattempt, hself.bearing⟩
      · refine ⟨op, hframe, ?_⟩
        rw [hframe.2.args]
        exact .unauthorized hx h401

/-- But for the head of a response, nothing changes what a call reads. -/
theorem Delivers.same (hd : Delivers rt log k i point reading answer reading')
    (hanswer : ∀ head, answer ≠ .head head) : reading' = reading := by
  cases hd with
  | head => exact absurd rfl (hanswer _)
  | json | text | left | fault => rfl

/-- The head of a response, to whoever has asked for it. -/
theorem Delivers.asked {head : Head} {sent : Request} (hasks : asks point = some sent)
    (hd : Delivers rt log k i point reading (.head head) reading') :
    ∃ x ∈ log, reading' = some x ∧ x.toSent = ⟨k, i, sent⟩ ∧ head.status = x.response.status := by
  cases hd with
  | @head _ x sent' httpDate hasks' hx hown =>
    rw [hasks] at hasks'
    cases hasks'
    exact ⟨x, hx, rfl, hown, rfl⟩

theorem Accounts.responded {sent : Request} {head : Head}
    (h : Accounts log k worker i met call reading (.response frame sent))
    (hd : Delivers rt log k i (.response frame sent) reading (.head head) reading') :
    ∃ op x, InFrame worker call op frame ∧ reading' = some x ∧ Own log k worker i op x ∧
      head.status = x.response.status := by
  obtain ⟨op, headers, hframe, rfl, -⟩ := h
  obtain ⟨x, hx, hreading, hown, hstatus⟩ := hd.asked rfl
  exact ⟨op, x, hframe, hreading, ⟨hx, headers, hown⟩, hstatus⟩

/-- **Each step of a call accounts for what it comes to.** -/
theorem Accounts.resume (h : Accounts log k worker i met call reading point)
    (hself : Steady log k worker self) (hd : Delivers rt log k i point reading answer reading')
    (hmet : ∀ f, answer = .fault f → met f)
    (hr : resume rt floatOf point answer self = some (point', self')) :
    Accounts log k worker i met call reading' point' := by
  cases resume_advances hr with
  | noContent h204 =>
    obtain ⟨op, x, hframe, -, hx, hstatus⟩ := h.responded hd
    exact ⟨op, hframe, x, hx, Or.inl ⟨hstatus ▸ h204, rfl⟩⟩
  | unauthorized h401 =>
    obtain ⟨op, x, hframe, -, hx, hstatus⟩ := h.responded hd
    refine ⟨op, hframe, ?_⟩
    rw [hframe.2.args]
    exact .unauthorized hx (hstatus ▸ h401)
  | @refresh frame sent head h401 h0 =>
    obtain ⟨op, x, hframe, -, hx, hstatus⟩ := h.responded hd
    obtain ⟨b, hwarn⟩ := warnVersion_eq head self
    rw [hwarn]
    exact ⟨⟨h0, op, hframe, x, hx, hstatus ▸ h401⟩, hself.refreshes⟩
  | limited h429 =>
    obtain ⟨op, x, hframe, hreading, hx, hstatus⟩ := h.responded hd
    exact ⟨op, hframe, x, hreading, hx, hstatus ▸ h429⟩
  | failed h400 h401 h429 =>
    obtain ⟨op, x, hframe, hreading, hx, hstatus⟩ := h.responded hd
    exact ⟨op, hframe, x, hreading, hx, hstatus.symm, hstatus ▸ h400, hstatus ▸ h401,
      hstatus ▸ h429⟩
  | answered h204 h400 =>
    obtain ⟨op, x, hframe, hreading, hx, hstatus⟩ := h.responded hd
    exact ⟨op, hframe, x, hreading, hx, hstatus ▸ h204, hstatus ▸ h400⟩
  | lost =>
    obtain ⟨op, headers, hframe, -, -⟩ := h
    exact accounts_surface hframe (hmet _ rfl)
  | document =>
    obtain ⟨op, hframe, x, hreading, hx, h204, h400⟩ := h
    cases hd with
    | json hbody hload =>
      cases hreading
      exact ⟨op, hframe, x, hx, Or.inr ⟨h204, h400, _, _, hbody, hload, rfl⟩⟩
  | bodyFault | limitFault | textFault | fallbackFault | errorFault =>
    obtain ⟨op, hframe, -⟩ := h
    exact ⟨op, hframe, hmet _ rfl⟩
  | limitDocument he =>
    obtain ⟨op, hframe, x, -, hx, h429⟩ := h
    refine ⟨op, hframe, .limited hx h429 ?_⟩
    rw [he]
    rfl
  | limitOther | limitReread | textReread =>
    obtain ⟨op, hframe, hreads⟩ := h
    rw [← hd.same fun _ h => by cases h] at hreads
    exact ⟨op, hframe, hreads⟩
  | limitText | fallback =>
    obtain ⟨op, hframe, x, -, hx, h429⟩ := h
    exact ⟨op, hframe, .limited hx h429 rfl⟩
  | errorText =>
    obtain ⟨op, hframe, x, -, hx, rfl, h400, h401, h429⟩ := h
    exact ⟨op, hframe, .failed hx h400 h401 h429⟩
  | returned =>
    obtain ⟨op, hframe, hreturns⟩ := h
    intro op' hop'
    cases hframe.1.symm.trans hop'
    exact hreturns
  | @raised frame e =>
    obtain ⟨op, hframe, hraises⟩ := h
    cases e with
    | fault f => exact accounts_surface hframe hraises
    | error e =>
      intro op' hop'
      cases hframe.1.symm.trans hop'
      exact hraises
  | @resent frame _ hlast =>
    obtain ⟨op, hframe, -, hb⟩ := h
    have hnext : worker.Frames op { frame with attempt := frame.attempt + 1 } :=
      { hframe.2 with attempt := hlast }
    rw [hnext.sendRequest]
    exact ⟨op, _, ⟨hframe.1, hnext⟩, rfl, hb⟩
  | exhausted hlast =>
    obtain ⟨op, hframe, hattempt, -⟩ := h
    rw [hattempt] at hlast
    exact absurd (by decide) hlast
  | leaveFault =>
    obtain ⟨op, hframe, -⟩ := h
    exact accounts_surface hframe (hmet _ rfl)
  | granted h200 =>
    obtain ⟨x, hx, hreading, hown, hstatus⟩ := hd.asked rfl
    exact ⟨h.1, h.2, x, hx, hreading, hown, hstatus ▸ h200⟩
  | refused => exact ⟨h.1, fun hnone => by cases hnone⟩
  | refreshFault => exact accounts_refreshOver hself h.1 (interrupted_of_result (hmet _ rfl))
  | adopted => exact ⟨h.1, fun hnone => by cases hnone⟩
  | refreshBodyFault => exact ⟨h.1, interrupted_of_result (hmet _ rfl)⟩
  | refreshLeft => exact accounts_refreshOver hself h.1 h.2
  | refreshLeaveFault =>
    exact accounts_refreshOver hself h.1 (interrupted_of_result (hmet _ rfl))

theorem not_grants_none {pair : PyVal × PyVal} : ¬ Rxon.Grants rt PyVal.none pair := by
  rintro ⟨head, fs, hfs, -⟩
  have hnone := fromDict_of_not_obj rt tokenResponse_lookup (d := .null) (S := .none)
    fun kvs h => by cases h
  rw [Json.toPy, hfs] at hnone
  cases hnone

/-- What a call takes for tokens was granted by an exchange of its own. -/
theorem Accounts.granted (h : Accounts log k worker i met call reading point) {v : PyVal}
    {pair : PyVal × PyVal} (hd : Delivers rt log k i point reading answer reading')
    (hv : offered point answer = some v) (hgrants : Rxon.Grants rt v pair) :
    Held log k worker pair := by
  unfold offered at hv
  split at hv
  · -- the body of a refresh
    cases hv
    obtain ⟨-, hsent, x, hx, rfl, hown, h200⟩ := h
    cases hd with
    | json hbody hload =>
      have hrequest : x.request = _ := congrArg Sent.request hown
      refine Or.inr ⟨x, hx, congrArg Sent.worker hown, ?_, by rw [h200]; decide, _, _, hbody,
        hload, hgrants⟩
      rw [hrequest]
      cases hsent with
      | token => exact ⟨.stsToken, by decide, rfl, rfl⟩
      | refresh => exact ⟨.stsRefresh, by decide, rfl, rfl⟩
  · -- what a registration returned
    rename_i frame value
    split at hv
    · rename_i hregistering
      cases hv
      obtain ⟨op, hframe, x, ⟨hx, headers, hown⟩, hsaid⟩ := h
      rcases hsaid with ⟨-, rfl⟩ | ⟨-, h400, bytes, d, hbody, hload, rfl⟩
      · exact absurd hgrants not_grants_none
      · have hop : op.endpoint = .register := by
          rw [hframe.2.registering] at hregistering
          exact of_decide_eq_true hregistering
        have hrequest : x.request = _ := congrArg Sent.request hown
        refine Or.inr ⟨x, hx, congrArg Sent.worker hown, ⟨.worker .register, by decide, ?_⟩, h400,
          _, _, hbody, hload, hgrants⟩
        rw [hrequest]
        cases op with
        | register => exact ⟨rfl, rfl⟩
        | poll | result | heartbeat | event => cases hop
    · cases hv
  · cases hv

/-- **Each step of a call keeps the transport its worker's.** -/
theorem Steady.resume (hself : Steady log k worker self)
    (h : Accounts log k worker i met call reading point)
    (hd : Delivers rt log k i point reading answer reading')
    (hr : resume rt floatOf point answer self = some (point', self')) :
    Steady log k worker self' := by
  have htakes : Takes rt (offered point answer) self self' := by
    refine resume_takes hr fun frame value hpoint _ => ?_
    subst hpoint
    obtain ⟨op, -, x, -, ⟨-, rfl⟩ | ⟨-, -, bytes, d, -, -, rfl⟩⟩ := h
    · exact ⟨.null, rfl⟩
    · exact ⟨d, rfl⟩
  rcases htakes with ⟨b, rfl⟩ | ⟨v, pair, hv, hgrants, rfl⟩
  · exact { hself with }
  · have hworker : authHeaderWorkerId ≠ authHeaderWorker := by decide
    have hversion : protocolVersionHeader ≠ authHeaderWorker := by decide
    exact {
      baseUrl := hself.baseUrl
      workerId := hself.workerId
      session := hself.session
      held := h.granted hd hv hgrants
      header := HttpTransport.header?_withPair ..
      workerIdHeader := (Assoc.lookup_set_ne hworker _ _).trans hself.workerIdHeader
      versionHeader := (Assoc.lookup_set_ne hversion _ _).trans hself.versionHeader }

theorem Steady.args (h : Steady log k worker self) (op : Operation) :
    op.args self = op.args worker.transport := by
  have hid : self.workerId = worker.transport.workerId := h.workerId
  cases op with
  | poll => simp only [Operation.args, pollRequest, hid]
  | heartbeat => simp only [Operation.args, hid]
  | register | result | event => rfl

/-- A request is started with the operation's arguments, or raises for want of a session. -/
theorem accounts_startRequest (hself : Steady log k worker self) (op : Operation) :
    Accounts log k worker i met (.operation op) reading
      (startRequest (op.args self) (decide (op.endpoint = .register)) self).1 := by
  unfold startRequest
  dsimp only
  split
  · rename_i hsession
    rw [hself.session, Option.isNone_iff_eq_none] at hsession
    intro op' hop'
    exact .unconnected hsession
  · have hframe : worker.Frames op ⟨op.args self, self.baseUrl ++ (op.args self).endpoint, 0,
        decide (op.endpoint = .register)⟩ :=
      ⟨hself.args op, by rw [hself.baseUrl], rfl, Nat.two_pos⟩
    rw [hframe.sendRequest]
    exact ⟨op, _, ⟨rfl, hframe⟩, rfl, hself.bearing⟩

/-- **A call that is started accounts for what it does first.** -/
theorem accounts_start (hself : Steady log k worker self) (call : WorkerCall) :
    Accounts log k worker i met call reading (start (call.call self) self).1 := by
  cases call with
  | operation op =>
    have h : Accounts log k worker i met (.operation op) reading
        (startRequest (op.args self) (decide (op.endpoint = .register)) self).1 :=
      accounts_startRequest hself op
    cases op <;> exact h
  | refreshToken =>
    show Accounts log k worker i met .refreshToken reading (startRefresh none self)
    unfold startRefresh
    split
    · exact fun op hop => by cases hop
    · exact ⟨rfl, hself.refreshes⟩

end

/-! ## Every run -/

section
variable (workers : ι → Worker)

/-- A request that a call of the worker has sent, with what it held by then. -/
def Genuine (calls : ι → List WorkerCall) (log : List (Exchange ι rt.orjson.Bytes)) (s : Sent ι) :
    Prop :=
  ∃ call, (calls s.worker)[s.call]? = some call ∧
    ((∃ op headers, call = .operation op ∧ s.request = (workers s.worker).request op headers ∧
        Bearing log s.worker (workers s.worker) headers) ∨
      Refreshes log s.worker (workers s.worker) s.request)

variable (floatOf : String → Option PyFloat)

/-- What holds of the system after these events, however its parts interleave. -/
structure Accounted (es : List (Event ι rt.orjson.Bytes)) (w : World rt ι) : Prop where
  steady : ∀ k, Steady w.log k (workers k) (w.clients k).shared
  length : ∀ k, (w.calls k).length = (w.clients k).points.length
  points : ∀ k i point, (w.clients k).points[i]? = some point →
    ∃ call, (w.calls k)[i]? = some call ∧
      Accounts w.log k (workers k) i (Met es k i) call (w.reading k i) point
  sent : ∀ s ∈ w.sent, Genuine workers w.calls w.log s
  log : ∀ (n : Nat) x, w.log[n]? = some x →
    x.Takes rt floatOf ∧ Genuine workers w.calls (w.log.take n) x.toSent

variable {workers floatOf} {calls calls' : ι → List WorkerCall}
  {log log' : List (Exchange ι rt.orjson.Bytes)} {w w' : World rt ι} {k : ι} {i : Nat}
  {es : List (Event ι rt.orjson.Bytes)} {met : Fault → Prop}

theorem Genuine.mono {s : Sent ι} (h : Genuine workers calls log s)
    (hcalls : ∀ k, calls k <+: calls' k) (hlog : log ⊆ log') : Genuine workers calls' log' s := by
  obtain ⟨call, hcall, hsent⟩ := h
  obtain ⟨hlt, -⟩ := List.getElem?_eq_some_iff.mp hcall
  refine ⟨call, ?_, ?_⟩
  · obtain ⟨rest, hrest⟩ := hcalls s.worker
    rw [← hrest, List.getElem?_append_left hlt, hcall]
  · rcases hsent with ⟨op, headers, hop, hrequest, hb⟩ | hrefreshes
    · exact Or.inl ⟨op, headers, hop, hrequest, hb.mono hlog⟩
    · exact Or.inr (hrefreshes.mono hlog)

/-- What a call asks with is what its worker sends. -/
theorem Accounts.genuine {call : WorkerCall} {point : Point} {request : Request}
    {reading : Option (Exchange ι rt.orjson.Bytes)}
    (h : Accounts log k (workers k) i met call reading point) (hcall : (calls k)[i]? = some call)
    (hasks : asks point = some request) : Genuine workers calls log ⟨k, i, request⟩ := by
  refine ⟨call, hcall, ?_⟩
  unfold asks at hasks
  split at hasks
  · cases hasks
    obtain ⟨op, headers, hframe, hrequest, hb⟩ := h
    exact Or.inl ⟨op, headers, hframe.1, hrequest, hb⟩
  · cases hasks
    exact Or.inr h.2
  · cases hasks

variable (rt workers floatOf) in
theorem accounted_initial : Accounted workers floatOf [] (World.initial rt workers) where
  steady k := ⟨rfl, rfl, rfl, Or.inl rfl, rfl, rfl, rfl⟩
  length _ := rfl
  points _ _ _ h := by cases h
  sent _ h := by cases h
  log _ _ h := by cases h

/-- What is accounted for stays so while more happens. -/
theorem Accounted.extend (h : Accounted workers floatOf es w)
    (es' : List (Event ι rt.orjson.Bytes)) : Accounted workers floatOf (es ++ es') w where
  steady := h.steady
  length := h.length
  points k i point hi := by
    obtain ⟨call, hcall, haccounts⟩ := h.points k i point hi
    refine ⟨call, hcall, haccounts.mono (fun _ hx => hx) fun f hf => ?_⟩
    exact List.mem_append_left _ hf
  sent := h.sent
  log := h.log

/-- The new requests are the worker's, and the old ones stay so. -/
theorem Accounted.sent_append (h : Accounted workers floatOf es w)
    {c : Program.Config HttpTransport Point}
    (hcalls : ∀ k, w.calls k <+: calls' k)
    (hnew : ∀ point, c.points[i]? = some point → ∃ call, (calls' k)[i]? = some call ∧
      ∃ reading met, Accounts w.log k (workers k) i met call reading point) :
    ∀ s ∈ w.sent ++ newlySent k i c, Genuine workers calls' w.log s := by
  intro s hs
  rcases List.mem_append.mp hs with hs | hs
  · exact (h.sent s hs).mono hcalls fun _ hx => hx
  · obtain ⟨request, hrequest, rfl⟩ := Option.map_eq_some_iff.mp (Option.mem_toList.mp hs)
    obtain ⟨point, hpoint, hasks⟩ := Option.bind_eq_some_iff.mp hrequest
    obtain ⟨call, hcall, reading, met, haccounts⟩ := hnew point hpoint
    exact haccounts.genuine hcall hasks

variable [DecidableEq ι]

theorem prefix_update (k : ι) (new : List WorkerCall) (k' : ι) :
    calls k' <+: Function.update calls k (calls k ++ new) k' := by
  by_cases hk : k' = k
  · subst hk
    rw [Function.update_self]
    exact List.prefix_append ..
  · rw [Function.update_of_ne hk]

theorem Accounted.call (h : Accounted workers floatOf es w) (call : WorkerCall)
    {c : Program.Config HttpTransport Point}
    (hc : (transportProgram rt floatOf).Step (w.clients k)
      (.start (call.call (w.clients k).shared)) c) :
    Accounted workers floatOf es
      { w with
        clients := Function.update w.clients k c
        calls := Function.update w.calls k (w.calls k ++ [call])
        sent := w.sent ++ newlySent k (w.clients k).points.length c } := by
  have hconfig : c = ⟨(w.clients k).shared, (w.clients k).points ++
      [(start (call.call (w.clients k).shared) (w.clients k).shared).1]⟩ := by
    rw [Program.start_cases hc]
    congr 1
    exact start_shared ..
  -- where the worker's coroutines stand, the new one among them
  have hpoints : ∀ i point, c.points[i]? = some point →
      ∃ called, (Function.update w.calls k (w.calls k ++ [call]) k)[i]? = some called ∧
        Accounts w.log k (workers k) i (Met es k i) called (w.reading k i) point := by
    intro i point hi
    rw [hconfig] at hi
    rw [Function.update_self]
    rcases Nat.lt_or_ge i (w.clients k).points.length with hlt | hge
    · rw [List.getElem?_append_left hlt] at hi
      rw [List.getElem?_append_left (h.length k ▸ hlt)]
      exact h.points k i point hi
    · rw [List.getElem?_append_right hge] at hi
      have hlast : i - (w.clients k).points.length = 0 := by
        have hlt := (List.getElem?_eq_some_iff.mp hi).1
        simpa using hlt
      rw [hlast] at hi
      cases hi
      refine ⟨call, ?_, accounts_start (h.steady k) call⟩
      rw [List.getElem?_append_right (h.length k ▸ hge), h.length k, hlast]
      rfl
  refine ⟨?_, fun k' => ?_, fun k' i point hi => ?_, ?_, fun n x hx => ?_⟩
  · refine (Function.forall_update_iff _ fun k' (c : Program.Config HttpTransport Point) =>
      Steady w.log k' (workers k') c.shared).mpr ⟨?_, fun k' _ => h.steady k'⟩
    rw [hconfig]
    exact h.steady k
  · dsimp only
    by_cases hk : k' = k
    · subst hk
      rw [Function.update_self, Function.update_self, hconfig, List.length_append,
        List.length_append, h.length k']
      rfl
    · rw [Function.update_of_ne hk, Function.update_of_ne hk]
      exact h.length k'
  · dsimp only at hi ⊢
    by_cases hk : k' = k
    · subst hk
      rw [Function.update_self] at hi
      exact hpoints i point hi
    · rw [Function.update_of_ne hk] at hi ⊢
      exact h.points k' i point hi
  · refine h.sent_append (prefix_update k [call]) fun point hi => ?_
    obtain ⟨called, hcalled, haccounts⟩ := hpoints _ point hi
    exact ⟨called, hcalled, _, _, haccounts⟩
  · obtain ⟨htakes, hgenuine⟩ := h.log n x hx
    exact ⟨htakes, hgenuine.mono (prefix_update k [call]) fun _ hy => hy⟩

omit [DecidableEq ι] in
theorem Accounted.handle (h : Accounted workers floatOf es w) {x : Exchange ι rt.orjson.Bytes}
    (hsent : x.toSent ∈ w.sent) (htakes : x.Takes rt floatOf) :
    Accounted workers floatOf es { w with log := w.log ++ [x] } := by
  have hlog : w.log ⊆ w.log ++ [x] := List.subset_append_left ..
  refine ⟨fun k => (h.steady k).mono hlog, h.length, fun k i point hi => ?_, fun s hs => ?_,
    fun n y hy => ?_⟩
  · obtain ⟨call, hcall, haccounts⟩ := h.points k i point hi
    exact ⟨call, hcall, haccounts.mono hlog fun _ hf => hf⟩
  · exact (h.sent s hs).mono (fun _ => List.prefix_rfl) hlog
  · dsimp only at hy ⊢
    rcases Nat.lt_or_ge n w.log.length with hlt | hge
    · rw [List.getElem?_append_left hlt] at hy
      rw [List.take_append_of_le_length (Nat.le_of_lt hlt)]
      exact h.log n y hy
    · rw [List.getElem?_append_right hge] at hy
      have hlast : n - w.log.length = 0 := by
        have hlt := (List.getElem?_eq_some_iff.mp hy).1
        simpa using hlt
      rw [hlast] at hy
      cases hy
      -- the request was sent before, with what was held by then
      rw [show n = w.log.length by omega, List.take_left]
      exact ⟨htakes, h.sent _ hsent⟩

theorem Accounted.resume (h : Accounted workers floatOf es w) {point : Point} {answer : Answer}
    {reading : Option (Exchange ι rt.orjson.Bytes)} {c : Program.Config HttpTransport Point}
    (hi : (w.clients k).points[i]? = some point)
    (hd : Delivers rt w.log k i point (w.reading k i) answer reading)
    (hmet : ∀ f, answer = .fault f → Met es k i f)
    (hc : (transportProgram rt floatOf).Step (w.clients k) (.resume i answer) c) :
    Accounted workers floatOf es
      { w with
        clients := Function.update w.clients k c
        sent := w.sent ++ newlySent k i c
        reading := Function.update w.reading k (Function.update (w.reading k) i reading) } := by
  obtain ⟨point', self', hr, rfl⟩ := Program.resume_cases hi hc
  obtain ⟨call, hcall, haccounts⟩ := h.points k i point hi
  have hnew := haccounts.resume (h.steady k) hd hmet hr
  have hsteady := (h.steady k).resume haccounts hd hr
  have hlt := (List.getElem?_eq_some_iff.mp hi).1
  refine ⟨?_, ?_, fun k' j p hj => ?_, ?_, h.log⟩
  · exact (Function.forall_update_iff _ fun k' (c : Program.Config HttpTransport Point) =>
      Steady w.log k' (workers k') c.shared).mpr ⟨hsteady, fun k' _ => h.steady k'⟩
  · refine (Function.forall_update_iff _ fun k' (c : Program.Config HttpTransport Point) =>
      (w.calls k').length = c.points.length).mpr ⟨?_, fun k' _ => h.length k'⟩
    rw [List.length_set]
    exact h.length k
  · dsimp only at hj ⊢
    by_cases hk : k' = k
    · subst hk
      rw [Function.update_self] at hj ⊢
      by_cases hji : j = i
      · subst hji
        rw [List.getElem?_set_self hlt] at hj
        cases hj
        rw [Function.update_self]
        exact ⟨call, hcall, hnew⟩
      · rw [List.getElem?_set_ne (Ne.symm hji)] at hj
        rw [Function.update_of_ne hji]
        exact h.points k' j p hj
    · rw [Function.update_of_ne hk] at hj ⊢
      exact h.points k' j p hj
  · refine h.sent_append (fun _ => List.prefix_rfl) fun p hp => ?_
    rw [List.getElem?_set_self hlt] at hp
    cases hp
    exact ⟨call, hcall, _, _, hnew⟩

/-- **Every run is accounted for.** -/
theorem run_accounted {es : List (Event ι rt.orjson.Bytes)}
    (h : Run (Step rt floatOf) (World.initial rt workers) es w) :
    Accounted workers floatOf es w := by
  refine Run.invariant (Accounted workers floatOf) (accounted_initial rt workers floatOf) ?_ h
  intro es w e w' h hstep
  cases hstep with
  | call k call c hc => exact (h.extend _).call call hc
  | handle x hsent htakes => exact (h.extend _).handle hsent htakes
  | resume k i point answer reading c hi hd hc =>
    refine (h.extend _).resume hi hd ?_ hc
    rintro f rfl
    exact List.mem_append_right _ (List.mem_singleton_self _)

end
end
end Exchanges
end Rxon
