import Rxon.HttpTransport
import Rxon.Interleaving
import Rxon.Models
import Rxon.Utils

/-! # Requests over HTTP

`_request`, `refresh_token` and `register` as coroutines over one transport.  A call
runs alone up to its next await: entering a request, reading a body, or leaving the
response's context, which `async with` awaits on every way out.  `Point` says at which
await a call is suspended and what it still needs; `resume` is the code from there to
the next await, on whatever aiohttp, the server or the event loop answers. -/

namespace PyVal

/-- `v.name`, for an instance of a declared class. -/
def getAttr (v : PyVal) (name : String) : Except PyError PyVal :=
  match v with
  | .struct _ fs | .dataclass _ fs =>
    match fs.lookup name with
    | some x => .ok x
    | Option.none => .error (.attributeError name)
  | _ => .error (.attributeError name)

end PyVal

namespace Rxon
open Interleaving (Program)

/-! ## Errors -/

/-- The classes of `exceptions.py` that the transport raises. -/
inductive ErrorKind where
  | rxon
  | network
  | auth
  | protocol
  | rateLimit
deriving DecidableEq

structure RxonError where
  kind : ErrorKind
  message : PyVal
  details : List (String × PyVal)

def errorCodeLimitExceeded : String := "LIMIT_EXCEEDED_ERROR"

/-- `RxonRateLimitError.__init__`. -/
def RxonError.rateLimit (message : PyVal) (details : List (String × PyVal)) : RxonError where
  kind := .rateLimit
  message := message
  details :=
    if "code" ∈ Assoc.keys details then details
    else details ++ [("code", .str errorCodeLimitExceeded)]

/-- What an await can raise, as the transport's `except` clauses tell it apart, with
its text.  `interrupted` is no `Exception`: the cancellation of the task. -/
inductive Fault where
  | contentType (text : String)
  | client (text : String)
  | timeout (text : String)
  | value (text : String)
  | unexpected (text : String)
  | interrupted

/-- What is raised inside the `try` of `_request`. -/
inductive Raised where
  | fault (f : Fault)
  | error (e : RxonError)

inductive Outcome where
  | returned (value : PyVal)
  | raised (e : RxonError)
  | interrupted

/-! ## Calls, answers and suspension points -/

/-- The arguments of `_request`. -/
structure RequestArgs where
  method : String
  endpoint : String
  params : PyVal
  json : PyVal

inductive TransportCall where
  | request (args : RequestArgs)
  | refreshToken
  | register (registration : PyVal)

/-- What is handed to aiohttp. -/
structure Request where
  method : String
  url : String
  params : PyVal
  json : PyVal
  headers : List (String × PyVal)

/-- What `_request` reads of a response before its body.  `httpDate` is what
`Retry-After` says as a date, in seconds from now, if it is one. -/
structure Head where
  status : Nat
  version : Option String
  retryAfter : Option String
  httpDate : Option PyFloat

/-- What an await is answered. -/
inductive Answer where
  | head (head : Head)
  | json (data : Json)
  | text (text : String)
  | left
  | fault (f : Fault)

/-- The locals of a `_request` call; `registering` says that `register` made it. -/
structure Frame where
  args : RequestArgs
  url : String
  attempt : Nat
  registering : Bool

/-- How the context of a response is left. -/
inductive Exit where
  | return (value : PyVal)
  | raise (e : Raised)
  | resend (headers : List (String × PyVal))

/-- Where a call is suspended.  `outer` is the `_request` that awaits a
`refresh_token`, if one does. -/
inductive Point where
  | response (frame : Frame) (sent : Request)
  | body (frame : Frame)
  | limitBody (frame : Frame) (retrySeconds : Option PyFloat)
  | limitText (frame : Frame) (retrySeconds : Option PyFloat) (details : List (String × PyVal))
  | limitFallback (frame : Frame) (retrySeconds : Option PyFloat)
  | errorText (frame : Frame) (status : Nat)
  | leave (frame : Frame) (exit : Exit)
  | refresh (outer : Option Frame) (sent : Request)
  | refreshBody (outer : Option Frame) (sent : Request)
  | refreshLeave (outer : Option Frame) (result : Option PyVal)
  | done (outcome : Outcome)

/-! ## Taking over a token response -/

section
variable (rt : Runtime rxonDecls)

/-- The three assignments that follow a token response. -/
def adopt (res : PyVal) : ExceptT PyError (StateM HttpTransport) Unit := do
  let accessToken ← res.getAttr "access_token"
  modify fun self => { self with token := accessToken }
  let refreshToken ← res.getAttr "refresh_token"
  modify fun self => { self with refreshTokenValue := refreshToken }
  modify fun self => { self with headers := Assoc.set authHeaderWorker self.token self.headers }

/-- `from_dict(TokenResponse, data)` and the assignments. -/
def adoptResponse (data : PyVal) : ExceptT PyError (StateM HttpTransport) PyVal := do
  let res ← fromDict rt "TokenResponse" data
  adopt res
  return res

/-- What `refresh_token` does with the document of a 200 answer; its log message reads
one more field. -/
def adoptRefresh (data : PyVal) : ExceptT PyError (StateM HttpTransport) PyVal := do
  let res ← adoptResponse rt data
  let _ ← res.getAttr "expires_in"
  return res

/-- What `register` does with the value `_request` returned; an exception is logged. -/
def adoptRegistration (resp : PyVal) (self : HttpTransport) : HttpTransport :=
  match resp with
  | .dict kvs =>
    if "access_token" ∈ Assoc.keys kvs then ((adoptResponse rt resp).run self).2 else self
  | _ => self

end

/-! ## `_request` and `refresh_token` -/

/-- The `except` clauses of `_request`. -/
def surface (args : RequestArgs) : Raised → Outcome
  | .fault (.contentType e) =>
    .raised ⟨.protocol, .str s!"Response is not a valid JSON: {e}", []⟩
  | .fault (.client e) | .fault (.timeout e) =>
    .raised ⟨.network, .str s!"Network error during {args.method} {args.endpoint}: {e}", []⟩
  | .fault (.value e) | .fault (.unexpected e) =>
    .raised ⟨.rxon, .str s!"Unexpected transport error: {e}", []⟩
  | .fault .interrupted => .interrupted
  | .error e => .raised e

def unauthorized (args : RequestArgs) : RxonError :=
  ⟨.auth, .str s!"Unauthorized (401) from {args.endpoint}", []⟩

/-- `max(0.0, seconds)`. -/
def maxZero (seconds : PyFloat) : PyVal :=
  if ((PyVal.float seconds).numeric?.any fun n => PyVal.Numeric.lt (.finite 0) n) then
    .float seconds
  else .float (.finite Binary64.zero)

/-- The `details` of a rate limit error before its code. -/
def limitDetails (retrySeconds : Option PyFloat) : List (String × PyVal) :=
  ("status", .int 429) :: (retrySeconds.map fun s => ("retry_after", maxZero s)).toList

/-- What a call waits for after entering a request with these headers. -/
def sendRequest (frame : Frame) (headers : List (String × PyVal)) : Point :=
  .response frame
    { method := frame.args.method, url := frame.url, params := frame.args.params,
      json := frame.args.json, headers := headers }

/-- What `refresh_token` sends. -/
def refreshRequest (self : HttpTransport) : Request :=
  let headers := Assoc.set authHeaderWorkerId (.str self.workerId) self.headers
  if self.refreshTokenValue.truthy then
    { method := "POST", url := self.baseUrl ++ stsRefreshEndpoint, params := .none,
      json := .dict [("refresh_token", self.refreshTokenValue)], headers := headers }
  else
    { method := "POST", url := self.baseUrl ++ stsTokenEndpoint, params := .none,
      json := .none, headers := headers }

/-- `refresh_token()` has returned `res` to whoever awaits it. -/
def refreshed (outer : Option Frame) (res : PyVal) (self : HttpTransport) : Point :=
  match outer with
  | none => .done (.returned res)
  | some frame =>
    if res.truthy then .leave frame (.resend self.headers)
    else .leave frame (.raise (.error (unauthorized frame.args)))

/-- `refresh_token()` is interrupted, and so is whoever awaits it. -/
def refreshInterrupted : Option Frame → Point
  | none => .done .interrupted
  | some frame => .leave frame (.raise (.fault .interrupted))

/-- The `except Exception` of `refresh_token`. -/
def refreshFault (outer : Option Frame) (self : HttpTransport) : Fault → Point
  | .interrupted => refreshInterrupted outer
  | _ => refreshed outer .none self

def startRefresh (outer : Option Frame) (self : HttpTransport) : Point :=
  if self.session.isNone then refreshed outer .none self
  else .refresh outer (refreshRequest self)

section
variable (rt : Runtime rxonDecls) (floatOf : String → Option PyFloat)

/-- `_request` is over; `register` looks at what it returned. -/
def finish (frame : Frame) (outcome : Outcome) (self : HttpTransport) : Point × HttpTransport :=
  match frame.registering, outcome with
  | true, .returned resp => (.done outcome, adoptRegistration rt resp self)
  | _, _ => (.done outcome, self)

def startRequest (args : RequestArgs) (registering : Bool) (self : HttpTransport) :
    Point × HttpTransport :=
  let frame := { args := args, url := self.baseUrl ++ args.endpoint, attempt := 0,
                 registering := registering }
  if self.session.isNone then
    (.done (.raised ⟨.network, .str "Transport not connected. Call connect() first.", []⟩), self)
  else (sendRequest frame self.headers, self)

/-- The seconds that the `Retry-After` header asks for, where it can be read. -/
def retrySeconds (head : Head) : Option PyFloat :=
  match head.retryAfter with
  | none | some "" => none
  | some text => (floatOf text).or head.httpDate

/-- A warning about another protocol version is logged once. -/
def warnVersion (head : Head) (self : HttpTransport) : HttpTransport :=
  match head.version with
  | none | some "" => self
  | some v => if v = protocolVersion then self else { self with versionWarningLogged := true }

/-- The head of a response has arrived. -/
def onHead (frame : Frame) (head : Head) (self : HttpTransport) : Point × HttpTransport :=
  let self := warnVersion head self
  (if head.status = 204 then .leave frame (.return .none)
  else if head.status = 401 then
    if frame.attempt = 0 then startRefresh (some frame) self
    else .leave frame (.raise (.error (unauthorized frame.args)))
  else if head.status = 429 then .limitBody frame (retrySeconds floatOf head)
  else if 400 ≤ head.status then .errorText frame head.status
  else .body frame, self)

/-- The body of a 429 has been read as a document. -/
def onLimitBody (frame : Frame) (seconds : Option PyFloat) (data : Json) : Point :=
  match data.toPy with
  | .dict kvs =>
    let details := limitDetails seconds ++ ((kvs.lookup "code").map fun c => ("code", c)).toList
    let error := (kvs.lookup "error").getD .none
    let message := if error.truthy then error else .str "Rate limit exceeded"
    .leave frame (.raise (.error (.rateLimit message details)))
  | _ => .limitText frame seconds (limitDetails seconds)

/-- The inner `except (ContentTypeError, ValueError)` of the 429 branch. -/
def limitFault (frame : Frame) (seconds : Option PyFloat) : Fault → Point
  | .contentType _ | .value _ => .limitFallback frame seconds
  | f => .leave frame (.raise (.fault f))

/-- The context of a response has been left. -/
def onLeft (frame : Frame) (exit : Exit) (self : HttpTransport) : Point × HttpTransport :=
  match exit with
  | .return value => finish rt frame (.returned value) self
  | .raise e => finish rt frame (surface frame.args e) self
  | .resend headers =>
    if frame.attempt + 1 < 2 then
      (sendRequest { frame with attempt := frame.attempt + 1 } headers, self)
    else finish rt frame (.returned .none) self

/-- The document of a 200 answer to a refresh has been read. -/
def onRefreshBody (outer : Option Frame) (data : Json) (self : HttpTransport) :
    Point × HttpTransport :=
  match (adoptRefresh rt data.toPy).run self with
  | (.ok res, self) => (.refreshLeave outer (some res), self)
  | (.error _, self) => (.refreshLeave outer (some .none), self)

/-- From one await to the next.  The result of a `refresh_token` that is being left is
absent when it is interrupted. -/
def resume (point : Point) (answer : Answer) (self : HttpTransport) :
    Option (Point × HttpTransport) :=
  match point, answer with
  | .response frame _, .head head => some (onHead floatOf frame head self)
  | .response frame _, .fault f => some (finish rt frame (surface frame.args (.fault f)) self)
  | .body frame, .json data => some (.leave frame (.return data.toPy), self)
  | .body frame, .fault f => some (.leave frame (.raise (.fault f)), self)
  | .limitBody frame seconds, .json data => some (onLimitBody frame seconds data, self)
  | .limitBody frame seconds, .fault f => some (limitFault frame seconds f, self)
  | .limitText frame _ details, .text text =>
    let message := if text = "" then "Rate limit exceeded" else text
    some (.leave frame (.raise (.error (.rateLimit (.str message) details))), self)
  | .limitText frame seconds _, .fault f => some (limitFault frame seconds f, self)
  | .limitFallback frame seconds, .text text =>
    let message := s!"Rate limit exceeded (429): {text}"
    some (.leave frame (.raise (.error (.rateLimit (.str message) (limitDetails seconds)))), self)
  | .limitFallback frame _, .fault f => some (.leave frame (.raise (.fault f)), self)
  | .errorText frame status, .text text =>
    let message := s!"HTTP {status}: {text}"
    let error := ⟨.protocol, .str message, [("status", .int status)]⟩
    some (.leave frame (.raise (.error error)), self)
  | .errorText frame _, .fault f => some (.leave frame (.raise (.fault f)), self)
  | .leave frame exit, .left => some (onLeft rt frame exit self)
  | .leave frame _, .fault f => some (finish rt frame (surface frame.args (.fault f)) self)
  | .refresh outer sent, .head head =>
    some (if head.status = 200 then .refreshBody outer sent
      else .refreshLeave outer (some .none), self)
  | .refresh outer _, .fault f => some (refreshFault outer self f, self)
  | .refreshBody outer _, .json data => some (onRefreshBody rt outer data self)
  | .refreshBody outer _, .fault .interrupted => some (.refreshLeave outer none, self)
  | .refreshBody outer _, .fault _ => some (.refreshLeave outer (some .none), self)
  | .refreshLeave outer (some res), .left => some (refreshed outer res self, self)
  | .refreshLeave outer none, .left => some (refreshInterrupted outer, self)
  | .refreshLeave outer _, .fault f => some (refreshFault outer self f, self)
  | _, _ => none

def start (call : TransportCall) (self : HttpTransport) : Point × HttpTransport :=
  match call with
  | .request args => startRequest args false self
  | .refreshToken => (startRefresh none self, self)
  | .register registration =>
    startRequest ⟨"POST", endpointWorkerRegister, .none, registration⟩ true self

/-- The transport's coroutines. -/
def transportProgram : Program HttpTransport TransportCall Point Answer where
  start := start
  resume := resume rt floatOf

end

/-! ## What a step of a call can be -/

/-- The faults after which the body of a 429 is read again, as text. -/
def Fault.rereads : Fault → Bool
  | .contentType _ | .value _ => true
  | _ => false

/-- What `refresh_token` returns on a fault, unless it is interrupted. -/
def Fault.result? : Fault → Option PyVal
  | .interrupted => none
  | _ => some .none

/-- A `refresh_token` is over, with a result or interrupted. -/
def refreshOver (outer : Option Frame) (self : HttpTransport) : Option PyVal → Point
  | some res => refreshed outer res self
  | none => refreshInterrupted outer

/-- The steps of a call: from where, on which answer, to where, and what has become of the
transport. -/
inductive Advance (rt : Runtime rxonDecls) (floatOf : String → Option PyFloat)
    (self : HttpTransport) : Point → Answer → Point → HttpTransport → Prop
  | noContent {frame : Frame} {sent : Request} {head : Head} (h204 : head.status = 204) :
      Advance rt floatOf self (.response frame sent) (.head head) (.leave frame (.return .none))
        (warnVersion head self)
  | unauthorized {frame : Frame} {sent : Request} {head : Head} (h401 : head.status = 401)
      (h : frame.attempt = 0 → self.session.isNone) :
      Advance rt floatOf self (.response frame sent) (.head head)
        (.leave frame (.raise (.error (unauthorized frame.args)))) (warnVersion head self)
  | refresh {frame : Frame} {sent : Request} {head : Head} (h401 : head.status = 401)
      (h0 : frame.attempt = 0) (hsession : self.session.isNone = false) :
      Advance rt floatOf self (.response frame sent) (.head head)
        (.refresh (some frame) (refreshRequest (warnVersion head self))) (warnVersion head self)
  | limited {frame : Frame} {sent : Request} {head : Head} (h429 : head.status = 429) :
      Advance rt floatOf self (.response frame sent) (.head head)
        (.limitBody frame (retrySeconds floatOf head)) (warnVersion head self)
  | failed {frame : Frame} {sent : Request} {head : Head} (h400 : 400 ≤ head.status)
      (h401 : head.status ≠ 401) (h429 : head.status ≠ 429) :
      Advance rt floatOf self (.response frame sent) (.head head) (.errorText frame head.status)
        (warnVersion head self)
  | answered {frame : Frame} {sent : Request} {head : Head} (h204 : head.status ≠ 204)
      (h400 : head.status < 400) :
      Advance rt floatOf self (.response frame sent) (.head head) (.body frame)
        (warnVersion head self)
  | lost {frame : Frame} {sent : Request} {f : Fault} :
      Advance rt floatOf self (.response frame sent) (.fault f)
        (.done (surface frame.args (.fault f))) self
  | document {frame : Frame} {data : Json} :
      Advance rt floatOf self (.body frame) (.json data) (.leave frame (.return data.toPy)) self
  | bodyFault {frame : Frame} {f : Fault} :
      Advance rt floatOf self (.body frame) (.fault f) (.leave frame (.raise (.fault f))) self
  | limitDocument {frame : Frame} {seconds : Option PyFloat} {data : Json} {message : PyVal}
      {code : Option PyVal} {e : RxonError}
      (he : e = .rateLimit message
        (limitDetails seconds ++ (code.map fun c => ("code", c)).toList))
      (h : onLimitBody frame seconds data = .leave frame (.raise (.error e))) :
      Advance rt floatOf self (.limitBody frame seconds) (.json data)
        (.leave frame (.raise (.error e))) self
  | limitOther {frame : Frame} {seconds : Option PyFloat} {data : Json}
      (h : onLimitBody frame seconds data = .limitText frame seconds (limitDetails seconds)) :
      Advance rt floatOf self (.limitBody frame seconds) (.json data)
        (.limitText frame seconds (limitDetails seconds)) self
  | limitReread {frame : Frame} {seconds : Option PyFloat} {f : Fault} (h : f.rereads = true) :
      Advance rt floatOf self (.limitBody frame seconds) (.fault f) (.limitFallback frame seconds)
        self
  | limitFault {frame : Frame} {seconds : Option PyFloat} {f : Fault} (h : f.rereads = false) :
      Advance rt floatOf self (.limitBody frame seconds) (.fault f)
        (.leave frame (.raise (.fault f))) self
  | limitText {frame : Frame} {seconds : Option PyFloat} {details : List (String × PyVal)}
      {text : String} :
      Advance rt floatOf self (.limitText frame seconds details) (.text text)
        (.leave frame (.raise (.error (.rateLimit
          (.str (if text = "" then "Rate limit exceeded" else text)) details)))) self
  | textReread {frame : Frame} {seconds : Option PyFloat} {details : List (String × PyVal)}
      {f : Fault} (h : f.rereads = true) :
      Advance rt floatOf self (.limitText frame seconds details) (.fault f)
        (.limitFallback frame seconds) self
  | textFault {frame : Frame} {seconds : Option PyFloat} {details : List (String × PyVal)}
      {f : Fault} (h : f.rereads = false) :
      Advance rt floatOf self (.limitText frame seconds details) (.fault f)
        (.leave frame (.raise (.fault f))) self
  | fallback {frame : Frame} {seconds : Option PyFloat} {text : String} :
      Advance rt floatOf self (.limitFallback frame seconds) (.text text)
        (.leave frame (.raise (.error (.rateLimit
          (.str s!"Rate limit exceeded (429): {text}") (limitDetails seconds))))) self
  | fallbackFault {frame : Frame} {seconds : Option PyFloat} {f : Fault} :
      Advance rt floatOf self (.limitFallback frame seconds) (.fault f)
        (.leave frame (.raise (.fault f))) self
  | errorText {frame : Frame} {status : Nat} {text : String} :
      Advance rt floatOf self (.errorText frame status) (.text text)
        (.leave frame (.raise (.error
          ⟨.protocol, .str s!"HTTP {status}: {text}", [("status", .int status)]⟩))) self
  | errorFault {frame : Frame} {status : Nat} {f : Fault} :
      Advance rt floatOf self (.errorText frame status) (.fault f)
        (.leave frame (.raise (.fault f))) self
  | returned {frame : Frame} {value : PyVal} :
      Advance rt floatOf self (.leave frame (.return value)) .left (.done (.returned value))
        (if frame.registering then adoptRegistration rt value self else self)
  | raised {frame : Frame} {e : Raised} :
      Advance rt floatOf self (.leave frame (.raise e)) .left (.done (surface frame.args e)) self
  | resent {frame : Frame} {headers : List (String × PyVal)} (h : frame.attempt + 1 < 2) :
      Advance rt floatOf self (.leave frame (.resend headers)) .left
        (sendRequest { frame with attempt := frame.attempt + 1 } headers) self
  | exhausted {frame : Frame} {headers : List (String × PyVal)} (h : ¬ frame.attempt + 1 < 2) :
      Advance rt floatOf self (.leave frame (.resend headers)) .left (.done (.returned .none)) self
  | leaveFault {frame : Frame} {exit : Exit} {f : Fault} :
      Advance rt floatOf self (.leave frame exit) (.fault f)
        (.done (surface frame.args (.fault f))) self
  | granted {outer : Option Frame} {sent : Request} {head : Head} (h200 : head.status = 200) :
      Advance rt floatOf self (.refresh outer sent) (.head head) (.refreshBody outer sent) self
  | refused {outer : Option Frame} {sent : Request} {head : Head} (h200 : head.status ≠ 200) :
      Advance rt floatOf self (.refresh outer sent) (.head head) (.refreshLeave outer (some .none))
        self
  | refreshFault {outer : Option Frame} {sent : Request} {f : Fault} :
      Advance rt floatOf self (.refresh outer sent) (.fault f) (refreshOver outer self f.result?)
        self
  | adopted {outer : Option Frame} {sent : Request} {data : Json} {res : PyVal}
      {self' : HttpTransport}
      (h : onRefreshBody rt outer data self = (.refreshLeave outer (some res), self')) :
      Advance rt floatOf self (.refreshBody outer sent) (.json data)
        (.refreshLeave outer (some res)) self'
  | refreshBodyFault {outer : Option Frame} {sent : Request} {f : Fault} :
      Advance rt floatOf self (.refreshBody outer sent) (.fault f) (.refreshLeave outer f.result?)
        self
  | refreshLeft {outer : Option Frame} {res : Option PyVal} :
      Advance rt floatOf self (.refreshLeave outer res) .left (refreshOver outer self res) self
  | refreshLeaveFault {outer : Option Frame} {res : Option PyVal} {f : Fault} :
      Advance rt floatOf self (.refreshLeave outer res) (.fault f)
        (refreshOver outer self f.result?) self

section
variable {rt : Runtime rxonDecls} {floatOf : String → Option PyFloat}
  {point point' : Point} {answer : Answer} {self self' : HttpTransport}

/-- A call that is finished is done, with the outcome it has come to. -/
@[simp] theorem finish_fst (frame : Frame) (outcome : Outcome) (self : HttpTransport) :
    (finish rt frame outcome self).1 = .done outcome := by
  unfold finish
  split <;> rfl

theorem surface_ne_returned (args : RequestArgs) (e : Raised) (value : PyVal) :
    surface args e ≠ .returned value := by
  unfold surface
  split <;> exact fun h => by cases h

/-- A call that raises leaves the transport alone. -/
theorem finish_surface (frame : Frame) (e : Raised) (self : HttpTransport) :
    finish rt frame (surface frame.args e) self = (.done (surface frame.args e), self) := by
  unfold finish
  split
  · rename_i value _ heq
    exact absurd heq (surface_ne_returned _ _ _)
  · rfl

theorem finish_returned (frame : Frame) (value : PyVal) (self : HttpTransport) :
    finish rt frame (.returned value) self =
      (.done (.returned value),
        if frame.registering then adoptRegistration rt value self else self) := by
  unfold finish
  split
  · rename_i hreg heq
    cases heq
    rw [hreg, if_pos rfl]
  · rename_i hnot
    rw [if_neg fun hreg => hnot _ hreg rfl]

theorem warnVersion_eq (head : Head) (self : HttpTransport) :
    ∃ b, warnVersion head self = { self with versionWarningLogged := b } := by
  unfold warnVersion
  repeat' split
  all_goals exact ⟨_, rfl⟩

theorem refreshFault_eq (outer : Option Frame) (self : HttpTransport) (f : Fault) :
    refreshFault outer self f = refreshOver outer self f.result? := by
  cases f <;> rfl

theorem refreshed_unauthorized (frame : Frame) (self : HttpTransport) :
    refreshed (some frame) .none self =
      .leave frame (.raise (.error (unauthorized frame.args))) := rfl

theorem advance_onHead (frame : Frame) (sent : Request) (head : Head) (self : HttpTransport) :
    Advance rt floatOf self (.response frame sent) (.head head) (onHead floatOf frame head self).1
      (onHead floatOf frame head self).2 := by
  unfold onHead
  dsimp only
  split
  · exact .noContent ‹_›
  split
  · rename_i h401
    split
    · rename_i h0
      have hsession : (warnVersion head self).session = self.session := by
        obtain ⟨b, hb⟩ := warnVersion_eq head self
        rw [hb]
      unfold startRefresh
      rw [hsession]
      by_cases hs : self.session.isNone = true
      · rw [if_pos hs, refreshed_unauthorized]
        exact .unauthorized h401 fun _ => hs
      · rw [if_neg hs]
        exact .refresh h401 h0 (Bool.eq_false_iff.mpr hs)
    · rename_i h0
      exact .unauthorized h401 fun h => absurd h h0
  split
  · exact .limited ‹_›
  split
  · exact .failed ‹_› ‹_› ‹_›
  · rename_i h204 _ _ h400
    exact .answered h204 (Nat.lt_of_not_le h400)

theorem advance_onLimitBody (frame : Frame) (seconds : Option PyFloat) (data : Json) :
    Advance rt floatOf self (.limitBody frame seconds) (.json data)
      (onLimitBody frame seconds data) self := by
  cases hdata : data.toPy with
  | dict kvs =>
    obtain ⟨e, he, hbody⟩ : ∃ e, e = RxonError.rateLimit _ _ ∧
        onLimitBody frame seconds data = .leave frame (.raise (.error e)) := by
      rw [onLimitBody, hdata]
      exact ⟨_, rfl, rfl⟩
    rw [hbody]
    exact .limitDocument he hbody
  | _ =>
    have hbody : onLimitBody frame seconds data =
        .limitText frame seconds (limitDetails seconds) := by
      rw [onLimitBody, hdata]
    rw [hbody]
    exact .limitOther hbody

theorem limitFault_of_rereads {f : Fault} (frame : Frame) (seconds : Option PyFloat)
    (h : f.rereads = true) : limitFault frame seconds f = .limitFallback frame seconds := by
  cases f <;> first | rfl | cases h

theorem limitFault_of_not {f : Fault} (frame : Frame) (seconds : Option PyFloat)
    (h : f.rereads = false) : limitFault frame seconds f = .leave frame (.raise (.fault f)) := by
  cases f <;> first | rfl | cases h

theorem advance_onLeft (frame : Frame) (exit : Exit) (self : HttpTransport) :
    Advance rt floatOf self (.leave frame exit) .left (onLeft rt frame exit self).1
      (onLeft rt frame exit self).2 := by
  cases exit with
  | «return» value =>
    rw [onLeft, finish_returned]
    exact .returned
  | raise e =>
    rw [onLeft, finish_surface]
    exact .raised
  | resend headers =>
    rw [onLeft]
    split
    · exact .resent ‹_›
    · rename_i hlast
      have hnone : finish rt frame (.returned .none) self = (.done (.returned .none), self) := by
        rw [finish_returned]
        split <;> rfl
      rw [hnone]
      exact .exhausted hlast

theorem advance_onRefreshBody (outer : Option Frame) (sent : Request) (data : Json)
    (self : HttpTransport) :
    Advance rt floatOf self (.refreshBody outer sent) (.json data)
      (onRefreshBody rt outer data self).1 (onRefreshBody rt outer data self).2 := by
  obtain ⟨res, self', h⟩ : ∃ res self', onRefreshBody rt outer data self =
      (.refreshLeave outer (some res), self') := by
    unfold onRefreshBody
    split
    · exact ⟨_, _, rfl⟩
    · exact ⟨_, _, rfl⟩
  rw [h]
  exact .adopted h

/-- **A call takes one of these steps**, and no others. -/
theorem resume_advances (h : resume rt floatOf point answer self = some (point', self')) :
    Advance rt floatOf self point answer point' self' := by
  have hall : ∀ next, resume rt floatOf point answer self = some next →
      Advance rt floatOf self point answer next.1 next.2 := by
    intro next hnext
    unfold resume at hnext
    split at hnext <;> cases hnext
    · exact advance_onHead ..
    · rw [finish_surface]
      exact .lost
    · exact .document
    · exact .bodyFault
    · exact advance_onLimitBody ..
    · rename_i frame seconds f
      cases hf : f.rereads with
      | true =>
        rw [limitFault_of_rereads frame seconds hf]
        exact .limitReread hf
      | false =>
        rw [limitFault_of_not frame seconds hf]
        exact .limitFault hf
    · exact .limitText
    · rename_i frame seconds _ f
      cases hf : f.rereads with
      | true =>
        rw [limitFault_of_rereads frame seconds hf]
        exact .textReread hf
      | false =>
        rw [limitFault_of_not frame seconds hf]
        exact .textFault hf
    · exact .fallback
    · exact .fallbackFault
    · exact .errorText
    · exact .errorFault
    · exact advance_onLeft ..
    · rw [finish_surface]
      exact .leaveFault
    · split
      · exact .granted ‹_›
      · exact .refused ‹_›
    · rw [refreshFault_eq]
      exact .refreshFault
    · exact advance_onRefreshBody ..
    · exact .refreshBodyFault
    · rename_i f hf
      have hresult : f.result? = some .none := by
        cases f <;> first | rfl | exact absurd rfl hf
      rw [← hresult]
      exact .refreshBodyFault
    · exact .refreshLeft
    · exact .refreshLeft
    · rw [refreshFault_eq]
      exact .refreshLeaveFault
  exact hall _ h

end

/-! ## A call keeps its arguments -/

/-- The `_request` call that a suspended call is, or is made by. -/
def Point.frame? : Point → Option Frame
  | .response frame _ | .body frame | .limitBody frame _ | .limitText frame _ _
  | .limitFallback frame _ | .errorText frame _ | .leave frame _ => some frame
  | .refresh outer _ | .refreshBody outer _ | .refreshLeave outer _ => outer
  | .done _ => none

/-- The same call, possibly at its next attempt. -/
def Frame.Same (frame frame' : Frame) : Prop :=
  frame'.args = frame.args ∧ frame'.url = frame.url ∧ frame'.registering = frame.registering

section
variable {rt : Runtime rxonDecls} {floatOf : String → Option PyFloat}
  {point point' : Point} {answer : Answer} {self self' : HttpTransport}

theorem frame?_refreshOver (outer : Option Frame) (self : HttpTransport) (res : Option PyVal) :
    (refreshOver outer self res).frame? = outer := by
  unfold refreshOver refreshed refreshInterrupted
  repeat' split
  all_goals rfl

/-- **From its start to its end a call is the same call**, with the same arguments. -/
theorem resume_frame {frame' : Frame}
    (h : resume rt floatOf point answer self = some (point', self'))
    (hf : point'.frame? = some frame') :
    ∃ frame, point.frame? = some frame ∧ frame.Same frame' := by
  cases resume_advances h with
  | resent =>
    cases hf
    exact ⟨_, rfl, rfl, rfl, rfl⟩
  | lost | returned | raised | exhausted | leaveFault => cases hf
  | refreshFault | refreshLeft | refreshLeaveFault =>
    rw [frame?_refreshOver] at hf
    exact ⟨frame', hf, rfl, rfl, rfl⟩
  | _ => exact ⟨frame', hf, rfl, rfl, rfl⟩

end
end Rxon
