import Rxon.Reference
import Rxon.Requests

/-! # How a request fails

`_request` turns what a server and a connection do into a value or into one of the
errors of `exceptions.py`.  An `Exchange` is what became of the last request a call
sent: the head of its answer, what reading the body gave, and whether the connection
failed.  `Classified` says which outcome the documentation promises for it, `Settled`
which one the code comes to.

The two differ in two ways.  A 403 is an authentication failure by the documentation of
`RxonAuthError`, but only the 401 has a branch of its own.  And a body that cannot be
decoded raises the `ValueError` of its decoder, which the last `except` clause turns into
a plain `RxonError`; only the body of a 429 is read a second time
(`failures_classified_iff`). -/

namespace Rxon
open Interleaving

/-! ## Exchanges -/

/-- The connection was refused, was lost or took too long. -/
def Fault.connection : Fault → Bool
  | .client _ | .timeout _ => true
  | _ => false

/-- The decoder raised: malformed JSON or bytes that are no text. -/
def Fault.undecodable : Fault → Bool
  | .value _ => true
  | _ => false

/-- What became of the last request of a call. -/
structure Exchange where
  head : Option Head
  reads : List Answer
  failed : Bool

/-- A read of the body, which may fail. -/
def Exchange.read (x : Exchange) (answer : Answer) : Exchange where
  head := x.head
  reads := x.reads ++ [answer]
  failed := match answer with
    | .fault f => f.connection
    | _ => x.failed

/-- The exchange after one more step of its call.  What a refresh is answered is not
part of it. -/
def Exchange.add (x : Exchange) : Point × Answer → Exchange
  | (.response _ _, .head head) => ⟨some head, [], false⟩
  | (.response _ _, .fault f) => ⟨none, [], f.connection⟩
  | (.body _, answer) | (.limitBody _ _, answer) | (.limitText _ _ _, answer)
  | (.limitFallback _ _, answer) | (.errorText _ _, answer) => x.read answer
  | (.leave _ _, .fault f) => { x with failed := f.connection }
  | _ => x

def exchange (steps : List (Point × Answer)) : Exchange :=
  steps.foldl Exchange.add ⟨none, [], false⟩

theorem exchange_snoc (steps : List (Point × Answer)) (step : Point × Answer) :
    exchange (steps ++ [step]) = (exchange steps).add step := by
  rw [exchange, List.foldl_append]
  rfl

/-- What a server and a connection can answer: any head, and a body that is not JSON,
is malformed or is cut off.  Neither cancels the task. -/
def Possible : Point × Answer → Prop
  | (.response _ _, .fault f) | (.leave _ _, .fault f) => f.connection
  | (.body _, .fault f) | (.limitBody _ _, .fault f) =>
    f.connection ∨ f.undecodable ∨ ∃ text, f = .contentType text
  | (.limitText _ _ _, .fault f) | (.limitFallback _ _, .fault f) | (.errorText _ _, .fault f) =>
    f.connection ∨ f.undecodable
  | (.refresh _ _, .fault f) | (.refreshBody _ _, .fault f) | (.refreshLeave _ _, .fault f) =>
    f ≠ .interrupted
  | _ => True

/-! ## What the documentation promises -/

/-- `v >= 0`. -/
def PyVal.AtLeastZero (v : PyVal) : Prop :=
  ∃ n, v.numeric? = some n ∧
    (PyVal.Numeric.lt (.finite 0) n = true ∨ PyVal.Numeric.eq (.finite 0) n = true)

/-- A rate limit error that says what it has to. -/
structure RxonError.Limits (e : RxonError) : Prop where
  kind : e.kind = .rateLimit
  status : e.details.lookup "status" = some (.int 429)
  code : ∃ code, e.details.lookup "code" = some code
  retryAfter : ∀ seconds, e.details.lookup "retry_after" = some seconds → PyVal.AtLeastZero seconds

def Outcome.Raises (outcome : Outcome) (kind : ErrorKind) : Prop :=
  ∃ e, outcome = .raised e ∧ e.kind = kind

/-- The body is a JSON document. -/
def Exchange.HasDocument (x : Exchange) : Prop := ∃ d, .json d ∈ x.reads

/-- The outcome is the documented one.  The clauses about the status are about answers
that arrived as a whole. -/
structure Classified (x : Exchange) (outcome : Outcome) : Prop where
  returned : ∀ value, outcome = .returned value → ∃ head, x.head = some head ∧
    x.failed = false ∧ (head.status = 204 ∨ head.status < 400 ∧ x.HasDocument)
  network : x.failed = true → outcome.Raises .network
  auth : ∀ head, x.head = some head → x.failed = false → head.status = 401 ∨ head.status = 403 →
    outcome.Raises .auth
  rateLimit : ∀ head, x.head = some head → x.failed = false → head.status = 429 →
    ∃ e, outcome = .raised e ∧ e.Limits
  protocol : ∀ head, x.head = some head → x.failed = false → 400 ≤ head.status →
    head.status ≠ 401 → head.status ≠ 403 → head.status ≠ 429 → outcome.Raises .protocol
  document : ∀ head, x.head = some head → x.failed = false → head.status < 400 →
    head.status ≠ 204 → ¬ x.HasDocument → outcome.Raises .protocol

/-- The last read of the body ended in a decoding error. -/
def Exchange.Undecoded (x : Exchange) : Prop :=
  ∃ f, x.reads.getLast? = some (.fault f) ∧ f.undecodable = true

/-- The condition under which the code classifies an exchange as documented. -/
def Exchange.Understood (x : Exchange) : Prop :=
  x.failed = true ∨ (∀ head, x.head = some head → head.status ≠ 403) ∧ ¬ x.Undecoded

/-! ## What the code comes to -/

/-- How the code settles an exchange. -/
inductive Settled : Exchange → Outcome → Prop
  | unconnected {outcome : Outcome} (ho : outcome.Raises .network) :
      Settled ⟨none, [], false⟩ outcome
  | failed {x : Exchange} {outcome : Outcome} (hx : x.failed = true)
      (ho : outcome.Raises .network) : Settled x outcome
  | noContent {head : Head} (hs : head.status = 204) :
      Settled ⟨some head, [], false⟩ (.returned .none)
  | document {head : Head} {d : Json} (hs : head.status < 400) :
      Settled ⟨some head, [.json d], false⟩ (.returned d.toPy)
  | contentType {head : Head} {text : String} {outcome : Outcome} (hs : head.status < 400)
      (ho : outcome.Raises .protocol) :
      Settled ⟨some head, [.fault (.contentType text)], false⟩ outcome
  | unauthorized {head : Head} {outcome : Outcome} (hs : head.status = 401)
      (ho : outcome.Raises .auth) : Settled ⟨some head, [], false⟩ outcome
  | limited {head : Head} {reads : List Answer} {e : RxonError} (hs : head.status = 429)
      (hr : ∀ f, reads.getLast? ≠ some (.fault f)) (he : e.Limits) :
      Settled ⟨some head, reads, false⟩ (.raised e)
  | error {head : Head} {text : String} {outcome : Outcome} (hs : 400 ≤ head.status)
      (h401 : head.status ≠ 401) (h429 : head.status ≠ 429) (ho : outcome.Raises .protocol) :
      Settled ⟨some head, [.text text], false⟩ outcome
  | undecoded {head : Head} {reads : List Answer} {f : Fault} {outcome : Outcome}
      (hs : head.status ≠ 204) (h401 : head.status ≠ 401)
      (hd : head.status < 400 → reads = []) (hf : f.undecodable = true)
      (ho : outcome.Raises .rxon) : Settled ⟨some head, reads ++ [.fault f], false⟩ outcome

theorem Outcome.Raises.unique {outcome : Outcome} {kind kind' : ErrorKind}
    (h : outcome.Raises kind) (h' : outcome.Raises kind') : kind = kind' := by
  obtain ⟨e, rfl, rfl⟩ := h
  obtain ⟨e', he, rfl⟩ := h'
  cases he
  rfl

theorem Outcome.Raises.not_returned {outcome : Outcome} {kind : ErrorKind} {value : PyVal}
    (h : outcome.Raises kind) : outcome ≠ .returned value := by
  obtain ⟨e, rfl, -⟩ := h
  intro heq
  cases heq

/-- The documentation's clauses, once the head of an answer has come. -/
theorem classified_answered {head : Head} {reads : List Answer} {outcome : Outcome} :
    Classified ⟨some head, reads, false⟩ outcome ↔
      (∀ value, outcome = .returned value →
        head.status = 204 ∨ head.status < 400 ∧ ∃ d, .json d ∈ reads) ∧
      (head.status = 401 ∨ head.status = 403 → outcome.Raises .auth) ∧
      (head.status = 429 → ∃ e, outcome = .raised e ∧ e.Limits) ∧
      (400 ≤ head.status → head.status ≠ 401 → head.status ≠ 403 → head.status ≠ 429 →
        outcome.Raises .protocol) ∧
      (head.status < 400 → head.status ≠ 204 → (¬ ∃ d, .json d ∈ reads) →
        outcome.Raises .protocol) := by
  constructor
  · intro h
    refine ⟨fun value hv => ?_, h.auth head rfl rfl, h.rateLimit head rfl rfl,
      h.protocol head rfl rfl, h.document head rfl rfl⟩
    obtain ⟨head', hhead, -, h⟩ := h.returned value hv
    cases hhead
    exact h
  · rintro ⟨hreturned, hauth, hlimit, hprotocol, hdocument⟩
    refine ⟨fun value hv => ⟨head, rfl, rfl, hreturned value hv⟩, by simp, ?_, ?_, ?_, ?_⟩
    all_goals
      intro _ hhead _
      cases hhead
      assumption

theorem understood_answered {head : Head} {reads : List Answer} :
    Exchange.Understood ⟨some head, reads, false⟩ ↔
      head.status ≠ 403 ∧ ∀ f, reads.getLast? = some (.fault f) → f.undecodable = false := by
  simp [Exchange.Understood, Exchange.Undecoded]

/-- **The code is right about an exchange iff the exchange is understood.** -/
theorem Settled.classified_iff {x : Exchange} {outcome : Outcome} (h : Settled x outcome) :
    Classified x outcome ↔ x.Understood := by
  cases h with
  | unconnected ho =>
    refine iff_of_true ?_ (Or.inr ⟨by simp, fun ⟨f, hf, _⟩ => by cases hf⟩)
    exact ⟨fun value hv => absurd hv ho.not_returned, fun _ => ho, by simp, by simp, by simp,
      by simp⟩
  | failed hx ho =>
    refine iff_of_true ⟨fun value hv => absurd hv ho.not_returned, fun _ => ho, ?_, ?_, ?_, ?_⟩
      (Or.inl hx)
    all_goals
      intro _ _ hfailed
      rw [hx] at hfailed
      cases hfailed
  | noContent hs =>
    rw [classified_answered, understood_answered]
    refine iff_of_true ⟨fun _ _ => Or.inl hs, ?_, ?_, ?_, ?_⟩ ⟨by omega, by simp⟩
    all_goals omega
  | @document head d hs =>
    have hdoc : ∃ d', Answer.json d' ∈ [Answer.json d] := ⟨d, List.mem_singleton_self _⟩
    rw [classified_answered, understood_answered]
    refine iff_of_true ⟨fun _ _ => Or.inr ⟨hs, hdoc⟩, ?_, ?_, ?_, fun _ _ hno => absurd hdoc hno⟩
      ⟨by omega, by simp⟩
    all_goals omega
  | contentType hs ho =>
    rw [classified_answered, understood_answered]
    refine iff_of_true ⟨fun _ hv => absurd hv ho.not_returned, ?_, ?_, fun _ _ _ _ => ho,
      fun _ _ _ => ho⟩ ⟨by omega, by simp [Fault.undecodable]⟩
    all_goals omega
  | unauthorized hs ho =>
    rw [classified_answered, understood_answered]
    refine iff_of_true ⟨fun _ hv => absurd hv ho.not_returned, fun _ => ho, ?_, ?_, ?_⟩
      ⟨by omega, by simp⟩
    all_goals omega
  | @limited head reads e hs hr he =>
    rw [classified_answered, understood_answered]
    refine iff_of_true ⟨fun _ hv => (by cases hv), ?_, fun _ => ⟨e, rfl, he⟩, ?_, ?_⟩
      ⟨by omega, fun f hf => absurd hf (hr f)⟩
    all_goals omega
  | error hs h401 h429 ho =>
    rw [classified_answered, understood_answered]
    constructor
    · rintro ⟨-, hauth, -⟩
      refine ⟨fun h403 => ?_, by simp⟩
      exact absurd (ho.unique (hauth (Or.inr h403))) (by decide)
    · rintro ⟨h403, -⟩
      refine ⟨fun _ hv => absurd hv ho.not_returned, ?_, ?_, fun _ _ _ _ => ho, fun _ _ _ => ho⟩
      all_goals omega
  | @undecoded head reads f _ hs h401 hd hf ho =>
    rw [classified_answered, understood_answered]
    refine iff_of_false ?_ fun h => ?_
    · -- each class of status calls for an error that a plain one is not
      rintro ⟨-, hauth, hlimit, hprotocol, hdocument⟩
      by_cases hok : head.status < 400
      · refine absurd (ho.unique (hdocument hok hs ?_)) (by decide)
        simp [hd hok]
      by_cases h403 : head.status = 403
      · exact absurd (ho.unique (hauth (Or.inr h403))) (by decide)
      by_cases h429 : head.status = 429
      · obtain ⟨e, rfl, he⟩ := hlimit h429
        exact absurd (ho.unique ⟨e, rfl, he.kind⟩) (by decide)
      · exact absurd (ho.unique (hprotocol (Nat.le_of_not_lt hok) h401 h403 h429)) (by decide)
    · rw [h.2 f List.getLast?_concat] at hf
      cases hf

/-! ## What a rate limit error says -/

theorem maxZero_atLeastZero (seconds : PyFloat) : PyVal.AtLeastZero (maxZero seconds) := by
  unfold maxZero
  split
  · rename_i h
    obtain ⟨n, hn, hlt⟩ := (Option.any_eq_true ..).mp h
    exact ⟨n, hn, Or.inl hlt⟩
  · exact ⟨.finite 0, rfl, Or.inr rfl⟩

/-- Whatever the server says about the limit, the error tells the status, a code and no
negative delay. -/
theorem limits (message : PyVal) (seconds : Option PyFloat) (code : Option PyVal) :
    (RxonError.rateLimit message
      (limitDetails seconds ++ (code.map fun c => ("code", c)).toList)).Limits := by
  cases seconds with
  | none =>
    cases code with
    | none => exact ⟨rfl, rfl, ⟨_, rfl⟩, fun s h => by cases h⟩
    | some c => exact ⟨rfl, rfl, ⟨c, rfl⟩, fun s h => by cases h⟩
  | some s =>
    have hs : ∀ s', some (maxZero s) = some s' → PyVal.AtLeastZero s' := by
      rintro _ ⟨⟩
      exact maxZero_atLeastZero s
    cases code with
    | none => exact ⟨rfl, rfl, ⟨_, rfl⟩, hs⟩
    | some c => exact ⟨rfl, rfl, ⟨c, rfl⟩, hs⟩

theorem limits_uncoded (message : PyVal) (seconds : Option PyFloat) :
    (RxonError.rateLimit message (limitDetails seconds)).Limits := by
  simpa using limits message seconds none

/-! ## Where a request stands -/

/-- What a call of `_request` knows about its exchange at each of its awaits. -/
def Exchange.At (x : Exchange) : Point → Prop
  | .response _ _ => True
  | .body _ => ∃ head, x = ⟨some head, [], false⟩ ∧ head.status < 400 ∧ head.status ≠ 204
  | .limitBody _ _ => ∃ head, x = ⟨some head, [], false⟩ ∧ head.status = 429
  | .limitText _ seconds details => ∃ head reads, x = ⟨some head, reads, false⟩ ∧
      head.status = 429 ∧ details = limitDetails seconds
  | .limitFallback _ _ => ∃ head reads, x = ⟨some head, reads, false⟩ ∧ head.status = 429
  | .errorText _ status => ∃ head, x = ⟨some head, [], false⟩ ∧ head.status = status ∧
      400 ≤ status ∧ status ≠ 401 ∧ status ≠ 429
  | .leave _ (.return value) => Settled x (.returned value)
  | .leave frame (.raise e) => Settled x (surface frame.args e)
  | .leave frame (.resend _) => frame.attempt = 0
  | .refresh outer _ | .refreshBody outer _ | .refreshLeave outer (some _) =>
    ∃ frame head, outer = some frame ∧ frame.attempt = 0 ∧ x = ⟨some head, [], false⟩ ∧
      head.status = 401
  | .refreshLeave _ none => False
  | .done outcome => Settled x outcome

section
variable {rt : Runtime rxonDecls} {floatOf : String → Option PyFloat} {x : Exchange}
  {point point' : Point} {answer : Answer} {self self' : HttpTransport}

/-- A lost connection surfaces as a network error. -/
theorem surface_connection (args : RequestArgs) {f : Fault} (h : f.connection = true) :
    (surface args (.fault f)).Raises .network := by
  cases f <;> first | exact ⟨_, rfl, rfl⟩ | cases h

/-- A decoding error surfaces as an error without a class of its own. -/
theorem surface_undecodable (args : RequestArgs) {f : Fault} (h : f.undecodable = true) :
    (surface args (.fault f)).Raises .rxon := by
  cases f <;> first | exact ⟨_, rfl, rfl⟩ | cases h

/-- The connection failed while the body was read. -/
theorem settled_lost {f : Fault} (frame : Frame) (hf : f.connection = true) :
    Exchange.At (x.read (.fault f)) (.leave frame (.raise (.fault f))) :=
  .failed hf (surface_connection _ hf)

/-- The body could not be decoded, and is not read again. -/
theorem settled_undecoded {head : Head} {reads : List Answer} {f : Fault} (frame : Frame)
    (hf : f.undecodable = true) (h204 : head.status ≠ 204) (h401 : head.status ≠ 401)
    (hd : head.status < 400 → reads = []) :
    Exchange.At (Exchange.read ⟨some head, reads, false⟩ (.fault f))
      (.leave frame (.raise (.fault f))) := by
  have hlost : f.connection = false := by cases f <;> first | rfl | cases hf
  have h : Settled ⟨some head, reads ++ [.fault f], false⟩ (surface frame.args (.fault f)) :=
    .undecoded h204 h401 hd hf (surface_undecodable _ hf)
  rwa [Exchange.At, Exchange.read, hlost]

theorem at_refreshed {frame : Frame} {head : Head} (res : PyVal) (self : HttpTransport)
    (h0 : frame.attempt = 0) (hs : head.status = 401) :
    Exchange.At ⟨some head, [], false⟩ (refreshed (some frame) res self) := by
  unfold refreshed
  dsimp only
  split
  · exact h0
  · exact .unauthorized hs ⟨_, rfl, rfl⟩

theorem at_refreshOver {frame : Frame} {head : Head} {f : Fault} (self : HttpTransport)
    (h0 : frame.attempt = 0) (hs : head.status = 401) (hf : f ≠ .interrupted) :
    Exchange.At ⟨some head, [], false⟩ (refreshOver (some frame) self f.result?) := by
  cases f with
  | interrupted => exact absurd rfl hf
  | _ => exact at_refreshed .none self h0 hs

/-- A 429 whose body could not be read is read again as text. -/
theorem at_reread {head : Head} {reads : List Answer} {f : Fault} (frame : Frame)
    (seconds : Option PyFloat) (hs : head.status = 429) (h : f.rereads = true) :
    Exchange.At (Exchange.read ⟨some head, reads, false⟩ (.fault f))
      (.limitFallback frame seconds) := by
  have hread : Exchange.read ⟨some head, reads, false⟩ (.fault f) =
      ⟨some head, reads ++ [.fault f], false⟩ := by
    cases f <;> first | rfl | cases h
  rw [hread]
  exact ⟨head, _, rfl, hs⟩

/-- A body is not read again only where the connection failed. -/
theorem connection_of_not_rereads {f : Fault} (h : f.rereads = false)
    (hf : f.connection ∨ f.undecodable ∨ ∃ text, f = .contentType text) :
    f.connection = true := by
  rcases hf with hf | hf | ⟨text, rfl⟩
  · exact hf
  · have hvalue : ∃ text, f = .value text := by
      cases f <;> first | exact ⟨_, rfl⟩ | cases hf
    obtain ⟨text, rfl⟩ := hvalue
    cases h
  · cases h

/-- **One await of a request**: what a call knows of its exchange goes on being true,
with the answer added. -/
theorem At.resume (h : x.At point) (hp : Possible (point, answer))
    (hr : Rxon.resume rt floatOf point answer self = some (point', self')) :
    (x.add (point, answer)).At point' := by
  cases resume_advances hr with
  | noContent h204 => exact .noContent h204
  | unauthorized h401 => exact .unauthorized h401 ⟨_, rfl, rfl⟩
  | refresh h401 h0 => exact ⟨_, _, rfl, h0, rfl, h401⟩
  | limited h429 => exact ⟨_, rfl, h429⟩
  | failed h400 h401 h429 => exact ⟨_, rfl, rfl, h400, h401, h429⟩
  | answered h204 h400 => exact ⟨_, rfl, h400, h204⟩
  | lost | leaveFault => exact .failed hp (surface_connection _ hp)
  | document =>
    obtain ⟨head, rfl, hs, -⟩ := h
    exact .document hs
  | bodyFault =>
    obtain ⟨head, rfl, hs, h204⟩ := h
    rcases hp with hf | hf | ⟨text, rfl⟩
    · exact settled_lost _ hf
    · exact settled_undecoded _ hf h204 (by omega) fun _ => rfl
    · exact .contentType hs ⟨_, rfl, rfl⟩
  | limitDocument he =>
    obtain ⟨head, rfl, hs⟩ := h
    rw [he]
    exact .limited hs (fun f hf => by cases hf) (limits ..)
  | limitOther =>
    obtain ⟨head, rfl, hs⟩ := h
    exact ⟨head, _, rfl, hs, rfl⟩
  | limitReread hf =>
    obtain ⟨head, rfl, hs⟩ := h
    exact at_reread _ _ hs hf
  | limitFault hf =>
    obtain ⟨head, rfl, hs⟩ := h
    exact settled_lost _ (connection_of_not_rereads hf hp)
  | limitText =>
    obtain ⟨head, reads, rfl, hs, rfl⟩ := h
    exact .limited hs (by simp) (limits_uncoded ..)
  | textReread hf =>
    obtain ⟨head, reads, rfl, hs, -⟩ := h
    exact at_reread _ _ hs hf
  | textFault hf =>
    obtain ⟨head, reads, rfl, hs, -⟩ := h
    exact settled_lost _ (connection_of_not_rereads hf (hp.imp_right Or.inl))
  | fallback =>
    obtain ⟨head, reads, rfl, hs⟩ := h
    exact .limited hs (by simp) (limits_uncoded ..)
  | fallbackFault =>
    obtain ⟨head, reads, rfl, hs⟩ := h
    rcases hp with hf | hf
    · exact settled_lost _ hf
    · exact settled_undecoded _ hf (by omega) (by omega) (by omega)
  | errorText =>
    obtain ⟨head, rfl, hs, h400, h401, h429⟩ := h
    exact .error (by omega) (by omega) (by omega) ⟨_, rfl, rfl⟩
  | errorFault =>
    obtain ⟨head, rfl, hs, h400, h401, h429⟩ := h
    rcases hp with hf | hf
    · exact settled_lost _ hf
    · exact settled_undecoded _ hf (by omega) (by omega) fun _ => rfl
  | exhausted hlast =>
    -- a second request leaves its response some other way
    rw [show Frame.attempt _ = 0 from h] at hlast
    exact absurd (by decide) hlast
  | refreshFault =>
    obtain ⟨frame, head, rfl, h0, rfl, hs⟩ := h
    exact at_refreshOver _ h0 hs hp
  | @refreshBodyFault _ _ f =>
    cases f with
    | interrupted => exact absurd rfl hp
    | _ => exact h
  | @refreshLeft _ res =>
    cases res with
    | none => cases h
    | some res =>
      obtain ⟨frame, head, rfl, h0, rfl, hs⟩ := h
      exact at_refreshed _ _ h0 hs
  | @refreshLeaveFault _ res =>
    cases res with
    | none => cases h
    | some res =>
      obtain ⟨frame, head, rfl, h0, rfl, hs⟩ := h
      exact at_refreshOver _ h0 hs hp
  | resent => trivial
  | returned | raised | granted | refused | adopted => exact h

/-- A call of `_request`, by itself or by `register`. -/
def TransportCall.Requests : TransportCall → Prop
  | .request _ | .register _ => True
  | .refreshToken => False

theorem at_startRequest (args : RequestArgs) (registering : Bool) (self : HttpTransport) :
    Exchange.At ⟨none, [], false⟩ (startRequest args registering self).1 := by
  unfold startRequest
  dsimp only
  split
  · exact .unconnected ⟨_, rfl, rfl⟩
  · trivial

theorem at_start {call : TransportCall} (self : HttpTransport) (h : call.Requests) :
    Exchange.At ⟨none, [], false⟩ (start call self).1 := by
  cases call with
  | request args => exact at_startRequest ..
  | register registration => exact at_startRequest ..
  | refreshToken => cases h

/-- In whatever way a call goes, it knows its exchange. -/
theorem at_follows {call : TransportCall} {steps : List (Point × Answer)} (h : call.Requests)
    (hf : (transportProgram rt floatOf).Follows call steps point)
    (hp : ∀ step ∈ steps, Possible step) : (exchange steps).At point := by
  induction hf with
  | start s => exact at_start s h
  | resume hf hr ih =>
    rw [exchange_snoc]
    refine At.resume (ih fun step hstep => hp step (List.mem_append_left _ hstep)) ?_ hr
    exact hp _ (List.mem_append_right _ (List.mem_singleton_self _))

end

/-! ## Every run -/

section
variable {rt : Runtime rxonDecls} {floatOf : String → Option PyFloat} {self : HttpTransport}
  {es : List (Program.Event TransportCall Answer)} {c : Program.Config HttpTransport Point}

/-- **A failure is classified as documented iff its exchange is understood**: in every
run, however the calls interleave and whatever server and connection do, the outcome of a
request is the documented one iff the connection failed, or the status is not 403 and the
last read of the body did not end in a decoding error. -/
theorem failures_classified_iff {i : Nat} {call : TransportCall} {outcome : Outcome}
    (h : Run (transportProgram rt floatOf).Step ⟨self, []⟩ es c)
    (hi : (Program.calls es)[i]? = some call) (hcall : call.Requests)
    (hp : ∀ step ∈ (transportProgram rt floatOf).trail i ⟨self, []⟩ es, Possible step)
    (hdone : c.points[i]? = some (.done outcome)) :
    Classified (exchange ((transportProgram rt floatOf).trail i ⟨self, []⟩ es)) outcome ↔
      (exchange ((transportProgram rt floatOf).trail i ⟨self, []⟩ es)).Understood := by
  obtain ⟨point, hpoint, hf⟩ := Program.run_follows h hi
  rw [hdone] at hpoint
  cases hpoint
  have hsettled : Settled _ outcome := at_follows hcall hf hp
  exact hsettled.classified_iff

/-- A heartbeat over a transport in use, whose answer has this status and this body. -/
def heartbeatRun (status : Nat) (body : Answer) : List (Program.Event TransportCall Answer) :=
  [.start (.request ⟨"PATCH", "/_worker/workers/w", .none, .none⟩),
    .resume 0 (.head ⟨status, none, none, none⟩), .resume 0 body, .resume 0 .left]

def heartbeatTransport : HttpTransport :=
  HttpTransport.init "http://orchestrator" "w" "token" (some 0)

/-- What a heartbeat raises while there is no handler. -/
def unavailable : RxonError :=
  ⟨.protocol, .str "HTTP 503: Service is initializing", [("status", .int 503)]⟩

/-- A heartbeat that is answered 503 raises a protocol error with that status, as documented. -/
theorem failures_classified_iff_unavailable :
    Classified (exchange ((transportProgram (Runtime.reference rxonDecls fun _ => "")
      fun _ => none).trail 0 ⟨heartbeatTransport, []⟩
        (heartbeatRun 503 (.text "Service is initializing")))) (.raised unavailable) := by
  obtain ⟨c, hrun, hdone⟩ : ∃ c, Run (transportProgram (Runtime.reference rxonDecls fun _ => "")
      fun _ => none).Step ⟨heartbeatTransport, []⟩
        (heartbeatRun 503 (.text "Service is initializing")) c ∧
      c.points[0]? = some (.done (.raised unavailable)) := ⟨_, Program.runAll_iff.mp rfl, rfl⟩
  refine (failures_classified_iff (i := 0) hrun rfl trivial ?_ hdone).mpr ?_
  · intro step hstep
    rcases hstep with _ | ⟨_, _ | ⟨_, _ | ⟨_, hstep⟩⟩⟩
    · trivial
    · trivial
    · trivial
    · cases hstep
  · exact understood_answered.mpr ⟨by decide, by simp⟩

/-- A heartbeat that is forbidden raises a protocol error, which is no authentication
error. -/
theorem forbidden_misclassified :
    ∃ c e, Run (transportProgram (Runtime.reference rxonDecls fun _ => "") fun _ => none).Step
        ⟨heartbeatTransport, []⟩ (heartbeatRun 403 (.text "Forbidden")) c ∧
      c.points[0]? = some (.done (.raised e)) ∧ e.kind = .protocol ∧
      ¬ Classified (exchange ((transportProgram (Runtime.reference rxonDecls fun _ => "")
        fun _ => none).trail 0 ⟨heartbeatTransport, []⟩ (heartbeatRun 403 (.text "Forbidden"))))
        (.raised e) := by
  refine ⟨_, _, Program.runAll_iff.mp rfl, rfl, rfl, fun h => ?_⟩
  obtain ⟨e, he, hkind⟩ := h.auth ⟨403, none, none, none⟩ rfl rfl (Or.inr rfl)
  cases he
  cases hkind

end
end Rxon
