import Rxon.Failures
import Rxon.Tokens

/-! # The authentication retry

A request that is refused with a 401 refreshes the tokens and is sent once more.
`Retry` is the one way this can go, from the refused request to the second one, and
`Stage` says that a call is at every await either on that way or on none: so it sends at
most twice, asks for a refresh at most once, and never returns what was refused.

The second request carries the token that the transport held when the refresh returned.
The context of the first response is left in between, which is an await, so another call
can take over a newer token before the second request is sent
(`resent_token_outdated`). -/

namespace Rxon
open Interleaving

/-- Where a call has been, and where it stands. -/
def visited (steps : List (Point × Answer)) (point : Point) : List Point :=
  steps.map Prod.fst ++ [point]

/-- The request for the resource has been sent, and not been answered yet. -/
def Point.sends : Point → Bool
  | .response _ _ => true
  | _ => false

/-- So has the request for new tokens. -/
def Point.asks : Point → Bool
  | .refresh _ _ => true
  | _ => false

section
variable (rt : Runtime rxonDecls)

/-- The way from a request that is refused to the second one: the steps and where they
lead. -/
inductive Retry (frame : Frame) : List (Point × Answer) → Point → Prop
  | refused {sent sent' : Request} {head : Head} (h401 : head.status = 401) :
      Retry frame [(.response frame sent, .head head)] (.refresh (some frame) sent')
  | answered {steps : List (Point × Answer)} {sent : Request} {head : Head}
      (h : Retry frame steps (.refresh (some frame) sent)) (h200 : head.status = 200) :
      Retry frame (steps ++ [(.refresh (some frame) sent, .head head)])
        (.refreshBody (some frame) sent)
  | granted {steps : List (Point × Answer)} {sent : Request} {d : Json} {res : PyVal}
      (h : Retry frame steps (.refreshBody (some frame) sent)) (hd : Decodes rt d.toPy) :
      Retry frame (steps ++ [(.refreshBody (some frame) sent, .json d)])
        (.refreshLeave (some frame) (some res))
  | returned {steps : List (Point × Answer)} {res : PyVal} {headers : List (String × PyVal)}
      (h : Retry frame steps (.refreshLeave (some frame) (some res))) :
      Retry frame (steps ++ [(.refreshLeave (some frame) (some res), .left)])
        (.leave frame (.resend headers))
  | resent {steps : List (Point × Answer)} {headers : List (String × PyVal)}
      (h : Retry frame steps (.leave frame (.resend headers))) :
      Retry frame (steps ++ [(.leave frame (.resend headers), .left)])
        (sendRequest { frame with attempt := frame.attempt + 1 } headers)

/-- The last request was not refused. -/
def Accepted (steps : List (Point × Answer)) : Prop :=
  ∀ head, (exchange steps).head = some head → head.status ≠ 401

/-- What a call of `_request` has gone through by the time it stands at a point. -/
def Stage (steps : List (Point × Answer)) (point : Point) : Prop :=
  match point with
  | .response frame _ => frame.attempt = 0 ∧ steps = [] ∨ ∃ first, Retry rt first steps point
  | .refresh outer _ | .refreshBody outer _ =>
    ∃ frame, outer = some frame ∧ frame.attempt = 0 ∧ Retry rt frame steps point
  | .refreshLeave outer res => ∃ frame, outer = some frame ∧ frame.attempt = 0 ∧
      ∀ r, res = some r → r.truthy = true → Retry rt frame steps point
  | .leave frame (.resend _) => frame.attempt = 0 ∧ Retry rt frame steps point
  | .body _ | .leave _ (.return _) | .done (.returned _) => Accepted steps
  | _ => True

end

section
variable {rt : Runtime rxonDecls} {floatOf : String → Option PyFloat}
  {steps : List (Point × Answer)} {point point' : Point} {answer : Answer}
  {self self' : HttpTransport} {frame : Frame}

/-! ## One await of a request -/

theorem Retry.attempt_ne_zero {frame' : Frame} {sent : Request}
    (h : Retry rt frame steps (.response frame' sent)) : frame'.attempt ≠ 0 := by
  cases h
  exact Nat.succ_ne_zero _

theorem Retry.length_of_asks (h : Retry rt frame steps point) (hp : point.asks = true) :
    steps.length = 1 := by
  cases h with
  | refused h401 => rfl
  | answered | granted | returned | resent => cases hp

/-- The second request is sent after five awaits. -/
theorem Retry.length_of_sends (h : Retry rt frame steps point) (hp : point.sends = true) :
    steps.length = 5 := by
  cases h with
  | resent h =>
    cases h with
    | returned h =>
      cases h with
      | granted h =>
        cases h with
        | answered h =>
          simp [h.length_of_asks rfl]
  | refused | answered | granted | returned => cases hp

theorem stage_surface (args : RequestArgs) (e : Raised) :
    Stage rt steps (.done (surface args e)) := by
  cases h : surface args e with
  | returned value => exact absurd h (surface_ne_returned _ _ _)
  | raised => trivial
  | interrupted => trivial

theorem stage_refreshOver (self : HttpTransport) {res : Option PyVal} (h0 : frame.attempt = 0)
    (h : ∀ r, res = some r → r.truthy = true →
      Retry rt frame steps (.leave frame (.resend self.headers))) :
    Stage rt steps (refreshOver (some frame) self res) := by
  cases res with
  | none => trivial
  | some r =>
    unfold refreshOver refreshed
    dsimp only
    split
    · rename_i htruthy
      exact ⟨h0, h r rfl htruthy⟩
    · trivial

/-- A refresh that fails returns nothing. -/
theorem Fault.result?_truthy {f : Fault} {r : PyVal} (h : f.result? = some r) :
    r.truthy = false := by
  cases f <;> cases h <;> rfl

theorem accepted_head {sent : Request} {head : Head} (h : head.status ≠ 401) :
    Accepted (steps ++ [(.response frame sent, .head head)]) := by
  intro head' hhead
  rw [exchange_snoc] at hhead
  cases hhead
  exact h

/-- What follows a head that is no refusal leaves it the last one. -/
theorem Accepted.snoc (h : Accepted steps) (hp : point.sends = false) :
    Accepted (steps ++ [(point, answer)]) := by
  intro head hhead
  refine h head ?_
  rw [exchange_snoc] at hhead
  cases point <;> cases answer <;> first | exact hhead | cases hp

/-- **One await of a request**: the call goes on along the retry, or it leaves it for
good. -/
theorem Stage.resume (h : Stage rt steps point)
    (hr : Rxon.resume rt floatOf point answer self = some (point', self')) :
    Stage rt (steps ++ [(point, answer)]) point' := by
  cases resume_advances hr with
  | noContent h204 => exact accepted_head (by omega)
  | @refresh frame sent head h401 h0 =>
    -- only the first request has attempt 0, and nothing precedes it
    rcases h with ⟨-, rfl⟩ | ⟨first, h⟩
    · exact ⟨frame, rfl, h0, .refused h401⟩
    · exact absurd h0 h.attempt_ne_zero
  | answered h204 h400 => exact accepted_head (by omega)
  | document | returned => exact Accepted.snoc h rfl
  | lost | raised | leaveFault => exact stage_surface ..
  | @resent frame =>
    obtain ⟨h0, h⟩ := h
    exact Or.inr ⟨frame, .resent h⟩
  | exhausted hlast =>
    obtain ⟨h0, h⟩ := h
    omega
  | granted h200 =>
    obtain ⟨frame, rfl, h0, h⟩ := h
    exact ⟨frame, rfl, h0, .answered h h200⟩
  | refused =>
    obtain ⟨frame, rfl, h0, h⟩ := h
    exact ⟨frame, rfl, h0, fun r hr htruthy => by cases hr; cases htruthy⟩
  | @adopted outer sent d res _ hbody =>
    obtain ⟨frame, rfl, h0, h⟩ := h
    refine ⟨frame, rfl, h0, fun r hr htruthy => ?_⟩
    rcases onRefreshBody_cases rt (some frame) d self with
      ⟨-, heq⟩ | ⟨head, fs, pair, hgrants, -, heq⟩
    · -- a document that is no token response is no success
      obtain ⟨hpoint, -⟩ := Prod.mk.inj (heq.symm.trans hbody)
      cases hpoint
      cases hr
      cases htruthy
    · exact .granted h hgrants.decodes
  | refreshFault =>
    obtain ⟨frame, rfl, h0, -⟩ := h
    refine stage_refreshOver _ h0 fun r hr htruthy => ?_
    rw [Fault.result?_truthy hr] at htruthy
    cases htruthy
  | refreshBodyFault =>
    obtain ⟨frame, rfl, h0, -⟩ := h
    refine ⟨frame, rfl, h0, fun r hr htruthy => ?_⟩
    rw [Fault.result?_truthy hr] at htruthy
    cases htruthy
  | refreshLeft =>
    obtain ⟨frame, rfl, h0, h⟩ := h
    refine stage_refreshOver _ h0 fun r hr htruthy => ?_
    cases hr
    exact .returned (h r rfl htruthy)
  | refreshLeaveFault =>
    obtain ⟨frame, rfl, h0, -⟩ := h
    refine stage_refreshOver _ h0 fun r hr htruthy => ?_
    rw [Fault.result?_truthy hr] at htruthy
    cases htruthy
  | _ => trivial

theorem startRequest_cases (args : RequestArgs) (registering : Bool) (self : HttpTransport) :
    (∃ e, (startRequest args registering self).1 = .done (.raised e)) ∨
      ∃ frame sent, frame.attempt = 0 ∧
        (startRequest args registering self).1 = .response frame sent := by
  unfold startRequest
  dsimp only
  split
  · exact Or.inl ⟨_, rfl⟩
  · exact Or.inr ⟨_, _, rfl, rfl⟩

/-- A call starts with its first request, unless there is no session. -/
theorem start_request_cases {call : TransportCall} (h : call.Requests) (self : HttpTransport) :
    (∃ e, (start call self).1 = .done (.raised e)) ∨
      ∃ frame sent, frame.attempt = 0 ∧ (start call self).1 = .response frame sent := by
  cases call with
  | request args => exact startRequest_cases ..
  | register registration => exact startRequest_cases ..
  | refreshToken => cases h

/-! ## How often a call sends -/

section
variable {call : TransportCall}

theorem stage_follows (hcall : call.Requests)
    (hf : (transportProgram rt floatOf).Follows call steps point) : Stage rt steps point := by
  induction hf with
  | start s =>
    change Stage rt [] (start call s).1
    rcases start_request_cases hcall s with ⟨e, h⟩ | ⟨frame, sent, h0, h⟩
    · rw [h]
      trivial
    · rw [h]
      exact Or.inl ⟨h0, rfl⟩
  | resume _ hr ih => exact ih.resume hr

theorem visited_snoc :
    visited (steps ++ [(point, answer)]) point' = visited steps point ++ [point'] := by
  simp [visited]

theorem countP_visited_snoc (p : Point → Bool) :
    (visited (steps ++ [(point, answer)]) point').countP p =
      (visited steps point).countP p + if p point' then 1 else 0 := by
  rw [visited_snoc, List.countP_append, List.countP_singleton]

/-- A request is sent at the start and after five awaits, and at no other time. -/
theorem sends_le (hcall : call.Requests)
    (hf : (transportProgram rt floatOf).Follows call steps point) :
    (visited steps point).countP Point.sends ≤ if steps.length < 5 then 1 else 2 := by
  induction hf with
  | start s => exact List.countP_le_length
  | @resume steps point point' answer s s' hf hr ih =>
    have hstage := stage_follows hcall (.resume hf hr)
    rw [countP_visited_snoc, List.length_append, List.length_singleton]
    by_cases hsends : point'.sends = true
    · have hlen : steps.length + 1 = 5 := by
        cases point' with
        | response frame sent =>
          rcases hstage with ⟨-, hnil⟩ | ⟨first, h⟩
          · simp at hnil
          · simpa using h.length_of_sends rfl
        | _ => cases hsends
      rw [if_pos (by omega)] at ih
      rw [if_pos hsends, if_neg (by omega)]
      omega
    · rw [if_neg hsends]
      split_ifs at ih ⊢ <;> omega

/-- A refresh is asked for after one await, and at no other time. -/
theorem asks_le (hcall : call.Requests)
    (hf : (transportProgram rt floatOf).Follows call steps point) :
    (visited steps point).countP Point.asks ≤ if steps.length < 1 then 0 else 1 := by
  induction hf with
  | start s =>
    change List.countP Point.asks [(start call s).1] ≤ 0
    rcases start_request_cases hcall s with ⟨e, h⟩ | ⟨frame, sent, -, h⟩
    · rw [h]
      rfl
    · rw [h]
      rfl
  | @resume steps point point' answer s s' hf hr ih =>
    have hstage := stage_follows hcall (.resume hf hr)
    rw [countP_visited_snoc, List.length_append, List.length_singleton]
    by_cases hasks : point'.asks = true
    · have hlen : steps.length + 1 = 1 := by
        cases point' with
        | refresh outer sent =>
          obtain ⟨frame, rfl, -, h⟩ := hstage
          simpa using h.length_of_asks rfl
        | _ => cases hasks
      rw [if_pos (by omega)] at ih
      rw [if_pos hasks, if_neg (by omega)]
      omega
    · rw [if_neg hasks]
      split_ifs at ih ⊢ <;> omega

end

end

/-! ## The token of the second request -/

section
variable (rt : Runtime rxonDecls) (floatOf : String → Option PyFloat)

/-- Nothing that some call is offered on the way from `c` is a token response. -/
def Undisturbed (c : Program.Config HttpTransport Point)
    (es : List (Program.Event TransportCall Answer)) : Prop :=
  ∀ es' e c', es' ++ [e] <+: es → Run (transportProgram rt floatOf).Step c es' c' →
    ∀ v, offeredBy c' e = some v → ¬ Decodes rt v

/-- The refresh that call `i` waited for has just returned, and the call has copied the
headers. -/
def Copied (i : Nat) (es : List (Program.Event TransportCall Answer))
    (c : Program.Config HttpTransport Point) (headers : List (String × PyVal)) : Prop :=
  (∃ es₀, es = es₀ ++ [.resume i .left]) ∧ c.shared.headers = headers ∧
    ∃ frame, c.points[i]? = some (.leave frame (.resend headers))

/-- Since the refresh returned to call `i`, only others have gone on. -/
structure HeldSince (idle : HttpTransport) (i : Nat)
    (es : List (Program.Event TransportCall Answer)) (c : Program.Config HttpTransport Point)
    (headers : List (String × PyVal)) (es₁ es₂ : List (Program.Event TransportCall Answer))
    (c₁ : Program.Config HttpTransport Point) : Prop where
  split : es = es₁ ++ es₂
  before : TransportRun rt floatOf idle es₁ c₁
  copied : Copied i es₁ c₁ headers
  since : Run (transportProgram rt floatOf).Step c₁ es₂ c
  others : ∀ answer, .resume i answer ∉ es₂

variable {rt floatOf} {self : HttpTransport}
  {es es₁ es₂ : List (Program.Event TransportCall Answer)}
  {c c' c₁ : Program.Config HttpTransport Point} {e : Program.Event TransportCall Answer}
  {i : Nat} {headers : List (String × PyVal)} {point : Point} {answer : Answer}
  {frame : Frame}

theorem undisturbed_token (hrun : TransportRun rt floatOf self es₁ c₁)
    (h : Run (transportProgram rt floatOf).Step c₁ es₂ c) (hu : Undisturbed rt floatOf c₁ es₂) :
    c.shared.token = c₁.shared.token := by
  induction h with
  | nil => rfl
  | @snoc es d c e hd hstep ih =>
    have hsame := ih fun es' e' c' hp =>
      hu es' e' c' (hp.trans (List.prefix_append _ _))
    rcases (step_takes (hrun.trans hd) hstep).1 with ⟨b, heq⟩ | ⟨v, pair, hv, hgrants, -⟩
    · rw [heq]
      exact hsame
    · exact absurd hgrants.decodes (hu es e d (List.prefix_refl _) hd v hv)

/-- The headers with which a call is about to be sent again. -/
def Point.resends? : Point → Option (List (String × PyVal))
  | .leave _ (.resend headers) => some headers
  | _ => none

theorem resends?_refreshOver {outer : Option Frame} {res : Option PyVal}
    (h : (refreshOver outer self res).resends? = some headers) : self.headers = headers := by
  unfold refreshOver refreshed refreshInterrupted at h
  repeat' split at h
  · cases h
  · exact Option.some.inj h
  all_goals cases h

theorem resends?_start (call : TransportCall) (self : HttpTransport) :
    (start call self).1.resends? = none := by
  unfold start startRequest startRefresh
  dsimp only
  repeat' split
  all_goals rfl

/-- A call that comes to be sent again has just been given back control by its refresh,
and copied the headers. -/
theorem resume_resends {point' : Point} {self' : HttpTransport}
    (hr : resume rt floatOf point answer self = some (point', self'))
    (h : point'.resends? = some headers) : answer = .left ∧ self'.headers = headers := by
  cases resume_advances hr with
  | refreshLeft => exact ⟨rfl, resends?_refreshOver h⟩
  | @refreshFault outer _ f | @refreshLeaveFault outer _ f =>
    -- a fault is no success of the refresh
    cases outer <;> cases f <;> cases h
  | _ => cases h

/-- **Where a call is about to be sent again, it is since its refresh returned**, with
the headers the transport had then. -/
theorem heldSince_of_resends (h : TransportRun rt floatOf self es c)
    (hi : c.points[i]? = some (.leave frame (.resend headers))) :
    ∃ es₁ es₂ c₁, HeldSince rt floatOf self i es c headers es₁ es₂ c₁ := by
  induction h with
  | nil => cases hi
  | @snoc es d c e hrun hstep ih =>
    -- nothing changes for the call while others go on
    have hothers : (∀ answer, e ≠ .resume i answer) →
        d.points[i]? = some (.leave frame (.resend headers)) →
        ∃ es₁ es₂ c₁, HeldSince rt floatOf self i (es ++ [e]) c headers es₁ es₂ c₁ := by
      intro hne hd
      obtain ⟨es₁, es₂, c₁, hheld⟩ := ih hd
      refine ⟨es₁, es₂ ++ [e], c₁, ?_, hheld.before, hheld.copied, .snoc hheld.since hstep, ?_⟩
      · rw [hheld.split, List.append_assoc]
      · intro answer hmem
        rcases List.mem_append.mp hmem with hmem | hmem
        · exact hheld.others answer hmem
        · exact hne answer (List.mem_singleton.mp hmem).symm
    rcases Program.step_cases hstep with ⟨call, point, s', rfl, hs, rfl⟩ |
      ⟨j, answer, old, point, s', rfl, hj, hr, rfl⟩
    · by_cases hlt : i < d.points.length
      · rw [List.getElem?_append_left hlt] at hi
        exact hothers (fun _ he => by cases he) hi
      · -- no call starts by being sent again
        exfalso
        have hpoint : point = .leave frame (.resend headers) := by
          have hmem := List.mem_of_getElem? ((List.getElem?_append_right (by omega)).symm.trans hi)
          exact (List.mem_singleton.mp hmem).symm
        have hstart := resends?_start call d.shared
        rw [show (start call d.shared).1 = point from congrArg Prod.fst hs, hpoint] at hstart
        cases hstart
    · by_cases hij : j = i
      · subst hij
        have hlt := (List.getElem?_eq_some_iff.mp hj).choose
        rw [List.getElem?_set_self hlt] at hi
        cases hi
        obtain ⟨rfl, hheaders⟩ := resume_resends hr rfl
        refine ⟨es ++ [.resume j .left], [], _, (List.append_nil _).symm, .snoc hrun hstep, ?_,
          .nil, fun _ h => by cases h⟩
        exact ⟨⟨es, rfl⟩, hheaders, frame, List.getElem?_set_self hlt⟩
      · rw [List.getElem?_set_ne hij] at hi
        exact hothers (fun _ he => by cases he; exact hij rfl) hi

/-- The second request is sent as soon as the context of the first response is left. -/
theorem resend_cases (hi : c.points[i]? = some (.leave frame (.resend headers)))
    (h0 : frame.attempt = 0) (h : (transportProgram rt floatOf).Step c (.resume i .left) c') :
    c'.points[i]? = some (sendRequest { frame with attempt := 1 } headers) ∧
      c'.shared = c.shared := by
  obtain ⟨point, shared, hr, rfl⟩ := Program.resume_cases hi h
  have hleft : resume rt floatOf (.leave frame (.resend headers)) .left c.shared =
      some (sendRequest { frame with attempt := 1 } headers, c.shared) := by
    simp only [resume, onLeft, h0]
    rfl
  obtain ⟨rfl, rfl⟩ := Prod.mk.inj (Option.some.inj (hleft.symm.trans hr))
  have hlt := (List.getElem?_eq_some_iff.mp hi).choose
  exact ⟨List.getElem?_set_self hlt, rfl⟩

/-- **The authentication retry is bounded and uses the new token.**  In every run, a call
sends at most twice and asks for at most one refresh; it sends again only on the way that
`Retry` describes, a 401 and a refresh that was granted; the second request carries the
token that the transport held when the refresh returned, which it still holds when the
request is sent unless a call has taken over another one in between; and no value is
returned for a request that was refused. -/
theorem retry_bounded {baseUrl workerId token : String} {session : Option Nat}
    {call : TransportCall}
    (h : TransportRun rt floatOf (HttpTransport.init baseUrl workerId token session) es c)
    (hi : (Program.calls es)[i]? = some call) (hcall : call.Requests) :
    ∃ steps point, c.points[i]? = some point ∧
      steps = (transportProgram rt floatOf).trail i
        ⟨HttpTransport.init baseUrl workerId token session, []⟩ es ∧
      (visited steps point).countP Point.sends ≤ 2 ∧
      (visited steps point).countP Point.asks ≤ 1 ∧
      (∀ frame sent, point = .response frame sent →
        steps = [] ∨ ∃ first, Retry rt first steps point) ∧
      (∀ frame headers, point = .leave frame (.resend headers) →
        frame.attempt = 0 ∧
        (∀ c', (transportProgram rt floatOf).Step c (.resume i .left) c' →
          c'.points[i]? = some (sendRequest { frame with attempt := 1 } headers) ∧
            c'.shared = c.shared) ∧
        ∃ es₁ es₂ c₁, HeldSince rt floatOf (HttpTransport.init baseUrl workerId token session) i
            es c headers es₁ es₂ c₁ ∧
          headers.lookup "X-Worker-Token" = some c₁.shared.token ∧
          (Undisturbed rt floatOf c₁ es₂ → c.shared.token = c₁.shared.token)) ∧
      ∀ value, point = .done (.returned value) → Accepted steps := by
  obtain ⟨point, hpoint, hf⟩ := Program.run_follows h hi
  have hstage := stage_follows hcall hf
  refine ⟨_, point, hpoint, rfl, (sends_le hcall hf).trans (by split_ifs <;> omega),
    (asks_le hcall hf).trans (by split_ifs <;> omega), ?_, ?_, ?_⟩
  · rintro frame sent rfl
    exact hstage.imp_left And.right
  · rintro frame headers rfl
    have h0 : frame.attempt = 0 := hstage.1
    refine ⟨h0, fun c' => resend_cases hpoint h0, ?_⟩
    obtain ⟨es₁, es₂, c₁, hheld⟩ := heldSince_of_resends h hpoint
    refine ⟨es₁, es₂, c₁, hheld, ?_, undisturbed_token hheld.before hheld.since⟩
    rw [← hheld.copied.2.1]
    exact header_token hheld.before
  · rintro value rfl
    exact hstage

/-- A token response. -/
def tokenJson (accessToken : String) : Json :=
  .obj [("access_token", .str accessToken), ("refresh_token", .str "next"),
    ("expires_in", .int 300), ("worker_id", .str "w")]

/-- A heartbeat that is refused, and the refresh that returns to it. -/
def refusedHeartbeat : List (Program.Event TransportCall Answer) :=
  [.start (.request ⟨"PATCH", "/_worker/workers/w", .none, .none⟩),
    .resume 0 (.head ⟨401, none, none, none⟩), .resume 0 (.head ⟨200, none, none, none⟩),
    .resume 0 (.json (tokenJson "first")), .resume 0 .left]

theorem retry_bounded_heartbeat :
    ∃ c, TransportRun (Runtime.reference rxonDecls fun _ => "") (fun _ => none)
        heartbeatTransport refusedHeartbeat c ∧
      ∃ point, c.points[0]? = some point ∧
        (visited ((transportProgram (Runtime.reference rxonDecls fun _ => "")
          fun _ => none).trail 0 ⟨heartbeatTransport, []⟩ refusedHeartbeat) point).countP
          Point.sends ≤ 2 := by
  obtain ⟨c, hrun⟩ : ∃ c, TransportRun (Runtime.reference rxonDecls fun _ => "") (fun _ => none)
      heartbeatTransport refusedHeartbeat c := ⟨_, Program.runAll_iff.mp rfl⟩
  obtain ⟨steps, point, hpoint, rfl, hsends, -⟩ := retry_bounded (i := 0) hrun rfl trivial
  exact ⟨c, hrun, point, hpoint, hsends⟩

/-- While the refused response is left, another refresh runs from its start to its end:
the second request then carries a token that is no longer the transport's. -/
theorem resent_token_outdated :
    ∃ c c' frame sent, TransportRun (Runtime.reference rxonDecls fun _ => "") (fun _ => none)
        heartbeatTransport
        (refusedHeartbeat ++ [.start .refreshToken, .resume 1 (.head ⟨200, none, none, none⟩),
          .resume 1 (.json (tokenJson "second")), .resume 1 .left]) c ∧
      (transportProgram (Runtime.reference rxonDecls fun _ => "") fun _ => none).Step c
        (.resume 0 .left) c' ∧
      c'.points[0]? = some (.response frame sent) ∧
      sent.headers.lookup "X-Worker-Token" = some (.str "first") ∧
      c'.shared.token = .str "second" :=
  ⟨_, _, _, _, Program.runAll_iff.mp rfl, rfl, rfl, rfl, rfl⟩

end
end Rxon
