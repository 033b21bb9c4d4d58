import Rxon.Listener
import Rxon.Messages
import Rxon.Routes

/-! # Events

`emit_event` hands an event to the websocket that the transport keeps, if it is open, and
posts it where there is none or the socket does not take it.  It is a coroutine that awaits
`send_json` and `_request`.

The socket belongs to the generator of `listen_for_commands`, a coroutine of the same
transport.  As long as there is one generator only, the socket that is kept is the one
which that generator is at (`run_sole`). -/

namespace Rxon
open Interleaving (Program Run)

/-! ## `emit_event` -/

inductive EventOutcome where
  | returned (value : Bool)
  | interrupted

inductive EventPoint where
  | sending (event : PyVal) (socket : Nat) (frame : Json)
  | posting (event : PyVal) (sent : RequestArgs)
  | done (outcome : EventOutcome)

/-- What an await is answered: `refused` is an `Exception` of `send_json`, and `posted` what
`_request` comes to. -/
inductive EventAnswer where
  | sent
  | refused
  | posted (outcome : Outcome)
  | interrupted

/-- The second `try`. -/
def postEvent (event : PyVal) : EventPoint :=
  .posting event ⟨"POST", endpointWorkerEvents, .none, event⟩

/-- Up to the first await.  What `to_dict` raises is caught where `send_json` would be. -/
def startEvent (rt : Runtime rxonDecls) (event : PyVal) (p : Process) : EventPoint :=
  match p.transport.wsConnection with
  | some w =>
    if p.sockets[w]? = some false then
      match toDict rt event 0 with
      | .ok frame => .sending event w frame
      | .error _ => postEvent event
    else postEvent event
  | none => postEvent event

def resumeEvent (point : EventPoint) (answer : EventAnswer) : Option EventPoint :=
  match point, answer with
  | .sending _ _ _, .sent => some (.done (.returned true))
  | .sending event _ _, .refused => some (postEvent event)
  | .posting _ _, .posted (.returned _) => some (.done (.returned true))
  | .posting _ _, .posted (.raised _) => some (.done (.returned false))
  | .posting _ _, .posted .interrupted => some (.done .interrupted)
  | .sending _ _ _, .interrupted => some (.done .interrupted)
  | _, _ => none

/-- All calls of `emit_event` over the transport's process. -/
def eventProgram (rt : Runtime rxonDecls) : Program Process PyVal EventPoint EventAnswer where
  start event p := (startEvent rt event p, p)
  resume point answer p := (resumeEvent point answer).map fun point => (point, p)

/-! ## What a call goes through -/

section
variable {rt : Runtime rxonDecls} {event : PyVal} {p : Process} {point point' : EventPoint}
  {answer : EventAnswer} {steps : List (EventPoint × EventAnswer)}

variable (rt event) in
/-- What was tried before the event is posted: nothing, or a socket that did not take it. -/
inductive Unsent : List (EventPoint × EventAnswer) → Prop
  | none : Unsent []
  | refused {w : Nat} {frame : Json} (hframe : toDict rt event 0 = .ok frame) :
      Unsent [(.sending event w frame, .refused)]

variable (rt event) in
/-- What a call has gone through when it stands at a point. -/
inductive Emits : List (EventPoint × EventAnswer) → EventPoint → Prop
  | sending {w : Nat} {frame : Json} (hframe : toDict rt event 0 = .ok frame) :
      Emits [] (.sending event w frame)
  | posting {before : List (EventPoint × EventAnswer)} (h : Unsent rt event before) :
      Emits before (postEvent event)
  | sent {w : Nat} {frame : Json} (hframe : toDict rt event 0 = .ok frame) :
      Emits [(.sending event w frame, .sent)] (.done (.returned true))
  | posted {before : List (EventPoint × EventAnswer)} {v : PyVal} (h : Unsent rt event before) :
      Emits (before ++ [(postEvent event, .posted (.returned v))]) (.done (.returned true))
  | failed {before : List (EventPoint × EventAnswer)} {e : RxonError}
      (h : Unsent rt event before) :
      Emits (before ++ [(postEvent event, .posted (.raised e))]) (.done (.returned false))
  | interrupted {before : List (EventPoint × EventAnswer)} : Emits before (.done .interrupted)

theorem emits_start (p : Process) : Emits rt event [] (startEvent rt event p) := by
  unfold startEvent
  split
  · split
    · split
      · rename_i hframe
        exact .sending hframe
      · exact .posting .none
    · exact .posting .none
  · exact .posting .none

theorem Emits.resume (h : Emits rt event steps point)
    (hr : resumeEvent point answer = some point') :
    Emits rt event (steps ++ [(point, answer)]) point' := by
  cases h with
  | sending hframe =>
    cases answer with
    | sent => cases hr; exact .sent hframe
    | refused => cases hr; exact .posting (.refused hframe)
    | interrupted => cases hr; exact .interrupted
    | posted => cases hr
  | posting h =>
    cases answer with
    | posted outcome =>
      cases outcome with
      | returned => cases hr; exact .posted h
      | raised => cases hr; exact .failed h
      | interrupted => cases hr; exact .interrupted
    | sent | refused | interrupted => cases hr
  | sent | posted | failed | interrupted => cases hr

/-- **Whatever becomes of the transport meanwhile**, a call hands its event to one socket at
most, and posts it only where no socket took it. -/
theorem emits_follows (hf : (eventProgram rt).Follows event steps point) :
    Emits rt event steps point := by
  induction hf with
  | start s => exact emits_start s
  | resume _ hr ih =>
    obtain ⟨q, hq, heq⟩ := Option.map_eq_some_iff.mp hr
    cases heq
    exact ih.resume hq

end

/-! ## The listener's socket -/

namespace ClientPoint

/-- The coroutine is a generator. -/
def listens : ClientPoint → Bool
  | .connecting _ | .receiving _ _ | .yielding _ _ _ | .leaving _ _ _ | .sleeping _ => true
  | _ => false

/-- The socket that a generator is at. -/
def socket? : ClientPoint → Option Nat
  | .receiving _ w | .yielding _ w _ | .leaving _ w _ => some w
  | _ => none

end ClientPoint

/-- At most one of the calls is a generator. -/
def Sole (calls : List ClientCall) : Prop :=
  ∀ (i j : Nat) (b b' : Bool), calls[i]? = some (.listen b) → calls[j]? = some (.listen b') → i = j

section
variable {rt : Runtime rxonDecls} {floatOf : String → Option PyFloat} {p p' : Process}
  {point point' : ClientPoint} {answer : ClientAnswer} {c : Program.Config Process ClientPoint}
  {es : List (Program.Event ClientCall ClientAnswer)}

theorem ClientPoint.listens_of_socket {w : Nat} (h : point.socket? = some w) :
    point.listens = true := by
  cases point with
  | receiving | yielding | leaving => rfl
  | request | connecting | sleeping | closingSocket | closingSession | ended => cases h

/-- The socket that is kept is the one that the generator is at, and none while it waits for
a connection. -/
structure Process.Keeps (p : Process) (point : ClientPoint) : Prop where
  socket : ∀ w, point.socket? = some w → p.transport.wsConnection = some w
  connecting : ∀ l, point = .connecting l → p.transport.wsConnection = none

theorem keeps_ended : p.Keeps .ended := by
  constructor <;> intro _ h <;> cases h

theorem keeps_sleeping (l : Listener) : p.Keeps (.sleeping l) := by
  constructor <;> intro _ h <;> cases h

theorem keeps_of_not_listens (h : point.listens = false) : p.Keeps point := by
  constructor
  · intro w hw
    rw [ClientPoint.listens_of_socket hw] at h
    cases h
  · rintro l rfl
    cases h

/-- The generator is at a socket. -/
theorem keeps_at {w : Nat} (hat : point.socket? = some w)
    (h : p.transport.wsConnection = some w) : p.Keeps point := by
  constructor
  · intro v hv
    rw [hat] at hv
    cases hv
    exact h
  · rintro l rfl
    cases hat

theorem keeps_loopAgain (l : Listener) (h : p.transport.wsConnection = none) :
    p.Keeps (loopAgain l p') := by
  rcases loopAgain_cases l p' with ⟨-, hl⟩ | hl <;> rw [hl]
  · exact ⟨fun _ hw => (by cases hw), fun _ _ => h⟩
  · exact keeps_ended

theorem keeps_attemptOver (l : Listener) : p.Keeps (attemptOver l p') := by
  rcases attemptOver_cases l p' with h | h <;> rw [h]
  · exact keeps_ended
  · exact keeps_sleeping l

theorem keeps_attemptFault (l : Listener) (f : Fault) : p.Keeps (attemptFault l p' f) := by
  rcases attemptFault_cases l p' f with h | h <;> rw [h]
  · exact keeps_ended
  · exact keeps_sleeping l

theorem keeps_messageOver (l : Listener) {w : Nat} (h : p.transport.wsConnection = some w) :
    p.Keeps (messageOver l w p') := by
  rcases messageOver_cases l w p' with hm | hm <;> rw [hm] <;> exact keeps_at rfl h

theorem keeps_onMessage (l : Listener) {w : Nat} (msg : WsMessage)
    (h : p.transport.wsConnection = some w) : p.Keeps (onMessage rt l w msg p') := by
  unfold onMessage
  split
  · split
    · exact keeps_at rfl h
    · exact keeps_messageOver l h
  all_goals first
    | exact keeps_messageOver l h
    | exact keeps_at rfl h

theorem listens_closeOwnSession (p : Process) : (closeOwnSession p).listens = false := by
  rcases closeOwnSession_cases p with ⟨h, -⟩ | ⟨i, h, -⟩ <;> rw [h] <;> rfl

theorem listens_closeConnection (p : Process) : (closeConnection p).listens = false := by
  rcases closeConnection_cases p with ⟨h, -⟩ | ⟨w, h, -⟩ <;> rw [h]
  · exact listens_closeOwnSession p
  · rfl

/-- A step of another coroutine leaves the kept socket as it is. -/
theorem socket_resume_of_other (hpoint : point.listens = false)
    (hr : resumeClient rt floatOf point answer p = some (point', p')) :
    point'.listens = false ∧ p'.transport.wsConnection = p.transport.wsConnection := by
  unfold resumeClient at hr
  split at hr
  · obtain ⟨⟨q, transport⟩, hreq, heq⟩ := Option.map_eq_some_iff.mp hr
    cases heq
    exact ⟨rfl, (sameLife_resume hreq).2.2.1⟩
  all_goals cases hr
  all_goals first
    | exact ⟨rfl, rfl⟩
    | exact ⟨listens_closeOwnSession _, rfl⟩
    | cases hpoint

/-- A step of the generator itself keeps the socket that it is at afterwards. -/
theorem keeps_resume (h : p.Keeps point)
    (hr : resumeClient rt floatOf point answer p = some (point', p')) : p'.Keeps point' := by
  unfold resumeClient at hr
  split at hr
  · obtain ⟨⟨q, transport⟩, -, heq⟩ := Option.map_eq_some_iff.mp hr
    cases heq
    exact keeps_of_not_listens rfl
  all_goals cases hr
  all_goals first
    | exact keeps_ended
    | exact keeps_at rfl rfl
    | exact keeps_at rfl (h.socket _ rfl)
    | exact keeps_attemptFault _ _
    | exact keeps_attemptOver _
    | exact keeps_loopAgain _ rfl
    | exact keeps_onMessage _ _ (h.socket _ rfl)
    | exact keeps_messageOver _ (h.socket _ rfl)
    | exact keeps_of_not_listens (listens_closeOwnSession _)

theorem start_other {call : ClientCall} (hcall : ∀ b : Bool, call ≠ .listen b) (p : Process) :
    (startClient call p).1.listens = false := by
  cases call with
  | connect => rfl
  | close => exact listens_closeConnection _
  | listen b => exact absurd rfl (hcall b)
  | request call => rfl

theorem start_socket (call : ClientCall) (p : Process) :
    (startClient call p).2.transport.wsConnection = p.transport.wsConnection := by
  cases call with
  | connect =>
    show p.connect.transport.wsConnection = _
    cases hsession : p.transport.session with
    | none => simp [Process.connect, hsession]
    | some i => rw [Process.connect_of_some hsession]
  | close => rfl
  | listen b => rfl
  | request call => exact (sameLife_start call _).2.2.1

theorem keeps_startListen (b : Bool) (h : p.transport.wsConnection = none) :
    p.Keeps (startListen b p') := by
  unfold startListen
  split
  · exact keeps_ended
  · exact keeps_loopAgain _ h

/-- What a run keeps of the generator, as long as there is one only. -/
structure Listening (es : List (Program.Event ClientCall ClientAnswer))
    (c : Program.Config Process ClientPoint) : Prop where
  called : ∀ (i : Nat) (q : ClientPoint), c.points[i]? = some q → q.listens = true →
    ∃ b : Bool, (Program.calls es)[i]? = some (.listen b)
  keeps : ∀ q ∈ c.points, c.shared.Keeps q
  silent : (∀ b : Bool, .listen b ∉ Program.calls es) → c.shared.transport.wsConnection = none

theorem Sole.of_append {calls calls' : List ClientCall} (h : Sole (calls ++ calls')) :
    Sole calls := by
  intro i j b b' hi hj
  have hi' := (List.getElem?_eq_some_iff.mp hi).choose
  have hj' := (List.getElem?_eq_some_iff.mp hj).choose
  refine h i j b b' ?_ ?_
  · rwa [List.getElem?_append_left hi']
  · rwa [List.getElem?_append_left hj']

/-- Nobody has listened yet when the only generator starts. -/
theorem Sole.not_mem {calls : List ClientCall} {b : Bool} (h : Sole (calls ++ [.listen b]))
    (b' : Bool) : .listen b' ∉ calls := by
  intro hmem
  obtain ⟨i, hi⟩ := List.mem_iff_getElem?.mp hmem
  have hlt := (List.getElem?_eq_some_iff.mp hi).choose
  have heq := h i calls.length b' b (by rwa [List.getElem?_append_left hlt])
    List.getElem?_concat_length
  omega

theorem Process.Keeps.of_same (h : p.Keeps point)
    (hsame : p'.transport.wsConnection = p.transport.wsConnection) : p'.Keeps point := by
  constructor
  · intro w hw
    rw [hsame]
    exact h.socket w hw
  · intro l hl
    rw [hsame]
    exact h.connecting l hl

theorem Listening.start (h : Listening es c) {call : ClientCall} {q : ClientPoint}
    (hsole : Sole (Program.calls es ++ [call]))
    (hlen : c.points.length = (Program.calls es).length)
    (hs : startClient call c.shared = (q, p')) :
    Listening (es ++ [.start call]) ⟨p', c.points ++ [q]⟩ := by
  have hq : q = (startClient call c.shared).1 := by rw [hs]
  have hsame : p'.transport.wsConnection = c.shared.transport.wsConnection := by
    rw [← start_socket call c.shared, hs]
  have hcalls : Program.calls (es ++ [.start call]) = Program.calls es ++ [call] :=
    Program.calls_append ..
  constructor
  · intro i r hi hr
    rw [hcalls]
    by_cases hlt : i < c.points.length
    · rw [List.getElem?_append_left hlt] at hi
      obtain ⟨b, hb⟩ := h.called i r hi hr
      exact ⟨b, by rwa [List.getElem?_append_left (hlen ▸ hlt)]⟩
    · have hlast := (List.getElem?_eq_some_iff.mp hi).choose
      rw [List.length_append, List.length_singleton] at hlast
      obtain rfl : i = c.points.length := by omega
      rw [List.getElem?_concat_length] at hi
      cases hi
      cases call with
      | listen b => exact ⟨b, by rw [hlen, List.getElem?_concat_length]⟩
      | connect | close | request =>
        rw [hq, start_other (by simp)] at hr
        cases hr
  · intro r hr
    show p'.Keeps r
    rcases List.mem_append.mp hr with hr | hr
    · exact (h.keeps r hr).of_same hsame
    · rw [List.mem_singleton.mp hr, hq]
      cases call with
      | listen b =>
        refine keeps_startListen b ?_
        rw [hsame]
        exact h.silent hsole.not_mem
      | connect | close | request => exact keeps_of_not_listens (start_other (by simp) _)
  · intro hnone
    show p'.transport.wsConnection = none
    rw [hsame]
    refine h.silent fun b hmem => hnone b ?_
    rw [hcalls]
    exact List.mem_append_left _ hmem

/-- A generator that is resumed is the only one; the others are at no socket. -/
theorem Listening.resume (h : Listening es c) (hsole : Sole (Program.calls es)) {i : Nat}
    {old q : ClientPoint} (hi : c.points[i]? = some old)
    (hr : resumeClient rt floatOf old answer c.shared = some (q, p')) :
    Listening (es ++ [.resume i answer]) ⟨p', c.points.set i q⟩ := by
  have hcalls : Program.calls (es ++ [.resume i answer]) = Program.calls es := by
    rw [Program.calls_append]
    exact List.append_nil _
  have hlt := (List.getElem?_eq_some_iff.mp hi).choose
  constructor
  · intro j r hj hlistens
    rw [hcalls]
    by_cases hij : i = j
    · subst hij
      rw [List.getElem?_set_self hlt] at hj
      cases hj
      refine h.called i old hi ?_
      by_contra hold
      rw [(socket_resume_of_other (Bool.eq_false_iff.mpr hold) hr).1] at hlistens
      cases hlistens
    · rw [List.getElem?_set_ne hij] at hj
      exact h.called j r hj hlistens
  · intro r hr'
    show p'.Keeps r
    obtain ⟨j, hj⟩ := List.mem_iff_getElem?.mp hr'
    by_cases hij : i = j
    · subst hij
      rw [List.getElem?_set_self hlt] at hj
      cases hj
      exact keeps_resume (h.keeps old (List.mem_of_getElem? hi)) hr
    · rw [List.getElem?_set_ne hij] at hj
      have hkept := h.keeps r (List.mem_of_getElem? hj)
      by_cases hr'' : r.listens = true
      · have hold : old.listens = false := by
          by_contra hlistens
          -- then both are generators
          obtain ⟨b, hb⟩ := h.called i old hi (Bool.not_eq_false _ ▸ hlistens)
          obtain ⟨b', hb'⟩ := h.called j r hj hr''
          exact hij (hsole i j b b' hb hb')
        exact hkept.of_same (socket_resume_of_other hold hr).2
      · exact keeps_of_not_listens (Bool.eq_false_iff.mpr hr'')
  · intro hnone
    rw [hcalls] at hnone
    have hold : old.listens = false := by
      by_contra hlistens
      obtain ⟨b, hb⟩ := h.called i old hi (Bool.not_eq_false _ ▸ hlistens)
      exact hnone b (List.mem_of_getElem? hb)
    show p'.transport.wsConnection = none
    rw [(socket_resume_of_other hold hr).2]
    exact h.silent hnone

/-- **As long as a transport has one generator, the socket that it keeps is the one which
the generator is at.** -/
theorem run_listening (h0 : p.transport.wsConnection = none)
    (hrun : Run (clientProgram rt floatOf).Step ⟨p, []⟩ es c) (hsole : Sole (Program.calls es)) :
    Listening es c := by
  induction hrun with
  | nil => exact ⟨fun i q hi => (by cases hi), fun q hq => (by cases hq), fun _ => h0⟩
  | @snoc es c c' e hrun hstep ih =>
    rw [Program.calls_append] at hsole
    have h := ih hsole.of_append
    rcases Program.step_cases hstep with ⟨call, q, p', rfl, hs, rfl⟩ |
      ⟨i, a, old, q, p', rfl, hi, hr, rfl⟩
    · exact h.start hsole (Program.calls_length hrun) hs
    · exact h.resume hsole.of_append hi hr

theorem startEvent_of_socket {event : PyVal} {frame : Json} {w : Nat}
    (hw : p.transport.wsConnection = some w) (hframe : toDict rt event 0 = .ok frame) :
    startEvent rt event p =
      if p.sockets[w]? = some false then .sending event w frame else postEvent event := by
  unfold startEvent
  rw [hw, hframe]

/-- **Where an event goes.**  In every run of a transport with one generator at most, an event
is handed to the socket that the generator is at, if that is open.  It is posted if not, and
while the generator waits for a connection. -/
theorem event_goes_to_listened_socket (h0 : p.transport.wsConnection = none)
    (hrun : Run (clientProgram rt floatOf).Step ⟨p, []⟩ es c) (hsole : Sole (Program.calls es))
    (hpoint : point ∈ c.points) {event : PyVal} {frame : Json}
    (hframe : toDict rt event 0 = .ok frame) :
    (∀ w, point.socket? = some w → startEvent rt event c.shared =
      if c.shared.sockets[w]? = some false then .sending event w frame else postEvent event) ∧
    (∀ l, point = .connecting l → startEvent rt event c.shared = postEvent event) := by
  have hkeeps := (run_listening h0 hrun hsole).keeps point hpoint
  constructor
  · intro w hw
    exact startEvent_of_socket (hkeeps.socket w hw) hframe
  · intro l hl
    unfold startEvent
    rw [hkeeps.connecting l hl]

end

/-- An event with nothing but its names. -/
def readyEvent : PyVal := .struct ⟨"WorkerEventPayload", ["priority"]⟩
  [("event_id", .str "e-1"), ("worker_id", .str "w-1"), ("origin_worker_id", .str "w-1"),
   ("event_type", .str "ready"), ("payload", .dict []), ("origin_task_id", .none),
   ("bubbling_chain", .none), ("target_job_id", .none), ("target_task_id", .none),
   ("trace_context", .none), ("priority", .float (.finite .zero)), ("timestamp", .none),
   ("security", .none), ("metadata", .none)]

theorem toDict_readyEvent : toDict (Runtime.reference rxonDecls fun _ => "") readyEvent 0 =
    .ok (Json.canon (readyEvent.tree rxonDecls)) := by
  have htype : HasType rxonDecls (.cls "WorkerEventPayload") readyEvent := by
    refine .struct "WorkerEventPayload" _ rfl true _ _ rfl rfl ?_
    simp only [List.zip_cons_cons, List.zip_nil_right, List.forall_mem_cons]
    exact ⟨.str _, .str _, .str _, .str _, .dict _ _ Assoc.unique_nil (by simp),
      hasType_optional_none, hasType_optional_none, hasType_optional_none, hasType_optional_none,
      hasType_optional_none, .float _, hasType_optional_none, hasType_optional_none,
      hasType_optional_none, by simp⟩
  rw [toDict_of_hasType _ (by decide) htype]
  exact ⟨by decide +kernel, by decide +kernel, rfl⟩

/-- The generator has connected and waits for a message. -/
theorem event_goes_to_listened_socket_ready :
    ∃ c, Run (clientProgram (Runtime.reference rxonDecls fun _ => "") fun _ => none).Step
        ⟨(Process.new "http://orchestrator" "w-1" "token").connect, []⟩
        [.start (.listen true), .resume 0 .opened] c ∧
      startEvent (Runtime.reference rxonDecls fun _ => "") readyEvent c.shared =
        .sending readyEvent 0 (Json.canon (readyEvent.tree rxonDecls)) := by
  let p := (Process.new "http://orchestrator" "w-1" "token").connect
  have hrun : Run (clientProgram (Runtime.reference rxonDecls fun _ => "") fun _ => none).Step
      ⟨p, []⟩ [.start (.listen true), .resume 0 .opened]
      ⟨p.openSocket, [.receiving ⟨true, 1⟩ 0]⟩ := Program.runAll_iff.mp rfl
  have hsole : Sole [.listen true] := by
    intro i j b b' hi hj
    have hi' := (List.getElem?_eq_some_iff.mp hi).choose
    have hj' := (List.getElem?_eq_some_iff.mp hj).choose
    rw [List.length_singleton] at hi' hj'
    omega
  exact ⟨_, hrun, (event_goes_to_listened_socket rfl hrun hsole (List.mem_singleton_self _)
    toDict_readyEvent).1 0 rfl⟩

end Rxon
