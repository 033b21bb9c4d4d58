import Rxon.Events
import Rxon.SignedDeliveries

/-! # What the methods report

`send_result` and `emit_event` are made of requests, and say with `True` that the
orchestrator has taken what they sent.  Each of their requests is a call of the worker, and
every run of the system accounts for what came of it; so what the methods return can be held
against what the handler did. -/

namespace Rxon.Exchanges
open Interleaving

/-! ## Which requests they make -/

theorem attempt_posting {frame frame' : ResultFrame} {sent : RequestArgs}
    (h : attempt frame = .posting frame' sent) :
    sent = ⟨"POST", endpointTaskResult, .none, frame'.call.result⟩ := by
  unfold attempt at h
  split at h
  · cases h
    rfl
  · split at h <;> cases h

theorem pause_posting {frame frame' : ResultFrame} {sent : RequestArgs}
    (h : pause frame = .posting frame' sent) :
    sent = ⟨"POST", endpointTaskResult, .none, frame'.call.result⟩ := by
  unfold pause at h
  split at h
  · split at h <;> cases h
  · exact attempt_posting h

/-- What `send_result` posts is the request of its operation. -/
theorem result_posting {call : SendResult} {steps : List (ResultPoint × ResultAnswer)}
    {frame : ResultFrame} {sent : RequestArgs} (self : HttpTransport)
    (hf : resultProgram.Follows call steps (.posting frame sent)) :
    sent = (Operation.result call.result).args self := by
  obtain ⟨rfl, -⟩ := resultStage_follows hf
  generalize hpoint : ResultPoint.posting frame sent = point at hf
  cases hf with
  | start => exact attempt_posting hpoint.symm
  | @resume steps point _ answer _ _ _ hr =>
    obtain ⟨q, hq, heq⟩ := Option.map_eq_some_iff.mp hr
    cases heq
    subst hpoint
    cases point with
    | posting old before =>
      cases answer with
      | posted outcome =>
        have hposted : onPosted old outcome = .posting frame sent := Option.some.inj hq
        unfold onPosted at hposted
        split at hposted
        · cases hposted
        · split at hposted
          · exact pause_posting hposted
          · cases hposted
        · cases hposted
      | slept | interrupted => cases hq
    | sleeping old seconds =>
      cases answer with
      | slept => exact attempt_posting (Option.some.inj hq)
      | posted | interrupted => cases hq
    | done outcome => cases hq

/-- The posts of a call of `send_result`, with what each came to. -/
def resultPosts (steps : List (ResultPoint × ResultAnswer)) : List (RequestArgs × Outcome) :=
  steps.filterMap fun
    | (.posting _ sent, .posted outcome) => some (sent, outcome)
    | _ => none

theorem resultPosts_snd (steps : List (ResultPoint × ResultAnswer)) :
    (resultPosts steps).map Prod.snd = posts (acts steps) := by
  rw [resultPosts, posts, acts, List.filterMap_filterMap, List.map_filterMap]
  refine List.filterMap_congr fun step _ => ?_
  rcases step with ⟨point, answer⟩
  cases point <;> cases answer <;> rfl

theorem resultPosts_fst {call : SendResult} {steps : List (ResultPoint × ResultAnswer)}
    {point : ResultPoint} (self : HttpTransport) (hf : resultProgram.Follows call steps point) :
    ∀ p ∈ resultPosts steps, p.1 = (Operation.result call.result).args self := by
  induction hf with
  | start => exact fun _ h => by cases h
  | @resume steps point _ answer _ _ hf _ ih =>
    intro p hp
    rw [resultPosts, List.filterMap_append] at hp
    rcases List.mem_append.mp hp with hp | hp
    · exact ih p hp
    · cases point with
      | posting frame sent =>
        cases answer with
        | posted outcome =>
          rw [List.mem_singleton.mp hp]
          exact result_posting self hf
        | slept | interrupted => cases hp
      | sleeping | done => cases hp

/-- A request that a method posts is that of one operation only. -/
theorem operation_of_args {op : Operation} {m : PyVal} {self : HttpTransport} :
    (op.args self = (Operation.result m).args self → op = .result m) ∧
      (op.args self = (Operation.event m).args self → op = .event m) := by
  have hresult : endpointTaskResult ≠ endpointWorkerRegister := by decide
  have hevents : endpointWorkerEvents ≠ endpointWorkerRegister := by decide
  have hboth : endpointTaskResult ≠ endpointWorkerEvents := by decide
  have hget : "GET" ≠ "POST" := by decide
  have hpatch : "PATCH" ≠ "POST" := by decide
  cases op with
  | register =>
    exact ⟨fun h => absurd (congrArg RequestArgs.endpoint h).symm hresult,
      fun h => absurd (congrArg RequestArgs.endpoint h).symm hevents⟩
  | result =>
    exact ⟨fun h => congrArg Operation.result (congrArg RequestArgs.json h),
      fun h => absurd (congrArg RequestArgs.endpoint h) hboth⟩
  | event =>
    exact ⟨fun h => absurd (congrArg RequestArgs.endpoint h).symm hboth,
      fun h => congrArg Operation.event (congrArg RequestArgs.json h)⟩
  | poll =>
    exact ⟨fun h => absurd (congrArg RequestArgs.method h) hget,
      fun h => absurd (congrArg RequestArgs.method h) hget⟩
  | heartbeat =>
    exact ⟨fun h => absurd (congrArg RequestArgs.method h) hpatch,
      fun h => absurd (congrArg RequestArgs.method h) hpatch⟩

/-! ## What they report -/

section
variable {ι : Type} {rt : Runtime rxonDecls}

/-- A `_request` of the worker with these arguments has come to this. -/
def World.Requests (w : World rt ι) (k : ι) (worker : Worker) (sent : RequestArgs)
    (outcome : Outcome) : Prop :=
  ∃ (i : Nat) (op : Operation), (w.calls k)[i]? = some (.operation op) ∧
    op.args worker.transport = sent ∧ (w.clients k).points[i]? = some (.done outcome)

section
variable (floatOf : String → Option PyFloat) (es : List (Event ι rt.orjson.Bytes))
  (w : World rt ι) (k : ι) (worker : Worker)

/-- A request of the worker for the operation has returned `v`: in an exchange of it the handler
was called with what the operation hands over, and what came of that reads as `v`. -/
def Handled (op : Operation) (v : PyVal) : Prop :=
  ∃ i : Nat, (w.calls k)[i]? = some (.operation op) ∧
    (w.clients k).points[i]? = some (.done (.returned v)) ∧
    ∃ x ∈ w.log, x.worker = k ∧ x.call = i ∧ ∃ d context result,
      toDict rt (op.document worker.workerId) 0 = .ok d ∧
        x.Invokes floatOf op.endpoint.message d.toPy context result ∧
        Yields rt op.endpoint result v

/-- A request of the worker for the operation has raised `e`, and what `e` comes of is in this
very request. -/
def Fell (op : Operation) (e : RxonError) : Prop :=
  ∃ i : Nat, (w.calls k)[i]? = some (.operation op) ∧
    (w.clients k).points[i]? = some (.done (.raised e)) ∧
    Caused floatOf w.log k worker i op (Met es k i) e

/-- What a call of `send_result` that has done this reports. -/
inductive Reports (call : SendResult) (done : List Act) : ResultOutcome → Prop
  | untried (h : call.retries ≤ 0) (hdone : done = []) : Reports call done (.returned false)
  | answered {before : List Act} {v : PyVal} (hdone : done = before ++ [.post (.returned v)])
      (h : Handled floatOf w k worker (.result call.result) v) :
      Reports call done (.returned (!ignored v))
  | denied {before : List Act} {e : RxonError} (hdone : done = before ++ [.post (.raised e)])
      (h : Fell floatOf es w k worker (.result call.result) e) : Reports call done (.raised e)
  | overflow : Reports call done .overflow
  | interrupted : Reports call done .interrupted

end

variable {floatOf : String → Option PyFloat} {k : ι}

section
variable [DecidableEq ι] {workers : ι → Worker} {es : List (Event ι rt.orjson.Bytes)}
  {w : World rt ι} {op : Operation}

theorem handled_of_requests (hrouted : ∀ k, (workers k).Routed)
    (hrun : Run (Step rt floatOf) (World.initial rt workers) es w) {sent : RequestArgs} {v : PyVal}
    (hop : ∀ op' : Operation, op'.args (workers k).transport = sent → op' = op)
    (h : w.Requests k (workers k) sent (.returned v)) :
    Handled floatOf w k (workers k) op v := by
  obtain ⟨i, op', hcall, hargs, hdone⟩ := h
  obtain rfl := hop op' hargs
  have hreturns : Returns w.log k (workers k) i op' v := ends_of_run hrun hcall hdone
  exact ⟨i, hcall, hdone, hreturns.handled (hrouted k) (takes_of_run hrun)⟩

theorem fell_of_requests (hrouted : ∀ k, (workers k).Routed)
    (hrun : Run (Step rt floatOf) (World.initial rt workers) es w) {sent : RequestArgs}
    {e : RxonError} (hop : ∀ op' : Operation, op'.args (workers k).transport = sent → op' = op)
    (h : w.Requests k (workers k) sent (.raised e)) : Fell floatOf es w k (workers k) op e := by
  obtain ⟨i, op', hcall, hargs, hdone⟩ := h
  obtain rfl := hop op' hargs
  have hraises : Raises w.log k (workers k) i (Met es k i) op' e := ends_of_run hrun hcall hdone
  exact ⟨i, hcall, hdone, hraises.caused (hrouted k) (takes_of_run hrun)⟩

/-- **`send_result` reports what the handler did.**  In every run, for every call of it whose
posts are requests of the worker, `True` means that the handler was called with the result and
did not ignore it, `False` that it did or that no attempt was allowed, and an error that the
last post failed so. -/
theorem results_reported (hrouted : ∀ k, (workers k).Routed)
    (hrun : Run (Step rt floatOf) (World.initial rt workers) es w) {call : SendResult}
    {steps : List (ResultPoint × ResultAnswer)} {outcome : ResultOutcome}
    (hf : resultProgram.Follows call steps (.done outcome))
    (hposts : ∀ p ∈ resultPosts steps, w.Requests k (workers k) p.1 p.2) :
    Reports floatOf es w k (workers k) call (acts steps) outcome := by
  have hstage := resultStage_follows hf
  have hlast : ∀ {before o}, acts steps = before ++ [.post o] →
      w.Requests k (workers k) ((Operation.result call.result).args (workers k).transport) o := by
    intro before o heq
    have ho : o ∈ (resultPosts steps).map Prod.snd := by
      rw [resultPosts_snd, heq, posts_append]
      exact List.mem_append_right _ (List.mem_singleton_self o)
    obtain ⟨p, hp, rfl⟩ := List.mem_map.mp ho
    rw [← resultPosts_fst (workers k).transport hf p hp]
    exact hposts p hp
  have hop : ∀ op : Operation, op.args (workers k).transport =
      (Operation.result call.result).args (workers k).transport → op = .result call.result :=
    fun _ => operation_of_args.1
  cases outcome with
  | interrupted => exact .interrupted
  | overflow => exact .overflow
  | returned b =>
    have hfinished : Finished call.retries call.wait (acts steps) (.returned b) := hstage
    generalize hacts : acts steps = done at hfinished
    cases hfinished with
    | untried h => exact .untried h rfl
    | returned hi h =>
      exact .answered rfl (handled_of_requests hrouted hrun hop (hlast hacts))
  | raised e =>
    have hfinished : Finished call.retries call.wait (acts steps) (.raised e) := hstage
    generalize hacts : acts steps = done at hfinished
    cases hfinished with
    | raised hi h he => exact .denied rfl (fell_of_requests hrouted hrun hop (hlast hacts))

/-- The posts of a call of `emit_event`, with what each came to. -/
def eventPosts (steps : List (EventPoint × EventAnswer)) : List (RequestArgs × Outcome) :=
  steps.filterMap fun
    | (.posting _ sent, .posted outcome) => some (sent, outcome)
    | _ => none

/-- **`emit_event` reports what became of the event.**  In every run, for every call of it
whose posts are requests of the worker, `True` means that a socket took the event or that the
handler was called with it in the last post, and `False` that the last post failed so. -/
theorem events_reported (hrouted : ∀ k, (workers k).Routed)
    (hrun : Run (Step rt floatOf) (World.initial rt workers) es w) {event : PyVal}
    {steps : List (EventPoint × EventAnswer)} {b : Bool}
    (hf : (eventProgram rt).Follows event steps (.done (.returned b)))
    (hposts : ∀ p ∈ eventPosts steps, w.Requests k (workers k) p.1 p.2) :
    (b = true → (∃ socket frame, toDict rt event 0 = .ok frame ∧
        steps = [(.sending event socket frame, .sent)]) ∨
      ∃ before v, steps = before ++ [(postEvent event, .posted (.returned v))] ∧
        Handled floatOf w k (workers k) (.event event) v) ∧
    (b = false → ∃ before e, steps = before ++ [(postEvent event, .posted (.raised e))] ∧
      Fell floatOf es w k (workers k) (.event event) e) := by
  have hlast : ∀ {before o}, steps = before ++ [(postEvent event, .posted o)] →
      w.Requests k (workers k) ((Operation.event event).args (workers k).transport) o := by
    rintro before o rfl
    refine hposts (_, o) ?_
    rw [eventPosts, List.filterMap_append]
    exact List.mem_append_right _ (List.mem_singleton_self _)
  have hop : ∀ op : Operation, op.args (workers k).transport =
      (Operation.event event).args (workers k).transport → op = .event event :=
    fun _ => operation_of_args.2
  have hemits := emits_follows hf
  generalize hsteps : steps = done at hemits
  cases hemits with
  | sent hframe => exact ⟨fun _ => Or.inl ⟨_, _, hframe, rfl⟩, fun h => by cases h⟩
  | posted h =>
    exact ⟨fun _ => Or.inr ⟨_, _, rfl, handled_of_requests hrouted hrun hop (hlast hsteps)⟩,
      fun h => by cases h⟩
  | failed h =>
    exact ⟨fun h => (by cases h),
      fun _ => ⟨_, _, rfl, fell_of_requests hrouted hrun hop (hlast hsteps)⟩⟩

end
end

/-- The document that the listener answers a result with. -/
def okBody : Json := .obj [("status", .str "ok")]

/-- The worker that reports its signed result gets the answer. -/
theorem run_answered : ∃ es w,
    Run (Step Runtime.messages fun _ => none) (World.initial Runtime.messages lone) es w ∧
    w.Requests () (lone ()) ((Operation.result (withSignature briefResult resultSignature)).args
      (lone ()).transport) (.returned okBody.toPy) := by
  refine ⟨_, _, .snoc (.snoc (.snoc (.snoc (.snoc .nil
    (.call _ () (.operation (.result (withSignature briefResult resultSignature))) _ rfl))
    (.handle _ reported (List.mem_singleton_self _) reported_takes))
    (.resume _ () 0 _ _ _ _ rfl (.head none rfl (List.mem_singleton_self _) rfl) rfl))
    (.resume _ () 0 _ _ _ _ rfl (.json rfl rfl) rfl))
    (.resume _ () 0 _ _ _ _ rfl (.left _) rfl), 0, _, rfl, rfl, rfl⟩

/-- `send_result` with one attempt. -/
def sendOnce : SendResult where
  result := withSignature briefResult resultSignature
  maxRetries := some 1
  delay := none
  resultRetries := 3
  resultRetryDelay := .int 1

/-- Its one post is answered, and it returns `True`. -/
theorem results_reported_once : ∃ es w done,
    Run (Step Runtime.messages fun _ => none) (World.initial Runtime.messages lone) es w ∧
    Reports (fun _ => none) es w () (lone ()) sendOnce done (.returned true) := by
  obtain ⟨es, w, hrun, hrequests⟩ := run_answered
  have hresume : resultProgram.resume (startResult sendOnce) (.posted (.returned okBody.toPy)) () =
      some (.done (.returned true), ()) := rfl
  have hf : resultProgram.Follows sendOnce
      ([] ++ [(startResult sendOnce, .posted (.returned okBody.toPy))]) (.done (.returned true)) :=
    .resume (.start ()) hresume
  refine ⟨es, w, _, hrun, results_reported lone_routed hrun hf fun p hp => ?_⟩
  rw [List.mem_singleton.mp hp]
  exact hrequests

/-- What the worker gets to know of a refused connection. -/
def unreached : Outcome :=
  surface ((Operation.event readyEvent).args (lone ()).transport) (.fault (.client "refused"))

/-- A worker posts an event, and cannot reach the orchestrator. -/
theorem run_unreached : ∃ es w,
    Run (Step Runtime.messages fun _ => none) (World.initial Runtime.messages lone) es w ∧
    w.Requests () (lone ()) ((Operation.event readyEvent).args (lone ()).transport) unreached :=
  ⟨_, _, .snoc (.snoc .nil (.call _ () (.operation (.event readyEvent)) _ rfl))
    (.resume _ () 0 _ _ _ _ rfl (.fault none (.client "refused")) rfl), 0, _, rfl, rfl, rfl⟩

/-- The transport has no socket, so the event is posted; `emit_event` returns `False`. -/
theorem events_reported_unreached : ∃ es w,
    Run (Step Runtime.messages fun _ => none) (World.initial Runtime.messages lone) es w ∧
    ∃ before e, [(postEvent readyEvent, EventAnswer.posted unreached)] =
        before ++ [(postEvent readyEvent, .posted (.raised e))] ∧
      Fell (fun _ => none) es w () (lone ()) (.event readyEvent) e := by
  obtain ⟨es, w, hrun, hrequests⟩ := run_unreached
  let p : Process := ⟨(lone ()).transport, [false], []⟩
  have hresume : (eventProgram Runtime.messages).resume (postEvent readyEvent) (.posted unreached)
      p = some (.done (.returned false), p) := rfl
  have hf : (eventProgram Runtime.messages).Follows readyEvent
      ([] ++ [(postEvent readyEvent, .posted unreached)]) (.done (.returned false)) :=
    .resume (.start p) hresume
  refine ⟨es, w, hrun, (events_reported lone_routed hrun hf fun p hp => ?_).2 rfl⟩
  rw [List.mem_singleton.mp hp]
  exact hrequests

end Rxon.Exchanges
