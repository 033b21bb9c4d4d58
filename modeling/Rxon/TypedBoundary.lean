import Rxon.CommandStream
import Rxon.Tokens

/-! # What crosses the transport boundary

`poll_task` declares that it returns a task or nothing, and `listen_for_commands` that
it yields commands; callers are also promised that what fails, fails with an
`RxonError`.  `_request` keeps its part: a finished request has returned a document, or
raised an `RxonError`, unless it was interrupted (`request_outcome`).  But `from_dict`
hands on what is no object as it is, and raises a plain `ValueError` for an object it
cannot convert, so the declared types hold for objects only (`boundary_typed_iff`). -/

/-- An instance of a declared Struct class. -/
def PyVal.IsA (v : PyVal) (cls : String) : Prop :=
  ∃ head fs, v = .struct head fs ∧ head.cls = cls

def Json.IsObject (d : Json) : Prop := ∃ kvs, d = .obj kvs

namespace Rxon
open Interleaving (Program Run)

/-! ## `poll_task` -/

/-- `ENDPOINT_TASK_NEXT.format(worker_id=...)`. -/
def endpointTaskNext (workerId : String) : String :=
  workerApiPrefix ++ "/workers/" ++ workerId ++ "/tasks/next"

/-- The request that `poll_task` makes. -/
def pollRequest (self : HttpTransport) (timeout : PyFloat)
    (availableSkills hotSkills : Option (List String)) : RequestArgs where
  method := "GET"
  endpoint := endpointTaskNext self.workerId
  params := .dict <| ("timeout", .float timeout) ::
    ((availableSkills.map fun skills => ("available_skills", .str (",".intercalate skills))).toList
      ++ (hotSkills.map fun skills => ("hot_skills", .str (",".intercalate skills))).toList)
  json := .none

/-- How `poll_task` ends; `failed` is an exception that is no `RxonError`. -/
inductive PollOutcome where
  | returned (value : PyVal)
  | raised (e : RxonError)
  | failed (e : PyError)
  | interrupted

/-- What `poll_task` makes of the outcome of its request. -/
def pollTask (rt : Runtime rxonDecls) : Outcome → PollOutcome
  | .returned data =>
    if data.truthy then
      match fromDict rt "TaskPayload" data with
      | .ok task => .returned task
      | .error e => .failed e
    else .returned .none
  | .raised e => .raised e
  | .interrupted => .interrupted

/-- What `poll_task` declares.  A cancellation is the caller's own. -/
def PollOutcome.Typed : PollOutcome → Prop
  | .returned value => value = .none ∨ value.IsA "TaskPayload"
  | .raised _ | .interrupted => True
  | .failed _ => False

/-- A document that `poll_task` can be answered: nothing at all, or a task. -/
def AnswersPoll (d : Json) : Prop :=
  d.toPy.truthy = false ∨ ∃ kvs r, d = .obj kvs ∧ Reads rxonDecls .none (.cls "TaskPayload") d r

section
variable (rt : Runtime rxonDecls) {c : String} {b : Bool} {fields : List FieldDecl} {d : Json}

/-- What `from_dict` makes of an object is an instance. -/
theorem fromDict_isA {r : PyVal} (h : fromDict rt c d.toPy = .ok r) (hd : d.IsObject) :
    r.IsA c := by
  obtain ⟨kvs, rfl⟩ := hd
  have hreads := rt.msgspec.convert_sound _ _ _ _ ((fromDict_obj rt).mp h)
  cases hreads with
  | struct _ _ _ _ rs => exact ⟨_, rs, rfl, rfl⟩

/-- And what it makes of anything else is none, for a Struct class. -/
theorem not_isA_of_not_object (hdecl : rxonDecls.lookup c = some ⟨.struct b, fields⟩)
    (hd : ¬ d.IsObject) : fromDict rt c d.toPy = .ok d.toPy ∧ ¬ d.toPy.IsA c := by
  refine ⟨fromDict_of_not_obj rt hdecl fun kvs h => hd ⟨kvs, h⟩, ?_⟩
  rintro ⟨head, fs, h, -⟩
  cases d <;> simp [Json.toPy] at h

/-- **A poll is typed iff its answer is nothing or a task.** -/
theorem pollTask_typed_iff (d : Json) :
    (pollTask rt (.returned d.toPy)).Typed ↔ AnswersPoll d := by
  unfold AnswersPoll
  cases htruthy : d.toPy.truthy with
  | false => simp [pollTask, htruthy, PollOutcome.Typed]
  | true =>
    simp only [pollTask, htruthy, if_true, Bool.true_eq_false, false_or]
    by_cases hd : d.IsObject
    · obtain ⟨kvs, rfl⟩ := hd
      cases hfrom : fromDict rt "TaskPayload" (Json.obj kvs).toPy with
      | ok r =>
        have hreads := rt.msgspec.convert_sound _ _ _ _ ((fromDict_obj rt).mp hfrom)
        exact iff_of_true (Or.inr (fromDict_isA rt hfrom ⟨kvs, rfl⟩)) ⟨kvs, r, rfl, hreads⟩
      | error e =>
        refine iff_of_false id ?_
        rintro ⟨kvs', r, -, hreads⟩
        obtain ⟨r', hconvert⟩ := rt.msgspec.convert_complete _ _ _ _ hreads
        rw [(fromDict_obj rt).mpr hconvert] at hfrom
        cases hfrom
    · have htask : rxonDecls.lookup "TaskPayload" = some ⟨.struct true, taskPayload.fields⟩ := rfl
      obtain ⟨hfrom, hnot⟩ := not_isA_of_not_object rt htask hd
      rw [hfrom]
      refine iff_of_false ?_ ?_
      · rintro (hnone | hisA)
        · rw [hnone] at htruthy
          cases htruthy
        · exact hnot hisA
      · rintro ⟨kvs, r, rfl, -⟩
        exact hd ⟨kvs, rfl⟩

/-- **What a text yields is a command iff the text is an object.** -/
theorem command_isA_iff (d : Json) :
    (∀ item, WsMessage.command rt (.text (some d)) = some item → item.IsA "WorkerCommand") ↔
      d.IsObject := by
  constructor
  · intro h
    by_contra hd
    have hdecl : rxonDecls.lookup "WorkerCommand" = some ⟨.struct true, workerCommand.fields⟩ := rfl
    obtain ⟨hfrom, hnot⟩ := not_isA_of_not_object rt hdecl hd
    apply hnot (h d.toPy _)
    rw [WsMessage.command, hfrom]
    rfl
  · intro hd item hitem
    rw [WsMessage.command] at hitem
    cases hfrom : fromDict rt "WorkerCommand" d.toPy with
    | error e =>
      rw [hfrom] at hitem
      cases hitem
    | ok r =>
      rw [hfrom] at hitem
      cases hitem
      exact fromDict_isA rt hfrom hd

end

/-! ## What `_request` returns -/

/-- A point of a `_request` call, which returns nothing but documents. -/
def Point.Requesting : Point → Prop
  | .leave _ (.return value) | .done (.returned value) => ∃ d : Json, value = d.toPy
  | .refresh outer _ | .refreshBody outer _ | .refreshLeave outer _ => outer.isSome
  | _ => True

section
variable {rt : Runtime rxonDecls} {floatOf : String → Option PyFloat}
  {point point' : Point} {answer : Answer} {self self' : HttpTransport}
  {outer : Option Frame} {frame : Frame}

theorem requesting_refreshOver (h : outer.isSome) (self : HttpTransport) (res : Option PyVal) :
    (refreshOver outer self res).Requesting := by
  obtain ⟨frame, rfl⟩ := Option.isSome_iff_exists.mp h
  unfold refreshOver refreshed refreshInterrupted
  repeat' split
  all_goals trivial

theorem requesting_surface (args : RequestArgs) (e : Raised) :
    (Point.done (surface args e)).Requesting := by
  unfold Point.Requesting
  split
  · rename_i heq
    cases heq
  · rename_i value heq
    exact absurd (Point.done.inj heq) (surface_ne_returned _ _ _)
  all_goals trivial

/-- **A `_request` call stays one until it is done.** -/
theorem requesting_resume (h : point.Requesting)
    (hr : resume rt floatOf point answer self = some (point', self')) : point'.Requesting := by
  cases resume_advances hr with
  | noContent | exhausted => exact ⟨.null, rfl⟩
  | document => exact ⟨_, rfl⟩
  | lost | raised | leaveFault => exact requesting_surface _ _
  | refreshFault | refreshLeft | refreshLeaveFault => exact requesting_refreshOver h _ _
  | returned | granted | refused | adopted | refreshBodyFault => exact h
  | refresh => rfl
  | _ => trivial

theorem requesting_startRequest (args : RequestArgs) (registering : Bool) (self : HttpTransport) :
    (startRequest args registering self).1.Requesting := by
  unfold startRequest
  dsimp only
  split <;> trivial

variable {c₀ c c' : Program.Config HttpTransport Point} {args : RequestArgs}
  {es : List (Program.Event TransportCall Answer)}

/-- **A finished request has returned a document, raised an `RxonError`, or was
interrupted.** -/
theorem request_outcome {outcome : Outcome}
    (hc : (transportProgram rt floatOf).Step c₀ (.start (.request args)) c)
    (hrun : Run (transportProgram rt floatOf).Step c es c')
    (hdone : c'.points[c₀.points.length]? = some (.done outcome)) :
    (∃ d : Json, outcome = .returned d.toPy) ∨ (∃ e, outcome = .raised e) ∨
      outcome = .interrupted := by
  have hstart : ∃ point, c.points[c₀.points.length]? = some point ∧ point.Requesting := by
    rw [Program.start_cases hc]
    exact ⟨_, List.getElem?_concat_length, requesting_startRequest args false c₀.shared⟩
  obtain ⟨point, hi, hreq⟩ := Program.run_point_invariant
    (fun _ _ _ _ _ h hr => requesting_resume h hr) hstart hrun
  rw [hdone] at hi
  cases hi
  cases outcome with
  | returned value =>
    obtain ⟨d, rfl⟩ := hreq
    exact Or.inl ⟨d, rfl⟩
  | raised e => exact Or.inr (Or.inl ⟨e, rfl⟩)
  | interrupted => exact Or.inr (Or.inr rfl)

end

/-! ## What a generator yields -/

section
variable {rt : Runtime rxonDecls} {floatOf : String → Option PyFloat}

/-- A coroutine that yields, yields a command. -/
def ClientPoint.Typed (point : ClientPoint) : Prop :=
  ∀ item, point.yielded? = some item → item.IsA "WorkerCommand"

theorem typed_of_resume {point point' : ClientPoint} {answer : ClientAnswer} {p p' : Process}
    (hr : resumeClient rt floatOf point answer p = some (point', p'))
    (hobject : ∀ d, answer = .message (.text (some d)) → d.IsObject) : point'.Typed := by
  intro item hitem
  cases reaches_of_resume hr with
  | yielding l socket item' data ha hcommand =>
    cases hitem
    cases data with
    | none => cases hcommand
    | some d => exact (command_isA_iff rt d).mpr (hobject d ha) item hcommand
  | request | ended | connecting | receiving | leaving | sleeping | closing => cases hitem

theorem typed_of_start {call : ClientCall} {point : ClientPoint} {p p' : Process}
    (h : startClient call p = (point, p')) : point.Typed := by
  have hpoint := congrArg Prod.fst h
  intro item hitem
  cases call with
  | connect =>
    cases hpoint
    cases hitem
  | request call =>
    cases hpoint
    cases hitem
  | listen reconnect =>
    change startListen reconnect p = point at hpoint
    subst hpoint
    unfold startListen at hitem
    split at hitem
    · cases hitem
    · rcases loopAgain_cases ⟨reconnect, 1⟩ p with ⟨-, hcase⟩ | hcase <;> rw [hcase] at hitem <;>
        cases hitem
  | close =>
    change closeConnection _ = point at hpoint
    subst hpoint
    rcases closeConnection_cases _ with ⟨hcase, -⟩ | ⟨w, hcase, -⟩
    · rw [hcase] at hitem
      rcases closeOwnSession_cases _ with ⟨hcase, -⟩ | ⟨i, hcase, -⟩ <;> rw [hcase] at hitem <;>
        cases hitem
    · rw [hcase] at hitem
      cases hitem

/-- **Where every text is an object, every coroutine yields commands only**, in any run
of the transport. -/
theorem run_yields_commands {c c' : Program.Config Process ClientPoint}
    {es : List (Program.Event ClientCall ClientAnswer)}
    (hobject : ∀ i d, .resume i (.message (.text (some d))) ∈ es → d.IsObject)
    (hc : ∀ q ∈ c.points, q.Typed) (hrun : Run (clientProgram rt floatOf).Step c es c') :
    ∀ q ∈ c'.points, q.Typed := by
  refine Run.invariant (fun es c =>
    (∀ i d, .resume i (.message (.text (some d))) ∈ es → d.IsObject) → ∀ q ∈ c.points, q.Typed)
    (fun _ => hc) ?_ hrun hobject
  intro es c e c' ih hstep hobject
  have hold := ih fun i d hmem => hobject i d (List.mem_append_left _ hmem)
  intro q hq
  rcases Program.step_cases hstep with ⟨call, point, p', rfl, hs, rfl⟩ |
    ⟨i, answer, old, point, p', rfl, -, hr, rfl⟩
  · rcases List.mem_append.mp hq with hq | hq
    · exact hold q hq
    · rw [List.mem_singleton.mp hq]
      exact typed_of_start hs
  · rcases List.mem_or_eq_of_mem_set hq with hq | rfl
    · exact hold q hq
    · apply typed_of_resume hr
      rintro d rfl
      exact hobject i d (List.mem_append_right _ (List.mem_singleton_self _))

/-- The texts of a connection that can be read, before the message that ends it. -/
def Connection.documents (connection : Connection) : List Json :=
  (connection.messages.takeWhile fun msg => !msg.endsStream).filterMap fun
    | .text data => data
    | _ => none

theorem mem_commands {connection : Connection} {item : PyVal} :
    item ∈ connection.commands rt ↔
      ∃ d ∈ connection.documents, WsMessage.command rt (.text (some d)) = some item := by
  unfold Connection.commands Connection.documents
  simp only [List.mem_filterMap]
  constructor
  · rintro ⟨msg, hmsg, hitem⟩
    cases msg with
    | text data =>
      cases data with
      | none => cases hitem
      | some d => exact ⟨d, ⟨_, hmsg, rfl⟩, hitem⟩
    | close | closed | error | other => cases hitem
  · rintro ⟨d, ⟨msg, hmsg, hd⟩, hitem⟩
    cases msg with
    | text data =>
      cases hd
      exact ⟨_, hmsg, hitem⟩
    | close | closed | error | other => cases hd

theorem commands_isA_iff {attempts : List Attempt} :
    (∀ item ∈ attempts.flatMap (Attempt.commands rt), item.IsA "WorkerCommand") ↔
      ∀ connection, .opened connection ∈ attempts →
        ∀ d ∈ connection.documents, d.IsObject := by
  constructor
  · intro h connection hconnection d hd
    apply (command_isA_iff rt d).mp
    intro item hitem
    exact h item (List.mem_flatMap.mpr ⟨_, hconnection, mem_commands.mpr ⟨d, hd, hitem⟩⟩)
  · intro h item hitem
    obtain ⟨attempt, hattempt, hitem⟩ := List.mem_flatMap.mp hitem
    cases attempt with
    | refused f => cases hitem
    | opened connection =>
      obtain ⟨d, hd, hcommand⟩ := mem_commands.mp hitem
      exact (command_isA_iff rt d).mpr (h connection hattempt d hd) item hcommand

end

/-! ## The boundary -/

section
variable (rt : Runtime rxonDecls) (floatOf : String → Option PyFloat)

/-- **The boundary is typed for objects, and for them only.**  A poll whose request is
over is typed iff the document it returned, if it returned one, is nothing or a task.  A
generator whose script is used up has yielded commands only iff every text of it that
could be read is an object, and this is enough in every other run too. -/
theorem boundary_typed_iff :
    (∀ c₀ c c' timeout availableSkills hotSkills es outcome,
      (transportProgram rt floatOf).Step c₀
        (.start (.request (pollRequest c₀.shared timeout availableSkills hotSkills))) c →
      Run (transportProgram rt floatOf).Step c es c' →
      c'.points[c₀.points.length]? = some (.done outcome) →
      ((pollTask rt outcome).Typed ↔ ∀ d : Json, outcome = .returned d.toPy → AnswersPoll d)) ∧
    (∀ c₀ c current attempts ls w, Connected c₀ →
      (clientProgram rt floatOf).Step c₀ (.start (.listen true)) c →
      Run (StreamStep rt floatOf c₀.points.length) ⟨c, ⟨current, attempts⟩⟩ ls w →
      w.Served c₀.points.length →
      ((∀ item ∈ yields ls, item.IsA "WorkerCommand") ↔
        ∀ connection, .opened connection ∈ attempts →
          ∀ d ∈ connection.documents, d.IsObject)) ∧
    ∀ c c' es, (∀ q ∈ c.points, q.Typed) → Run (clientProgram rt floatOf).Step c es c' →
      (∀ i d, .resume i (.message (.text (some d))) ∈ es → d.IsObject) →
      ∀ q ∈ c'.points, q.Typed := by
  refine ⟨?_, ?_, fun c c' es hc hrun hobject => run_yields_commands hobject hc hrun⟩
  · intro c₀ c c' timeout availableSkills hotSkills es outcome hc hrun hdone
    constructor
    · rintro htyped d rfl
      exact (pollTask_typed_iff rt d).mp htyped
    · intro h
      rcases request_outcome hc hrun hdone with ⟨d, rfl⟩ | ⟨e, rfl⟩ | rfl
      · exact (pollTask_typed_iff rt d).mpr (h d rfl)
      · trivial
      · trivial
  · intro c₀ c current attempts ls w hconnected hc hrun hserved
    rw [((streams_start hconnected hc current attempts).run hrun).complete hserved]
    exact commands_isA_iff

end

/-! ### Polls that are answered -/

def pollingWorker : HttpTransport :=
  HttpTransport.init "http://orchestrator" "worker" "token" (some 0)

/-- What a poll is answered with 200 and a document. -/
def pollAnswered (d : Json) : List (Program.Event TransportCall Answer) :=
  [.resume 0 (.head ⟨200, none, none, none⟩), .resume 0 (.json d), .resume 0 .left]

theorem run_pollAnswered (d : Json) :
    ∃ c c', (transportProgram (Runtime.reference rxonDecls fun _ => "") fun _ => none).Step
        ⟨pollingWorker, []⟩
        (.start (.request (pollRequest pollingWorker (.finite .zero) none none))) c ∧
      Run (transportProgram (Runtime.reference rxonDecls fun _ => "") fun _ => none).Step c
        (pollAnswered d) c' ∧
      c'.points[0]? = some (.done (.returned d.toPy)) :=
  ⟨_, _, rfl, Program.runAll_iff.mp rfl, rfl⟩

/-- A task with what it must have. -/
def briefTask : Json :=
  .obj [("job_id", .str "j"), ("task_id", .str "t"), ("type", .str "x")]

theorem answersPoll_briefTask : AnswersPoll briefTask := by
  refine Or.inr ⟨_, .struct _ [("job_id", .str "j"), ("task_id", .str "t"), ("type", .str "x"),
    ("params", .none), ("tracing_context", .none), ("params_metadata", .none),
    ("priority", .float (.finite .zero)), ("deadline", .none), ("security", .none),
    ("metadata", .none), ("timestamp", .none), ("policy", .none), ("sig", .none),
    ("step", .int 0), ("depth", .int 0), ("parent_hash", .none)], rfl,
    .struct "TaskPayload" true taskPayload.fields _ _ rfl rfl ?_ ?_⟩
  · have hstr : ∀ s v, some (Json.str s) = some v → Reads rxonDecls .none .str v (.str s) := by
      rintro s v ⟨⟩
      exact .str s
    have habsent : ∀ t r v, (none : Option Json) = some v → Reads rxonDecls .none t v r :=
      fun _ _ _ h => by cases h
    simp only [taskPayload, model, List.zip_cons_cons, List.zip_nil_right, List.forall_mem_cons]
    exact ⟨hstr "j", hstr "t", hstr "x", habsent _ _, habsent _ _, habsent _ _, habsent _ _,
      habsent _ _, habsent _ _, habsent _ _, habsent _ _, habsent _ _, habsent _ _, habsent _ _,
      habsent _ _, habsent _ _, fun _ h => by cases h⟩
  · have hgiven : ∀ (v : Json) (default : Default) r, some v = none → default.make? = some r :=
      fun _ _ _ h => by cases h
    simp only [taskPayload, model, List.zip_cons_cons, List.zip_nil_right, List.forall_mem_cons]
    exact ⟨hgiven _ _ _, hgiven _ _ _, hgiven _ _ _, fun _ => rfl, fun _ => rfl, fun _ => rfl,
      fun _ => rfl, fun _ => rfl, fun _ => rfl, fun _ => rfl, fun _ => rfl, fun _ => rfl,
      fun _ => rfl, fun _ => rfl, fun _ => rfl, fun _ => rfl, fun _ h => by cases h⟩

/-- A connection that is refused, and one that brings a text which is no document and a
command before it is closed. -/
def stopScript : List Attempt :=
  [.refused ⟨.client "refused", by simp⟩,
    .opened ⟨[.text none, .text (some (.obj [("command", .str "stop")])), .close], none, none⟩]

/-- A poll that is answered a task is typed, and a generator yields one item of its script,
which is a command. -/
theorem boundary_typed_iff_task :
    (pollTask (Runtime.reference rxonDecls fun _ => "") (.returned briefTask.toPy)).Typed ∧
    ∃ ls w, Run (StreamStep (Runtime.reference rxonDecls fun _ => "") (fun _ => none) 0)
      ⟨⟨(Process.new "http://orchestrator" "worker" "token").connect, [.connecting ⟨true, 1⟩]⟩,
        ⟨⟨[], none, none⟩, stopScript⟩⟩ ls w ∧
      (yields ls).length = 1 ∧ ∀ item ∈ yields ls, item.IsA "WorkerCommand" := by
  constructor
  · obtain ⟨c, c', hc, hrun, hdone⟩ := run_pollAnswered briefTask
    refine ((boundary_typed_iff _ _).1 _ _ _ _ _ _ _ _ hc hrun hdone).mpr fun d hd => ?_
    have hsame : briefTask = d := by
      rw [← PyVal.tree_toPy (D := rxonDecls) briefTask, Outcome.returned.inj hd, PyVal.tree_toPy]
    exact hsame ▸ answersPoll_briefTask
  · have hconnected := connected_new "http://orchestrator" "worker" "token"
    have hstart : Streams (Runtime.reference rxonDecls fun _ => "") _ _ _
        ⟨⟨(Process.new "http://orchestrator" "worker" "token").connect, [.connecting ⟨true, 1⟩]⟩,
          ⟨⟨[], none, none⟩, stopScript⟩⟩ :=
      @streams_start _ (fun _ => none) _ _ hconnected rfl ⟨[], none, none⟩ stopScript
    obtain ⟨ls, w, hrun, hserved⟩ := hstart.reaches
    refine ⟨ls, w, hrun, ?_, ?_⟩
    · rw [(hstart.run hrun).complete hserved]
      rfl
    · refine ((boundary_typed_iff _ _).2.1 _ _ _ _ ls w hconnected rfl hrun hserved).mpr ?_
      intro connection hmem d hd
      rcases List.mem_cons.mp hmem with h | hmem
      · cases h
      · cases List.mem_singleton.mp hmem
        rw [List.mem_singleton.mp hd]
        exact ⟨_, rfl⟩

/-- A poll that is answered a list returns the list, one that is answered an object which
is no task raises a `ValueError`, and a text that holds a number yields the number. -/
theorem poll_returns_list :
    (∃ c c', (transportProgram (Runtime.reference rxonDecls fun _ => "") fun _ => none).Step
        ⟨pollingWorker, []⟩
        (.start (.request (pollRequest pollingWorker (.finite .zero) none none))) c ∧
      Run (transportProgram (Runtime.reference rxonDecls fun _ => "") fun _ => none).Step c
        (pollAnswered (.arr [.int 1])) c' ∧
      c'.points[0]? = some (.done (.returned (.list [.int 1])))) ∧
    ¬ (pollTask (Runtime.reference rxonDecls fun _ => "") (.returned (.list [.int 1]))).Typed ∧
    ¬ (pollTask (Runtime.reference rxonDecls fun _ => "")
      (.returned (.dict [("a", .int 1)]))).Typed ∧
    WsMessage.command (Runtime.reference rxonDecls fun _ => "") (.text (some (.int 5))) =
      some (.int 5) := by
  refine ⟨run_pollAnswered _, ?_, ?_, rfl⟩
  · rintro (h | ⟨head, fs, h, -⟩) <;> cases h
  · exact id

end Rxon
