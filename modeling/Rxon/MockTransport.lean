import Rxon.Interleaving
import Rxon.TypedBoundary

/-! # The mock transport

`MockTransport` stands in for an orchestrator in tests: a test pushes tasks and commands
into two queues, and the worker's calls are written down.  Polls and generators wait at the
queues while others push, poll and listen.

What was pushed is what was taken, in that order, and what is still queued; nothing is taken
twice (`mock_takes_in_order`).  A generator that waits when the transport is closed goes on
waiting, and can still take one command (`mock_stops`). -/

namespace Rxon
open Interleaving (Program Run)

structure MockTransport where
  workerId : String
  token : String
  connected : Bool
  registered : List PyVal
  heartbeats : List PyVal
  results : List PyVal
  emittedEvents : List PyVal
  taskQueue : List PyVal
  commandQueue : List PyVal

/-- `MockTransport(worker_id=.., token=..)`. -/
def MockTransport.init (workerId token : String) : MockTransport where
  workerId := workerId
  token := token
  connected := false
  registered := []
  heartbeats := []
  results := []
  emittedEvents := []
  taskQueue := []
  commandQueue := []

/-! ## The coroutines -/

inductive MockCall where
  | connect
  | close
  | register (registration : PyVal)
  | pollTask (timeout : PyFloat) (availableSkills hotSkills : Option (List String))
  | sendResult (result : PyVal)
  | sendHeartbeat (heartbeat : PyVal)
  | emitEvent (event : PyVal)
  | listen (reconnect : Bool)
  | refreshToken
  | pushTask (task : PyVal)
  | pushCommand (command : PyVal)

inductive MockOutcome where
  | returned (value : PyVal)
  | raised (e : PyError)
  | exhausted
  | interrupted

inductive MockPoint where
  | polling (timeout : PyFloat)
  | listening
  | yielding (item : PyVal)
  | done (outcome : MockOutcome)

/-- What an await is answered: that there is an item, that the timeout is over, or at a
`yield` that the consumer asks for more. -/
inductive MockAnswer where
  | ready
  | timedOut
  | resumed
  | interrupted

/-- `not timeout <= 0`.  Without a positive timeout `wait_for` cancels `get` before it has
looked at the queue. -/
def allowsWait : PyFloat → Bool
  | .finite f => 0 < f.units
  | .inf negative => !negative
  | .nan _ => true

def isDict : PyVal → Bool
  | .dict _ => true
  | _ => false

section
variable (rt : Runtime rxonDecls)

/-- An item of a queue as it is handed on: a dict is read as an instance of the class. -/
def mockItem (cls : String) (item : PyVal) : Except PyError PyVal :=
  if isDict item then fromDict rt cls item else .ok item

/-- What `poll_task` makes of an item; an exception is `None`. -/
def mockPolled (item : PyVal) : PyVal :=
  match mockItem rt "TaskPayload" item with
  | .ok task => task
  | .error _ => .none

/-- What the generator makes of an item. -/
def mockYield (item : PyVal) : MockPoint :=
  match mockItem rt "WorkerCommand" item with
  | .ok command => .yielding command
  | .error e => .done (.raised e)

/-- `while self.connected`. -/
def mockLoop (self : MockTransport) : MockPoint :=
  if self.connected then .listening else .done .exhausted

def startMock (call : MockCall) (self : MockTransport) : MockPoint × MockTransport :=
  match call with
  | .connect => (.done (.returned .none), { self with connected := true })
  | .close => (.done (.returned .none), { self with connected := false })
  | .register registration =>
    (.done (.returned (.dict [("status", .str "registered"), ("worker_id", .str self.workerId)])),
      { self with registered := self.registered ++ [registration] })
  | .pollTask timeout _ _ => (.polling timeout, self)
  | .sendResult result =>
    (.done (.returned (.bool true)), { self with results := self.results ++ [result] })
  | .sendHeartbeat heartbeat =>
    (.done (.returned (.dict [("status", .str "ok")])),
      { self with heartbeats := self.heartbeats ++ [heartbeat] })
  | .emitEvent event =>
    (.done (.returned (.bool true)), { self with emittedEvents := self.emittedEvents ++ [event] })
  | .listen _ => (mockLoop self, self)
  | .refreshToken =>
    (.done (.returned (.struct ⟨"TokenResponse", []⟩
      [("access_token", .str "refreshed-mock-token"), ("expires_in", .int 3600),
       ("worker_id", .str self.workerId), ("refresh_token", .none), ("metadata", .none)])),
      { self with token := "refreshed-mock-token" })
  | .pushTask task =>
    (.done (.returned .none), { self with taskQueue := self.taskQueue ++ [task] })
  | .pushCommand command =>
    (.done (.returned .none), { self with commandQueue := self.commandQueue ++ [command] })

def resumeMock (point : MockPoint) (answer : MockAnswer) (self : MockTransport) :
    Option (MockPoint × MockTransport) :=
  match point, answer with
  | .polling timeout, .ready =>
    match self.taskQueue with
    | [] => none
    | item :: rest =>
      if allowsWait timeout then
        some (.done (.returned (mockPolled rt item)), { self with taskQueue := rest })
      else none
  | .polling _, .timedOut => some (.done (.returned .none), self)
  | .listening, .ready =>
    match self.commandQueue with
    | [] => none
    | item :: rest => some (mockYield rt item, { self with commandQueue := rest })
  | .yielding _, .resumed => some (mockLoop self, self)
  | .polling _, .interrupted | .listening, .interrupted | .yielding _, .interrupted =>
    some (.done .interrupted, self)
  | _, _ => none

/-- All calls of a mock transport over its fields. -/
def mockProgram : Program MockTransport MockCall MockPoint MockAnswer where
  start := startMock
  resume := resumeMock rt

end

/-! ## What is pushed and what is taken -/

def pushedTasks (calls : List MockCall) : List PyVal :=
  calls.filterMap fun
    | .pushTask task => some task
    | _ => none

def pushedCommands (calls : List MockCall) : List PyVal :=
  calls.filterMap fun
    | .pushCommand command => some command
    | _ => none

/-- What a coroutine takes from the queue of tasks when it goes on from a point. -/
def gotTask (point : MockPoint) (answer : MockAnswer) (self : MockTransport) : Option PyVal :=
  match point, answer with
  | .polling _, .ready => self.taskQueue.head?
  | _, _ => none

def gotCommand (point : MockPoint) (answer : MockAnswer) (self : MockTransport) :
    Option PyVal :=
  match point, answer with
  | .listening, .ready => self.commandQueue.head?
  | _, _ => none

/-- Who takes what in a step. -/
def takenBy (got : MockPoint → MockAnswer → MockTransport → Option PyVal)
    (c : Program.Config MockTransport MockPoint) :
    Program.Event MockCall MockAnswer → List (Nat × PyVal)
  | .start _ => []
  | .resume i answer =>
    ((c.points[i]?.bind fun point => got point answer c.shared).map (Prod.mk i)).toList

section
variable (rt : Runtime rxonDecls) (c : Program.Config MockTransport MockPoint)
  (es : List (Program.Event MockCall MockAnswer))

/-- The tasks that polls take in a run, in order. -/
def tasksTaken : List (Nat × PyVal) := (mockProgram rt).observe (takenBy gotTask) c es

/-- The commands that generators take in a run, in order. -/
def commandsTaken : List (Nat × PyVal) := (mockProgram rt).observe (takenBy gotCommand) c es

end

section
variable {rt : Runtime rxonDecls} {self self' : MockTransport} {point point' : MockPoint}
  {answer : MockAnswer} {c c' : Program.Config MockTransport MockPoint}
  {es : List (Program.Event MockCall MockAnswer)} {workerId token : String}

theorem start_queues (call : MockCall) (self : MockTransport) :
    (startMock call self).2.taskQueue = self.taskQueue ++ pushedTasks [call] ∧
      (startMock call self).2.commandQueue = self.commandQueue ++ pushedCommands [call] := by
  cases call with
  | pushTask task => exact ⟨rfl, (List.append_nil _).symm⟩
  | pushCommand command => exact ⟨(List.append_nil _).symm, rfl⟩
  | connect | close | register | pollTask | sendResult | sendHeartbeat | emitEvent | listen
  | refreshToken => exact ⟨(List.append_nil _).symm, (List.append_nil _).symm⟩

/-- **What a coroutine can do when it goes on**: a poll takes the head of the queue and
returns it, a generator takes one and hands it on, and anything else leaves the transport as
it is. -/
theorem resumeMock_cases (h : resumeMock rt point answer self = some (point', self')) :
    (∃ timeout item rest, point = .polling timeout ∧ answer = .ready ∧
        self.taskQueue = item :: rest ∧ point' = .done (.returned (mockPolled rt item)) ∧
        self' = { self with taskQueue := rest }) ∨
      (∃ item rest, point = .listening ∧ answer = .ready ∧ self.commandQueue = item :: rest ∧
        point' = mockYield rt item ∧ self' = { self with commandQueue := rest }) ∨
      (self' = self ∧ gotTask point answer self = none ∧ gotCommand point answer self = none ∧
        ((∃ timeout, point = .polling timeout) ∧
            (point' = .done (.returned .none) ∨ point' = .done .interrupted) ∨
          (∃ item, point = .yielding item) ∧
            (point' = mockLoop self ∨ point' = .done .interrupted) ∨
          point = .listening ∧ point' = .done .interrupted)) := by
  unfold resumeMock at h
  split at h
  · rename_i timeout
    split at h
    · cases h
    · rename_i item rest hqueue
      split at h
      · cases h
        exact Or.inl ⟨timeout, item, rest, rfl, rfl, hqueue, rfl, rfl⟩
      · cases h
  · cases h
    exact Or.inr (Or.inr ⟨rfl, rfl, rfl, Or.inl ⟨⟨_, rfl⟩, Or.inl rfl⟩⟩)
  · split at h
    · cases h
    · rename_i item rest hqueue
      cases h
      exact Or.inr (Or.inl ⟨item, rest, rfl, rfl, hqueue, rfl, rfl⟩)
  · cases h
    exact Or.inr (Or.inr ⟨rfl, rfl, rfl, Or.inr (Or.inl ⟨⟨_, rfl⟩, Or.inl rfl⟩)⟩)
  · cases h
    exact Or.inr (Or.inr ⟨rfl, rfl, rfl, Or.inl ⟨⟨_, rfl⟩, Or.inr rfl⟩⟩)
  · cases h
    exact Or.inr (Or.inr ⟨rfl, rfl, rfl, Or.inr (Or.inr ⟨rfl, rfl⟩)⟩)
  · cases h
    exact Or.inr (Or.inr ⟨rfl, rfl, rfl, Or.inr (Or.inl ⟨⟨_, rfl⟩, Or.inr rfl⟩)⟩)
  · cases h

/-- What is taken from a queue is its head. -/
theorem resume_queues (h : resumeMock rt point answer self = some (point', self')) :
    self.taskQueue = (gotTask point answer self).toList ++ self'.taskQueue ∧
      self.commandQueue = (gotCommand point answer self).toList ++ self'.commandQueue := by
  rcases resumeMock_cases h with ⟨timeout, item, rest, rfl, rfl, hqueue, -, rfl⟩ |
    ⟨item, rest, rfl, rfl, hqueue, -, rfl⟩ | ⟨rfl, htask, hcommand, -⟩
  · refine ⟨?_, rfl⟩
    show _ = self.taskQueue.head?.toList ++ rest
    rw [hqueue]
    rfl
  · refine ⟨rfl, ?_⟩
    show _ = self.commandQueue.head?.toList ++ rest
    rw [hqueue]
    rfl
  · rw [htask, hcommand]
    exact ⟨rfl, rfl⟩

theorem takenBy_resume {got : MockPoint → MockAnswer → MockTransport → Option PyVal} {i : Nat}
    (hi : c.points[i]? = some point) :
    takenBy got c (.resume i answer) = ((got point answer c.shared).map (Prod.mk i)).toList := by
  rw [takenBy, hi]
  rfl

/-! ## Every run -/

theorem tasksTaken_snoc (hrun : Run (mockProgram rt).Step c es c')
    (e : Program.Event MockCall MockAnswer) :
    tasksTaken rt c (es ++ [e]) = tasksTaken rt c es ++ takenBy gotTask c' e :=
  Program.observe_snoc _ e hrun

theorem commandsTaken_snoc (hrun : Run (mockProgram rt).Step c es c')
    (e : Program.Event MockCall MockAnswer) :
    commandsTaken rt c (es ++ [e]) = commandsTaken rt c es ++ takenBy gotCommand c' e :=
  Program.observe_snoc _ e hrun

/-- **The queues are first in, first out**: what was pushed is what was taken, and then what
is still queued. -/
theorem run_queues (hrun : Run (mockProgram rt).Step ⟨.init workerId token, []⟩ es c) :
    pushedTasks (Program.calls es) =
        (tasksTaken rt ⟨.init workerId token, []⟩ es).map Prod.snd ++ c.shared.taskQueue ∧
      pushedCommands (Program.calls es) =
        (commandsTaken rt ⟨.init workerId token, []⟩ es).map Prod.snd ++
          c.shared.commandQueue := by
  induction hrun with
  | nil => exact ⟨rfl, rfl⟩
  | @snoc es c c' e hrun hstep ih =>
    obtain ⟨htasks, hcommands⟩ := ih
    rw [tasksTaken_snoc hrun, commandsTaken_snoc hrun, List.map_append, List.map_append,
      Program.calls_append, pushedTasks, pushedCommands, List.filterMap_append,
      List.filterMap_append]
    rw [pushedTasks] at htasks
    rw [pushedCommands] at hcommands
    rcases Program.step_cases hstep with ⟨call, point, self', rfl, hs, rfl⟩ |
      ⟨i, answer, point, point', self', rfl, hi, hr, rfl⟩
    · obtain ⟨htask, hcommand⟩ := start_queues call c.shared
      have hself : self' = (startMock call c.shared).2 := (congrArg Prod.snd hs).symm
      rw [htasks, hcommands]
      simp only [takenBy, List.map_nil, List.append_nil, hself, htask, hcommand, List.append_assoc]
      exact ⟨rfl, rfl⟩
    · obtain ⟨htask, hcommand⟩ := resume_queues hr
      rw [takenBy_resume hi, takenBy_resume hi, htasks, hcommands, htask, hcommand]
      constructor
      · cases gotTask point answer c.shared <;> simp [Program.calls]
      · cases gotCommand point answer c.shared <;> simp [Program.calls]

/-- Where a call of `poll_task` stands, by what it has taken. -/
inductive PollStands (rt : Runtime rxonDecls) : List PyVal → MockPoint → Prop
  | polling (timeout : PyFloat) : PollStands rt [] (.polling timeout)
  | took (item : PyVal) : PollStands rt [item] (.done (.returned (mockPolled rt item)))
  | nothing : PollStands rt [] (.done (.returned .none))
  | interrupted : PollStands rt [] (.done .interrupted)

theorem PollStands.resume {taken : List PyVal} (h : PollStands rt taken point)
    (hr : resumeMock rt point answer self = some (point', self')) :
    PollStands rt (taken ++ (gotTask point answer self).toList) point' := by
  cases h with
  | polling timeout =>
    rcases resumeMock_cases hr with ⟨_, item, rest, -, rfl, hqueue, rfl, -⟩ |
      ⟨_, _, hpoint, -⟩ | ⟨-, hgot, -, ⟨-, rfl | rfl⟩ | ⟨⟨_, hpoint⟩, -⟩ | ⟨hpoint, -⟩⟩
    · have hgot : gotTask (.polling timeout) .ready self = some item := by
        rw [gotTask, hqueue]
        rfl
      rw [hgot]
      exact .took item
    · cases hpoint
    · rw [hgot]
      exact .nothing
    · rw [hgot]
      exact .interrupted
    · cases hpoint
    · cases hpoint
  | took | nothing | interrupted => cases hr

/-- What the coroutine takes. -/
def takes (i : Nat) (taken : List (Nat × PyVal)) : List PyVal :=
  (taken.filter fun t => t.1 = i).map Prod.snd

theorem takes_append (i : Nat) (taken taken' : List (Nat × PyVal)) :
    takes i (taken ++ taken') = takes i taken ++ takes i taken' := by
  rw [takes, List.filter_append, List.map_append]
  rfl

theorem takes_takenBy {got : MockPoint → MockAnswer → MockTransport → Option PyVal} {i j : Nat}
    (hj : c.points[j]? = some point) :
    takes i (takenBy got c (.resume j answer)) =
      if j = i then (got point answer c.shared).toList else [] := by
  rw [takenBy_resume hj]
  cases got point answer c.shared with
  | none => simp [takes]
  | some item =>
    by_cases hij : j = i
    · simp [takes, hij]
    · simp [takes, hij]

/-- Only calls that have started take anything. -/
theorem takes_unstarted (hrun : Run (mockProgram rt).Step ⟨.init workerId token, []⟩ es c) {i : Nat}
    (hi : c.points.length ≤ i) :
    takes i (tasksTaken rt ⟨.init workerId token, []⟩ es) = [] := by
  induction hrun with
  | nil => rfl
  | @snoc es c c' e hrun hstep ih =>
    rw [tasksTaken_snoc hrun, takes_append]
    rcases Program.step_cases hstep with ⟨call, point, self', rfl, -, rfl⟩ |
      ⟨j, answer, point, point', self', rfl, hj, -, rfl⟩
    · rw [List.length_append] at hi
      rw [ih (by omega)]
      rfl
    · rw [List.length_set] at hi
      have hlt := (List.getElem?_eq_some_iff.mp hj).choose
      rw [ih hi, takes_takenBy hj, if_neg (by omega)]
      rfl

/-- Every poll takes one task at most, which is the one that it returns. -/
theorem run_polls (hrun : Run (mockProgram rt).Step ⟨.init workerId token, []⟩ es c) {i : Nat}
    {timeout : PyFloat} {availableSkills hotSkills : Option (List String)}
    (hcall : (Program.calls es)[i]? = some (.pollTask timeout availableSkills hotSkills)) :
    ∃ point, c.points[i]? = some point ∧
      PollStands rt (takes i (tasksTaken rt ⟨.init workerId token, []⟩ es)) point := by
  induction hrun with
  | nil => cases hcall
  | @snoc es c c' e hrun hstep ih =>
    rw [tasksTaken_snoc hrun, takes_append]
    rw [Program.calls_append] at hcall
    rcases Program.step_cases hstep with ⟨call, point, self', rfl, hs, rfl⟩ |
      ⟨j, answer, old, point', self', rfl, hj, hr, rfl⟩
    · change (Program.calls es ++ [call])[i]? = _ at hcall
      rw [show takes i (takenBy gotTask c (.start call)) = [] from rfl, List.append_nil]
      by_cases hlt : i < c.points.length
      · rw [List.getElem?_append_left (by rwa [← Program.calls_length hrun])] at hcall
        obtain ⟨q, hq, hstands⟩ := ih hcall
        exact ⟨q, by rwa [List.getElem?_append_left hlt], hstands⟩
      · -- the poll has just started
        have hbound := (List.getElem?_eq_some_iff.mp hcall).choose
        have hlen := Program.calls_length hrun
        rw [List.length_append, List.length_singleton] at hbound
        obtain rfl : i = c.points.length := by omega
        rw [hlen, List.getElem?_append_right (Nat.le_refl _), Nat.sub_self] at hcall
        cases hcall
        have hpoint : point = .polling timeout := (congrArg Prod.fst hs).symm
        rw [takes_unstarted hrun (Nat.le_refl _), hpoint]
        exact ⟨_, List.getElem?_concat_length, .polling timeout⟩
    · have hsame : Program.calls es ++ Program.calls [.resume j answer] = Program.calls es :=
        List.append_nil _
      rw [hsame] at hcall
      obtain ⟨q, hq, hstands⟩ := ih hcall
      rw [takes_takenBy hj]
      by_cases hij : j = i
      · subst hij
        rw [hq] at hj
        cases hj
        rw [if_pos rfl]
        have hlt := (List.getElem?_eq_some_iff.mp hq).choose
        exact ⟨point', List.getElem?_set_self hlt, hstands.resume hr⟩
      · rw [if_neg hij, List.append_nil]
        exact ⟨q, (List.getElem?_set_ne hij).trans hq, hstands⟩

/-- **Nothing is lost, taken twice or out of order.**  In every run of a mock transport, what
was pushed is what was taken, in order, and what is still queued; and a poll that has come to
an end has taken one task, which it returns as it can be read, or none, and returns `None`. -/
theorem mock_takes_in_order (hrun : Run (mockProgram rt).Step ⟨.init workerId token, []⟩ es c) :
    (pushedTasks (Program.calls es) =
        (tasksTaken rt ⟨.init workerId token, []⟩ es).map Prod.snd ++ c.shared.taskQueue ∧
      pushedCommands (Program.calls es) =
        (commandsTaken rt ⟨.init workerId token, []⟩ es).map Prod.snd ++
          c.shared.commandQueue) ∧
    ∀ (i : Nat) (timeout : PyFloat) (availableSkills hotSkills : Option (List String))
      (value : PyVal), (Program.calls es)[i]? = some (.pollTask timeout availableSkills hotSkills) →
      c.points[i]? = some (.done (.returned value)) →
      (∃ item, takes i (tasksTaken rt ⟨.init workerId token, []⟩ es) = [item] ∧
          value = mockPolled rt item) ∨
        takes i (tasksTaken rt ⟨.init workerId token, []⟩ es) = [] ∧ value = .none := by
  refine ⟨run_queues hrun, fun i timeout availableSkills hotSkills value hcall hdone => ?_⟩
  obtain ⟨point, hpoint, hstands⟩ := run_polls hrun hcall
  rw [hdone] at hpoint
  cases hpoint
  generalize takes i (tasksTaken rt ⟨.init workerId token, []⟩ es) = taken at hstands
  cases hstands with
  | took item => exact Or.inl ⟨item, rfl, rfl⟩
  | nothing => exact Or.inr ⟨rfl, rfl⟩

/-! ## After `close` -/

/-- The coroutine is a generator that waits for a command. -/
def waits : Option MockPoint → Nat
  | some .listening => 1
  | _ => 0

theorem waits_loop (h : self.connected = false) : waits (some (mockLoop self)) = 0 := by
  rw [mockLoop, h]
  rfl

theorem waits_yield (item : PyVal) : waits (some (mockYield rt item)) = 0 := by
  unfold mockYield
  split <;> rfl

theorem waits_start (h : self.connected = false) (call : MockCall) :
    waits (some (startMock call self).1) = 0 := by
  cases call with
  | listen reconnect => exact waits_loop h
  | connect | close | register | pollTask | sendResult | sendHeartbeat | emitEvent
  | refreshToken | pushTask | pushCommand => rfl

theorem connected_start (h : self.connected = false) {call : MockCall} (hcall : call ≠ .connect) :
    (startMock call self).2.connected = false := by
  cases call with
  | connect => exact absurd rfl hcall
  | close => rfl
  | register | pollTask | sendResult | sendHeartbeat | emitEvent | listen | refreshToken
  | pushTask | pushCommand => exact h

theorem connected_resume (hr : resumeMock rt point answer self = some (point', self')) :
    self'.connected = self.connected := by
  rcases resumeMock_cases hr with ⟨_, _, _, -, -, -, -, rfl⟩ | ⟨_, _, -, -, -, -, rfl⟩ |
    ⟨rfl, -⟩ <;> rfl

/-- A generator that goes on takes a command, or waits no longer, or has not waited. -/
theorem waits_resume (h : self.connected = false)
    (hr : resumeMock rt point answer self = some (point', self')) :
    (gotCommand point answer self).toList.length + waits (some point') ≤ waits (some point) := by
  rcases resumeMock_cases hr with ⟨timeout, item, rest, rfl, rfl, -, rfl, -⟩ |
    ⟨item, rest, rfl, rfl, hqueue, rfl, -⟩ | ⟨-, -, hgot, hcases⟩
  · exact Nat.le_refl 0
  · rw [waits_yield]
    show self.commandQueue.head?.toList.length + 0 ≤ 1
    rw [hqueue]
    exact Nat.le_refl 1
  · rw [hgot]
    rcases hcases with ⟨-, rfl | rfl⟩ | ⟨-, rfl | rfl⟩ | ⟨-, rfl⟩
    · exact Nat.zero_le _
    · exact Nat.zero_le _
    · rw [waits_loop h]
      exact Nat.zero_le _
    · exact Nat.zero_le _
    · exact Nat.zero_le _

/-- **After `close`** a generator takes one more command at most, and only if it was waiting
for one, until `connect` is called. -/
theorem mock_stops (hclosed : c.shared.connected = false)
    (hrun : Run (mockProgram rt).Step c es c') (hconnect : .connect ∉ Program.calls es) (i : Nat) :
    (takes i (commandsTaken rt c es)).length ≤ waits c.points[i]? := by
  have hmain : c'.shared.connected = false ∧ ∀ i : Nat,
      (takes i (commandsTaken rt c es)).length + waits c'.points[i]? ≤ waits c.points[i]? := by
    clear i
    induction hrun with
    | nil => exact ⟨hclosed, fun i => by simp [commandsTaken, Program.observe, takes]⟩
    | @snoc es d d' e hrun hstep ih =>
      rw [Program.calls_append, List.mem_append, not_or] at hconnect
      obtain ⟨hopen, hcount⟩ := ih hconnect.1
      rw [commandsTaken_snoc hrun]
      rcases Program.step_cases hstep with ⟨call, point, self', rfl, hs, rfl⟩ |
        ⟨j, answer, old, point', self', rfl, hj, hr, rfl⟩
      · have hcall : call ≠ .connect := fun h => hconnect.2 (h ▸ List.mem_singleton_self _)
        have hpoint : point = (startMock call d.shared).1 := (congrArg Prod.fst hs).symm
        have hself : self' = (startMock call d.shared).2 := (congrArg Prod.snd hs).symm
        refine ⟨hself ▸ connected_start hopen hcall, fun i => ?_⟩
        rw [show takenBy gotCommand d (.start call) = [] from rfl, List.append_nil]
        have hbefore := hcount i
        show _ + waits (d.points ++ [point])[i]? ≤ _
        by_cases hlt : i < d.points.length
        · rwa [List.getElem?_append_left hlt]
        · -- nobody waits beyond the last call, and the new one does not
          have hzero : waits (d.points ++ [point])[i]? = 0 := by
            rw [List.getElem?_append_right (by omega)]
            by_cases hlast : i - d.points.length = 0
            · rw [hlast, hpoint]
              exact waits_start hopen call
            · rw [List.getElem?_eq_none (by simp; omega)]
              rfl
          omega
      · refine ⟨(connected_resume hr).trans hopen, fun i => ?_⟩
        have hbefore := hcount i
        rw [takes_append, takes_takenBy hj, List.length_append]
        show _ + waits (d.points.set j point')[i]? ≤ _
        by_cases hij : j = i
        · subst hij
          have hlt := (List.getElem?_eq_some_iff.mp hj).choose
          have hstep := waits_resume hopen hr
          rw [hj] at hbefore
          rw [if_pos rfl, List.getElem?_set_self hlt]
          omega
        · rwa [if_neg hij, List.length_nil, List.getElem?_set_ne hij]
  exact Nat.le_trans (Nat.le_add_right _ _) (hmain.2 i)

end
/-- A poll waits, and then takes the first of two tasks. -/
theorem mock_takes_in_order_first : ∃ c,
    Run (mockProgram (Runtime.reference rxonDecls fun _ => "")).Step
      ⟨.init "mock-worker" "mock-token", []⟩
      [.start (.pollTask (.inf false) none none), .start (.pushTask (.str "first")),
        .start (.pushTask (.str "second")), .resume 0 .ready] c ∧
    c.points[0]? = some (.done (.returned (.str "first"))) ∧
    pushedTasks [.pollTask (.inf false) none none, .pushTask (.str "first"),
        .pushTask (.str "second")] =
      (tasksTaken (Runtime.reference rxonDecls fun _ => "") ⟨.init "mock-worker" "mock-token", []⟩
        [.start (.pollTask (.inf false) none none), .start (.pushTask (.str "first")),
          .start (.pushTask (.str "second")), .resume 0 .ready]).map Prod.snd ++
        c.shared.taskQueue := by
  let self : MockTransport :=
    { MockTransport.init "mock-worker" "mock-token" with taskQueue := [.str "second"] }
  have hrun : Run (mockProgram (Runtime.reference rxonDecls fun _ => "")).Step
      ⟨.init "mock-worker" "mock-token", []⟩
      [.start (.pollTask (.inf false) none none), .start (.pushTask (.str "first")),
        .start (.pushTask (.str "second")), .resume 0 .ready]
      ⟨self, [.done (.returned (.str "first")), .done (.returned .none),
        .done (.returned .none)]⟩ := Program.runAll_iff.mp rfl
  exact ⟨_, hrun, rfl, (mock_takes_in_order hrun).1.1⟩

/-- A generator that waits while the transport is closed takes one command, and ends when it
is asked for another. -/
theorem mock_stops_waiting : ∃ c,
    Run (mockProgram (Runtime.reference rxonDecls fun _ => "")).Step
      ⟨.init "mock-worker" "mock-token", [.listening]⟩
      [.start (.pushCommand (.str "stop")), .resume 0 .ready, .resume 0 .resumed] c ∧
    c.points[0]? = some (.done .exhausted) ∧
    (takes 0 (commandsTaken (Runtime.reference rxonDecls fun _ => "")
      ⟨.init "mock-worker" "mock-token", [.listening]⟩
      [.start (.pushCommand (.str "stop")), .resume 0 .ready, .resume 0 .resumed])).length ≤ 1 := by
  have hrun : Run (mockProgram (Runtime.reference rxonDecls fun _ => "")).Step
      ⟨.init "mock-worker" "mock-token", [.listening]⟩
      [.start (.pushCommand (.str "stop")), .resume 0 .ready, .resume 0 .resumed]
      ⟨.init "mock-worker" "mock-token", [.done .exhausted, .done (.returned .none)]⟩ :=
    Program.runAll_iff.mp rfl
  have hconnect : MockCall.connect ∉ [.pushCommand (.str "stop")] := by simp
  exact ⟨_, hrun, rfl, mock_stops rfl hrun hconnect 0⟩

end Rxon
