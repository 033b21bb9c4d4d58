import Rxon.Listener
import Rxon.Reference

/-! # The command stream

What a consumer of `listen_for_commands` receives over any number of connections.  The
orchestrator's side is a script: attempts to connect, each refused or accepted, and for
an accepted one the messages that arrive before the socket is exhausted or fails.  The
generator asks for the next piece of it at every await; between two of them any other
coroutine of the transport may run, except `close`.

At each moment what was yielded so far and what the rest of the script still holds make
up the whole stream (`StreamsAll`).  And once `close` has been called, nothing starts
another connection before `connect` is called (`NoConnectAfterClose`). -/

namespace Rxon
open Interleaving (Program Run)

/-! ## Scripts -/

/-- A fault that is an `Exception`. -/
abbrev Failure := {f : Fault // f ≠ .interrupted}

/-- An accepted connection: its messages, what ends the iteration over them, if not the
end of the socket, and what leaving the socket raises, if it does. -/
structure Connection where
  messages : List WsMessage
  ending : Option Failure
  leaving : Option Failure

inductive Attempt where
  | refused (f : Failure)
  | opened (connection : Connection)

/-- The connection that is open, or was last, and the attempts still to come. -/
structure Script where
  current : Connection
  upcoming : List Attempt

/-- The next answer to a suspended generator. -/
def Script.answer (s : Script) : ClientPoint → Option (ClientAnswer × Script)
  | .connecting _ =>
    match s.upcoming with
    | [] => none
    | .refused f :: rest => some (.fault f.1, { s with upcoming := rest })
    | .opened connection :: rest => some (.opened, ⟨connection, rest⟩)
  | .receiving _ _ =>
    match s.current.messages, s.current.ending with
    | msg :: rest, _ =>
      some (.message msg, { s with current := { s.current with messages := rest } })
    | [], none => some (.exhausted, s)
    | [], some f => some (.fault f.1, s)
  | .yielding _ _ _ => some (.resumed, s)
  | .leaving _ _ _ =>
    match s.current.leaving with
    | none => some (.completed, s)
    | some f => some (.fault f.1, s)
  | .sleeping _ => some (.completed, s)
  | _ => none

/-- The commands of a connection: those of the texts before the first message that ends
the stream, as far as they can be read. -/
def Connection.commands (rt : Runtime rxonDecls) (connection : Connection) : List PyVal :=
  (connection.messages.takeWhile fun msg => !msg.endsStream).filterMap (WsMessage.command rt)

def Attempt.commands (rt : Runtime rxonDecls) : Attempt → List PyVal
  | .refused _ => []
  | .opened connection => connection.commands rt

/-! ## The generator against its script -/

/-- What happens in a run: the generator is answered and reaches a point, or another
coroutine runs. -/
inductive Move where
  | listener (answer : ClientAnswer) (point : ClientPoint)
  | others

/-- The transport's coroutines, and what the generator among them is still to be
answered. -/
structure Streaming where
  client : Program.Config Process ClientPoint
  script : Script

/-- The generator is the `i`-th coroutine.  The other ones do as they like, but none of
them is a `close`. -/
inductive StreamStep (rt : Runtime rxonDecls) (floatOf : String → Option PyFloat) (i : Nat) :
    Streaming → Move → Streaming → Prop
  | listener {w : Streaming} {point point' : ClientPoint} {answer : ClientAnswer}
      {script : Script} {client : Program.Config Process ClientPoint}
      (hi : w.client.points[i]? = some point)
      (hanswer : w.script.answer point = some (answer, script))
      (hstep : (clientProgram rt floatOf).Step w.client (.resume i answer) client)
      (hi' : client.points[i]? = some point') :
      StreamStep rt floatOf i w (.listener answer point') ⟨client, script⟩
  | others {w : Streaming} {e : Program.Event ClientCall ClientAnswer}
      {client : Program.Config Process ClientPoint} (hclose : e ≠ .start .close)
      (hother : ∀ answer, e ≠ .resume i answer)
      (hstep : (clientProgram rt floatOf).Step w.client e client) :
      StreamStep rt floatOf i w .others ⟨client, w.script⟩

/-- The script is used up and the generator asks for more. -/
def Streaming.Served (i : Nat) (w : Streaming) : Prop :=
  w.script.upcoming = [] ∧ ∃ l, w.client.points[i]? = some (.connecting l)

def ClientPoint.yielded? : ClientPoint → Option PyVal
  | .yielding _ _ item => some item
  | _ => none

/-- What the consumer has received in a run. -/
def yields (ls : List Move) : List PyVal :=
  ls.filterMap fun
    | .listener _ point => point.yielded?
    | .others => none

/-- The number of sleeps since the last connection was opened, or since the start. -/
def countSleeps (n : Nat) : Move → Nat
  | .listener .opened _ => 0
  | .listener _ (.sleeping _) => n + 1
  | _ => n

def sleepsSince (ls : List Move) : Nat := ls.foldl countSleeps 0

/-- The length of the sleep that follows `n` others. -/
def backoff (n : Nat) : Nat := min maxDelay (2 ^ n)

/-- Every sleep of a run has the length its number asks for. -/
def BacksOff (ls : List Move) : Prop :=
  ∀ before answer l after, ls = before ++ .listener answer (.sleeping l) :: after →
    l.retryDelay = backoff (sleepsSince before)

/-- What the stream is for: commands arrive in order, once each, and none is missing
once the script is used up, which every run can come to; sleeps grow as they should. -/
structure StreamsAll (rt : Runtime rxonDecls) (floatOf : String → Option PyFloat) (i : Nat)
    (w : Streaming) : Prop where
  inOrder : ∀ ls w', Run (StreamStep rt floatOf i) w ls w' →
    yields ls <+: w.script.upcoming.flatMap (Attempt.commands rt)
  complete : ∀ ls w', Run (StreamStep rt floatOf i) w ls w' → w'.Served i →
    yields ls = w.script.upcoming.flatMap (Attempt.commands rt)
  reached : ∀ ls w', Run (StreamStep rt floatOf i) w ls w' →
    ∃ ls' w'', Run (StreamStep rt floatOf i) w' ls' w'' ∧ w''.Served i
  backsOff : ∀ ls w', Run (StreamStep rt floatOf i) w ls w' → BacksOff ls

/-- After a `close` a coroutine that waits for a connection was waiting already, as long
as `connect` is not called. -/
def NoConnectAfterClose (rt : Runtime rxonDecls) (floatOf : String → Option PyFloat) : Prop :=
  ∀ c c₁ c₂ c₃ es e, (clientProgram rt floatOf).Step c (.start .close) c₁ →
    Run (clientProgram rt floatOf).Step c₁ es c₂ → .start .connect ∉ es →
    (clientProgram rt floatOf).Step c₂ e c₃ →
    ∀ (j : Nat) (l : Listener), c₃.points[j]? = some (.connecting l) →
      c₂.points[j]? = some (.connecting l)

/-! ## Nobody closes the transport -/

/-- The transport is not being closed, and holds an open session. -/
structure Process.Alive (p : Process) : Prop where
  notClosing : p.transport.closing = false
  sessionOpen : p.sessionOpen = true

/-- The coroutine is a `close`. -/
def ClientPoint.closes : ClientPoint → Bool
  | .closingSocket _ | .closingSession _ => true
  | _ => false

/-- Nobody closes the transport or is about to. -/
structure Connected (c : Program.Config Process ClientPoint) : Prop where
  alive : c.shared.Alive
  noClose : ∀ q ∈ c.points, q.closes = false

section Alive
variable {rt : Runtime rxonDecls} {floatOf : String → Option PyFloat} {p p' : Process}
  {point point' : ClientPoint} {answer : ClientAnswer} {c c' : Program.Config Process ClientPoint}

theorem Process.Alive.of_sameLife {transport : HttpTransport} (h : p.Alive)
    (hsame : p.transport.SameLife transport) : Process.Alive { p with transport := transport } := by
  obtain ⟨hsession, -, -, hclosing⟩ := hsame
  refine ⟨hclosing.trans h.notClosing, ?_⟩
  have hopen := h.sessionOpen
  unfold Process.sessionOpen at hopen ⊢
  rwa [hsession]

theorem Process.Alive.connect (h : p.Alive) : p.connect.Alive := by
  have hopen := h.sessionOpen
  cases hsession : p.transport.session with
  | none => simp [Process.sessionOpen, hsession] at hopen
  | some i =>
    rw [connect_of_some hsession]
    exact ⟨rfl, hopen⟩

theorem Process.Alive.connecting (h : p.Alive) (l : Listener) : loopAgain l p = .connecting l := by
  simp [loopAgain, h.notClosing, h.sessionOpen]

theorem Process.Alive.retries (h : p.Alive) {l : Listener} (hl : l.reconnect = true) :
    attemptOver l p = .sleeping l := by
  simp [attemptOver, h.notClosing, h.sessionOpen, hl]

theorem Process.Alive.receives (h : p.Alive) (l : Listener) (socket : Nat) :
    messageOver l socket p = .receiving l socket := by
  simp [messageOver, h.notClosing]

/-- No coroutine but `close` and what it starts takes the session away. -/
theorem alive_resume (h : p.Alive) (hpoint : point.closes = false)
    (hr : resumeClient rt floatOf point answer p = some (point', p')) : p'.Alive := by
  unfold resumeClient at hr
  split at hr
  · -- a request changes other fields
    obtain ⟨⟨point, transport⟩, hreq, heq⟩ := Option.map_eq_some_iff.mp hr
    cases heq
    exact h.of_sameLife (sameLife_resume hreq)
  all_goals simp only [Option.some.injEq, reduceCtorEq] at hr
  all_goals
    have hs := congrArg Prod.snd hr
    dsimp only at hs
    rw [← hs]
  all_goals first
    | exact h
    | exact ⟨h.notClosing, h.sessionOpen⟩
    | cases hpoint

/-- Only `close` goes on closing. -/
theorem closes_resume (hpoint : point.closes = false)
    (hr : resumeClient rt floatOf point answer p = some (point', p')) : point'.closes = false := by
  cases reaches_of_resume hr with
  | closing i h =>
    obtain ⟨w, rfl⟩ := h
    cases hpoint
  | request | ended | connecting | receiving | yielding | leaving | sleeping => rfl

theorem closes_startListen (reconnect : Bool) (p : Process) :
    (startListen reconnect p).closes = false := by
  unfold startListen
  split
  · rfl
  · rcases loopAgain_cases ⟨reconnect, 1⟩ p with ⟨-, h⟩ | h <;> rw [h] <;> rfl

theorem Connected.start (h : Connected c) {call : ClientCall} (hcall : call ≠ .close)
    {shared : Process} (hs : startClient call c.shared = (point, shared)) :
    Connected ⟨shared, c.points ++ [point]⟩ := by
  have hnew : shared.Alive ∧ point.closes = false := by
    cases call with
    | close => exact absurd rfl hcall
    | connect =>
      cases hs
      exact ⟨h.alive.connect, rfl⟩
    | listen reconnect =>
      cases hs
      exact ⟨h.alive, closes_startListen ..⟩
    | request call =>
      cases hs
      exact ⟨h.alive.of_sameLife (sameLife_start call _), rfl⟩
  refine ⟨hnew.1, fun q hq => ?_⟩
  rcases List.mem_append.mp hq with hq | hq
  · exact h.noClose q hq
  · rw [List.mem_singleton.mp hq]
    exact hnew.2

/-- **A transport stays connected while nobody calls `close`.** -/
theorem Connected.step (h : Connected c) {e : Program.Event ClientCall ClientAnswer}
    (he : e ≠ .start .close) (hstep : (clientProgram rt floatOf).Step c e c') : Connected c' := by
  rcases Program.step_cases hstep with ⟨call, point, shared, rfl, hs, rfl⟩ |
    ⟨i, answer, old, point, shared, rfl, hi, hr, rfl⟩
  · exact h.start (fun hcall => he (by rw [hcall])) hs
  · have hold := h.noClose old (List.mem_of_getElem? hi)
    refine ⟨alive_resume h.alive hold hr, fun q hq => ?_⟩
    rcases List.mem_or_eq_of_mem_set hq with hq | rfl
    · exact h.noClose q hq
    · exact closes_resume hold hr

/-- A new transport is connected by `connect`. -/
theorem connected_new (baseUrl workerId token : String) :
    Connected ⟨(Process.new baseUrl workerId token).connect, []⟩ := by
  refine ⟨⟨rfl, rfl⟩, fun q hq => ?_⟩
  cases hq

end Alive

/-! ## What is still to come -/

/-- The commands that the rest of a script holds for a generator at a point. -/
def pending (rt : Runtime rxonDecls) (s : Script) : ClientPoint → List PyVal
  | .receiving _ _ | .yielding _ _ _ =>
    s.current.commands rt ++ s.upcoming.flatMap (Attempt.commands rt)
  | _ => s.upcoming.flatMap (Attempt.commands rt)

/-- Where a generator stands that has slept `n` times since its last connection, and its
retry delay, which during a sleep is still the length of this sleep. -/
inductive Stands : Nat → ClientPoint → Prop
  | connecting {n : Nat} {l : Listener} (hl : l.reconnect = true) (h : l.retryDelay = backoff n) :
      Stands n (.connecting l)
  | receiving {n : Nat} {l : Listener} {socket : Nat} (hl : l.reconnect = true)
      (h : l.retryDelay = backoff n) : Stands n (.receiving l socket)
  | yielding {n : Nat} {l : Listener} {socket : Nat} {item : PyVal} (hl : l.reconnect = true)
      (h : l.retryDelay = backoff n) : Stands n (.yielding l socket item)
  | leaving {n : Nat} {l : Listener} {socket : Nat} (hl : l.reconnect = true)
      (h : l.retryDelay = backoff n) : Stands n (.leaving l socket .attemptOver)
  | sleeping {n : Nat} {l : Listener} (hl : l.reconnect = true) (h : l.retryDelay = backoff n) :
      Stands (n + 1) (.sleeping l)

/-- The number of answers that a generator at a point can still get from a script, at
most. -/
def Attempt.size : Attempt → Nat
  | .refused _ => 2
  | .opened connection => 2 * connection.messages.length + 4

def Script.size (s : Script) (point : ClientPoint) : Nat :=
  (s.upcoming.map Attempt.size).sum + match point with
    | .yielding _ _ _ => 2 * s.current.messages.length + 4
    | .receiving _ _ => 2 * s.current.messages.length + 3
    | .leaving _ _ _ => 2
    | .sleeping _ => 1
    | _ => 0

theorem backoff_succ (n : Nat) : min (backoff n * 2) maxDelay = backoff (n + 1) := by
  unfold backoff maxDelay
  rw [Nat.pow_succ]
  omega

section Serving
variable {rt : Runtime rxonDecls} {floatOf : String → Option PyFloat} {p p' : Process}
  {point point' : ClientPoint} {answer : ClientAnswer} {s s' : Script} {l : Listener} {n : Nat}

theorem commands_cons_of_ends {msg : WsMessage} (h : msg.endsStream = true) (rest : List WsMessage)
    (ending leaving : Option Failure) :
    Connection.commands rt ⟨msg :: rest, ending, leaving⟩ = [] := by
  simp [Connection.commands, h]

theorem commands_cons {msg : WsMessage} (h : msg.endsStream = false) (rest : List WsMessage)
    (ending leaving : Option Failure) :
    Connection.commands rt ⟨msg :: rest, ending, leaving⟩ =
      (msg.command rt).toList ++ Connection.commands rt ⟨rest, ending, leaving⟩ := by
  unfold Connection.commands
  rw [List.takeWhile_cons, h]
  cases hc : msg.command rt <;> simp [hc]

/-- What a step of the generator does: it yields what comes first of what is pending,
and keeps to the delays. -/
structure Advances (rt : Runtime rxonDecls) (n : Nat) (s : Script) (point : ClientPoint)
    (answer : ClientAnswer) (s' : Script) (point' : ClientPoint) : Prop where
  stands : Stands (countSleeps n (.listener answer point')) point'
  yields : point'.yielded?.toList ++ pending rt s' point' = pending rt s point
  sleeps : ∀ l, point' = .sleeping l → l.retryDelay = backoff n
  shrinks : s'.size point' < s.size point

/-- The attempt is over, and the generator goes to sleep. -/
theorem advances_sleeping (hl : l.reconnect = true) (hdelay : l.retryDelay = backoff n)
    (hpending : s'.upcoming.flatMap (Attempt.commands rt) = pending rt s point)
    (hsize : s'.size (.sleeping l) < s.size point) (hanswer : answer ≠ .opened) :
    Advances rt n s point answer s' (.sleeping l) where
  stands := by
    have hcount : countSleeps n (.listener answer (.sleeping l)) = n + 1 := by
      cases answer <;> first | rfl | exact absurd rfl hanswer
    rw [hcount]
    exact .sleeping hl hdelay
  yields := hpending
  sleeps := by
    rintro l' heq
    cases heq
    exact hdelay
  shrinks := hsize

/-- The next message has arrived. -/
theorem advances_message (hp : p.Alive) (hl : l.reconnect = true)
    (hdelay : l.retryDelay = backoff n) (socket : Nat) (msg : WsMessage) (rest : List WsMessage)
    (ending leaving : Option Failure) (upcoming : List Attempt) :
    Advances rt n ⟨⟨msg :: rest, ending, leaving⟩, upcoming⟩ (.receiving l socket) (.message msg)
      ⟨⟨rest, ending, leaving⟩, upcoming⟩ (onMessage rt l socket msg p) := by
  -- a message that is no command is passed over
  have hskip (hends : msg.endsStream = false) (hnone : msg.command rt = none) :
      Advances rt n ⟨⟨msg :: rest, ending, leaving⟩, upcoming⟩ (.receiving l socket) (.message msg)
        ⟨⟨rest, ending, leaving⟩, upcoming⟩ (messageOver l socket p) := by
    rw [hp.receives]
    refine ⟨.receiving hl hdelay, ?_, fun l' h => (by cases h), by simp [Script.size]⟩
    simp [pending, commands_cons hends, hnone, ClientPoint.yielded?]
  have hend (hends : msg.endsStream = true) :
      Advances rt n ⟨⟨msg :: rest, ending, leaving⟩, upcoming⟩ (.receiving l socket) (.message msg)
        ⟨⟨rest, ending, leaving⟩, upcoming⟩ (.leaving l socket .attemptOver) := by
    refine ⟨.leaving hl hdelay, ?_, fun l' h => (by cases h), by simp [Script.size]⟩
    simp [pending, commands_cons_of_ends hends, ClientPoint.yielded?]
  cases msg with
  | text data =>
    unfold onMessage
    cases hcommand : WsMessage.command rt (.text data) with
    | none => exact hskip rfl hcommand
    | some item =>
      refine ⟨.yielding hl hdelay, ?_, fun l' h => (by cases h), by simp [Script.size]; omega⟩
      have hends : (WsMessage.text data).endsStream = false := rfl
      simp [pending, commands_cons hends, hcommand, ClientPoint.yielded?]
  | close => exact hend rfl
  | closed => exact hend rfl
  | error => exact hend rfl
  | other => exact hskip rfl rfl

/-- A fault that is an `Exception` ends the attempt. -/
theorem attemptFault_failure (f : Failure) : attemptFault l p f.1 = attemptOver l p := by
  obtain ⟨f, hf⟩ := f
  cases f with
  | interrupted => exact absurd rfl hf
  | contentType | client | timeout | value | unexpected => rfl

theorem resume_receiving_fault (f : Failure) (socket : Nat) :
    resumeClient rt floatOf (.receiving l socket) (.fault f.1) p =
      some (.leaving l socket .attemptOver, p) := by
  obtain ⟨f, hf⟩ := f
  cases f with
  | interrupted => exact absurd rfl hf
  | contentType | client | timeout | value | unexpected => rfl

theorem Process.Alive.socketClosed (h : p.Alive) (socket : Nat) : (p.socketClosed socket).Alive :=
  ⟨h.notClosing, h.sessionOpen⟩

/-- What a generator that is answered does. -/
def Proceeds (rt : Runtime rxonDecls) (floatOf : String → Option PyFloat) (n : Nat) (p : Process)
    (s : Script) (point : ClientPoint) : Prop :=
  ∃ answer s' point' p', s.answer point = some (answer, s') ∧
    resumeClient rt floatOf point answer p = some (point', p') ∧
    Advances rt n s point answer s' point'

theorem proceeds_leaving (hp : p.Alive) (hl : l.reconnect = true)
    (hdelay : l.retryDelay = backoff n) (socket : Nat) :
    Proceeds rt floatOf n p s (.leaving l socket .attemptOver) := by
  obtain ⟨⟨messages, ending, leaving⟩, upcoming⟩ := s
  cases leaving with
  | none =>
    refine ⟨.completed, _, attemptOver l (p.socketClosed socket), _, rfl, rfl, ?_⟩
    rw [(hp.socketClosed socket).retries hl]
    exact advances_sleeping hl hdelay rfl (by simp [Script.size]) (by simp)
  | some f =>
    refine ⟨.fault f.1, _, attemptFault l p f.1, _, rfl, rfl, ?_⟩
    rw [attemptFault_failure, hp.retries hl]
    exact advances_sleeping hl hdelay rfl (by simp [Script.size]) (by simp)

theorem proceeds_receiving (hp : p.Alive) (hl : l.reconnect = true)
    (hdelay : l.retryDelay = backoff n) (socket : Nat) :
    Proceeds rt floatOf n p s (.receiving l socket) := by
  obtain ⟨⟨messages, ending, leaving⟩, upcoming⟩ := s
  have hleave (answer : ClientAnswer)
      (hcount : countSleeps n (.listener answer (.leaving l socket .attemptOver)) = n) :
      Advances rt n ⟨⟨[], ending, leaving⟩, upcoming⟩ (.receiving l socket) answer
        ⟨⟨[], ending, leaving⟩, upcoming⟩ (.leaving l socket .attemptOver) := by
    refine ⟨?_, rfl, fun l' h => (by cases h), by simp [Script.size]⟩
    rw [hcount]
    exact .leaving hl hdelay
  cases messages with
  | cons msg rest =>
    exact ⟨.message msg, _, _, p, rfl, rfl, advances_message hp hl hdelay ..⟩
  | nil =>
    cases ending with
    | none => exact ⟨.exhausted, _, _, p, rfl, rfl, hleave _ rfl⟩
    | some f => exact ⟨.fault f.1, _, _, p, rfl, resume_receiving_fault f socket, hleave _ rfl⟩

theorem proceeds_yielding (hp : p.Alive) (hl : l.reconnect = true)
    (hdelay : l.retryDelay = backoff n) (socket : Nat) (item : PyVal) :
    Proceeds rt floatOf n p s (.yielding l socket item) := by
  refine ⟨.resumed, s, _, p, rfl, rfl, ?_⟩
  rw [hp.receives]
  exact ⟨.receiving hl hdelay, rfl, fun l' h => (by cases h), by simp [Script.size]⟩

theorem proceeds_sleeping (hp : p.Alive) (hl : l.reconnect = true)
    (hdelay : l.retryDelay = backoff n) : Proceeds rt floatOf (n + 1) p s (.sleeping l) := by
  have hawake : p.forgetSocket.Alive := ⟨hp.notClosing, hp.sessionOpen⟩
  refine ⟨.completed, s, loopAgain _ p.forgetSocket, _, rfl, rfl, ?_⟩
  rw [hawake.connecting]
  refine ⟨.connecting hl ?_, rfl, fun l' h => (by cases h), by simp [Script.size]⟩
  change min (l.retryDelay * 2) maxDelay = backoff (n + 1)
  rw [hdelay, backoff_succ]

theorem proceeds_connecting (hp : p.Alive) (hl : l.reconnect = true)
    (hdelay : l.retryDelay = backoff n) (hmore : s.upcoming ≠ []) :
    Proceeds rt floatOf n p s (.connecting l) := by
  obtain ⟨current, upcoming⟩ := s
  cases upcoming with
  | nil => exact absurd rfl hmore
  | cons attempt rest =>
    cases attempt with
    | refused f =>
      refine ⟨.fault f.1, ⟨current, rest⟩, _, p, rfl, rfl, ?_⟩
      rw [attemptFault_failure, hp.retries hl]
      exact advances_sleeping hl hdelay rfl (by simp [Script.size, Attempt.size]; omega) (by simp)
    | opened connection =>
      refine ⟨.opened, ⟨connection, rest⟩, _, _, rfl, rfl, ?_⟩
      refine ⟨.receiving hl rfl, rfl, fun l' h => (by cases h), ?_⟩
      simp only [Script.size, List.map_cons, List.sum_cons, Attempt.size]
      omega

variable (rt floatOf s) in
/-- **A connected generator is answered until it asks for one more attempt.** -/
theorem proceeds_or_served (hp : p.Alive) (hstands : Stands n point) :
    Proceeds rt floatOf n p s point ∨
      s.upcoming = [] ∧ s.answer point = none ∧ ∃ l, point = .connecting l := by
  cases hstands with
  | receiving hl hdelay => exact Or.inl (proceeds_receiving hp hl hdelay _)
  | yielding hl hdelay => exact Or.inl (proceeds_yielding hp hl hdelay _ _)
  | leaving hl hdelay => exact Or.inl (proceeds_leaving hp hl hdelay _)
  | sleeping hl hdelay => exact Or.inl (proceeds_sleeping hp hl hdelay)
  | connecting hl hdelay =>
    by_cases hmore : s.upcoming = []
    · right
      exact ⟨hmore, by simp [Script.answer, hmore], _, rfl⟩
    · exact Or.inl (proceeds_connecting hp hl hdelay hmore)

end Serving

/-! ## Runs -/

section Runs
variable {rt : Runtime rxonDecls} {floatOf : String → Option PyFloat} {i : Nat}
  {w w' : Streaming} {ls : List Move} {m : Move} {expected : List PyVal}

theorem yields_snoc (ls : List Move) (m : Move) :
    yields (ls ++ [m]) = yields ls ++ yields [m] := by
  unfold yields
  rw [List.filterMap_append]

theorem sleepsSince_snoc (ls : List Move) (m : Move) :
    sleepsSince (ls ++ [m]) = countSleeps (sleepsSince ls) m := by
  unfold sleepsSince
  rw [List.foldl_append]
  rfl

theorem backsOff_snoc (h : BacksOff ls)
    (hm : ∀ answer l, m = .listener answer (.sleeping l) →
      l.retryDelay = backoff (sleepsSince ls)) :
    BacksOff (ls ++ [m]) := by
  intro before answer l after heq
  rcases List.eq_nil_or_concat after with rfl | ⟨after, last, rfl⟩
  · obtain ⟨rfl, hlast⟩ := List.append_inj' heq rfl
    exact hm answer l (List.cons.inj hlast).1
  · rw [List.concat_eq_append, ← List.cons_append, ← List.append_assoc] at heq
    exact h before answer l after (List.append_inj' heq rfl).1

/-- **The invariant of the stream**: the generator stands where its sleeps have brought
it, and what it has yielded and what is pending make up the whole. -/
structure Streams (rt : Runtime rxonDecls) (i : Nat) (expected : List PyVal) (ls : List Move)
    (w : Streaming) : Prop where
  connected : Connected w.client
  standing : ∃ point, w.client.points[i]? = some point ∧ Stands (sleepsSince ls) point ∧
    yields ls ++ pending rt w.script point = expected
  backsOff : BacksOff ls

/-- What an answer to a coroutine does to it and to the process. -/
theorem resume_step {c c' : Program.Config Process ClientPoint} {point : ClientPoint}
    {answer : ClientAnswer} (hi : c.points[i]? = some point)
    (hstep : (clientProgram rt floatOf).Step c (.resume i answer) c') :
    ∃ point' p', resumeClient rt floatOf point answer c.shared = some (point', p') ∧
      c' = ⟨p', c.points.set i point'⟩ ∧ c'.points[i]? = some point' := by
  obtain ⟨point', p', hr, rfl⟩ := Program.resume_cases hi hstep
  obtain ⟨hlt, -⟩ := List.getElem?_eq_some_iff.mp hi
  exact ⟨point', p', hr, rfl, by simp [hlt]⟩

/-- Another coroutine leaves the generator where it is. -/
theorem other_step {c c' : Program.Config Process ClientPoint} {point : ClientPoint}
    {e : Program.Event ClientCall ClientAnswer} (hi : c.points[i]? = some point)
    (hother : ∀ answer, e ≠ .resume i answer) (hstep : (clientProgram rt floatOf).Step c e c') :
    c'.points[i]? = some point := by
  rcases Program.step_cases hstep with ⟨call, q, p', rfl, -, rfl⟩ |
    ⟨j, a, old, q, p', rfl, -, -, rfl⟩
  · obtain ⟨hlt, -⟩ := List.getElem?_eq_some_iff.mp hi
    exact (List.getElem?_append_left hlt).trans hi
  · have hne : j ≠ i := fun h => hother a (by rw [h])
    exact (List.getElem?_set_ne hne).trans hi

theorem Streams.step (h : Streams rt i expected ls w) (hstep : StreamStep rt floatOf i w m w') :
    Streams rt i expected (ls ++ [m]) w' := by
  obtain ⟨point, hi, hstands, hyields⟩ := h.standing
  cases hstep with
  | @listener old new answer script client hi' hanswer hstep hnew =>
    rw [hi] at hi'
    cases hi'
    obtain ⟨point', p', hr, rfl, hpoint'⟩ := resume_step hi hstep
    rw [hpoint'] at hnew
    cases hnew
    rcases proceeds_or_served rt floatOf w.script h.connected.alive hstands with
      ⟨a, s', q, p'', ha, hr', hadvances⟩ | ⟨-, hnone, -⟩
    · -- the generator is deterministic, so this is the step it takes
      rw [hanswer] at ha
      cases ha
      rw [hr] at hr'
      cases hr'
      refine ⟨h.connected.step (by simp) hstep, ⟨_, hpoint', ?_, ?_⟩, ?_⟩
      · rw [sleepsSince_snoc]
        exact hadvances.stands
      · have hlast : yields [.listener answer new] = new.yielded?.toList := by
          cases hnew : new.yielded? <;> simp [yields, hnew]
        rw [yields_snoc, List.append_assoc, hlast, hadvances.yields, hyields]
      · apply backsOff_snoc h.backsOff
        rintro a l heq
        cases heq
        exact hadvances.sleeps l rfl
    · rw [hanswer] at hnone
      cases hnone
  | @others e client hclose hother hstep =>
    refine ⟨h.connected.step hclose hstep, ⟨point, other_step hi hother hstep, ?_, ?_⟩, ?_⟩
    · rwa [sleepsSince_snoc]
    · rw [yields_snoc]
      simpa [yields] using hyields
    · exact backsOff_snoc h.backsOff fun _ _ heq => by cases heq

theorem Streams.run {w₀ : Streaming} (h : Streams rt i expected [] w₀)
    (hrun : Run (StreamStep rt floatOf i) w₀ ls w) : Streams rt i expected ls w :=
  Run.invariant (Streams rt i expected) h (fun _ _ _ _ ih hstep => ih.step hstep) hrun

/-- **Every run can go on until the script is used up**, since each answer leaves less of
it. -/
theorem Streams.reaches (h : Streams rt i expected ls w) :
    ∃ ls' w', Run (StreamStep rt floatOf i) w ls' w' ∧ w'.Served i := by
  obtain ⟨point, hi, hstands, -⟩ := h.standing
  induction hsize : w.script.size point using Nat.strongRecOn generalizing ls w point with
  | _ size ih =>
    rcases proceeds_or_served rt floatOf w.script h.connected.alive hstands with
      ⟨answer, s', point', p', hanswer, hr, hadvances⟩ | ⟨hmore, -, l, rfl⟩
    · have hstep : (clientProgram rt floatOf).Step w.client (.resume i answer)
          ⟨p', w.client.points.set i point'⟩ := by
        simp [Program.Step, Program.next, clientProgram, hi, hr]
      obtain ⟨_, _, hr', -, hi'⟩ := resume_step hi hstep
      rw [hr] at hr'
      cases hr'
      have hmove := StreamStep.listener hi hanswer hstep hi'
      have hstands' := hadvances.stands
      rw [← sleepsSince_snoc] at hstands'
      obtain ⟨ls', w', hrun, hserved⟩ :=
        ih _ (hsize ▸ hadvances.shrinks) (h.step hmove) point' hi' hstands' rfl
      exact ⟨_, w', (Run.of_step hmove).trans hrun, hserved⟩
    · exact ⟨[], w, .nil, hmore, l, hi⟩

theorem Streams.complete (h : Streams rt i expected ls w) (hserved : w.Served i) :
    yields ls = expected := by
  obtain ⟨point, hi, -, hyields⟩ := h.standing
  obtain ⟨hmore, l, hl⟩ := hserved
  rw [hi] at hl
  cases hl
  simp [← hyields, pending, hmore]

end Runs

/-! ## After `close` -/

section Closing
variable {rt : Runtime rxonDecls} {floatOf : String → Option PyFloat} {p p' : Process}
  {point point' : ClientPoint} {answer : ClientAnswer} {l : Listener}
  {c c' : Program.Config Process ClientPoint}

/-- A connection is started only by the loop, which looks at the flag first. -/
theorem notClosing_of_resume
    (hr : resumeClient rt floatOf point answer p = some (.connecting l, p')) :
    p.transport.closing = false := by
  cases reaches_of_resume hr with
  | connecting l h => exact h

theorem notClosing_of_start {call : ClientCall} (h : startClient call p = (.connecting l, p')) :
    p.transport.closing = false := by
  have hpoint := congrArg Prod.fst h
  cases call with
  | connect => cases hpoint
  | close =>
    change closeConnection _ = .connecting l at hpoint
    rcases closeConnection_cases _ with ⟨hcase, -⟩ | ⟨w, hcase, -⟩
    · rw [hcase] at hpoint
      rcases closeOwnSession_cases _ with ⟨hcase, -⟩ | ⟨i, hcase, -⟩ <;> rw [hcase] at hpoint <;>
        cases hpoint
    · rw [hcase] at hpoint
      cases hpoint
  | request call => cases hpoint
  | listen reconnect =>
    change startListen reconnect p = .connecting l at hpoint
    unfold startListen at hpoint
    split at hpoint
    · cases hpoint
    · rcases loopAgain_cases ⟨reconnect, 1⟩ p with ⟨hclosing, -⟩ | hended
      · exact hclosing
      · rw [hended] at hpoint
        cases hpoint

/-- Only `connect` and `close` assign the flag. -/
theorem closing_resume (hr : resumeClient rt floatOf point answer p = some (point', p')) :
    p'.transport.closing = p.transport.closing := by
  unfold resumeClient at hr
  split at hr
  · obtain ⟨⟨q, transport⟩, hreq, heq⟩ := Option.map_eq_some_iff.mp hr
    cases heq
    exact (sameLife_resume hreq).2.2.2
  all_goals simp only [Option.some.injEq, reduceCtorEq] at hr
  all_goals
    have hs := congrArg Prod.snd hr
    dsimp only at hs
    rw [← hs]
  all_goals rfl

theorem closing_start {call : ClientCall} (hcall : call ≠ .connect)
    (hp : p.transport.closing = true) : (startClient call p).2.transport.closing = true := by
  cases call with
  | connect => exact absurd rfl hcall
  | close => rfl
  | listen reconnect => exact hp
  | request call => exact (sameLife_start call _).2.2.2.trans hp

theorem closing_step {e : Program.Event ClientCall ClientAnswer} (he : e ≠ .start .connect)
    (hc : c.shared.transport.closing = true) (hstep : (clientProgram rt floatOf).Step c e c') :
    c'.shared.transport.closing = true := by
  rcases Program.step_cases hstep with ⟨call, q, p', rfl, hs, rfl⟩ |
    ⟨j, a, old, q, p', rfl, -, hr, rfl⟩
  · have hcall : call ≠ .connect := fun h => he (by rw [h])
    have h := closing_start hcall hc
    rwa [show startClient call c.shared = (q, p') from hs] at h
  · exact (closing_resume hr).trans hc

/-- While the transport is being closed no coroutine starts to connect. -/
theorem no_connecting_step {e : Program.Event ClientCall ClientAnswer}
    (hc : c.shared.transport.closing = true) (hstep : (clientProgram rt floatOf).Step c e c')
    {j : Nat} (hj : c'.points[j]? = some (.connecting l)) :
    c.points[j]? = some (.connecting l) := by
  rcases Program.step_cases hstep with ⟨call, q, p', rfl, hs, rfl⟩ |
    ⟨i, a, old, q, p', rfl, -, hr, rfl⟩
  · rcases Nat.lt_or_ge j c.points.length with hlt | hge
    · rwa [List.getElem?_append_left hlt] at hj
    · exfalso
      rw [List.getElem?_append_right hge] at hj
      obtain rfl := List.mem_singleton.mp (List.mem_of_getElem? hj)
      simp [notClosing_of_start hs] at hc
  · by_cases hij : i = j
    · exfalso
      obtain ⟨hlt, hget⟩ := List.getElem?_eq_some_iff.mp hj
      subst hij
      rw [List.getElem_set_self] at hget
      subst hget
      simp [notClosing_of_resume hr] at hc
    · rwa [List.getElem?_set_ne hij] at hj

/-- **After `close` nothing connects until `connect` is called.** -/
theorem noConnectAfterClose (rt : Runtime rxonDecls) (floatOf : String → Option PyFloat) :
    NoConnectAfterClose rt floatOf := by
  intro c c₁ c₂ c₃ es e hclose hrun hes hstep j l hj
  have hc₁ : c₁.shared.transport.closing = true := by
    rw [Program.start_cases hclose]
    rfl
  have hc₂ : .start .connect ∉ es → c₂.shared.transport.closing = true := by
    refine Run.invariant
      (fun es c => .start .connect ∉ es → c.shared.transport.closing = true) (fun _ => hc₁) ?_ hrun
    intro es c e c' ih hstep hnot
    rw [List.mem_append, not_or] at hnot
    refine closing_step (fun he => hnot.2 ?_) (ih hnot.1) hstep
    rw [he]
    exact List.mem_singleton_self _
  exact no_connecting_step (hc₂ hes) hstep hj

end Closing

/-! ## The command stream -/

section
variable (rt : Runtime rxonDecls) (floatOf : String → Option PyFloat)

variable {rt floatOf} in
/-- A generator that is started on a connected transport. -/
theorem streams_start {c₀ c : Program.Config Process ClientPoint} (h : Connected c₀)
    (hc : (clientProgram rt floatOf).Step c₀ (.start (.listen true)) c) (current : Connection)
    (attempts : List Attempt) :
    Streams rt c₀.points.length (attempts.flatMap (Attempt.commands rt)) []
      ⟨c, ⟨current, attempts⟩⟩ := by
  have hconnected := h.step (by simp) hc
  have hpoint : ((clientProgram rt floatOf).start (.listen true) c₀.shared).1 =
      .connecting ⟨true, 1⟩ := by
    show startListen true c₀.shared = _
    rw [startListen, h.alive.connecting]
    have hopen := h.alive.sessionOpen
    cases hsession : c₀.shared.transport.session with
    | none => simp [Process.sessionOpen, hsession] at hopen
    | some i => rfl
  have hc' := Program.start_cases hc
  rw [hpoint] at hc'
  subst hc'
  refine ⟨hconnected, ⟨_, List.getElem?_concat_length, .connecting rfl rfl, rfl⟩, ?_⟩
  intro before answer l after heq
  simp at heq

/-- **The command stream.**  On a connected transport that nobody closes, whatever its
other coroutines do, a generator yields exactly the commands of its script, in order and
once each, and sleeps between attempts as long as it should.  After `close`, nothing
connects until `connect` is called. -/
theorem command_stream {c₀ c : Program.Config Process ClientPoint} (h : Connected c₀)
    (hc : (clientProgram rt floatOf).Step c₀ (.start (.listen true)) c) (current : Connection)
    (attempts : List Attempt) :
    StreamsAll rt floatOf c₀.points.length ⟨c, ⟨current, attempts⟩⟩ ∧
      NoConnectAfterClose rt floatOf := by
  have hstart := streams_start h hc current attempts
  refine ⟨⟨?_, ?_, ?_, ?_⟩, noConnectAfterClose rt floatOf⟩
  · intro ls w' hrun
    obtain ⟨point, -, -, hyields⟩ := (hstart.run hrun).standing
    exact ⟨_, hyields⟩
  · exact fun ls w' hrun hserved => (hstart.run hrun).complete hserved
  · exact fun ls w' hrun => (hstart.run hrun).reaches
  · exact fun ls w' hrun => (hstart.run hrun).backsOff

end

/-- One refusal, then a connection with two texts before it is closed, of which one is no
document, and a third behind. -/
theorem command_stream_stop :
    ∃ ls w, Run (StreamStep (Runtime.reference rxonDecls fun _ => "") (fun _ => none) 0)
      ⟨⟨(Process.new "http://orchestrator" "worker" "token").connect, [.connecting ⟨true, 1⟩]⟩,
        ⟨⟨[], none, none⟩,
          [.refused ⟨.client "refused", by simp⟩,
           .opened ⟨[.text none, .text (some (.obj [("command", .str "stop")])), .close,
             .text (some (.obj [("command", .str "drain")]))], none, none⟩]⟩⟩ ls w ∧
      yields ls = [.struct ⟨"WorkerCommand", ["task_id", "job_id", "params", "metadata"]⟩
        [("command", .str "stop"), ("task_id", .none), ("job_id", .none), ("params", .none),
          ("metadata", .none)]] := by
  obtain ⟨hstreams, -⟩ := command_stream (Runtime.reference rxonDecls fun _ => "")
    (fun _ => none) (connected_new "http://orchestrator" "worker" "token") rfl
    ⟨[], none, none⟩ [.refused ⟨.client "refused", by simp⟩,
      .opened ⟨[.text none, .text (some (.obj [("command", .str "stop")])), .close,
        .text (some (.obj [("command", .str "drain")]))], none, none⟩]
  obtain ⟨ls, w, hrun, hserved⟩ := hstreams.reached [] _ .nil
  refine ⟨ls, w, hrun, ?_⟩
  rw [hstreams.complete ls w hrun hserved]
  rfl

end Rxon
