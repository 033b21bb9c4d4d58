import Rxon.Requests

/-! # Listening for commands

`listen_for_commands`, `connect` and `close` as coroutines beside the requests, over one
transport in its process.  The generator is suspended where it awaits aiohttp, where it
sleeps, and at each `yield`, until its consumer asks for the next command.

A retry delay is a whole number of seconds: it starts as `1.0` and is doubled, up to
`60.0`, and all of these are exact. -/

namespace Rxon
open Interleaving (Program Run)

/-! ## Sockets and their messages -/

/-- A message of a websocket, by its `WSMsgType`.  A text is known by the document that
`msg.json(loads=loads)` reads from it, if it reads one. -/
inductive WsMessage where
  | text (data : Option Json)
  | close
  | closed
  | error
  | other

namespace WsMessage

/-- The types at which the generator leaves the socket. -/
def endsStream : WsMessage → Bool
  | .close | .closed | .error => true
  | .text _ | .other => false

/-- `from_dict(WorkerCommand, data)` for a text, if neither it nor the decoding raises. -/
def command (rt : Runtime rxonDecls) : WsMessage → Option PyVal
  | .text (some data) => (fromDict rt "WorkerCommand" data.toPy).toOption
  | _ => none

end WsMessage

namespace Process

/-- `not self._session.closed`. -/
def sessionOpen (p : Process) : Bool :=
  match p.transport.session with
  | some i => p.sessions[i]? = some false
  | none => false

/-- `ws_connect` has returned a new socket, which the transport keeps. -/
def openSocket (p : Process) : Process :=
  { p with
    transport := { p.transport with wsConnection := some p.sockets.length }
    sockets := p.sockets ++ [false] }

/-- `self._ws_connection = None`. -/
def forgetSocket (p : Process) : Process :=
  { p with transport := { p.transport with wsConnection := none } }

def socketClosed (p : Process) (socket : Nat) : Process :=
  { p with sockets := p.sockets.set socket true }

def sessionClosed (p : Process) (session : Nat) : Process :=
  { p with sessions := p.sessions.set session true }

end Process

/-! ## Calls, answers and suspension points -/

def maxDelay : Nat := 60

/-- The locals of `listen_for_commands`. -/
structure Listener where
  reconnect : Bool
  retryDelay : Nat

/-- How the context of a socket is left. -/
inductive SocketExit where
  | attemptOver
  | interrupted

inductive ClientCall where
  | connect
  | close
  | listen (reconnect : Bool)
  | request (call : TransportCall)

/-- What an await is answered; `exhausted` ends the iteration over a socket. -/
inductive ClientAnswer where
  | request (answer : Answer)
  | opened
  | message (msg : WsMessage)
  | exhausted
  | resumed
  | completed
  | fault (f : Fault)

inductive ClientPoint where
  | request (point : Point)
  | connecting (l : Listener)
  | receiving (l : Listener) (socket : Nat)
  | yielding (l : Listener) (socket : Nat) (item : PyVal)
  | leaving (l : Listener) (socket : Nat) (exit : SocketExit)
  | sleeping (l : Listener)
  | closingSocket (socket : Nat)
  | closingSession (session : Nat)
  | ended

/-! ## The generator -/

/-- The condition of the `while`; on true an attempt to connect starts. -/
def loopAgain (l : Listener) (p : Process) : ClientPoint :=
  if !p.transport.closing && p.sessionOpen then .connecting l else .ended

/-- What follows the `try` of one attempt. -/
def attemptOver (l : Listener) (p : Process) : ClientPoint :=
  if p.transport.closing || !p.sessionOpen || !l.reconnect then .ended else .sleeping l

/-- The last line of the loop over messages. -/
def messageOver (l : Listener) (socket : Nat) (p : Process) : ClientPoint :=
  if p.transport.closing then .leaving l socket .attemptOver else .receiving l socket

def startListen (reconnect : Bool) (p : Process) : ClientPoint :=
  if p.transport.session.isNone then .ended else loopAgain ⟨reconnect, 1⟩ p

/-- An exception of the attempt, which is logged, unless it is an interruption. -/
def attemptFault (l : Listener) (p : Process) : Fault → ClientPoint
  | .interrupted => .ended
  | _ => attemptOver l p

/-- A message has arrived. -/
def onMessage (rt : Runtime rxonDecls) (l : Listener) (socket : Nat) (msg : WsMessage)
    (p : Process) : ClientPoint :=
  match msg with
  | .text _ =>
    match msg.command rt with
    | some item => .yielding l socket item
    | none => messageOver l socket p
  | .close | .closed | .error => .leaving l socket .attemptOver
  | .other => messageOver l socket p

/-- `sleep` is over. -/
def onSlept (l : Listener) (p : Process) : ClientPoint × Process :=
  let p := p.forgetSocket
  (loopAgain { l with retryDelay := min (l.retryDelay * 2) maxDelay } p, p)

/-! ## `close` -/

/-- The second half of `close`. -/
def closeOwnSession (p : Process) : ClientPoint :=
  match p.transport.session with
  | some i =>
    if p.transport.ownSession ∧ p.sessions[i]? = some false then .closingSession i else .ended
  | none => .ended

/-- The first half. -/
def closeConnection (p : Process) : ClientPoint :=
  match p.transport.wsConnection with
  | some w => if p.sockets[w]? = some false then .closingSocket w else closeOwnSession p
  | none => closeOwnSession p

def startClose (p : Process) : ClientPoint × Process :=
  let p := { p with transport := { p.transport with closing := true } }
  (closeConnection p, p)

/-! ## The program -/

section
variable (rt : Runtime rxonDecls) (floatOf : String → Option PyFloat)

/-- From one await to the next.  Whatever a request does, it does to the transport. -/
def resumeClient (point : ClientPoint) (answer : ClientAnswer) (p : Process) :
    Option (ClientPoint × Process) :=
  match point, answer with
  | .request point, .request answer =>
    (resume rt floatOf point answer p.transport).map fun (point, transport) =>
      (.request point, { p with transport := transport })
  | .connecting l, .opened =>
    some (.receiving { l with retryDelay := 1 } p.sockets.length, p.openSocket)
  | .connecting l, .fault f => some (attemptFault l p f, p)
  | .receiving l socket, .message msg => some (onMessage rt l socket msg p, p)
  | .receiving l socket, .exhausted => some (.leaving l socket .attemptOver, p)
  | .receiving l socket, .fault .interrupted => some (.leaving l socket .interrupted, p)
  | .receiving l socket, .fault _ => some (.leaving l socket .attemptOver, p)
  | .yielding l socket _, .resumed => some (messageOver l socket p, p)
  -- what the consumer throws in at the `yield` is caught there, if it is an `Exception`
  | .yielding l socket _, .fault .interrupted => some (.leaving l socket .interrupted, p)
  | .yielding l socket _, .fault _ => some (messageOver l socket p, p)
  | .leaving l socket .attemptOver, .completed =>
    some (attemptOver l (p.socketClosed socket), p.socketClosed socket)
  | .leaving _ socket .interrupted, .completed => some (.ended, p.socketClosed socket)
  | .leaving l _ _, .fault f => some (attemptFault l p f, p)
  | .sleeping l, .completed => some (onSlept l p)
  | .sleeping _, .fault _ => some (.ended, p)
  | .closingSocket w, .completed => some (closeOwnSession (p.socketClosed w), p.socketClosed w)
  | .closingSession i, .completed => some (.ended, p.sessionClosed i)
  | .closingSocket _, .fault _ | .closingSession _, .fault _ => some (.ended, p)
  | _, _ => none

def startClient (call : ClientCall) (p : Process) : ClientPoint × Process :=
  match call with
  | .connect => (.ended, p.connect)
  | .close => startClose p
  | .listen reconnect => (startListen reconnect p, p)
  | .request call =>
    let (point, transport) := start call p.transport
    (.request point, { p with transport := transport })

/-- All coroutines of the transport over its process. -/
def clientProgram : Program Process ClientCall ClientPoint ClientAnswer where
  start := startClient
  resume := resumeClient rt floatOf

end

/-! ## What a request leaves alone -/

/-- The fields that only `connect`, `close` and the generator assign. -/
def HttpTransport.SameLife (self self' : HttpTransport) : Prop :=
  self'.session = self.session ∧ self'.ownSession = self.ownSession ∧
    self'.wsConnection = self.wsConnection ∧ self'.closing = self.closing

theorem HttpTransport.SameLife.refl (self : HttpTransport) : self.SameLife self :=
  ⟨rfl, rfl, rfl, rfl⟩

theorem HttpTransport.SameLife.trans {a b c : HttpTransport} (h : a.SameLife b)
    (h' : b.SameLife c) : a.SameLife c :=
  ⟨h'.1.trans h.1, h'.2.1.trans h.2.1, h'.2.2.1.trans h.2.2.1, h'.2.2.2.trans h.2.2.2⟩

/-- A computation over the transport that leaves these fields alone. -/
def KeepsLife {α : Type} (m : ExceptT PyError (StateM HttpTransport) α) : Prop :=
  ∀ self : HttpTransport, self.SameLife (m.run self).2

section
variable {α β : Type} {m : ExceptT PyError (StateM HttpTransport) α}

theorem keepsLife_lift (e : Except PyError α) :
    KeepsLife (liftM e : ExceptT PyError (StateM HttpTransport) α) := by
  intro self
  cases e <;> exact .refl self

theorem keepsLife_bind {f : α → ExceptT PyError (StateM HttpTransport) β} (hm : KeepsLife m)
    (hf : ∀ a, KeepsLife (f a)) : KeepsLife (m >>= f) := by
  intro self
  have hrun : (m >>= f).run self = (ExceptT.bindCont f (m.run self).1) (m.run self).2 := rfl
  rw [hrun]
  have h := hm self
  revert h
  rcases m.run self with ⟨e | a, self'⟩ <;> intro h
  · exact h
  · exact h.trans (hf a self')

theorem keepsLife_pure (a : α) :
    KeepsLife (pure a : ExceptT PyError (StateM HttpTransport) α) :=
  fun self => .refl self

theorem keepsLife_modify {g : HttpTransport → HttpTransport}
    (hg : ∀ self : HttpTransport, self.SameLife (g self)) :
    KeepsLife (modify g : ExceptT PyError (StateM HttpTransport) PUnit) :=
  fun self => hg self

end

theorem keepsLife_adopt (res : PyVal) : KeepsLife (adopt res) := by
  unfold adopt
  refine keepsLife_bind (keepsLife_lift _) fun accessToken => ?_
  refine keepsLife_bind (keepsLife_modify fun self => ⟨rfl, rfl, rfl, rfl⟩) fun _ => ?_
  refine keepsLife_bind (keepsLife_lift _) fun refreshToken => ?_
  refine keepsLife_bind (keepsLife_modify fun self => ⟨rfl, rfl, rfl, rfl⟩) fun _ => ?_
  exact keepsLife_modify fun self => ⟨rfl, rfl, rfl, rfl⟩

section
variable {rt : Runtime rxonDecls} {floatOf : String → Option PyFloat}

theorem keepsLife_adoptResponse (data : PyVal) : KeepsLife (adoptResponse rt data) := by
  unfold adoptResponse
  refine keepsLife_bind (keepsLife_lift _) fun res => ?_
  exact keepsLife_bind (keepsLife_adopt res) fun _ => keepsLife_pure res

theorem keepsLife_adoptRefresh (data : PyVal) : KeepsLife (adoptRefresh rt data) := by
  unfold adoptRefresh
  refine keepsLife_bind (keepsLife_adoptResponse data) fun res => ?_
  exact keepsLife_bind (keepsLife_lift _) fun _ => keepsLife_pure res

theorem sameLife_adoptRegistration (resp : PyVal) (self : HttpTransport) :
    self.SameLife (adoptRegistration rt resp self) := by
  unfold adoptRegistration
  split
  · split
    · exact keepsLife_adoptResponse _ self
    · exact .refl self
  · exact .refl self

theorem sameLife_warnVersion (head : Head) (self : HttpTransport) :
    self.SameLife (warnVersion head self) := by
  obtain ⟨b, hwarn⟩ := warnVersion_eq head self
  rw [hwarn]
  exact ⟨rfl, rfl, rfl, rfl⟩

theorem sameLife_onRefreshBody (outer : Option Frame) (data : Json) (self : HttpTransport) :
    self.SameLife (onRefreshBody rt outer data self).2 := by
  have h : self.SameLife ((adoptRefresh rt data.toPy).run self).2 := keepsLife_adoptRefresh _ self
  unfold onRefreshBody
  split
  all_goals
    rename_i heq
    rwa [heq] at h

/-- **A request leaves the life of the transport alone.** -/
theorem sameLife_resume {point point' : Point} {answer : Answer} {self self' : HttpTransport}
    (h : resume rt floatOf point answer self = some (point', self')) : self.SameLife self' := by
  cases resume_advances h with
  | noContent | unauthorized | refresh | limited | failed | answered =>
    exact sameLife_warnVersion ..
  | returned =>
    split
    · exact sameLife_adoptRegistration ..
    · exact .refl self
  | @adopted outer _ data _ _ hbody =>
    have hsame : self.SameLife (onRefreshBody rt outer data self).2 := sameLife_onRefreshBody ..
    rwa [hbody] at hsame
  | _ => exact .refl self

theorem sameLife_start (call : TransportCall) (self : HttpTransport) :
    self.SameLife (start call self).2 := by
  unfold start startRequest
  repeat' split
  all_goals exact .refl self

end

/-! ## Where a step leads -/

section
variable {rt : Runtime rxonDecls} {floatOf : String → Option PyFloat} {p p' : Process}
  {point point' : ClientPoint} {answer : ClientAnswer}

theorem loopAgain_cases (l : Listener) (p : Process) :
    (p.transport.closing = false ∧ loopAgain l p = .connecting l) ∨ loopAgain l p = .ended := by
  unfold loopAgain
  split
  · rename_i hcond
    rw [Bool.and_eq_true, Bool.not_eq_true'] at hcond
    exact Or.inl ⟨hcond.1, rfl⟩
  · exact Or.inr rfl

theorem attemptOver_cases (l : Listener) (p : Process) :
    attemptOver l p = .ended ∨ attemptOver l p = .sleeping l := by
  unfold attemptOver
  split
  · exact Or.inl rfl
  · exact Or.inr rfl

theorem attemptFault_cases (l : Listener) (p : Process) (f : Fault) :
    attemptFault l p f = .ended ∨ attemptFault l p f = .sleeping l := by
  unfold attemptFault
  split
  · exact Or.inl rfl
  · exact attemptOver_cases l p

theorem messageOver_cases (l : Listener) (socket : Nat) (p : Process) :
    messageOver l socket p = .leaving l socket .attemptOver ∨
      messageOver l socket p = .receiving l socket := by
  unfold messageOver
  split
  · exact Or.inl rfl
  · exact Or.inr rfl

theorem closeOwnSession_cases (p : Process) :
    (closeOwnSession p = .ended ∧ p.closeSession = p) ∨
      ∃ i, closeOwnSession p = .closingSession i ∧ p.closeSession = p.sessionClosed i := by
  unfold closeOwnSession Process.closeSession
  cases hsession : p.transport.session with
  | none => exact Or.inl ⟨rfl, rfl⟩
  | some i =>
    by_cases hown : p.transport.ownSession ∧ p.sessions[i]? = some false
    · right
      exact ⟨i, if_pos hown, if_pos hown⟩
    · left
      exact ⟨if_neg hown, if_neg hown⟩

theorem closeConnection_cases (p : Process) :
    (closeConnection p = closeOwnSession p ∧ p.closeSocket = p) ∨
      ∃ w, closeConnection p = .closingSocket w ∧ p.closeSocket = p.socketClosed w := by
  unfold closeConnection Process.closeSocket
  cases hsocket : p.transport.wsConnection with
  | none => exact Or.inl ⟨rfl, rfl⟩
  | some w =>
    by_cases hopen : p.sockets[w]? = some false
    · right
      exact ⟨w, if_pos hopen, if_pos hopen⟩
    · left
      exact ⟨if_neg hopen, if_neg hopen⟩

/-- The points that a step of a coroutine can lead to: an item is yielded only for the
text that was received, and a connection is started only while `_closing` is not set. -/
inductive Reaches (rt : Runtime rxonDecls) (point : ClientPoint) (answer : ClientAnswer)
    (p : Process) : ClientPoint → Prop
  | request (q : Point) : Reaches rt point answer p (.request q)
  | ended : Reaches rt point answer p .ended
  | connecting (l : Listener) (h : p.transport.closing = false) :
      Reaches rt point answer p (.connecting l)
  | receiving (l : Listener) (socket : Nat) : Reaches rt point answer p (.receiving l socket)
  | yielding (l : Listener) (socket : Nat) (item : PyVal) (data : Option Json)
      (ha : answer = .message (.text data))
      (hitem : WsMessage.command rt (.text data) = some item) :
      Reaches rt point answer p (.yielding l socket item)
  | leaving (l : Listener) (socket : Nat) (exit : SocketExit) :
      Reaches rt point answer p (.leaving l socket exit)
  | sleeping (l : Listener) : Reaches rt point answer p (.sleeping l)
  | closing (i : Nat) (h : ∃ w, point = .closingSocket w) :
      Reaches rt point answer p (.closingSession i)

theorem reaches_attemptOver (l : Listener) (q : Process) :
    Reaches rt point answer p (attemptOver l q) := by
  rcases attemptOver_cases l q with h | h <;> rw [h]
  · exact .ended
  · exact .sleeping l

theorem reaches_attemptFault (l : Listener) (q : Process) (f : Fault) :
    Reaches rt point answer p (attemptFault l q f) := by
  rcases attemptFault_cases l q f with h | h <;> rw [h]
  · exact .ended
  · exact .sleeping l

theorem reaches_messageOver (l : Listener) (socket : Nat) (q : Process) :
    Reaches rt point answer p (messageOver l socket q) := by
  rcases messageOver_cases l socket q with h | h <;> rw [h]
  · exact .leaving l socket _
  · exact .receiving l socket

theorem reaches_onMessage (l : Listener) (socket : Nat) (msg : WsMessage) (q : Process) :
    Reaches rt point (.message msg) p (onMessage rt l socket msg q) := by
  unfold onMessage
  split
  · split
    · rename_i item hitem
      exact .yielding l socket item _ rfl hitem
    · exact reaches_messageOver ..
  · exact .leaving l socket _
  · exact .leaving l socket _
  · exact .leaving l socket _
  · exact reaches_messageOver ..

theorem reaches_onSlept (l : Listener) : Reaches rt point answer p (onSlept l p).1 := by
  rcases loopAgain_cases { l with retryDelay := min (l.retryDelay * 2) maxDelay } p.forgetSocket
    with ⟨hclosing, h⟩ | h
  · rw [onSlept, h]
    exact .connecting _ hclosing
  · rw [onSlept, h]
    exact .ended

theorem reaches_closeOwnSession (w : Nat) (q : Process) :
    Reaches rt (.closingSocket w) answer p (closeOwnSession q) := by
  rcases closeOwnSession_cases q with ⟨h, -⟩ | ⟨i, h, -⟩ <;> rw [h]
  · exact .ended
  · exact .closing i ⟨w, rfl⟩

/-- **What a step of a coroutine can lead to.** -/
theorem reaches_of_resume (hr : resumeClient rt floatOf point answer p = some (point', p')) :
    Reaches rt point answer p point' := by
  unfold resumeClient at hr
  split at hr
  · obtain ⟨⟨q, transport⟩, -, heq⟩ := Option.map_eq_some_iff.mp hr
    cases heq
    exact .request q
  all_goals simp only [Option.some.injEq, reduceCtorEq] at hr
  all_goals
    have hp := congrArg Prod.fst hr
    dsimp only at hp
    rw [← hp]
  all_goals first
    | exact .ended
    | exact .receiving ..
    | exact .leaving ..
    | exact reaches_attemptFault ..
    | exact reaches_attemptOver ..
    | exact reaches_messageOver ..
    | exact reaches_onMessage ..
    | exact reaches_onSlept ..
    | exact reaches_closeOwnSession ..

end

end Rxon
