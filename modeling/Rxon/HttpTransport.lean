import Rxon.Assoc
import Rxon.PyVal

/-! # The HTTP transport object

The fields of an `HttpTransport` and its life: `__init__`, `connect` and `close`.
Sessions and sockets are aiohttp objects with a `closed` flag of their own; the
transport refers to them, and the process keeps the flags.

The transport is meant to be connected again after `close`, which `connect` prepares by
clearing `_closing`.  But `connect` asks only whether a session is held, not whether it is
open, so it keeps the session that `close` closed (`lifecycle_iff_not_reconnected`). -/

namespace Rxon

/-! ## Constants -/

def protocolVersion : String := "1.0.0"
def protocolVersionHeader : String := "X-RXON-Version"
def authHeaderWorker : String := "X-Worker-Token"
def authHeaderWorkerId : String := "X-Worker-ID"

def workerApiPrefix : String := "/_worker"
def stsTokenEndpoint : String := workerApiPrefix ++ "/auth/token"
def stsRefreshEndpoint : String := workerApiPrefix ++ "/auth/token/refresh"
def endpointWorkerRegister : String := workerApiPrefix ++ "/workers/register"

/-! ## The transport -/

/-- `s.rstrip("/")`. -/
def rstripSlash (s : String) : String :=
  String.ofList (s.toList.reverse.dropWhile (· = '/')).reverse

/-- The transport's fields.  A session or a socket is the number of one of the
process's. -/
structure HttpTransport where
  baseUrl : String
  workerId : String
  token : PyVal
  refreshTokenValue : PyVal
  session : Option Nat
  ownSession : Bool
  headers : List (String × PyVal)
  wsConnection : Option Nat
  versionWarningLogged : Bool
  closing : Bool

/-- `HttpTransport.__init__`. -/
def HttpTransport.init (baseUrl workerId token : String) (session : Option Nat) :
    HttpTransport where
  baseUrl := rstripSlash baseUrl
  workerId := workerId
  token := .str token
  refreshTokenValue := .none
  session := session
  ownSession := false
  headers :=
    [(authHeaderWorker, .str token), (authHeaderWorkerId, .str workerId),
     (protocolVersionHeader, .str protocolVersion)]
  wsConnection := none
  versionWarningLogged := false
  closing := false

/-- A transport in its process, with the `closed` flag of every aiohttp session and
websocket made so far. -/
structure Process where
  transport : HttpTransport
  sessions : List Bool
  sockets : List Bool

namespace Process

/-- A process that has built a transport without handing it a session. -/
def new (baseUrl workerId token : String) : Process :=
  ⟨HttpTransport.init baseUrl workerId token none, [], []⟩

/-- `HttpTransport.connect`. -/
def connect (p : Process) : Process :=
  let p := match p.transport.session with
    | some _ => p
    | none =>
      { p with
        transport := { p.transport with session := some p.sessions.length, ownSession := true }
        sessions := p.sessions ++ [false] }
  { p with transport := { p.transport with closing := false } }

/-- `if self._ws_connection and not self._ws_connection.closed: await
self._ws_connection.close()`. -/
def closeSocket (p : Process) : Process :=
  match p.transport.wsConnection with
  | some w => if p.sockets[w]? = some false then { p with sockets := p.sockets.set w true } else p
  | none => p

/-- `if self._own_session and self._session and not self._session.closed: await
self._session.close()`. -/
def closeSession (p : Process) : Process :=
  match p.transport.session with
  | some i =>
    if p.transport.ownSession ∧ p.sessions[i]? = some false then
      { p with sessions := p.sessions.set i true }
    else p
  | none => p

/-- `HttpTransport.close`, run to its end; a `close()` of aiohttp leaves its object
closed. -/
def close (p : Process) : Process :=
  closeSession (closeSocket { p with transport := { p.transport with closing := true } })

end Process

/-! ## Connecting and closing -/

inductive LifecycleCall where
  | connect
  | close
deriving DecidableEq

namespace Process

def perform (p : Process) : LifecycleCall → Process
  | .connect => p.connect
  | .close => p.close

/-- The process after a sequence of calls, each awaited before the next. -/
def performAll (p : Process) (calls : List LifecycleCall) : Process := calls.foldl perform p

/-- The transport holds a session that is not closed. -/
def HoldsOpen (p : Process) : Prop :=
  ∃ i, p.transport.session = some i ∧ p.sessions[i]? = some false

def AllClosed (p : Process) : Prop := ∀ closed ∈ p.sessions, closed = true

variable {p : Process} {i : Nat} {baseUrl workerId token : String} {calls : List LifecycleCall}

theorem performAll_snoc (p : Process) (call : LifecycleCall) :
    p.performAll (calls ++ [call]) = (p.performAll calls).perform call := by
  rw [performAll, List.foldl_append]
  rfl

/-- A session that is held is kept, whatever its state. -/
theorem connect_of_some (h : p.transport.session = some i) :
    p.connect = { p with transport := { p.transport with closing := false } } := by
  unfold connect
  rw [h]

theorem connect_of_none (h : p.transport.session = none) :
    p.connect.transport.session = some p.sessions.length ∧
      p.connect.transport.ownSession = true ∧ p.connect.sessions = p.sessions ++ [false] := by
  unfold connect
  rw [h]
  exact ⟨rfl, rfl, rfl⟩

@[simp] theorem closeSocket_transport : p.closeSocket.transport = p.transport := by
  unfold closeSocket
  repeat' split
  all_goals rfl

@[simp] theorem closeSocket_sessions : p.closeSocket.sessions = p.sessions := by
  unfold closeSocket
  repeat' split
  all_goals rfl

@[simp] theorem closeSession_transport : p.closeSession.transport = p.transport := by
  unfold closeSession
  repeat' split
  all_goals rfl

/-- `close` changes one field of the transport; the rest happens to its objects. -/
@[simp] theorem close_transport :
    p.close.transport = { p.transport with closing := true } := by
  rw [close, closeSession_transport, closeSocket_transport]

theorem close_sessions_of_none (h : p.transport.session = none) :
    p.close.sessions = p.sessions := by
  simp [close, closeSession, h]

/-- The session the transport made is closed, and no other. -/
theorem close_sessions_of_own (h : p.transport.session = some i)
    (hown : p.transport.ownSession = true) (hi : i < p.sessions.length) :
    p.close.sessions = p.sessions.set i true := by
  simp only [close, closeSession, closeSocket_transport, closeSocket_sessions, h, hown, true_and]
  split
  · rfl
  · -- an open session would have been closed, so this one was closed already
    rename_i hclosed
    rw [List.getElem?_eq_getElem hi, Option.some.injEq, Bool.not_eq_false] at hclosed
    rw [← hclosed, List.set_getElem_self]
    simp

/-- Some `close` comes after a `connect` once `call` is made iff one did before, or
`call` is such a `close`. -/
theorem reopened_snoc (call : LifecycleCall) :
    [.connect, .close].Sublist (calls ++ [call]) ↔
      [.connect, .close].Sublist calls ∨ call = .close ∧ .connect ∈ calls := by
  constructor
  · intro h
    rcases List.sublist_append_iff.mp h with ⟨l₁, l₂, heq, h₁, h₂⟩
    rcases List.sublist_singleton.mp h₂ with rfl | rfl
    · left
      rwa [heq, List.append_nil]
    · right
      change [LifecycleCall.connect] ++ [.close] = l₁ ++ [call] at heq
      obtain ⟨h₃, h₄⟩ := List.append_inj' heq rfl
      rw [← h₃] at h₁
      exact ⟨(List.cons.inj h₄).1.symm, List.singleton_sublist.mp h₁⟩
  · rintro (h | ⟨rfl, h⟩)
    · exact h.trans (List.sublist_append_left calls [call])
    · exact (List.singleton_sublist.mpr h).append (List.Sublist.refl [LifecycleCall.close])

/-- What the calls have made of the process: no session before the first `connect`
and one since, which is closed iff some `close` came after a `connect`. -/
structure After (calls : List LifecycleCall) (p : Process) : Prop where
  before : .connect ∉ calls → p.transport.session = none ∧ p.sessions = []
  since : .connect ∈ calls → p.transport.session = some 0 ∧ p.transport.ownSession = true ∧
    p.sessions = [decide ([.connect, .close].Sublist calls)]

theorem After.connect (h : After calls p) : After (calls ++ [.connect]) p.connect := by
  have hin : .connect ∈ calls ++ [LifecycleCall.connect] := by simp
  refine ⟨fun hn => absurd hin hn, fun _ => ?_⟩
  by_cases hbefore : .connect ∈ calls
  · obtain ⟨hsession, hown, hsessions⟩ := h.since hbefore
    rw [connect_of_some hsession]
    refine ⟨hsession, hown, hsessions.trans ?_⟩
    simp [reopened_snoc]
  · obtain ⟨hsession, hsessions⟩ := h.before hbefore
    obtain ⟨h₁, h₂, h₃⟩ := connect_of_none hsession
    have hno : ¬ [.connect, .close].Sublist calls := fun hs =>
      hbefore (hs.subset (List.mem_cons_self ..))
    rw [hsessions] at h₁ h₃
    refine ⟨h₁, h₂, h₃.trans ?_⟩
    simp [reopened_snoc, hno]

theorem After.close (h : After calls p) : After (calls ++ [.close]) p.close := by
  refine ⟨fun hn => ?_, fun hin => ?_⟩
  · obtain ⟨hsession, hsessions⟩ := h.before fun hin => hn (List.mem_append_left _ hin)
    rw [close_transport, close_sessions_of_none hsession]
    exact ⟨hsession, hsessions⟩
  · have hbefore : .connect ∈ calls := by simpa using hin
    obtain ⟨hsession, hown, hsessions⟩ := h.since hbefore
    have hlen : 0 < p.sessions.length := by rw [hsessions]; exact Nat.one_pos
    rw [close_transport, close_sessions_of_own hsession hown hlen, hsessions]
    refine ⟨hsession, hown, ?_⟩
    simp [reopened_snoc, hbefore]

theorem after_performAll : After calls ((new baseUrl workerId token).performAll calls) := by
  induction calls using List.reverseRecOn with
  | nil => exact ⟨fun _ => ⟨rfl, rfl⟩, fun h => absurd h List.not_mem_nil⟩
  | append_singleton calls call ih =>
    rw [performAll_snoc]
    cases call with
    | connect => exact ih.connect
    | close => exact ih.close

/-- What the lifecycle is for: a transport that was connected last holds an open
session, and one that was closed last has left no session open. -/
def LifecycleHolds (calls : List LifecycleCall) (p : Process) : Prop :=
  (calls.getLast? = some .connect → p.HoldsOpen) ∧ (calls.getLast? = some .close → p.AllClosed)

/-- **The lifecycle holds of exactly the histories that do not reconnect**: it fails
when the last call is a `connect` and some `close` came after an earlier one, since
`connect` then keeps the session that was closed. -/
theorem lifecycle_iff_not_reconnected (baseUrl workerId token : String)
    (calls : List LifecycleCall) :
    LifecycleHolds calls ((new baseUrl workerId token).performAll calls) ↔
      ¬ (calls.getLast? = some .connect ∧ [.connect, .close].Sublist calls) := by
  have hafter : After calls ((new baseUrl workerId token).performAll calls) := after_performAll
  constructor
  · rintro ⟨hopen, -⟩ ⟨hlast, hsub⟩
    obtain ⟨i, hi, hfalse⟩ := hopen hlast
    obtain ⟨hsession, -, hsessions⟩ := hafter.since (List.mem_of_getLast? hlast)
    rw [hsession] at hi
    cases hi
    rw [hsessions] at hfalse
    simp [hsub] at hfalse
  · intro h
    refine ⟨fun hlast => ?_, fun hlast => ?_⟩
    · obtain ⟨hsession, -, hsessions⟩ := hafter.since (List.mem_of_getLast? hlast)
      refine ⟨0, hsession, ?_⟩
      rw [hsessions]
      simp only [List.getElem?_cons_zero, Option.some.injEq, decide_eq_false_iff_not]
      exact fun hsub => h ⟨hlast, hsub⟩
    · intro closed hclosed
      obtain ⟨calls', rfl⟩ : ∃ calls', calls = calls' ++ [.close] :=
        ⟨_, (List.dropLast_append_getLast? _ hlast).symm⟩
      by_cases hbefore : .connect ∈ calls'
      · rw [(hafter.since (List.mem_append_left _ hbefore)).2.2] at hclosed
        rw [List.mem_singleton.mp hclosed]
        simp [reopened_snoc, hbefore]
      · rw [(hafter.before (by simpa using hbefore)).2] at hclosed
        cases hclosed

/-- Connecting again after `close` leaves the transport with the closed session. -/
theorem reconnect_holds_closed :
    ¬ LifecycleHolds [.connect, .close, .connect]
      ((new "http://orchestrator" "worker" "token").performAll [.connect, .close, .connect]) := by
  rintro ⟨hopen, -⟩
  obtain ⟨i, hi, hfalse⟩ := hopen rfl
  cases hi
  cases hfalse

end Process
end Rxon
