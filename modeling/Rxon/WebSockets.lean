import Rxon.HttpListener
import Rxon.Reference

/-! # Websockets of the listener

`_handle_ws` asks the handler about a request before it opens the socket, and hands the
socket to the handler afterwards.  It reads `self.handler` each time, and between the two it
awaits: the handler's first answer, and the opening of the socket.  `start` may install a
handler at any time.

A handler that is installed when the request comes in stands between the request and the
socket (`sockets_gated`).  One that is installed later, while the socket opens, is handed a
socket that nobody was asked about. -/

namespace Rxon
open Interleaving (Program Run)

/-- What `_handle_ws` hands to the handler. -/
def wsContext (request : WebRequest) : Context :=
  match given request.workerId with
  | some workerId => Assoc.set "worker_id_hint" (.str workerId) (extractContext request)
  | none => extractContext request

/-! ## The coroutines -/

/-- What is called of a listener: `start`, with a handler, or `_handle_ws`. -/
inductive SocketCall (ι : Type) where
  | start (handler : ι)
  | request (request : WebRequest)

inductive SocketPoint (ι Bytes : Type) where
  | started
  | authenticating (handler : ι) (context : Context)
  | preparing (context : Context)
  | serving (handler : ι) (context : Context)
  | refused (response : WebResponse Bytes)
  | served
  | crashed

/-- What an await is answered.  The handler may change the context that it is given; what
`prepare` raises is also a `raised`. -/
inductive SocketAnswer where
  | returned (context : Context)
  | raised (e : HandlerError)
  | prepared
  | interrupted

section
variable {ι : Type} (rt : Runtime rxonDecls)

/-- `str(e)`. -/
def HandlerError.str : HandlerError → String
  | .http _ _ str | .permission str | .value str | .other str => str
  | .rateLimit e =>
    match e.message with
    | .str s => s
    | message => rt.pyStr message

/-- The `except` clauses of `_handle_ws`: of all exceptions only a `PermissionError` has a
status of its own. -/
def refusal : HandlerError → WebResponse rt.orjson.Bytes
  | .permission str => textResponse rt 403 str
  | e => textResponse rt 500 (e.str rt)

def startSocket (call : SocketCall ι) (handler : Option ι) :
    SocketPoint ι rt.orjson.Bytes × Option ι :=
  match call with
  | .start handler => (.started, some handler)
  | .request request =>
    match handler with
    | some h => (.authenticating h (wsContext request), handler)
    | none => (.preparing (wsContext request), handler)

/-- The socket is open. -/
def onPrepared (context : Context) : Option ι → SocketPoint ι rt.orjson.Bytes
  | some handler => .serving handler context
  | none => .served

def resumeSocket (point : SocketPoint ι rt.orjson.Bytes) (answer : SocketAnswer)
    (handler : Option ι) : Option (SocketPoint ι rt.orjson.Bytes) :=
  match point, answer with
  | .authenticating _ _, .returned context => some (.preparing context)
  | .authenticating _ _, .raised e => some (.refused (refusal rt e))
  | .preparing context, .prepared => some (onPrepared rt context handler)
  | .serving _ _, .returned _ => some .served
  | .preparing _, .raised _ | .serving _ _, .raised _ => some .crashed
  | .authenticating _ _, .interrupted | .preparing _, .interrupted
  | .serving _ _, .interrupted => some .crashed
  | _, _ => none

variable (ι) in
/-- All calls of a listener over its handler. -/
def socketProgram :
    Program (Option ι) (SocketCall ι) (SocketPoint ι rt.orjson.Bytes) SocketAnswer where
  start := startSocket rt
  resume point answer handler :=
    (resumeSocket rt point answer handler).map fun point => (point, handler)

end

/-! ## Who stands between a request and its socket -/

section
variable {ι : Type}

/-- The handler that is in place after these calls. -/
def installed (calls : List (SocketCall ι)) : Option ι :=
  calls.foldl (fun handler call =>
    match call with
    | .start h => some h
    | .request _ => handler) none

variable {rt : Runtime rxonDecls} {handler guard : ι} {context : Context} {request : WebRequest}
  {point : SocketPoint ι rt.orjson.Bytes} {es : List (Program.Event (SocketCall ι) SocketAnswer)}
  {steps : List (SocketPoint ι rt.orjson.Bytes × SocketAnswer)}
  {c : Program.Config (Option ι) (SocketPoint ι rt.orjson.Bytes)} {i : Nat}

theorem installed_append (calls : List (SocketCall ι)) (call : SocketCall ι) :
    installed (calls ++ [call]) =
      match call with
      | .start h => some h
      | .request _ => installed calls := by
  rw [installed, List.foldl_append]
  cases call <;> rfl

/-- The handler of a listener is the one that was started last. -/
theorem run_installed (hrun : Run (socketProgram ι rt).Step ⟨none, []⟩ es c) :
    c.shared = installed (Program.calls es) := by
  refine Run.invariant (fun es c => c.shared = installed (Program.calls es)) rfl ?_ hrun
  intro es c e c' ih hstep
  rw [Program.calls_append]
  rcases Program.step_cases hstep with ⟨call, point, shared, rfl, hs, rfl⟩ |
    ⟨j, answer, old, point, shared, rfl, -, hr, rfl⟩
  · show shared = installed (Program.calls es ++ [call])
    rw [installed_append]
    cases call with
    | start h =>
      cases hs
      rfl
    | request request =>
      have hsame : shared = c.shared := by
        have hsnd := congrArg Prod.snd hs
        dsimp only [socketProgram, startSocket] at hsnd
        split at hsnd <;> exact hsnd.symm
      rw [hsame]
      exact ih
  · obtain ⟨q, -, heq⟩ := Option.map_eq_some_iff.mp hr
    cases heq
    show c.shared = installed (Program.calls es ++ [])
    rw [List.append_nil]
    exact ih

variable (rt request) in
/-- How a request has come past the handler that was in place: there was none, or it let the
request pass and left the context so. -/
inductive Passes (guard : Option ι) :
    List (SocketPoint ι rt.orjson.Bytes × SocketAnswer) → Context → Prop
  | unguarded (h : guard = none) : Passes guard [] (wsContext request)
  | asked {h : ι} {context : Context} (hg : guard = some h) :
      Passes guard [(.authenticating h (wsContext request), .returned context)] context

variable (rt request) in
/-- What a request has gone through when it stands at a point, by the handler that was in
place when it came. -/
inductive Gates (guard : Option ι) :
    List (SocketPoint ι rt.orjson.Bytes × SocketAnswer) → SocketPoint ι rt.orjson.Bytes → Prop
  | authenticating {h : ι} (hg : guard = some h) :
      Gates guard [] (.authenticating h (wsContext request))
  | preparing {before : List (SocketPoint ι rt.orjson.Bytes × SocketAnswer)} {context : Context}
      (h : Passes rt request guard before context) : Gates guard before (.preparing context)
  | serving {before : List (SocketPoint ι rt.orjson.Bytes × SocketAnswer)} {context : Context}
      {handler : ι} (h : Passes rt request guard before context) :
      Gates guard (before ++ [(.preparing context, .prepared)]) (.serving handler context)
  | refused {h : ι} {e : HandlerError} (hg : guard = some h) :
      Gates guard [(.authenticating h (wsContext request), .raised e)] (.refused (refusal rt e))
  | served {before after : List (SocketPoint ι rt.orjson.Bytes × SocketAnswer)}
      {context : Context} (h : Passes rt request guard before context) :
      Gates guard (before ++ (.preparing context, .prepared) :: after) .served
  | crashed {steps : List (SocketPoint ι rt.orjson.Bytes × SocketAnswer)} :
      Gates guard steps .crashed

theorem gates_start (guard : Option ι) :
    Gates rt request guard [] (startSocket rt (.request request) guard).1 := by
  cases guard with
  | some h => exact .authenticating rfl
  | none => exact .preparing (.unguarded rfl)

theorem Gates.resume {guard current : Option ι} {point' : SocketPoint ι rt.orjson.Bytes}
    {answer : SocketAnswer} (h : Gates rt request guard steps point)
    (hr : resumeSocket rt point answer current = some point') :
    Gates rt request guard (steps ++ [(point, answer)]) point' := by
  cases h with
  | authenticating hg =>
    cases answer with
    | returned context => cases hr; exact .preparing (.asked hg)
    | raised e => cases hr; exact .refused hg
    | interrupted => cases hr; exact .crashed
    | prepared => cases hr
  | preparing h =>
    cases answer with
    | prepared =>
      cases hr
      cases current with
      | some handler => exact .serving h
      | none => exact .served h
    | raised e => cases hr; exact .crashed
    | interrupted => cases hr; exact .crashed
    | returned context => cases hr
  | serving h =>
    cases answer with
    | returned context =>
      cases hr
      rw [List.append_assoc]
      exact .served h
    | raised e => cases hr; exact .crashed
    | interrupted => cases hr; exact .crashed
    | prepared => cases hr
  | refused | served | crashed => cases hr

/-- Every request goes through what the handler allows that was in place when it came. -/
theorem run_gates (hrun : Run (socketProgram ι rt).Step ⟨none, []⟩ es c)
    (hcall : (Program.calls es)[i]? = some (.request request))
    (hpoint : c.points[i]? = some point) :
    Gates rt request (installed ((Program.calls es).take i))
      ((socketProgram ι rt).trail i ⟨none, []⟩ es) point := by
  obtain ⟨es₀, c₀, q, -, hrun₀, hcalls, hq, hf⟩ := Program.run_follows_from hrun hcall
  rw [hpoint] at hq
  cases hq
  clear hpoint
  rw [← hcalls, ← run_installed hrun₀]
  generalize (socketProgram ι rt).trail i ⟨none, []⟩ es = steps at hf
  induction hf with
  | start => exact gates_start c₀.shared
  | resume _ hr ih =>
    obtain ⟨q, hq, heq⟩ := Option.map_eq_some_iff.mp hr
    cases heq
    exact ih.resume hq

/-- **No socket past the handler.**  In every run of a listener, a socket is handed to a
handler only after the one that was in place when the request came was asked about this very
request and let it pass, leaving the context that the socket is handed over with; or there was
none in place.  And a request that is refused was refused by that handler, and no socket was
opened for it. -/
theorem sockets_gated (hrun : Run (socketProgram ι rt).Step ⟨none, []⟩ es c)
    (hcall : (Program.calls es)[i]? = some (.request request))
    (hpoint : c.points[i]? = some point) :
    (∀ handler context, point = .serving handler context →
      (installed ((Program.calls es).take i) = none ∧ context = wsContext request) ∨
      ∃ guard, installed ((Program.calls es).take i) = some guard ∧
        (.authenticating guard (wsContext request), .returned context) ∈
          (socketProgram ι rt).trail i ⟨none, []⟩ es) ∧
    (∀ response, point = .refused response →
      ∃ guard e, installed ((Program.calls es).take i) = some guard ∧
        (socketProgram ι rt).trail i ⟨none, []⟩ es =
          [(.authenticating guard (wsContext request), .raised e)] ∧
        response = refusal rt e) := by
  have hgates := run_gates hrun hcall hpoint
  generalize (socketProgram ι rt).trail i ⟨none, []⟩ es = steps at hgates
  generalize installed ((Program.calls es).take i) = guard at hgates
  constructor
  · rintro handler context rfl
    cases hgates with
    | serving h =>
      cases h with
      | unguarded hnone => exact Or.inl ⟨hnone, rfl⟩
      | asked hguard => exact Or.inr ⟨_, hguard, List.mem_append_left _ (List.mem_singleton_self _)⟩
  · rintro response rfl
    cases hgates with
    | refused hguard => exact ⟨_, _, hguard, rfl, rfl⟩

end

/-- A request for the socket of `w-1`. -/
def socketRequest : WebRequest :=
  ⟨0, some "w-1", [], false, .error (.value "no body"), some "secret", some "w-1", some "1.0.0",
    none⟩

/-- Handler 0 is asked and lets the request pass; handler 1, started meanwhile, is handed the
socket. -/
theorem sockets_gated_replaced : ∃ c,
    Run (socketProgram Nat (Runtime.reference rxonDecls fun _ => "")).Step ⟨none, []⟩
      [.start (.start 0), .start (.request socketRequest), .start (.start 1),
        .resume 1 (.returned (wsContext socketRequest)), .resume 1 .prepared] c ∧
    c.points[1]? = some (.serving 1 (wsContext socketRequest)) ∧
    ∃ guard, installed [.start 0] = some guard ∧
      (.authenticating guard (wsContext socketRequest), .returned (wsContext socketRequest)) ∈
        (socketProgram Nat (Runtime.reference rxonDecls fun _ => "")).trail 1 ⟨none, []⟩
          [.start (.start 0), .start (.request socketRequest), .start (.start 1),
            .resume 1 (.returned (wsContext socketRequest)), .resume 1 .prepared] := by
  let points : List (SocketPoint Nat (Runtime.reference rxonDecls fun _ => "").orjson.Bytes) :=
    [.started, .serving 1 (wsContext socketRequest), .started]
  have hrun : Run (socketProgram Nat (Runtime.reference rxonDecls fun _ => "")).Step ⟨none, []⟩
      [.start (.start 0), .start (.request socketRequest), .start (.start 1),
        .resume 1 (.returned (wsContext socketRequest)), .resume 1 .prepared]
      ⟨some 1, points⟩ := Program.runAll_iff.mp rfl
  rcases (sockets_gated (i := 1) hrun rfl rfl).1 1 (wsContext socketRequest) rfl with
    ⟨hnone, -⟩ | hasked
  · cases hnone
  · exact ⟨_, hrun, rfl, hasked⟩

/-- A handler that is started while the socket opens is handed it unasked. -/
example : Run (socketProgram Nat (Runtime.reference rxonDecls fun _ => "")).Step ⟨none, []⟩
    [.start (.request socketRequest), .start (.start 0), .resume 0 .prepared]
    ⟨some 0, [.serving 0 (wsContext socketRequest), .started]⟩ := Program.runAll_iff.mp rfl

end Rxon
