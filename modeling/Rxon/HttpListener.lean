import Rxon.Matching
import Rxon.TypedBoundary
import Rxon.Validators

/-! # The HTTP listener

`HttpListener` of `http_server.py`: what each endpoint makes of a request and of what the
orchestrator's handler returns or raises.  The requests are aiohttp's, known by what the
listener reads of them.

A worker's skill filters reach the handler as they were given to `poll_task`
(`skill_filters_delivered`): the names are joined by commas and split again, and an
empty list, which is sent as an empty text, stays apart from no list. -/

namespace Rxon

/-! ## Requests and responses -/

/-- What can be raised inside the `try` of an endpoint, as its `except` clauses tell it
apart, with its text. -/
inductive HandlerError where
  | http (status : Nat) (text : Option String) (str : String)
  | permission (str : String)
  | rateLimit (e : RxonError)
  | value (str : String)
  | other (str : String)

/-- An exception of the serializing helpers. -/
def HandlerError.ofPy : PyError → HandlerError
  | .valueError msg => .value msg
  | .recursionError msg | .typeError msg | .attributeError msg => .other msg

/-- What the listener reads of a request; `json` is `request.json(loads=loads)`. -/
structure WebRequest where
  id : Nat
  workerId : Option String
  query : List (String × String)
  canReadBody : Bool
  json : Except HandlerError Json
  token : Option String
  workerIdHint : Option String
  version : Option String
  certIdentity : Option String

/-- The dict that is passed to the handler beside the payload. -/
abbrev Context := List (String × PyVal)

inductive Body (Bytes : Type) where
  | json (bytes : Bytes)
  | text (text : String)
  | empty

structure WebResponse (Bytes : Type) where
  status : Nat
  headers : List (String × String)
  body : Body Bytes

/-- What a handler returns: data, or a finished response, a `web.Response`. -/
inductive HandlerResult (Bytes : Type) where
  | data (v : PyVal)
  | finished (response : WebResponse Bytes)

/-- `bool(resp)`.  A response is true, whatever it holds. -/
def HandlerResult.truthy {Bytes : Type} : HandlerResult Bytes → Bool
  | .data v => v.truthy
  | .finished _ => true

@[simp]
theorem HandlerResult.truthy_data {Bytes : Type} (v : PyVal) :
    (HandlerResult.data v : HandlerResult Bytes).truthy = v.truthy := rfl

/-- The orchestrator's `handler(message_type, payload, context)`. -/
abbrev MessageHandler (Bytes : Type) :=
  String → PyVal → Context → Except HandlerError (HandlerResult Bytes)

/-- `None` or a string. -/
def optStr (s : Option String) : PyVal := (s.map PyVal.str).getD .none

/-- `_extract_context`. -/
def extractContext (request : WebRequest) : Context :=
  [("token", optStr request.token), ("worker_id_hint", optStr request.workerIdHint),
   ("protocol_version", optStr request.version), ("cert_identity", optStr request.certIdentity),
   ("transport", .str "http"), ("raw_request", .object request.id)]

section
variable (rt : Runtime rxonDecls)

/-- `web.json_response(to_dict(data), dumps=json_dumps, status=status)`. -/
def documentResponse (data : PyVal) (status : Nat) :
    Except PyError (WebResponse rt.orjson.Bytes) := do
  let document ← toDict rt data 0
  let text ← jsonDumps rt document.toPy
  return ⟨status, [("Content-Type", "application/json; charset=utf-8")], .json text⟩

/-- `_json_response(data, status=status)`. -/
def jsonResponse (data : HandlerResult rt.orjson.Bytes) (status : Nat) :
    Except PyError (WebResponse rt.orjson.Bytes) :=
  match data with
  | .finished response => .ok response
  | .data data => documentResponse rt data status

/-- `web.Response(status=status, text=text)`. -/
def textResponse (status : Nat) (text : String) : WebResponse rt.orjson.Bytes :=
  ⟨status, [("Content-Type", "text/plain; charset=utf-8")], .text text⟩

def errorBody (text : PyVal) : PyVal := .dict [("error", text)]

/-- `str(e)`. -/
def RxonError.str (e : RxonError) : PyVal :=
  match e.message with
  | .str s => .str s
  | message => .str (rt.pyStr message)

/-- The `except` clauses that every endpoint has. -/
def failureResponse : HandlerError → Except PyError (WebResponse rt.orjson.Bytes)
  | .http status text str =>
    jsonResponse rt (.data (errorBody (.str ((given text).getD str)))) status
  | .permission str => jsonResponse rt (.data (errorBody (.str str))) 403
  | .rateLimit e =>
    jsonResponse rt
      (.data (.dict [("error", e.str rt), ("code", (e.details.lookup "code").getD .none)])) 429
  | .value str => jsonResponse rt (.data (errorBody (.str str))) 400
  | .other str => jsonResponse rt (.data (errorBody (.str str))) 500

/-- The `try` of an endpoint. -/
def guarded (outcome : Except HandlerError (WebResponse rt.orjson.Bytes)) :
    Except PyError (WebResponse rt.orjson.Bytes) :=
  match outcome with
  | .ok response => .ok response
  | .error e => failureResponse rt e

/-- An endpoint: the payload is read, the handler called, and its result answered.
Without a handler the service is initializing. -/
def handle (handler : Option (MessageHandler rt.orjson.Bytes)) (message : String)
    (payload : Except HandlerError PyVal) (context : Context)
    (answer : HandlerResult rt.orjson.Bytes → Except PyError (WebResponse rt.orjson.Bytes))
    (initializing : Except PyError (WebResponse rt.orjson.Bytes)) :
    Except PyError (WebResponse rt.orjson.Bytes) :=
  guarded rt do
    let payload ← payload
    match handler with
    | some handler => (answer (← handler message payload context)).mapError HandlerError.ofPy
    | none => initializing.mapError HandlerError.ofPy

/-- `{"error": "Service is initializing"}` with status 503. -/
def initializingJson : Except PyError (WebResponse rt.orjson.Bytes) :=
  jsonResponse rt (.data (errorBody (.str "Service is initializing"))) 503

def initializingText : Except PyError (WebResponse rt.orjson.Bytes) :=
  .ok (textResponse rt 503 "Service is initializing")

/-- `resp or default`, answered. -/
def answerOr (default : PyVal) (resp : HandlerResult rt.orjson.Bytes) :
    Except PyError (WebResponse rt.orjson.Bytes) :=
  jsonResponse rt (if resp.truthy then resp else .data default) 200

/-- The document in the body of a request. -/
def WebRequest.payload (request : WebRequest) : Except HandlerError PyVal :=
  request.json.map Json.toPy

/-! ## The endpoints -/

variable (handler : Option (MessageHandler rt.orjson.Bytes)) (request : WebRequest)

def handleRegister : Except PyError (WebResponse rt.orjson.Bytes) :=
  handle rt handler "register" request.payload (extractContext request)
    (answerOr rt (.dict [("status", .str "registered")])) (initializingJson rt)

def handleResult : Except PyError (WebResponse rt.orjson.Bytes) :=
  handle rt handler "result" request.payload (extractContext request)
    (answerOr rt (.dict [("status", .str "ok")])) (initializingJson rt)

def handleEvent : Except PyError (WebResponse rt.orjson.Bytes) :=
  handle rt handler "event" request.payload (extractContext request)
    (answerOr rt (.dict [("status", .str "event_accepted")])) (initializingJson rt)

/-- `context["worker_id_hint"] = worker_id`. -/
def heartbeatContext : Context :=
  Assoc.set "worker_id_hint" (optStr request.workerId) (extractContext request)

def handleHeartbeat : Except PyError (WebResponse rt.orjson.Bytes) :=
  handle rt handler "heartbeat" (if request.canReadBody then request.payload else .ok .none)
    (heartbeatContext request) (jsonResponse rt · 200) (initializingText rt)

def handleSts : Except PyError (WebResponse rt.orjson.Bytes) :=
  handle rt handler "sts_token" (.ok .none) (extractContext request) (jsonResponse rt · 200)
    (initializingText rt)

def handleStsRefresh : Except PyError (WebResponse rt.orjson.Bytes) :=
  handle rt handler "sts_refresh" request.payload (extractContext request)
    (jsonResponse rt · 200) (initializingText rt)

/-! ## Polling -/

/-- `c.isspace()`. -/
def isSpace (c : Char) : Bool :=
  let n := c.toNat
  (9 ≤ n && n ≤ 13) || (28 ≤ n && n ≤ 32) || n = 0x85 || n = 0xA0 || n = 0x1680 ||
    (0x2000 ≤ n && n ≤ 0x200A) || n = 0x2028 || n = 0x2029 || n = 0x202F || n = 0x205F ||
    n = 0x3000

/-- `s.strip()`. -/
def strip (s : List Char) : List Char :=
  ((s.dropWhile isSpace).reverse.dropWhile isSpace).reverse

/-- `[s.strip() for s in value.split(",") if s.strip()]`. -/
def splitSkills (value : String) : List String :=
  (value.toList.splitOn ',').filterMap fun s =>
    if strip s = [] then none else some (String.ofList (strip s))

/-- The list of one filter, if the query has it. -/
def skillFilter (name : String) (context : Context) : Context :=
  match request.query.lookup name with
  | some value => Assoc.set name (.list ((splitSkills value).map .str)) context
  | none => context

/-- `float(request.query.get("timeout", 0))`, or 0 if that raises. -/
def pollTimeout (floatOf : String → Option PyFloat) : PyVal :=
  match request.query.lookup "timeout" with
  | some text => ((floatOf text).map PyVal.float).getD (.int 0)
  | none => .float (.finite Binary64.zero)

/-- The context of a poll. -/
def pollContext (floatOf : String → Option PyFloat) (workerId : String) : Context :=
  let context := extractContext request
  let context := Assoc.set "worker_id_hint" (.str workerId) context
  let context := Assoc.set "poll_timeout" (pollTimeout request floatOf) context
  let context := skillFilter request "available_skills" context
  skillFilter request "hot_skills" context

/-- What a poll is answered: the task, or nothing. -/
def answerPoll (task : HandlerResult rt.orjson.Bytes) :
    Except PyError (WebResponse rt.orjson.Bytes) :=
  if task.truthy then jsonResponse rt task 200 else .ok ⟨204, [], .empty⟩

/-- `_handle_poll`. -/
def handlePoll (floatOf : String → Option PyFloat) :
    Except PyError (WebResponse rt.orjson.Bytes) :=
  match given request.workerId with
  | none =>
    guarded rt
      ((jsonResponse rt (.data (errorBody (.str "worker_id required"))) 400).mapError .ofPy)
  | some workerId =>
    handle rt handler "poll" (.ok (.str workerId)) (pollContext request floatOf workerId)
      (answerPoll rt) (initializingText rt)

end

/-! ## The filters of a poll -/

theorem not_space_of_identifierChar {c : Char} (h : isIdentifierChar c = true) :
    isSpace c = false ∧ c ≠ ',' := by
  have hrange : 97 ≤ c.toNat ∧ c.toNat ≤ 122 ∨ 65 ≤ c.toNat ∧ c.toNat ≤ 90 ∨
      48 ≤ c.toNat ∧ c.toNat ≤ 57 ∨ c = '_' ∨ c = '-' := by
    simpa [isIdentifierChar, Char.le_def, UInt32.le_iff_toNat_le, or_assoc] using h
  have hbetween : 45 ≤ c.toNat ∧ c.toNat ≤ 122 := by
    rcases hrange with h | h | h | rfl | rfl
    · omega
    · omega
    · omega
    · decide
    · decide
  refine ⟨?_, fun hc => ?_⟩
  · simp [isSpace]
    omega
  · rw [hc] at hbetween
    exact absurd hbetween.1 (by decide)

theorem strip_identifier {s : String} (h : IsIdentifier s) : strip s.toList = s.toList := by
  have hdrop : ∀ cs : List Char, (∀ c ∈ cs, isSpace c = false) → cs.dropWhile isSpace = cs := by
    intro cs hcs
    cases cs with
    | nil => rfl
    | cons c cs =>
      exact List.dropWhile_cons_of_neg (by rw [hcs c List.mem_cons_self]; exact Bool.false_ne_true)
  have hspace : ∀ c ∈ s.toList, isSpace c = false := fun c hc =>
    (not_space_of_identifierChar (h.2.2 c hc)).1
  rw [strip, hdrop _ hspace, hdrop _ fun c hc => hspace c (List.mem_reverse.mp hc),
    List.reverse_reverse]

/-- **Splitting undoes joining** on identifiers; no name is lost, and the text of the
empty list is not read as one empty name. -/
theorem splitSkills_join {skills : List String} (h : ∀ s ∈ skills, IsIdentifier s) :
    splitSkills (",".intercalate skills) = skills := by
  -- the text of the empty list splits into one empty piece
  have hpieces : (",".intercalate skills).toList.splitOn ',' =
      if skills = [] then [[]] else skills.map String.toList := by
    split
    · rename_i hnil
      rw [hnil]
      rfl
    · rename_i hne
      rw [String.toList_intercalate]
      refine List.splitOn_intercalate ',' ?_ (by simpa using hne)
      refine List.forall_mem_map.mpr fun s hs hcomma => ?_
      exact (not_space_of_identifierChar ((h s hs).2.2 _ hcomma)).2 rfl
  rw [splitSkills, hpieces]
  split
  · rename_i hnil
    rw [hnil]
    rfl
  · rw [List.filterMap_map]
    refine (List.filterMap_congr fun s hs => ?_).trans (List.filterMap_some)
    have hne : s.toList ≠ [] := List.ne_nil_of_length_pos (by
      rw [String.length_toList]
      exact (h s hs).1)
    rw [Function.comp_apply, strip_identifier (h s hs), if_neg hne, String.ofList_toList]

theorem lookup_skillFilter (request : WebRequest) (name k : String) (context : Context) :
    (skillFilter request name context).lookup k =
      if k = name then ((request.query.lookup name).map fun value =>
        PyVal.list ((splitSkills value).map .str)).or (context.lookup k)
      else context.lookup k := by
  unfold skillFilter
  cases request.query.lookup name with
  | none => simp
  | some value =>
    by_cases hk : k = name
    · rw [hk, if_pos rfl]
      exact Assoc.lookup_set_self _ _ _
    · rw [if_neg hk]
      exact Assoc.lookup_set_ne hk _ _

/-- The context of a poll holds the filters of the query and no others. -/
theorem lookup_pollContext (request : WebRequest) (floatOf : String → Option PyFloat)
    (workerId : String) {name : String} (h : name = "available_skills" ∨ name = "hot_skills") :
    (pollContext request floatOf workerId).lookup name =
      (request.query.lookup name).map fun value => .list ((splitSkills value).map .str) := by
  -- nothing is set under the name before the filters are
  have hbase : (Assoc.set "poll_timeout" (pollTimeout request floatOf)
      (Assoc.set "worker_id_hint" (.str workerId) (extractContext request))).lookup name =
        none := by
    rcases h with rfl | rfl
    · rw [Assoc.lookup_set_ne (by decide), Assoc.lookup_set_ne (by decide)]
      rfl
    · rw [Assoc.lookup_set_ne (by decide), Assoc.lookup_set_ne (by decide)]
      rfl
  rw [pollContext, lookup_skillFilter, lookup_skillFilter, hbase]
  rcases h with rfl | rfl <;> simp

/-- A query parameter as text. -/
def queryText (pyStr : PyVal → String) : PyVal → String
  | .str s => s
  | v => pyStr v

/-- **The skill filters of `poll_task` reach the handler**: as the lists they were, and
only those that were given.  `hquery` says that the parameters arrive unchanged. -/
theorem skill_filters_delivered (rt : Runtime rxonDecls) (floatOf : String → Option PyFloat)
    {self : HttpTransport} {timeout : PyFloat} {availableSkills hotSkills : Option (List String)}
    (ha : ∀ skills ∈ availableSkills, ∀ s ∈ skills, IsIdentifier s)
    (hh : ∀ skills ∈ hotSkills, ∀ s ∈ skills, IsIdentifier s) {params : List (String × PyVal)}
    (hparams : (pollRequest self timeout availableSkills hotSkills).params = .dict params)
    {request : WebRequest} {workerId : String} (hworker : given request.workerId = some workerId)
    (hquery : ∀ k, request.query.lookup k = (params.lookup k).map (queryText rt.pyStr)) :
    ∃ context : Context,
      (∀ handler : MessageHandler rt.orjson.Bytes,
        handlePoll rt (some handler) request floatOf = guarded rt do
          (answerPoll rt (← handler "poll" (.str workerId) context)).mapError .ofPy) ∧
      context.lookup "available_skills" =
        availableSkills.map (fun skills => .list (skills.map .str)) ∧
      context.lookup "hot_skills" = hotSkills.map (fun skills => .list (skills.map .str)) := by
  have havailable : params.lookup "available_skills" =
      availableSkills.map fun skills => .str (",".intercalate skills) := by
    cases hparams
    cases availableSkills <;> cases hotSkills <;> rfl
  have hhot : params.lookup "hot_skills" =
      hotSkills.map fun skills => .str (",".intercalate skills) := by
    cases hparams
    cases availableSkills <;> cases hotSkills <;> rfl
  refine ⟨pollContext request floatOf workerId, fun handler => ?_, ?_, ?_⟩
  · rw [handlePoll, hworker]
    rfl
  · rw [lookup_pollContext _ _ _ (Or.inl rfl), hquery, havailable]
    cases availableSkills with
    | none => rfl
    | some skills => simp [queryText, splitSkills_join (ha skills rfl)]
  · rw [lookup_pollContext _ _ _ (Or.inr rfl), hquery, hhot]
    cases hotSkills with
    | none => rfl
    | some skills => simp [queryText, splitSkills_join (hh skills rfl)]

/-- A poll with both filters, the second one empty. -/
def filteredPoll : WebRequest where
  id := 0
  workerId := some "w-1"
  query := [("timeout", "30.0"), ("available_skills", "gpt-4,whisper_v3,gpt-4"),
    ("hot_skills", "")]
  canReadBody := false
  json := .error (.value "no body")
  token := some "secret"
  workerIdHint := some "w-1"
  version := some protocolVersion
  certIdentity := none

/-- A worker that offers two skills, one of them twice, and has none loaded. -/
theorem skill_filters_delivered_poll :
    ∃ context : Context,
      context.lookup "available_skills" =
        some (.list [.str "gpt-4", .str "whisper_v3", .str "gpt-4"]) ∧
      context.lookup "hot_skills" = some (.list []) := by
  have hskills : ∀ skills ∈ some ["gpt-4", "whisper_v3", "gpt-4"], ∀ s ∈ skills,
      IsIdentifier s := by
    rintro skills ⟨⟩ s hs
    simp only [List.mem_cons, List.not_mem_nil, or_false] at hs
    rcases hs with rfl | rfl | rfl
    · exact ⟨by decide, by decide, List.all_eq_true.mp (by decide)⟩
    · exact ⟨by decide, by decide, List.all_eq_true.mp (by decide)⟩
    · exact ⟨by decide, by decide, List.all_eq_true.mp (by decide)⟩
  have hparams : (pollRequest (HttpTransport.init "http://orchestrator" "w-1" "secret" none)
      (.finite (Binary64.ofInt 30)) (some ["gpt-4", "whisper_v3", "gpt-4"]) (some [])).params =
      .dict [("timeout", .float (.finite (Binary64.ofInt 30))),
        ("available_skills", .str "gpt-4,whisper_v3,gpt-4"), ("hot_skills", .str "")] := rfl
  let rt : Runtime rxonDecls := { Runtime.reference rxonDecls fun _ => "" with
    pyStr := fun _ => "30.0" }
  obtain ⟨context, -, havailable, hhot⟩ := skill_filters_delivered rt (fun _ => none) hskills
    (by rintro _ ⟨⟩ s hs; cases hs) hparams
    (show given filteredPoll.workerId = some "w-1" from by decide) fun k => by
      rw [← Assoc.lookup_mapVal]
      rfl
  exact ⟨context, havailable, hhot⟩

end Rxon
