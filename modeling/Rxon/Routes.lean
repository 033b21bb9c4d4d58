import Rxon.Cuts
import Rxon.RateLimits
import Rxon.SendResult

/-! # Routes

The routes of the listener (`setup_routes`) and the addresses that the worker's transport
asks for.  A pattern is a row of segments, one of which may stand for a worker's id; both
sides write their addresses from the same patterns.

No request fits two routes, so that their order does not matter (`routes_unambiguous`), and
a worker whose id is an identifier reaches the route that it means, whatever its id is
(`routed`). -/

namespace Rxon

/-! ## Patterns -/

/-- A pattern's segments; `none` is `{worker_id}`. -/
abbrev Pattern := List (Option String)

namespace Pattern

/-- `pattern.format(worker_id=worker_id)`. -/
def format (pattern : Pattern) (workerId : String) : String :=
  String.join (pattern.map fun part => "/" ++ part.getD workerId)

/-- What `{worker_id}` matches: `[^{}/]+`. -/
def isDynamic (s : List Char) : Bool := !s.isEmpty && s.all fun c => c ≠ '\x7b' && c ≠ '\x7d'

/-- The captured segments, if the pattern matches. -/
def captures : Pattern → List (List Char) → Option (List String)
  | [], [] => some []
  | some text :: pattern, s :: path => if text.toList = s then captures pattern path else none
  | none :: pattern, s :: path =>
    if isDynamic s then (captures pattern path).map (String.ofList s :: ·) else none
  | _, _ => none

/-- A path may match both. -/
def overlaps : Pattern → Pattern → Bool
  | [], [] => true
  | some text :: pattern, some text' :: pattern' =>
    decide (text = text') && overlaps pattern pattern'
  | _ :: pattern, _ :: pattern' => overlaps pattern pattern'
  | _, _ => false

end Pattern

/-- The segments of a path, behind its first slash. -/
def pathSegments (path : String) : List (List Char) := (path.toList.splitOn '/').tail

/-! ## The listener's routes -/

/-- What the endpoints of the listener do, but for the one that opens a websocket. -/
inductive Action where
  | worker (endpoint : Endpoint)
  | stsToken
  | stsRefresh
deriving DecidableEq

inductive Target where
  | action (action : Action)
  | websocket
deriving DecidableEq

structure Route where
  methods : List String
  pattern : Pattern
  target : Target
deriving DecidableEq

def endpointWorkerHeartbeat (workerId : String) : String :=
  workerApiPrefix ++ "/workers/" ++ workerId
def endpointWorkerEvents : String := workerApiPrefix ++ "/events"
def wsEndpoint : String := workerApiPrefix ++ "/ws"

/-- `setup_routes`; `add_get` also takes HEAD. -/
def routes : List Route :=
  [⟨["POST"], [some "_worker", some "workers", some "register"], .action (.worker .register)⟩,
   ⟨["HEAD", "GET"], [some "_worker", some "workers", none, some "tasks", some "next"],
     .action (.worker .poll)⟩,
   ⟨["POST"], [some "_worker", some "tasks", some "result"], .action (.worker .result)⟩,
   ⟨["PATCH"], [some "_worker", some "workers", none], .action (.worker .heartbeat)⟩,
   ⟨["POST"], [some "_worker", some "events"], .action (.worker .event)⟩,
   ⟨["POST"], [some "_worker", some "auth", some "token"], .action .stsToken⟩,
   ⟨["POST"], [some "_worker", some "auth", some "token", some "refresh"], .action .stsRefresh⟩,
   ⟨["HEAD", "GET"], [some "_worker", some "ws", none], .websocket⟩]

/-- What is captured, if the request is the route's. -/
def Route.captures (route : Route) (method path : String) : Option (List String) :=
  if method ∈ route.methods then route.pattern.captures (pathSegments path) else none

/-- The first route that the request fits. -/
def resolve (method path : String) : Option (Target × List String) :=
  routes.findSome? fun route => (route.captures method path).map fun ids => (route.target, ids)

/-! ## No request fits two routes -/

namespace Pattern
variable {pattern pattern' : Pattern} {part part' : Option String} {s : List Char}
  {path : List (List Char)} {ids ids' : List String}

/-- A segment matches a part. -/
def Takes (s : List Char) : Option String → Prop
  | some text => s = text.toList
  | none => isDynamic s = true

theorem captures_cons_iff : captures (part :: pattern) (s :: path) = some ids ↔
    Takes s part ∧ ∃ rest, captures pattern path = some rest ∧
      ids = if part.isNone then String.ofList s :: rest else rest := by
  cases part with
  | some text =>
    rw [captures]
    by_cases h : text.toList = s
    · simp [Takes, h]
    · rw [if_neg h]
      exact iff_of_false nofun fun ht => h ht.1.symm
  | none =>
    rw [captures]
    by_cases h : isDynamic s = true
    · simp [Takes, h, eq_comm]
    · rw [if_neg h]
      exact iff_of_false nofun fun ht => h ht.1

/-- Patterns that match one path overlap. -/
theorem overlaps_of_captures (h : pattern.captures path = some ids)
    (h' : pattern'.captures path = some ids') : pattern.overlaps pattern' = true := by
  induction path generalizing pattern pattern' ids ids' with
  | nil =>
    cases pattern with
    | nil =>
      cases pattern' with
      | nil => rfl
      | cons part' pattern' => cases part' <;> cases h'
    | cons part pattern => cases part <;> cases h
  | cons s path ih =>
    cases pattern with
    | nil => cases h
    | cons part pattern =>
      cases pattern' with
      | nil => cases h'
      | cons part' pattern' =>
        obtain ⟨hpart, rest, hrest, -⟩ := captures_cons_iff.mp h
        obtain ⟨hpart', rest', hrest', -⟩ := captures_cons_iff.mp h'
        have htail := ih hrest hrest'
        cases part with
        | none => cases part' <;> exact htail
        | some text =>
          cases part' with
          | none => exact htail
          | some text' =>
            have htext : text = text' := String.toList_injective (hpart.symm.trans hpart')
            simp [overlaps, htext, htail]

end Pattern

/-- The routes for one method have patterns that exclude each other. -/
theorem routes_exclusive : ∀ route ∈ routes, ∀ route' ∈ routes,
    (∃ method ∈ route.methods, method ∈ route'.methods) →
      route.pattern.overlaps route'.pattern = true → route = route' := by
  decide

/-- **No request fits two routes.** -/
theorem routes_unambiguous {route route' : Route} {method path : String} {ids ids' : List String}
    (hroute : route ∈ routes) (hroute' : route' ∈ routes)
    (h : route.captures method path = some ids) (h' : route'.captures method path = some ids') :
    route = route' := by
  unfold Route.captures at h h'
  split at h
  · rename_i hmethod
    split at h'
    · rename_i hmethod'
      exact routes_exclusive route hroute route' hroute' ⟨method, hmethod, hmethod'⟩
        (Pattern.overlaps_of_captures h h')
    · cases h'
  · cases h

/-- So the order of the routes does not matter. -/
theorem resolve_eq_some_iff {method path : String} {target : Target} {ids : List String} :
    resolve method path = some (target, ids) ↔
      ∃ route ∈ routes, route.captures method path = some ids ∧ route.target = target := by
  constructor
  · intro h
    obtain ⟨route, hroute, hfits⟩ := List.exists_of_findSome?_eq_some h
    obtain ⟨ids', hids, heq⟩ := Option.map_eq_some_iff.mp hfits
    cases heq
    exact ⟨route, hroute, hids, rfl⟩
  · rintro ⟨route, hroute, hids, rfl⟩
    have hsome : (resolve method path).isSome := by
      rw [resolve, List.findSome?_isSome_iff]
      exact ⟨route, hroute, by rw [hids]; rfl⟩
    obtain ⟨⟨target', ids'⟩, hfound⟩ := Option.isSome_iff_exists.mp hsome
    obtain ⟨route', hroute', hfits⟩ := List.exists_of_findSome?_eq_some hfound
    obtain ⟨ids'', hids'', heq⟩ := Option.map_eq_some_iff.mp hfits
    obtain rfl := routes_unambiguous hroute hroute' hids hids''
    rw [hids] at hids''
    cases hids''
    cases heq
    exact hfound

/-! ## Addresses -/

/-- The path of an address: what stands behind its authority. -/
def urlPath (url : String) : String :=
  String.ofList (((url.toList.dropWhile (· ≠ ':')).drop 3).dropWhile (· ≠ '/'))

/-- An address that is no more than a scheme and an authority. -/
def IsOrigin (base : String) : Prop :=
  ∃ scheme ∈ ["http", "https", "ws", "wss"], ∃ authority, base = scheme ++ "://" ++ authority ∧
    authority ≠ "" ∧ ∀ c ∈ authority.toList, c ∉ ['/', '?', '#']

theorem isOrigin_of_all {scheme authority : String}
    (hscheme : scheme ∈ ["http", "https", "ws", "wss"]) (hne : authority ≠ "")
    (h : authority.toList.all (fun c => c ∉ ['/', '?', '#']) = true) :
    IsOrigin (scheme ++ "://" ++ authority) := by
  refine ⟨scheme, hscheme, authority, rfl, hne, fun c hc => ?_⟩
  exact of_decide_eq_true (List.all_eq_true.mp h c hc)

namespace Target

/-- The method that the transport uses. -/
def method : Target → String
  | action (.worker .poll) | websocket => "GET"
  | action (.worker .heartbeat) => "PATCH"
  | action _ => "POST"

/-- Where the transport looks for it, behind its base address. -/
def endpoint (workerId : String) : Target → String
  | action (.worker .register) => endpointWorkerRegister
  | action (.worker .poll) => endpointTaskNext workerId
  | action (.worker .result) => endpointTaskResult
  | action (.worker .heartbeat) => endpointWorkerHeartbeat workerId
  | action (.worker .event) => endpointWorkerEvents
  | action .stsToken => stsTokenEndpoint
  | action .stsRefresh => stsRefreshEndpoint
  | websocket => wsEndpoint ++ "/" ++ workerId

/-- Whether its address holds the worker's id. -/
def named : Target → Bool
  | action (.worker .poll) | action (.worker .heartbeat) | websocket => true
  | _ => false

/-- What its route captures. -/
def ids (workerId : String) (target : Target) : List String :=
  if target.named then [workerId] else []

end Target

/-! ## Every request reaches its route -/

section
variable {workerId base path : String} {pattern : Pattern}

theorem toList_format (pattern : Pattern) (workerId : String) :
    (pattern.format workerId).toList =
      (pattern.map fun part => (part.getD workerId).toList).flatMap ('/' :: ·) := by
  rw [Pattern.format, String.toList_join, List.flatMap_map, List.flatMap_map]
  exact List.flatMap_congr fun part _ => String.toList_append

/-- The segments of a formatted pattern. -/
theorem pathSegments_format (htexts : ∀ text, some text ∈ pattern → '/' ∉ text.toList)
    (hid : '/' ∉ workerId.toList) :
    pathSegments (pattern.format workerId) =
      pattern.map fun part => (part.getD workerId).toList := by
  rw [pathSegments, toList_format, ← List.nil_append (List.flatMap _ _),
    List.splitOn_flatMap_cons List.not_mem_nil]
  · rfl
  · intro part hpart
    obtain ⟨⟨⟩ | text, hmem, rfl⟩ := List.mem_map.mp hpart
    · exact hid
    · exact htexts text hmem

/-- A pattern captures the id that it is formatted with. -/
theorem captures_format (pattern : Pattern) (hid : Pattern.isDynamic workerId.toList = true) :
    pattern.captures (pattern.map fun part => (part.getD workerId).toList) =
      some ((pattern.filter Option.isNone).map fun _ => workerId) := by
  induction pattern with
  | nil => rfl
  | cons part pattern ih =>
    rw [List.map_cons, Pattern.captures_cons_iff]
    cases part with
    | some text => exact ⟨rfl, _, ih, rfl⟩
    | none => exact ⟨hid, _, ih, by rw [Option.getD_none, String.ofList_toList]; rfl⟩

/-- The route is the one that the transport means with a target. -/
structure Route.For (route : Route) (target : Target) (workerId : String) : Prop where
  method : target.method ∈ route.methods
  meant : route.target = target
  endpoint : target.endpoint workerId = route.pattern.format workerId
  ids : ((route.pattern.filter Option.isNone).map fun _ => workerId) = target.ids workerId

theorem Target.exists_route (target : Target) (workerId : String) :
    ∃ route ∈ routes, route.For target workerId := by
  rcases target with ⟨⟨_ | _ | _ | _ | _⟩ | _ | _⟩ | _
  · exact ⟨routes[0], List.getElem_mem _, by decide, rfl, rfl, rfl⟩
  · refine ⟨routes[1], List.getElem_mem _, by decide, rfl, ?_, rfl⟩
    apply String.toList_injective
    rw [toList_format]
    simp [Target.endpoint, endpointTaskNext, workerApiPrefix, routes]
  · exact ⟨routes[2], List.getElem_mem _, by decide, rfl, rfl, rfl⟩
  · refine ⟨routes[3], List.getElem_mem _, by decide, rfl, ?_, rfl⟩
    apply String.toList_injective
    rw [toList_format]
    simp [Target.endpoint, endpointWorkerHeartbeat, workerApiPrefix, routes]
  · exact ⟨routes[4], List.getElem_mem _, by decide, rfl, rfl, rfl⟩
  · exact ⟨routes[5], List.getElem_mem _, by decide, rfl, rfl, rfl⟩
  · exact ⟨routes[6], List.getElem_mem _, by decide, rfl, rfl, rfl⟩
  · refine ⟨routes[7], List.getElem_mem _, by decide, rfl, ?_, rfl⟩
    apply String.toList_injective
    rw [toList_format]
    simp [Target.endpoint, wsEndpoint, workerApiPrefix, routes]

/-- The texts of the routes hold no slash. -/
theorem routes_plain : ∀ route ∈ routes, ∀ text, some text ∈ route.pattern → '/' ∉ text.toList := by
  have hall : ∀ route ∈ routes, ∀ part ∈ route.pattern,
      (part.all fun text => !text.toList.contains '/') = true := by
    decide
  intro route hroute text htext hslash
  have h := hall route hroute _ htext
  simp [hslash] at h

/-- The path of an address behind an origin. -/
theorem urlPath_append (hbase : IsOrigin base) (hpath : path.toList.head? = some '/') :
    urlPath (base ++ path) = path := by
  obtain ⟨scheme, hscheme, authority, rfl, -, hauthority⟩ := hbase
  obtain ⟨rest, hrest⟩ : ∃ rest, path.toList = '/' :: rest := List.head?_eq_some_iff.mp hpath
  have hcolon : (scheme ++ "://" ++ authority ++ path).toList.dropWhile (· ≠ ':') =
      ':' :: '/' :: '/' :: (authority.toList ++ path.toList) := by
    simp only [List.mem_cons, List.not_mem_nil, or_false] at hscheme
    rcases hscheme with rfl | rfl | rfl | rfl <;> simp [String.toList_append]
  have hslash : (authority.toList ++ path.toList).dropWhile (· ≠ '/') = path.toList := by
    rw [List.dropWhile_append_of_pos fun c hc => by
      simpa using fun h => hauthority c hc (by rw [h]; exact List.mem_cons_self), hrest]
    rfl
  rw [urlPath, hcolon]
  show String.ofList ((authority.toList ++ path.toList).dropWhile (· ≠ '/')) = path
  rw [hslash, String.ofList_toList]

theorem isDynamic_of_identifier (hid : IsIdentifier workerId) :
    Pattern.isDynamic workerId.toList = true ∧ '/' ∉ workerId.toList := by
  have hother : ∀ c, isIdentifierChar c = false → c ∉ workerId.toList := fun c hc hmem => by
    rw [hid.2.2 c hmem] at hc
    cases hc
  have hne : workerId.toList ≠ [] := List.ne_nil_of_length_pos (by
    rw [String.length_toList]
    exact hid.1)
  refine ⟨?_, hother '/' (by decide)⟩
  rw [Pattern.isDynamic, Bool.and_eq_true, List.all_eq_true]
  refine ⟨by simpa using hne, fun c hc => ?_⟩
  have hopen : c ≠ '\x7b' := fun h => hother '\x7b' (by decide) (h ▸ hc)
  have hclose : c ≠ '\x7d' := fun h => hother '\x7d' (by decide) (h ▸ hc)
  simp [hopen, hclose]

theorem head_format (hne : pattern ≠ []) (workerId : String) :
    (pattern.format workerId).toList.head? = some '/' := by
  obtain ⟨part, rest, rfl⟩ := List.exists_cons_of_ne_nil hne
  rw [toList_format]
  rfl

/-- Behind an origin, the endpoint of a target resolves to it. -/
theorem resolve_endpoint (hbase : IsOrigin base) (hid : IsIdentifier workerId) (target : Target) :
    resolve target.method (urlPath (base ++ target.endpoint workerId)) =
      some (target, target.ids workerId) := by
  obtain ⟨hdynamic, hslash⟩ := isDynamic_of_identifier hid
  obtain ⟨route, hroute, hfor⟩ := target.exists_route workerId
  have hne : ∀ route ∈ routes, route.pattern ≠ [] := by decide
  rw [hfor.endpoint, urlPath_append hbase (head_format (hne route hroute) workerId),
    resolve_eq_some_iff]
  refine ⟨route, hroute, ?_, hfor.meant⟩
  rw [Route.captures, if_pos hfor.method, pathSegments_format (routes_plain route hroute) hslash,
    captures_format route.pattern hdynamic, hfor.ids]

/-- The slashes behind an origin are stripped, and nothing else is. -/
theorem rstripSlash_origin (hbase : IsOrigin base) (n : Nat) :
    rstripSlash (base ++ String.ofList (List.replicate n '/')) = base := by
  obtain ⟨scheme, -, authority, rfl, hne, hauthority⟩ := hbase
  obtain ⟨front, last, hlast⟩ : ∃ front last, authority.toList = front ++ [last] := by
    have hlist : authority.toList ≠ [] := by simpa using hne
    exact ⟨_, _, (List.dropLast_append_getLast hlist).symm⟩
  have hslash : last ≠ '/' := fun h => hauthority '/' (by simp [hlast, h]) List.mem_cons_self
  apply String.toList_injective
  simp [rstripSlash, String.toList_append, hlast, List.reverse_append, hslash]

/-- **Every request reaches the route that it is meant for, and no other**: whatever an
identifier the worker's id is, and whether or not slashes stand behind the orchestrator's
address, the path resolves to the target, with the id where the route has one. -/
theorem routed (hbase : IsOrigin base) (hid : IsIdentifier workerId) (n : Nat) (token : String)
    (session : Option Nat) (target : Target) {self : HttpTransport}
    (hself : self =
      HttpTransport.init (base ++ String.ofList (List.replicate n '/')) workerId token session) :
    resolve target.method (urlPath (self.baseUrl ++ target.endpoint self.workerId)) =
        some (target, target.ids workerId) ∧
      ∀ route ∈ routes, ∀ ids,
        route.captures target.method (urlPath (self.baseUrl ++ target.endpoint self.workerId)) =
            some ids →
          route.target = target ∧ ids = target.ids workerId := by
  have hresolve := resolve_endpoint hbase hid target
  rw [hself, HttpTransport.init, rstripSlash_origin hbase n]
  refine ⟨hresolve, fun route hroute ids hids => ?_⟩
  obtain ⟨route', hroute', hids', rfl⟩ := resolve_eq_some_iff.mp hresolve
  obtain rfl := routes_unambiguous hroute hroute' hids hids'
  rw [hids] at hids'
  exact ⟨rfl, Option.some.inj hids'⟩

/-- A worker may be called `register`. -/
theorem routed_register :
    resolve "PATCH" (urlPath ("http://orchestrator" ++ "/_worker/workers/register")) =
      some (.action (.worker .heartbeat), ["register"]) :=
  have horigin : IsOrigin ("http" ++ "://" ++ "orchestrator") :=
    isOrigin_of_all (by decide) (by decide) (by decide)
  have hid : IsIdentifier "register" := ⟨by decide, by decide, List.all_eq_true.mp (by decide)⟩
  (routed horigin hid 1 "token" none (.action (.worker .heartbeat)) rfl).1

end
end Rxon
