import Rxon.MockTransport
import Rxon.Routes

/-! # Making a transport from an address

`create_transport` looks at the scheme of an address.  A websocket scheme is accepted as a
synonym of the HTTP scheme, which the transport keeps; where it opens a websocket, it puts the
other one back.  Both replace the first occurrence of a text, and both find it in the scheme
(`created_transport_routed`). -/

namespace Rxon

/-! ## Replacing a text once -/

/-- `s.replace(old, new, 1)`, on characters. -/
def replaceFirst (old new : List Char) : List Char → List Char
  | [] => if old = [] then new else []
  | c :: cs =>
    if old.isPrefixOf (c :: cs) then new ++ (c :: cs).drop old.length
    else c :: replaceFirst old new cs

def replaceOnce (s old new : String) : String :=
  String.ofList (replaceFirst old.toList new.toList s.toList)

/-- `s.startswith(start)`. -/
def startsWith (s start : String) : Bool := start.toList.isPrefixOf s.toList

theorem startsWith_iff {s start : String} :
    startsWith s start = true ↔ ∃ rest, s = start ++ rest := by
  rw [startsWith, List.isPrefixOf_iff_prefix]
  constructor
  · rintro ⟨rest, hrest⟩
    refine ⟨String.ofList rest, String.toList_injective ?_⟩
    rw [String.toList_append, String.toList_ofList, hrest]
  · rintro ⟨rest, rfl⟩
    rw [String.toList_append]
    exact List.prefix_append ..

theorem replaceOnce_start (old new rest : String) :
    replaceOnce (old ++ rest) old new = new ++ rest := by
  apply String.toList_injective
  rw [replaceOnce, String.toList_ofList, String.toList_append, String.toList_append]
  have hprefix : old.toList.isPrefixOf (old.toList ++ rest.toList) = true :=
    List.isPrefixOf_iff_prefix.mpr (List.prefix_append ..)
  cases h : old.toList ++ rest.toList with
  | nil =>
    obtain ⟨hold, hrest⟩ := List.append_eq_nil_iff.mp h
    rw [replaceFirst, if_pos hold, hrest, List.append_nil]
  | cons c cs => rw [replaceFirst, ← h, if_pos hprefix, List.drop_left]

/-- Slashes are stripped behind a text that does not end in one. -/
theorem rstripSlash_append {start : String} (hstart : start.toList.getLast? ≠ some '/')
    (rest : String) : rstripSlash (start ++ rest) = start ++ rstripSlash rest := by
  have hkeep : start.toList.reverse.dropWhile (· = '/') = start.toList.reverse := by
    rw [List.dropWhile_eq_self_iff]
    intro hlen hslash
    refine hstart ?_
    rw [← List.head?_reverse, List.head?_eq_getElem?, List.getElem?_eq_getElem hlen]
    exact congrArg some (of_decide_eq_true hslash)
  apply String.toList_injective
  simp only [rstripSlash, String.toList_append, String.toList_ofList, List.reverse_append,
    List.dropWhile_append, hkeep]
  split <;> rename_i hempty
  · rw [List.isEmpty_iff.mp hempty]
    simp
  · simp

/-! ## The factory -/

inductive Created where
  | http (self : HttpTransport)
  | mock (self : MockTransport)

/-- `create_transport`, with the session among its `kwargs`. -/
def createTransport (url workerId token : String) (session : Option Nat) :
    Except PyError Created :=
  if ["http://", "https://", "ws://", "wss://"].any (startsWith url) then
    let baseUrl := if startsWith url "ws" then replaceOnce url "ws" "http" else url
    .ok (.http (HttpTransport.init baseUrl workerId token session))
  else if startsWith url "mock://" then .ok (.mock (MockTransport.init workerId token))
  else .error (.valueError s!"Unsupported transport scheme in URL: {url}")

/-- Where `listen_for_commands` connects to. -/
def HttpTransport.wsUrl (self : HttpTransport) : String :=
  replaceOnce self.baseUrl "http" "ws" ++ wsEndpoint ++ "/" ++ self.workerId

/-- One of the four schemes of an address. -/
structure Scheme where
  socket : Bool
  secure : Bool

def Scheme.text (scheme : Scheme) : String :=
  (if scheme.socket then "ws" else "http") ++ (if scheme.secure then "s" else "")

section
variable {workerId : String}

theorem Scheme.mem (scheme : Scheme) : scheme.text ∈ ["http", "https", "ws", "wss"] := by
  obtain ⟨_ | _, _ | _⟩ := scheme <;> decide

/-- The accepted addresses are those with one of the schemes. -/
theorem accepts_iff {url : String} :
    ["http://", "https://", "ws://", "wss://"].any (startsWith url) = true ↔
      ∃ (scheme : Scheme) (rest : String), url = scheme.text ++ "://" ++ rest := by
  rw [List.any_eq_true]
  constructor
  · rintro ⟨start, hstart, hurl⟩
    obtain ⟨rest, rfl⟩ := startsWith_iff.mp hurl
    simp only [List.mem_cons, List.not_mem_nil, or_false] at hstart
    rcases hstart with rfl | rfl | rfl | rfl
    · exact ⟨⟨false, false⟩, rest, rfl⟩
    · exact ⟨⟨false, true⟩, rest, rfl⟩
    · exact ⟨⟨true, false⟩, rest, rfl⟩
    · exact ⟨⟨true, true⟩, rest, rfl⟩
  · rintro ⟨scheme, rest, rfl⟩
    refine ⟨scheme.text ++ "://", ?_, startsWith_iff.mpr ⟨rest, rfl⟩⟩
    obtain ⟨_ | _, _ | _⟩ := scheme <;> decide

/-- An HTTP transport is given the HTTP scheme, as secure as the one in the address. -/
theorem createTransport_scheme (scheme : Scheme) (rest workerId token : String)
    (session : Option Nat) :
    createTransport (scheme.text ++ "://" ++ rest) workerId token session =
      .ok (.http (HttpTransport.init (Scheme.text ⟨false, scheme.secure⟩ ++ "://" ++ rest)
        workerId token session)) := by
  rw [createTransport, if_pos (accepts_iff.mpr ⟨scheme, rest, rfl⟩)]
  obtain ⟨_ | _, secure⟩ := scheme
  · have hno : startsWith (Scheme.text ⟨false, secure⟩ ++ "://" ++ rest) "ws" = false := by
      have hchars : startsWith (Scheme.text ⟨false, secure⟩ ++ "://" ++ rest) "ws" =
          ['w', 's'].isPrefixOf ('h' :: 't' :: 't' :: 'p' ::
            ((if secure then "s" else "").toList ++ "://".toList ++ rest.toList)) := by
        simp [startsWith, Scheme.text, String.toList_append]
      rw [hchars]
      rfl
    rw [hno]
    rfl
  · have htext : Scheme.text ⟨true, secure⟩ ++ "://" ++ rest =
        "ws" ++ ((if secure then "s" else "") ++ "://" ++ rest) := by
      simp [Scheme.text, String.append_assoc]
    rw [htext, if_pos (startsWith_iff.mpr ⟨_, rfl⟩), replaceOnce_start]
    simp [Scheme.text, String.append_assoc]

/-- And its websockets are opened with the websocket scheme, as secure. -/
theorem wsUrl_init (secure : Bool) (rest workerId token : String) (session : Option Nat) :
    (HttpTransport.init (Scheme.text ⟨false, secure⟩ ++ "://" ++ rest) workerId token
        session).wsUrl =
      rstripSlash (Scheme.text ⟨true, secure⟩ ++ "://" ++ rest) ++
        Target.websocket.endpoint workerId := by
  have hbase : ∀ socket, Scheme.text ⟨socket, secure⟩ ++ "://" ++ rest =
      (if socket then "ws" else "http") ++ ((if secure then "s" else "") ++ "://" ++ rest) := by
    intro socket
    simp [Scheme.text, String.append_assoc]
  have hstrip : ∀ socket : Bool, rstripSlash ((if socket then "ws" else "http") ++
      ((if secure then "s" else "") ++ "://" ++ rest)) =
        (if socket then "ws" else "http") ++
          rstripSlash ((if secure then "s" else "") ++ "://" ++ rest) := by
    intro socket
    refine rstripSlash_append ?_ _
    cases socket <;> decide
  rw [hbase, hbase, hstrip true]
  show replaceOnce (rstripSlash (_ ++ _)) "http" "ws" ++ wsEndpoint ++ "/" ++ workerId = _
  rw [hstrip false]
  show replaceOnce ("http" ++ _) "http" "ws" ++ wsEndpoint ++ "/" ++ workerId = _
  rw [replaceOnce_start]
  simp [Target.endpoint, String.append_assoc]

/-- **What is made from an address reaches the listener there.**  Any of the four schemes, any
authority and any number of slashes behind it give a transport whose requests, and whose
websocket, go to that authority, as securely as the address says, and to the route that each
is meant for. -/
theorem created_transport_routed (scheme : Scheme) {authority : String} (hne : authority ≠ "")
    (hauthority : ∀ c ∈ authority.toList, c ∉ ['/', '?', '#']) (hid : IsIdentifier workerId)
    (n : Nat) (token : String) (session : Option Nat) :
    ∃ self, createTransport
        (scheme.text ++ "://" ++ (authority ++ String.ofList (List.replicate n '/')))
        workerId token session = .ok (.http self) ∧
      self.baseUrl = Scheme.text ⟨false, scheme.secure⟩ ++ "://" ++ authority ∧
      self.wsUrl = Scheme.text ⟨true, scheme.secure⟩ ++ "://" ++ authority ++
        Target.websocket.endpoint workerId ∧
      (∀ target : Target, resolve target.method
          (urlPath (self.baseUrl ++ target.endpoint self.workerId)) =
        some (target, target.ids workerId)) ∧
      resolve "GET" (urlPath self.wsUrl) = some (.websocket, [workerId]) := by
  have horigin : ∀ socket, IsOrigin (Scheme.text ⟨socket, scheme.secure⟩ ++ "://" ++ authority) :=
    fun socket => ⟨_, Scheme.mem _, authority, rfl, hne, hauthority⟩
  have hbase : rstripSlash (Scheme.text ⟨false, scheme.secure⟩ ++ "://" ++
      (authority ++ String.ofList (List.replicate n '/'))) =
        Scheme.text ⟨false, scheme.secure⟩ ++ "://" ++ authority := by
    rw [← String.append_assoc, rstripSlash_origin (horigin false)]
  have hws : rstripSlash (Scheme.text ⟨true, scheme.secure⟩ ++ "://" ++
      (authority ++ String.ofList (List.replicate n '/'))) =
        Scheme.text ⟨true, scheme.secure⟩ ++ "://" ++ authority := by
    rw [← String.append_assoc, rstripSlash_origin (horigin true)]
  refine ⟨_, createTransport_scheme scheme _ workerId token session, hbase, ?_, ?_, ?_⟩
  · rw [wsUrl_init, hws]
  · intro target
    show resolve target.method (urlPath (rstripSlash _ ++ target.endpoint workerId)) = _
    rw [hbase]
    exact resolve_endpoint (horigin false) hid target
  · rw [wsUrl_init, hws]
    exact resolve_endpoint (horigin true) hid .websocket

/-- A secure websocket address with a slash behind it. -/
theorem created_transport_routed_wss : ∃ self,
    createTransport "wss://orchestrator/" "w-1" "token" none = .ok (.http self) ∧
      self.baseUrl = "https://orchestrator" ∧ self.wsUrl = "wss://orchestrator/_worker/ws/w-1" := by
  have hauthority : ∀ c ∈ "orchestrator".toList, c ∉ ['/', '?', '#'] :=
    fun c hc => of_decide_eq_true (List.all_eq_true.mp
      (show "orchestrator".toList.all (fun c => c ∉ ['/', '?', '#']) = true by decide) c hc)
  have hid : IsIdentifier "w-1" := ⟨by decide, by decide, List.all_eq_true.mp (by decide)⟩
  obtain ⟨self, hcreated, hbase, hws, -, -⟩ :=
    created_transport_routed ⟨true, true⟩ (by decide) hauthority hid 1 "token" none
  exact ⟨self, hcreated, hbase, hws⟩

end
end Rxon
