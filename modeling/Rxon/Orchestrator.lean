import Rxon.Rotation
import Rxon.Tokens

/-! # Concurrent refreshes

Any number of `_request` calls on one transport, and the orchestrator they talk to: it
answers an expired access token with 401, accepts each refresh token once, grants a
fresh pair for it and honours what it has issued.  A message is under way between the
moment it is sent and the moment its receiver takes it up, and everything interleaves.

Each call that sees a 401 starts a refresh of its own, with whatever refresh token the
transport then holds.  Two that start with the same token compete, and the loser raises
`RxonAuthError` although the transport holds a valid token by then
(`overlapping_refresh_raises`).  As long as no call starts a refresh while another one
is under way with the stored token, no call raises it (`solo_refresh_never_raises`): the
refresh tokens then rotate as single-use tokens do (`Rotation.never_refused`). -/

namespace Rxon
open Interleaving

/-! ## The orchestrator -/

/-- What the orchestrator knows of tokens: the access tokens it refuses, those it has
issued, the refresh tokens it would still accept, and all refresh tokens so far. -/
structure Orchestrator where
  expired : List String
  issued : List String
  usable : List String
  seen : List String

/-- An answer on its way: to a resource request, or to a refresh. -/
inductive Reply where
  | resource (head : Head)
  | granted (access refresh : String) (body : Json)
  | refused (status : Nat)

/-- The access token in the headers is one of these. -/
def Bears (tokens : List String) (headers : List (String × PyVal)) : Prop :=
  ∃ a ∈ tokens, headers.lookup authHeaderWorker = some (.str a)

/-- The refresh token that a request carries. -/
def Request.refreshToken? (sent : Request) : Option String :=
  match sent.json with
  | .dict kvs =>
    match kvs.lookup "refresh_token" with
    | some (.str r) => some r
    | _ => none
  | _ => none

section
variable (rt : Runtime rxonDecls) (floatOf : String → Option PyFloat)

/-- How the orchestrator answers what a suspended call has sent: 401 exactly to an
expired access token; a fresh pair to a refresh token it has not accepted yet, or to the
request of a transport that has none; an error to a refresh token it has accepted
before. -/
inductive Serves : Orchestrator → Point → Reply → Orchestrator → Prop
  | resource (o : Orchestrator) (frame : Frame) (sent : Request) (head : Head)
      (h : head.status = 401 ↔ Bears o.expired sent.headers) :
      Serves o (.response frame sent) (.resource head) o
  | granted (o : Orchestrator) (outer : Option Frame) (sent : Request) (access refresh : String)
      (body : Json) (husable : ∀ r, sent.refreshToken? = some r → r ∈ o.usable)
      (haccess : access ∉ o.expired) (hfresh : refresh ∉ o.seen) (hne : refresh ≠ "")
      (hbody : Grants rt body.toPy (.str access, .str refresh)) :
      Serves o (.refresh outer sent) (.granted access refresh body)
        { o with
          issued := access :: o.issued
          usable := refresh :: o.usable.filter fun r => sent.refreshToken? ≠ some r
          seen := refresh :: o.seen }
  | refused (o : Orchestrator) (outer : Option Frame) (sent : Request) (r : String)
      (status : Nat) (hr : sent.refreshToken? = some r) (hused : r ∉ o.usable)
      (hstatus : status ≠ 200) :
      Serves o (.refresh outer sent) (.refused status) o

/-! ## The system -/

/-- The transport with its calls, the answers on their way to them, and the
orchestrator. -/
structure World where
  client : Program.Config HttpTransport Point
  replies : Nat → Option Reply
  orchestrator : Orchestrator

/-- What a call may find when it is resumed: the answer on its way to it.  Requests for
resources may fail in any way; refreshes do not fail but by the orchestrator's word. -/
def Delivers (reply : Option Reply) : Point → Answer → Prop
  | .response _ _, .head head => reply = some (.resource head)
  | .refresh _ _, .head head =>
    (∃ a r d, reply = some (.granted a r d) ∧ head.status = 200) ∨
      reply = some (.refused head.status) ∧ head.status ≠ 200
  | .refreshBody _ _, .json data => ∃ a r, reply = some (.granted a r data)
  | .refresh _ _, .fault _ | .refreshBody _ _, .fault _ | .refreshLeave _ _, .fault _ => False
  | _, _ => True

/-- An answer is gone once it is taken up; that of a refresh has a body to be read. -/
def Point.keeps (point : Point) (reply : Option Reply) : Option Reply :=
  match point with
  | .refresh _ _ => reply
  | _ => none

namespace World

inductive Event where
  | call (args : RequestArgs)
  | serve (coroutine : Nat) (reply : Reply)
  | resume (coroutine : Nat) (answer : Answer)
  | expire (access : String)

/-- One step of the system: a call is made, the orchestrator answers a request, a call
goes on with what it was answered, or an access token expires that the orchestrator has
not promised to honour. -/
inductive Step : World → Event → World → Prop
  | call (w : World) (args : RequestArgs) (c : Program.Config HttpTransport Point)
      (h : (transportProgram rt floatOf).Step w.client (.start (.request args)) c) :
      Step w (.call args) { w with client := c }
  | serve (w : World) (i : Nat) (point : Point) (reply : Reply) (o : Orchestrator)
      (hi : w.client.points[i]? = some point) (hfree : w.replies i = none)
      (h : Serves rt w.orchestrator point reply o) :
      Step w (.serve i reply)
        { w with replies := Function.update w.replies i (some reply), orchestrator := o }
  | resume (w : World) (i : Nat) (point : Point) (answer : Answer)
      (c : Program.Config HttpTransport Point) (hi : w.client.points[i]? = some point)
      (hd : Delivers (w.replies i) point answer)
      (h : (transportProgram rt floatOf).Step w.client (.resume i answer) c) :
      Step w (.resume i answer)
        { w with
          client := c
          replies := Function.update w.replies i (point.keeps (w.replies i)) }
  | expire (w : World) (access : String) (h : access ∉ w.orchestrator.issued) :
      Step w (.expire access)
        { w with orchestrator := { w.orchestrator with
            expired := access :: w.orchestrator.expired } }

/-- A connected transport that has made no call, with the tokens of one response or
none but the access token it was built with. -/
structure Started (w : World) : Prop where
  idle : w.client.points = []
  silent : ∀ i, w.replies i = none
  connected : w.client.shared.session.isSome
  header : w.client.shared.header? = some w.client.shared.token
  stored : w.client.shared.refreshTokenValue = .none ∨
    ∃ r ∈ w.orchestrator.usable, w.client.shared.refreshTokenValue = .str r
  seen : w.orchestrator.usable ⊆ w.orchestrator.seen
  issued : w.orchestrator.issued = []

/-- The next event makes a call start a refresh: its first attempt is answered 401. -/
def StartsRefresh (w : World) : Event → Prop
  | .resume i (.head head) =>
    head.status = 401 ∧ ∃ frame sent, w.client.points[i]? = some (.response frame sent) ∧
      frame.attempt = 0
  | _ => False

/-- A refresh with the stored refresh token is under way. -/
def StoredInFlight (w : World) : Prop :=
  ∃ point ∈ w.client.points, ∃ sent r, point.stance = .refreshes sent ∧
    sent.refreshToken? = some r ∧ w.client.shared.refreshTokenValue = .str r

/-- A refresh starts only while no other one is under way with the stored token. -/
def SoloRefresh (w : World) (e : Event) : Prop := w.StartsRefresh e → ¬ w.StoredInFlight

/-- The steps that respect `SoloRefresh`. -/
def SoloStep (w : World) (e : Event) (w' : World) : Prop := Step rt floatOf w e w' ∧ w.SoloRefresh e

end World

end

/-! ## Refresh tokens rotate -/

/-- How far the refresh of a suspended call has come, given the answer on its way. -/
def Point.stage (point : Point) (reply : Option Reply) : Rotation.Stage String :=
  match point.stance, reply with
  | .refreshes sent, none => .asked sent.refreshToken?
  | .refreshes sent, some (.granted _ r _) => .granted sent.refreshToken? r
  | _, _ => .idle

/-- The refresh token that a refresh would be started with. -/
def HttpTransport.storedToken? (self : HttpTransport) : Option String :=
  match self.refreshTokenValue with
  | .str r => if r = "" then none else some r
  | _ => none

/-- The calls' refreshes, one stage for each call. -/
def stages (points : List Point) (replies : Nat → Option Reply) (i : Nat) :
    Rotation.Stage String :=
  match points[i]? with
  | some point => point.stage (replies i)
  | none => .idle

/-- The refresh tokens of the system: the transport is the store, the orchestrator the
issuer and every call an agent. -/
def World.rotation (w : World) : Rotation.State Nat String where
  store := w.client.shared.storedToken?
  usable := { r | r ∈ w.orchestrator.usable }
  seen := { r | r ∈ w.orchestrator.seen }
  stage := stages w.client.points w.replies

section
variable {rt : Runtime rxonDecls} {floatOf : String → Option PyFloat}
  {point point' : Point} {answer : Answer} {self self' : HttpTransport} {reply : Option Reply}
  {points : List Point} {replies : Nat → Option Reply} {i : Nat}

theorem Point.stage_of_not (h : ∀ sent, point.stance ≠ .refreshes sent) :
    point.stage reply = .idle := by
  unfold Point.stage
  split
  · rename_i hs
    exact absurd hs (h _)
  · rename_i hs
    exact absurd hs (h _)
  · rfl

/-- What a refresh sends is the token it finds. -/
theorem refreshToken?_refreshRequest (self : HttpTransport) :
    (refreshRequest self).refreshToken? = self.storedToken? := by
  unfold refreshRequest HttpTransport.storedToken?
  cases hv : self.refreshTokenValue with
  | str r =>
    by_cases hr : r = "" <;> simp [PyVal.truthy, hr, Request.refreshToken?]
  | none | bool | int | float | list | dict | set | struct | dataclass | enum | uuid | datetime
  | coded | object =>
    dsimp only
    split <;> rfl

theorem stages_set (hi : points[i]? = some point) (reply : Option Reply) :
    stages (points.set i point') (Function.update replies i reply) =
      Function.update (stages points replies) i (point'.stage reply) := by
  have hlt : i < points.length := (List.getElem?_eq_some_iff.mp hi).1
  funext j
  unfold stages
  by_cases hj : j = i
  · subst hj
    simp [hlt]
  · rw [List.getElem?_set_ne (Ne.symm hj), Function.update_of_ne hj, Function.update_of_ne hj]

theorem stages_serve (hi : points[i]? = some point) (reply : Option Reply) :
    stages points (Function.update replies i reply) =
      Function.update (stages points replies) i (point.stage reply) := by
  obtain ⟨hlt, hget⟩ := List.getElem?_eq_some_iff.mp hi
  rw [← stages_set hi, ← hget, List.set_getElem_self]

theorem stages_eq (hi : points[i]? = some point) :
    stages points replies i = point.stage (replies i) := by
  rw [stages, hi]

/-- A call that has just started is no refresh. -/
theorem stages_append (h : ∀ sent, point.stance ≠ .refreshes sent) :
    stages (points ++ [point]) replies = stages points replies := by
  funext j
  unfold stages
  rcases Nat.lt_trichotomy j points.length with hj | rfl | hj
  · rw [List.getElem?_append_left hj]
  · rw [List.getElem?_concat_length, List.getElem?_eq_none (Nat.le_refl _)]
    exact Point.stage_of_not h
  · rw [List.getElem?_eq_none (by simp; omega), List.getElem?_eq_none (by omega)]

/-- The body of a refresh, where a step reads one. -/
def refreshOffer : Point → Answer → Option PyVal
  | .refreshBody _ _, .json data => some data.toPy
  | _, _ => none

/-- A call that is no registration takes over what a refresh reads, and nothing else. -/
theorem resume_takes_refresh (h : resume rt floatOf point answer self = some (point', self'))
    (hplain : ∀ frame, point.frame? = some frame → frame.registering = false) :
    Takes rt (refreshOffer point answer) self self' := by
  have hnot : ∀ frame value, point = .leave frame (.return value) → frame.registering ≠ true :=
    fun frame value hp => by simp [hplain frame (by rw [hp]; rfl)]
  have htakes := resume_takes h fun frame value hp hreg => absurd hreg (hnot frame value hp)
  unfold offered at htakes
  split at htakes
  · exact htakes
  · rename_i frame value
    rw [if_neg (hnot frame value rfl)] at htakes
    exact htakes
  · rename_i hbody hleave
    unfold refreshOffer
    split
    · exact absurd rfl (hbody _ _ _ rfl)
    · exact htakes

end

/-! ## What the system keeps -/

section
variable {rt : Runtime rxonDecls} {floatOf : String → Option PyFloat}
  {c c' : Program.Config HttpTransport Point} {args : RequestArgs}

/-- A call that is made leaves the transport alone, and is the last of the calls. -/
theorem call_cases (h : (transportProgram rt floatOf).Step c (.start (.request args)) c') :
    c' = ⟨c.shared, c.points ++ [(startRequest args false c.shared).1]⟩ := by
  have hshared : ((transportProgram rt floatOf).start (.request args) c.shared).2 = c.shared :=
    start_shared ..
  rw [Program.start_cases h, hshared]
  rfl

end

namespace World

/-- What holds of the system however its calls interleave: there is a session, the
header carries the access token, no call is a registration, an answer is on its way to a
call only, and what was granted is honoured. -/
structure Base (rt : Runtime rxonDecls) (w : World) : Prop where
  connected : w.client.shared.session.isSome
  header : w.client.shared.header? = some w.client.shared.token
  plain : ∀ point ∈ w.client.points, ∀ frame, point.frame? = some frame →
    frame.registering = false
  silent : ∀ i, w.client.points.length ≤ i → w.replies i = none
  granted : ∀ i a r d, w.replies i = some (.granted a r d) →
    Grants rt d.toPy (.str a, .str r) ∧ a ∈ w.orchestrator.issued ∧ r ≠ ""
  honoured : ∀ a ∈ w.orchestrator.issued, a ∉ w.orchestrator.expired

variable {rt : Runtime rxonDecls} {floatOf : String → Option PyFloat} {w w' : World} {e : Event}

theorem Started.base (h : w.Started) : w.Base rt where
  connected := h.connected
  header := h.header
  plain point hp := by rw [h.idle] at hp; cases hp
  silent i _ := h.silent i
  granted i a r d hi := by rw [h.silent i] at hi; cases hi
  honoured a ha := by rw [h.issued] at ha; cases ha

theorem Serves.issued {o o' : Orchestrator} {point : Point} {reply : Reply}
    (h : Serves rt o point reply o') :
    (∀ a ∈ o.issued, a ∈ o'.issued) ∧ o'.expired = o.expired ∧
      (∀ a ∈ o'.issued, a ∈ o.issued ∨ a ∉ o.expired) ∧
      ∀ a r d, reply = .granted a r d →
        Grants rt d.toPy (.str a, .str r) ∧ a ∈ o'.issued ∧ r ≠ "" := by
  cases h with
  | resource | refused =>
    exact ⟨fun _ => id, rfl, fun _ => Or.inl, fun _ _ _ h => by cases h⟩
  | granted outer sent access refresh body husable haccess hfresh hne hbody =>
    refine ⟨fun _ => List.mem_cons_of_mem _, rfl, fun a ha => ?_, fun a r d h => ?_⟩
    · rcases List.mem_cons.mp ha with rfl | ha
      · exact Or.inr haccess
      · exact Or.inl ha
    · cases h
      exact ⟨hbody, List.mem_cons_self .., hne⟩

theorem Base.call (h : w.Base rt) (args : RequestArgs) :
    Base rt { w with client :=
      ⟨w.client.shared, w.client.points ++ [(startRequest args false w.client.shared).1]⟩ } := by
  refine ⟨h.connected, h.header, fun p hp frame hf => ?_, fun i hi => ?_, h.granted, h.honoured⟩
  · rcases List.mem_append.mp hp with hp | hp
    · exact h.plain p hp frame hf
    · rw [List.mem_singleton.mp hp] at hf
      unfold startRequest at hf
      dsimp only at hf
      split at hf <;> cases hf
      rfl
  · rw [List.length_append, List.length_singleton] at hi
    exact h.silent i (by omega)

theorem Base.serve (h : w.Base rt) {i : Nat} {point : Point} {reply : Reply} {o : Orchestrator}
    (hi : w.client.points[i]? = some point) (hserves : Serves rt w.orchestrator point reply o) :
    Base rt { w with
      replies := Function.update w.replies i (some reply), orchestrator := o } := by
  obtain ⟨hissued, hexpired, hnew, hgrant⟩ := Serves.issued hserves
  refine ⟨h.connected, h.header, h.plain, fun j hj => ?_, fun j a r d hj => ?_, fun a ha => ?_⟩
  · have hlt := (List.getElem?_eq_some_iff.mp hi).1
    dsimp only at hj ⊢
    rw [Function.update_of_ne (by omega)]
    exact h.silent j hj
  · dsimp only at hj
    by_cases hji : j = i
    · subst hji
      rw [Function.update_self] at hj
      exact hgrant a r d (Option.some.inj hj)
    · rw [Function.update_of_ne hji] at hj
      obtain ⟨hg, ha, hne⟩ := h.granted j a r d hj
      exact ⟨hg, hissued a ha, hne⟩
  · rw [hexpired]
    rcases hnew a ha with ha | ha
    · exact h.honoured a ha
    · exact ha

theorem Base.resume (h : w.Base rt) {i : Nat} {point point' : Point} {answer : Answer}
    {shared : HttpTransport} (hi : w.client.points[i]? = some point)
    (hr : Rxon.resume rt floatOf point answer w.client.shared = some (point', shared)) :
    Base rt { w with
      client := ⟨shared, w.client.points.set i point'⟩
      replies := Function.update w.replies i (point.keeps (w.replies i)) } := by
  have hmem := List.mem_of_getElem? hi
  have htakes := resume_takes_refresh hr (h.plain point hmem)
  refine ⟨by rw [htakes.session]; exact h.connected, htakes.header h.header,
    fun p hp frame hf => ?_, fun j hj => ?_, fun j a r d hj => ?_, h.honoured⟩
  · rcases List.mem_or_eq_of_mem_set hp with hp | rfl
    · exact h.plain p hp frame hf
    · obtain ⟨frame', hf', -, -, hreg⟩ := resume_frame hr hf
      rw [hreg]
      exact h.plain point hmem frame' hf'
  · have hlt := (List.getElem?_eq_some_iff.mp hi).1
    simp only [List.length_set] at hj ⊢
    rw [Function.update_of_ne (by omega)]
    exact h.silent j hj
  · -- an answer that is kept is the one that was on its way
    dsimp only at hj
    by_cases hji : j = i
    · subst hji
      rw [Function.update_self] at hj
      unfold Point.keeps at hj
      split at hj
      · exact h.granted j a r d hj
      · cases hj
    · rw [Function.update_of_ne hji] at hj
      exact h.granted j a r d hj

theorem Base.step (h : w.Base rt) (hstep : Step rt floatOf w e w') : w'.Base rt := by
  cases hstep with
  | call args c hc =>
    rw [call_cases hc]
    exact h.call args
  | serve i point reply o hi hfree hserves => exact h.serve hi hserves
  | resume i point answer c hi hd hc =>
    obtain ⟨point', shared, hr, rfl⟩ := Program.resume_cases hi hc
    exact h.resume hi hr
  | expire access hnot =>
    refine ⟨h.connected, h.header, h.plain, h.silent, h.granted, fun a ha hmem => ?_⟩
    rcases List.mem_cons.mp hmem with rfl | hmem
    · exact hnot ha
    · exact h.honoured a ha hmem

/-! ## The refresh tokens of the system rotate -/

theorem Started.rotation (h : w.Started) : Rotation.Initial w.rotation where
  idle i := by
    change stages w.client.points w.replies i = .idle
    rw [stages, h.idle]
    rfl
  store t ht := by
    change w.client.shared.storedToken? = some t at ht
    rcases h.stored with hnone | ⟨r, hr, hstr⟩
    · rw [HttpTransport.storedToken?, hnone] at ht
      cases ht
    · rw [HttpTransport.storedToken?, hstr] at ht
      dsimp only at ht
      split at ht
      · cases ht
      · cases ht
        exact hr
  seen t ht := h.seen ht

/-- A refresh that starts with a token finds nobody under way with it. -/
theorem solo_ask {i : Nat} (h : ¬ w.StoredInFlight) : Rotation.Solo w.rotation (.ask i) := by
  intro _ _ t ht j hj
  apply h
  change w.client.shared.storedToken? = some t at ht
  change (stages w.client.points w.replies j).carried? = some t at hj
  unfold stages at hj
  split at hj
  · rename_i point hpoint
    have hstored : w.client.shared.refreshTokenValue = .str t := by
      unfold HttpTransport.storedToken? at ht
      split at ht
      · split at ht
        · cases ht
        · cases ht
          assumption
      · cases ht
    unfold Point.stage at hj
    split at hj
    · exact ⟨point, List.mem_of_getElem? hpoint, _, t, ‹_›, hj, hstored⟩
    · exact ⟨point, List.mem_of_getElem? hpoint, _, t, ‹_›, hj, hstored⟩
    · cases hj
  · cases hj

/-- Nothing happens to the rotation where the stored token and the stage of the call stay
as they are. -/
theorem rotation_same {i : Nat} {point point' : Point} {shared : HttpTransport}
    {reply : Option Reply} (hi : w.client.points[i]? = some point)
    (hstore : shared.storedToken? = w.client.shared.storedToken?)
    (hpoint : point'.stage reply = point.stage (w.replies i)) :
    rotation { w with
      client := ⟨shared, w.client.points.set i point'⟩
      replies := Function.update w.replies i reply } = w.rotation := by
  have hstage : stages _ w.replies i = _ := stages_eq hi
  simp only [rotation, stages_set hi, hstore, hpoint, ← hstage, Function.update_eq_self]

/-- A call that starts a refresh asks with the stored token. -/
theorem rotation_ask {i : Nat} {frame : Frame} {sent : Request} {head : Head}
    (hi : w.client.points[i]? = some (.response frame sent)) :
    Rotation.Step w.rotation (.ask i) (rotation { w with
      client := ⟨warnVersion head w.client.shared,
        w.client.points.set i
          (.refresh (some frame) (refreshRequest (warnVersion head w.client.shared)))⟩
      replies := Function.update w.replies i none }) := by
  have hstage : stages _ w.replies i = _ := stages_eq hi
  obtain ⟨b, hwarn⟩ := warnVersion_eq head w.client.shared
  have hidle := hstage.trans (Point.stage_of_not (by simp [Point.stance]))
  convert Rotation.Step.ask w.rotation i hidle using 1
  simp only [rotation, stages_set hi, Point.stage, Point.stance, refreshToken?_refreshRequest]
  rw [hwarn]
  rfl

/-- A call that takes over what it was granted adopts it. -/
theorem rotation_adopt (hb : w.Base rt) {i : Nat} {outer : Option Frame} {sent : Request}
    {a r : String} {data : Json} {point' : Point} {shared : HttpTransport}
    (hi : w.client.points[i]? = some (.refreshBody outer sent))
    (hreply : w.replies i = some (.granted a r data))
    (hbody : onRefreshBody rt outer data w.client.shared = (point', shared)) :
    Rotation.Step w.rotation (.adopt i) (rotation { w with
      client := ⟨shared, w.client.points.set i point'⟩
      replies := Function.update w.replies i none }) := by
  have hstage : stages _ w.replies i = _ := stages_eq hi
  rw [hreply] at hstage
  obtain ⟨hgrants, -, hne⟩ := hb.granted i a r data hreply
  obtain ⟨head, fs, hrun⟩ := onRefreshBody_of_grants outer w.client.shared hgrants
  rw [hrun] at hbody
  obtain ⟨rfl, rfl⟩ := Prod.ext_iff.mp hbody
  convert Rotation.Step.adopt w.rotation i sent.refreshToken? r hstage using 1
  simp only [rotation, stages_set hi]
  congr 1
  simp [HttpTransport.storedToken?, HttpTransport.withPair, hne]

/-- What a step of a call does to the rotation: it asks, it adopts, or nothing. -/
theorem rotation_resume (hb : w.Base rt) {i : Nat} {point point' : Point} {answer : Answer}
    {shared : HttpTransport} (hi : w.client.points[i]? = some point)
    (hd : Delivers (w.replies i) point answer)
    (hr : resume rt floatOf point answer w.client.shared = some (point', shared))
    (hsolo : w.SoloRefresh (.resume i answer)) {w' : World}
    (hw' : w' = { w with
      client := ⟨shared, w.client.points.set i point'⟩
      replies := Function.update w.replies i (point.keeps (w.replies i)) }) :
    w'.rotation = w.rotation ∨ ∃ l, Rotation.SoloStep w.rotation l w'.rotation := by
  subst hw'
  have htakes := resume_takes_refresh hr (hb.plain point (List.mem_of_getElem? hi))
  cases resume_advances hr with
  | refresh h401 hfirst hsession =>
    -- the call starts a refresh, and no other one with its token is under way
    have hfree := hsolo ⟨h401, _, _, hi, hfirst⟩
    exact Or.inr ⟨.ask i, rotation_ask hi, solo_ask hfree⟩
  | granted h200 =>
    left
    apply rotation_same hi rfl
    rcases hd with ⟨a, r, d, hreply, -⟩ | ⟨-, hne⟩
    · rw [hreply]
      rfl
    · exact absurd h200 hne
  | refused hne =>
    left
    apply rotation_same hi rfl
    rcases hd with ⟨a, r, d, -, h200⟩ | ⟨hreply, -⟩
    · exact absurd h200 hne
    · rw [hreply]
      rfl
  | adopted hbody =>
    right
    obtain ⟨a, r, hreply⟩ := hd
    exact ⟨.adopt i, rotation_adopt hb hi hreply hbody, fun _ h => by cases h⟩
  | refreshLeft =>
    left
    apply rotation_same hi rfl
    rw [Point.stage_of_not fun sent => by rw [stance_refreshOver]; exact fun h => by cases h]
    rfl
  | @leaveFault _ exit _ =>
    left
    apply rotation_same hi rfl
    cases exit <;> rfl
  | refreshFault | refreshBodyFault | refreshLeaveFault => exact absurd hd id
  | _ =>
    -- a step that has nothing to do with refreshes
    left
    obtain ⟨b, hself⟩ := htakes.of_none
    have hstore := congrArg HttpTransport.storedToken? hself
    exact rotation_same hi hstore rfl

/-- A call that is made is no refresh yet. -/
theorem rotation_call (args : RequestArgs) :
    rotation { w with client :=
      ⟨w.client.shared, w.client.points ++ [(startRequest args false w.client.shared).1]⟩ } =
      w.rotation := by
  have hpoint : ∀ sent, (startRequest args false w.client.shared).1.stance ≠
      .refreshes sent := by
    intro sent hsent
    unfold startRequest at hsent
    dsimp only at hsent
    split at hsent <;> cases hsent
  simp only [rotation, stages_append hpoint]

/-- The orchestrator's answer to a refresh is that of the issuer. -/
theorem rotation_serve {i : Nat} {point : Point} {reply : Reply} {o : Orchestrator}
    (hi : w.client.points[i]? = some point) (hfree : w.replies i = none)
    (hserves : Serves rt w.orchestrator point reply o) {w' : World}
    (hw' : w' = { w with
      replies := Function.update w.replies i (some reply), orchestrator := o }) :
    w'.rotation = w.rotation ∨ ∃ l, Rotation.SoloStep w.rotation l w'.rotation := by
  subst hw'
  have hstage : stages _ w.replies i = _ := stages_eq hi
  rw [hfree] at hstage
  cases hserves with
  | resource frame sent head h401 =>
    left
    simp only [rotation, stages_serve hi]
    rw [show (Point.response frame sent).stage (some (.resource head)) =
      stages w.client.points w.replies i from hstage.symm, Function.update_eq_self]
  | granted outer sent access refresh body husable haccess hfresh hne hbody =>
    right
    refine ⟨.accept i refresh, ?_, fun _ h => by cases h⟩
    have hstep := Rotation.Step.accept w.rotation i sent.refreshToken? refresh hstage
      (fun t ht => husable t ht) hfresh
    convert hstep using 1
    simp only [rotation, stages_serve hi]
    congr 1
    · ext t
      simp
    · ext t
      simp
  | refused outer sent r status hr hused hstatus =>
    right
    refine ⟨.refuse i, ?_, fun _ h => by cases h⟩
    have hstep := Rotation.Step.refuse w.rotation i r
      (hstage.trans (by simp [Point.stage, Point.stance, hr])) hused
    convert hstep using 1
    simp only [rotation, stages_serve hi]
    rfl

/-- **The system refines the rotation of single-use tokens**: seen through
`World.rotation`, each of its solo steps is a solo step of the rotation or none. -/
theorem rotation_step (hb : w.Base rt) (h : SoloStep rt floatOf w e w') :
    w'.rotation = w.rotation ∨ ∃ l, Rotation.SoloStep w.rotation l w'.rotation := by
  obtain ⟨hstep, hsolo⟩ := h
  cases hstep with
  | call args c hc =>
    left
    rw [call_cases hc]
    exact rotation_call args
  | serve i point reply o hi hfree hserves => exact rotation_serve hi hfree hserves rfl
  | resume i point answer c hi hd hc =>
    obtain ⟨point', shared, hr, rfl⟩ := Program.resume_cases hi hc
    exact rotation_resume hb hi hd hr hsolo rfl
  | expire access hnot => exact Or.inl rfl

variable (rt floatOf) in
/-- Along solo steps the refresh tokens are rotated safely: no refresh that is under way
will be refused. -/
theorem run_safe {w₀ : World} {es : List Event} (h0 : w₀.Started)
    (h : Run (SoloStep rt floatOf) w₀ es w) : w.Base rt ∧ Rotation.Safe w.rotation := by
  obtain ⟨hb, ls, hrun⟩ := Run.simulation rotation (Base rt) (fun _ _ _ hb hs => hb.step hs.1)
    (fun _ _ _ hb hs => rotation_step hb hs) h0.base h
  exact ⟨hb, Rotation.never_refused h0.rotation hrun⟩

end World

/-! ## No call raises RxonAuthError -/

/-- What makes a call go on without `RxonAuthError`: it sends a second attempt with an
issued token only, an answer of 401 on its way to it comes from an expired token, its
refresh will not be refused, and after a refresh the transport's token is an issued
one. -/
def Point.Sound (o : Orchestrator) (self : HttpTransport) (reply : Option Reply) : Point → Prop
  | .response frame sent =>
    (frame.attempt ≠ 0 → Bears o.issued sent.headers) ∧
      ∀ head, reply = some (.resource head) → head.status = 401 → Bears o.expired sent.headers
  | .leave _ (.raise (.error e)) => e.kind ≠ .auth
  | .leave _ (.resend headers) => Bears o.issued headers
  | .refresh outer _ => outer.isSome ∧ ∀ status, reply ≠ some (.refused status)
  | .refreshBody outer _ => outer.isSome
  | .refreshLeave outer res =>
    outer.isSome ∧ (∃ head fs, res = some (.struct head fs)) ∧
      ∃ a ∈ o.issued, self.token = .str a
  | .done (.raised e) => e.kind ≠ .auth
  | _ => True

section
variable {rt : Runtime rxonDecls} {floatOf : String → Option PyFloat} {o o' : Orchestrator}
  {point point' : Point} {answer : Answer} {self self' : HttpTransport} {reply : Option Reply}

theorem Bears.mono {tokens tokens' : List String} {headers : List (String × PyVal)}
    (h : Bears tokens headers) (hs : tokens ⊆ tokens') : Bears tokens' headers := by
  obtain ⟨a, ha, hl⟩ := h
  exact ⟨a, hs ha, hl⟩

/-- A call stays sound while others run and more tokens are issued or expire. -/
theorem Point.Sound.mono (h : point.Sound o self reply) (hissued : o.issued ⊆ o'.issued)
    (hexpired : o.expired ⊆ o'.expired)
    (htoken : (∃ a ∈ o.issued, self.token = .str a) → ∃ a ∈ o'.issued, self'.token = .str a) :
    point.Sound o' self' reply := by
  unfold Point.Sound at h ⊢
  split
  · exact ⟨fun hne => (h.1 hne).mono hissued, fun head hr h401 => (h.2 head hr h401).mono hexpired⟩
  · exact h
  · exact h.mono hissued
  · exact h
  · exact h
  · exact ⟨h.1, h.2.1, htoken h.2.2⟩
  · exact h
  · trivial

theorem sound_surface (args : RequestArgs) (f : Fault) :
    (Point.done (surface args (.fault f))).Sound o self reply := by
  cases f with
  | contentType | client | timeout | value | unexpected => exact fun h => by cases h
  | interrupted => trivial

/-- The orchestrator honours what it has issued. -/
theorem not_bears_both {headers : List (String × PyVal)}
    (hhonoured : ∀ a ∈ o.issued, a ∉ o.expired) (hi : Bears o.issued headers)
    (he : Bears o.expired headers) : False := by
  obtain ⟨a, ha, hl⟩ := hi
  obtain ⟨b, hb, hl'⟩ := he
  rw [hl] at hl'
  cases hl'
  exact hhonoured a ha hb

/-- Every step of a call keeps it sound. -/
theorem resume_sound (h : point.Sound o self reply) (hd : Delivers reply point answer)
    (hr : resume rt floatOf point answer self = some (point', self'))
    (hconnected : self.session.isSome) (hheader : self.header? = some self.token)
    (hhonoured : ∀ a ∈ o.issued, a ∉ o.expired)
    (hgranted : ∀ a r d, reply = some (.granted a r d) →
      Grants rt d.toPy (.str a, .str r) ∧ a ∈ o.issued) :
    point'.Sound o self' (point.keeps reply) := by
  cases resume_advances hr with
  | @unauthorized frame sent head h401 hnone =>
    -- a second attempt carries an issued token, and those are honoured
    rw [show reply = _ from hd] at h
    by_cases h0 : frame.attempt = 0
    · rw [Option.isNone_iff_eq_none.mp (hnone h0)] at hconnected
      cases hconnected
    · exact (not_bears_both hhonoured (h.1 h0) (h.2 head rfl h401)).elim
  | refresh => exact ⟨rfl, fun _ hreply => by rw [hd] at hreply; cases hreply⟩
  | granted => exact h.1
  | refused hne =>
    rcases hd with ⟨a, r, d, -, h200⟩ | ⟨hreply, -⟩
    · exact absurd h200 hne
    · exact absurd hreply (h.2 _)
  | adopted hbody =>
    obtain ⟨a, r, hreply⟩ := hd
    obtain ⟨hgrants, ha⟩ := hgranted a r _ hreply
    obtain ⟨head, fs, hrun⟩ := onRefreshBody_of_grants _ self hgrants
    rw [hrun] at hbody
    cases hbody
    exact ⟨h, ⟨head, fs, rfl⟩, a, ha, rfl⟩
  | refreshLeft =>
    obtain ⟨hframe, ⟨head, fs, hres⟩, a, ha, htoken⟩ := h
    obtain ⟨frame, rfl⟩ := Option.isSome_iff_exists.mp hframe
    cases hres
    refine ⟨a, ha, ?_⟩
    rw [← htoken]
    exact hheader
  | resent => exact ⟨fun _ => h, fun _ hreply => by cases hreply⟩
  | raised =>
    rename_i e
    cases e with
    | fault f => exact sound_surface ..
    | error e => exact h
  | lost | leaveFault => exact sound_surface ..
  | limitDocument he =>
    rw [he]
    exact fun hkind => by cases hkind
  | refreshFault | refreshBodyFault | refreshLeaveFault => exact absurd hd id
  | limitText | fallback | errorText => exact fun hkind => by cases hkind
  | _ => trivial

namespace World
variable {w w' : World} {e : Event}

/-- Every call of the system is sound. -/
def AllSound (w : World) : Prop :=
  ∀ i point, w.client.points[i]? = some point →
    Point.Sound w.orchestrator w.client.shared (w.replies i) point

/-- A token that a step takes over is an issued one. -/
theorem resume_token (hb : w.Base rt) {i : Nat} {point point' : Point} {answer : Answer}
    {shared : HttpTransport} (hi : w.client.points[i]? = some point)
    (hd : Delivers (w.replies i) point answer)
    (hr : resume rt floatOf point answer w.client.shared = some (point', shared))
    (h : ∃ a ∈ w.orchestrator.issued, w.client.shared.token = .str a) :
    ∃ a ∈ w.orchestrator.issued, shared.token = .str a := by
  rcases resume_takes_refresh hr (hb.plain point (List.mem_of_getElem? hi)) with
    ⟨b, rfl⟩ | ⟨v, pair, hv, hgrants, rfl⟩
  · exact h
  · unfold refreshOffer at hv
    split at hv
    · cases hv
      obtain ⟨a, r, hreply⟩ := hd
      obtain ⟨hg, ha, -⟩ := hb.granted i a r _ hreply
      exact ⟨a, ha, congrArg Prod.fst (hgrants.unique hg)⟩
    · cases hv

theorem AllSound.call (h : w.AllSound) (hb : w.Base rt) (args : RequestArgs) :
    AllSound { w with client :=
      ⟨w.client.shared, w.client.points ++ [(startRequest args false w.client.shared).1]⟩ } := by
  intro i p hp
  dsimp only at hp ⊢
  rcases Nat.lt_or_ge i w.client.points.length with hlt | hge
  · rw [List.getElem?_append_left hlt] at hp
    exact h i p hp
  · -- the new call, to which no answer is on its way
    rw [hb.silent i hge]
    rw [List.getElem?_append_right hge] at hp
    rw [List.mem_singleton.mp (List.mem_of_getElem? hp)]
    unfold startRequest
    dsimp only
    split
    · exact fun h => by cases h
    · exact ⟨fun h => absurd rfl h, fun _ h => by cases h⟩

theorem AllSound.serve (h : w.AllSound) (hsafe : Rotation.Safe w.rotation) {i : Nat}
    {point : Point} {reply : Reply} {o : Orchestrator}
    (hi : w.client.points[i]? = some point) (hfree : w.replies i = none)
    (hserves : Serves rt w.orchestrator point reply o) :
    AllSound { w with
      replies := Function.update w.replies i (some reply), orchestrator := o } := by
  obtain ⟨hissued, hexpired, -, -⟩ := Serves.issued hserves
  intro j p hp
  dsimp only at hp ⊢
  by_cases hji : j = i
  · subst hji
    rw [hi] at hp
    cases hp
    have hold := h j point hi
    rw [Function.update_self]
    cases hserves with
    | resource frame sent head h401 =>
      refine ⟨hold.1, fun head' hhead hstatus => ?_⟩
      cases hhead
      exact h401.mp hstatus
    | granted outer => exact ⟨hold.1, fun _ h => by cases h⟩
    | refused outer sent r status hr hused hstatus =>
      -- what was asked with is usable, so it is not refused
      have hstage : stages _ w.replies j = _ := stages_eq hi
      rw [hfree, show (Point.refresh outer sent).stage none = .asked (some r) by
        simp [Point.stage, Point.stance, hr]] at hstage
      exact absurd (hsafe.asked j r hstage) hused
  · rw [Function.update_of_ne hji]
    exact (h j p hp).mono hissued (fun a ha => hexpired ▸ ha) fun ⟨a, ha, ht⟩ =>
      ⟨a, hissued a ha, ht⟩

theorem AllSound.step (h : w.AllSound) (hb : w.Base rt) (hsafe : Rotation.Safe w.rotation)
    (hstep : Step rt floatOf w e w') : w'.AllSound := by
  cases hstep with
  | call args c hc =>
    rw [call_cases hc]
    exact h.call hb args
  | serve i point reply o hi hfree hserves => exact h.serve hsafe hi hfree hserves
  | resume i point answer c hi hd hc =>
    obtain ⟨point', shared, hr, rfl⟩ := Program.resume_cases hi hc
    intro j p hp
    dsimp only at hp ⊢
    by_cases hji : j = i
    · subst hji
      rw [List.getElem?_set_self (List.getElem?_eq_some_iff.mp hi).1] at hp
      cases hp
      rw [Function.update_self]
      exact resume_sound (h j point hi) hd hr hb.connected hb.header hb.honoured
        fun a r d hreply => ⟨(hb.granted j a r d hreply).1, (hb.granted j a r d hreply).2.1⟩
    · rw [List.getElem?_set_ne (Ne.symm hji)] at hp
      rw [Function.update_of_ne hji]
      exact (h j p hp).mono (fun _ => id) (fun _ => id) (resume_token hb hi hd hr)
  | expire access hnot =>
    intro i p hp
    exact Point.Sound.mono (h i p hp) (fun _ => id) (List.subset_cons_self ..) id

variable (rt floatOf) in
/-- **No call raises `RxonAuthError` as long as refreshes are solo.**  However the calls
interleave, if no call starts a refresh while another one is under way with the stored
refresh token, every call that ends ends without that error. -/
theorem solo_refresh_never_raises {w₀ w : World} {es : List Event} (h0 : w₀.Started)
    (h : Run (SoloStep rt floatOf) w₀ es w) :
    ∀ (i : Nat) (e : RxonError), w.client.points[i]? = some (.done (.raised e)) →
      e.kind ≠ .auth := by
  have hsound : Run (SoloStep rt floatOf) w₀ es w ∧ w.AllSound := by
    refine Run.invariant (fun es w => Run (SoloStep rt floatOf) w₀ es w ∧ w.AllSound) ?_ ?_ h
    · refine ⟨.nil, fun i point hi => ?_⟩
      rw [h0.idle] at hi
      cases hi
    · intro es w e w' ⟨hrun, hsound⟩ hstep
      obtain ⟨hb, hsafe⟩ := run_safe rt floatOf h0 hrun
      exact ⟨.snoc hrun hstep, hsound.step hb hsafe hstep.1⟩
  intro i e hi
  exact hsound.2 i _ hi

end World
end

/-! ## Two runs -/

/-- A response of which nothing matters but the status. -/
def Head.bare (status : Nat) : Head := ⟨status, none, none, none⟩

/-- The token response of the runs below. -/
def grantBody (access refresh : String) : Json :=
  .obj [("access_token", .str access), ("refresh_token", .str refresh),
    ("expires_in", .int 300), ("worker_id", .str "worker")]

def pollArgs : RequestArgs := ⟨"GET", "/_worker/workers/worker/tasks/next", .none, .none⟩

namespace World

/-- A transport whose access token has expired and whose refresh token is unused. -/
def expiredToken : World where
  client :=
    ⟨(HttpTransport.init "http://orchestrator" "worker" "token" (some 0)).withPair
      (.str "old", .str "first"), []⟩
  replies _ := none
  orchestrator := { expired := ["old"], issued := [], usable := ["first"], seen := ["first"] }

theorem started_expiredToken : Started expiredToken where
  idle := rfl
  silent _ := rfl
  connected := rfl
  header := rfl
  stored := Or.inr ⟨"first", List.mem_singleton_self _, rfl⟩
  seen := List.Subset.refl _
  issued := rfl

theorem bears_old : Bears expiredToken.orchestrator.expired expiredToken.client.shared.headers :=
  ⟨"old", List.mem_singleton_self _, rfl⟩

theorem not_bears_set {access : String} (h : access ≠ "old") {headers : List (String × PyVal)} :
    ¬ Bears expiredToken.orchestrator.expired
      (Assoc.set authHeaderWorker (.str access) headers) := by
  rintro ⟨a, ha, hl⟩
  rw [Assoc.lookup_set_self] at hl
  rw [List.mem_singleton.mp ha] at hl
  exact h (PyVal.str.inj (Option.some.inj hl))

/-- No request of a resource is a refresh. -/
theorem not_storedInFlight_responses {self : HttpTransport} {frame frame' : Frame}
    {sent sent' : Request} {replies : Nat → Option Reply} {o : Orchestrator} :
    ¬ StoredInFlight ⟨⟨self, [.response frame sent, .response frame' sent']⟩, replies, o⟩ := by
  rintro ⟨point, hp, _, _, hstance, _⟩
  rcases List.mem_pair.mp hp with rfl | rfl <;> cases hstance

/-- Two calls see the 401 of the expired token, one after the other.  Each refreshes the tokens,
the second one with the refresh token that the first one was granted, and both return. -/
theorem solo_refresh_never_raises_both :
    ∃ es w, Run (SoloStep (Runtime.reference rxonDecls fun _ => "") fun _ => none)
        expiredToken es w ∧
      w.client.points = [.done (.returned .none), .done (.returned .none)] ∧
      w.client.shared.token = .str "newer" ∧
      ∀ (i : Nat) (e : RxonError), w.client.points[i]? = some (.done (.raised e)) →
        e.kind ≠ .auth := by
  have hrun : ∃ es w, Run (SoloStep (Runtime.reference rxonDecls fun _ => "") fun _ => none)
      expiredToken es w ∧
      w.client.points = [.done (.returned .none), .done (.returned .none)] ∧
      w.client.shared.token = .str "newer" := by
    refine ⟨_, _, .snoc (.snoc (.snoc (.snoc (.snoc (.snoc (.snoc (.snoc (.snoc (.snoc (.snoc
      (.snoc (.snoc (.snoc (.snoc (.snoc (.snoc (.snoc (.snoc (.snoc (.snoc (.snoc .nil
      -- both requests and their 401s
      ⟨.call _ pollArgs _ rfl, fun h => h.elim⟩) ⟨.call _ pollArgs _ rfl, fun h => h.elim⟩)
      ⟨.serve _ 0 _ _ _ rfl rfl (.resource _ _ _ (.bare 401) ⟨fun _ => bears_old, fun _ => rfl⟩),
        fun h => h.elim⟩)
      ⟨.serve _ 1 _ _ _ rfl rfl (.resource _ _ _ (.bare 401) ⟨fun _ => bears_old, fun _ => rfl⟩),
        fun h => h.elim⟩)
      -- the first refresh
      ⟨.resume _ 0 _ (.head (.bare 401)) _ rfl rfl rfl, fun _ => not_storedInFlight_responses⟩)
      ⟨.serve _ 0 _ _ _ rfl rfl (.granted _ _ _ "new" "second" (grantBody "new" "second")
        (fun r h => by cases h; exact List.mem_singleton_self _) (by decide) (by decide)
        (by decide) ⟨_, _, rfl, rfl, rfl⟩), fun h => h.elim⟩)
      ⟨.resume _ 0 _ (.head (.bare 200)) _ rfl (Or.inl ⟨_, _, _, rfl, rfl⟩) rfl,
        fun h => absurd h.1 (by decide)⟩)
      ⟨.resume _ 0 _ (.json (grantBody "new" "second")) _ rfl ⟨_, _, rfl⟩ rfl, fun h => h.elim⟩)
      ⟨.resume _ 0 _ .left _ rfl trivial rfl, fun h => h.elim⟩)
      ⟨.resume _ 0 _ .left _ rfl trivial rfl, fun h => h.elim⟩)
      -- the second refresh
      ⟨.resume _ 1 _ (.head (.bare 401)) _ rfl rfl rfl, fun _ => not_storedInFlight_responses⟩)
      ⟨.serve _ 1 _ _ _ rfl rfl (.granted _ _ _ "newer" "third" (grantBody "newer" "third")
        (fun r h => by cases h; exact List.mem_cons_self) (by decide) (by decide)
        (by decide) ⟨_, _, rfl, rfl, rfl⟩), fun h => h.elim⟩)
      ⟨.resume _ 1 _ (.head (.bare 200)) _ rfl (Or.inl ⟨_, _, _, rfl, rfl⟩) rfl,
        fun h => absurd h.1 (by decide)⟩)
      ⟨.resume _ 1 _ (.json (grantBody "newer" "third")) _ rfl ⟨_, _, rfl⟩ rfl, fun h => h.elim⟩)
      ⟨.resume _ 1 _ .left _ rfl trivial rfl, fun h => h.elim⟩)
      ⟨.resume _ 1 _ .left _ rfl trivial rfl, fun h => h.elim⟩)
      -- the second attempts
      ⟨.serve _ 0 _ _ _ rfl rfl (.resource _ _ _ (.bare 204) ⟨fun h => absurd h (by decide),
        fun h => (not_bears_set (by decide) h).elim⟩), fun h => h.elim⟩)
      ⟨.resume _ 0 _ (.head (.bare 204)) _ rfl rfl rfl, fun h => absurd h.1 (by decide)⟩)
      ⟨.resume _ 0 _ .left _ rfl trivial rfl, fun h => h.elim⟩)
      ⟨.serve _ 1 _ _ _ rfl rfl (.resource _ _ _ (.bare 204) ⟨fun h => absurd h (by decide),
        fun h => (not_bears_set (by decide) h).elim⟩), fun h => h.elim⟩)
      ⟨.resume _ 1 _ (.head (.bare 204)) _ rfl rfl rfl, fun h => absurd h.1 (by decide)⟩)
      ⟨.resume _ 1 _ .left _ rfl trivial rfl, fun h => h.elim⟩, rfl, rfl⟩
  obtain ⟨es, w, hrun, hdone, htoken⟩ := hrun
  exact ⟨es, w, hrun, hdone, htoken,
    solo_refresh_never_raises _ _ started_expiredToken hrun⟩

/-- **Two refreshes that overlap**: both calls see the 401 of the expired token and start
a refresh with the same refresh token.  The second to be served is refused and raises
`RxonAuthError`, while the transport holds the token that the first one was granted. -/
theorem overlapping_refresh_raises :
    ¬ ∀ (w₀ w : World) (es : List Event), w₀.Started →
      Run (Step (Runtime.reference rxonDecls fun _ => "") fun _ => none) w₀ es w →
      (∃ a ∈ w.orchestrator.issued, w.client.shared.token = .str a) →
      ∀ (i : Nat) (e : RxonError), w.client.points[i]? = some (.done (.raised e)) →
        e.kind ≠ .auth := by
  intro h
  have hrun : ∃ es w, Run (Step (Runtime.reference rxonDecls fun _ => "") fun _ => none)
      expiredToken es w ∧ w.orchestrator.issued = ["new"] ∧
      w.client.shared.token = .str "new" ∧
      w.client.points[1]? = some (.done (.raised (unauthorized pollArgs))) := by
    refine ⟨_, _, .snoc (.snoc (.snoc (.snoc (.snoc (.snoc (.snoc (.snoc (.snoc (.snoc (.snoc
      (.snoc (.snoc .nil
      -- both requests and their 401s
      (.call _ pollArgs _ rfl)) (.call _ pollArgs _ rfl))
      (.serve _ 0 _ _ _ rfl rfl (.resource _ _ _ (.bare 401) ⟨fun _ => bears_old, fun _ => rfl⟩)))
      (.serve _ 1 _ _ _ rfl rfl (.resource _ _ _ (.bare 401) ⟨fun _ => bears_old, fun _ => rfl⟩)))
      (.resume _ 0 _ (.head (.bare 401)) _ rfl rfl rfl))
      (.resume _ 1 _ (.head (.bare 401)) _ rfl rfl rfl))
      -- one refresh is granted, the other refused
      (.serve _ 0 _ _ _ rfl rfl (.granted _ _ _ "new" "second" (grantBody "new" "second")
        (fun r h => by cases h; exact List.mem_singleton_self _) (by decide) (by decide)
        (by decide) ⟨_, _, rfl, rfl, rfl⟩)))
      (.serve _ 1 _ _ _ rfl rfl (.refused _ _ _ "first" 401 rfl (by decide) (by decide))))
      (.resume _ 0 _ (.head (.bare 200)) _ rfl (Or.inl ⟨_, _, _, rfl, rfl⟩) rfl))
      (.resume _ 0 _ (.json (grantBody "new" "second")) _ rfl ⟨_, _, rfl⟩ rfl))
      (.resume _ 1 _ (.head (.bare 401)) _ rfl (Or.inr ⟨rfl, by decide⟩) rfl))
      (.resume _ 1 _ .left _ rfl trivial rfl))
      (.resume _ 1 _ .left _ rfl trivial rfl), rfl, rfl, rfl⟩
  obtain ⟨es, w, hrun, hissued, htoken, hraised⟩ := hrun
  refine h expiredToken w es started_expiredToken hrun ⟨"new", ?_, htoken⟩ 1 _ hraised rfl
  rw [hissued]
  exact List.mem_singleton_self _

end World
end Rxon
