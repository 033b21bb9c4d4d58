import Rxon.Reference
import Rxon.Requests

/-! # The transport's tokens

Three fields hold the credentials: the access token, the refresh token and the header
that carries the access token.  Two code paths write them, each with three separate
assignments, but both read one decoded `TokenResponse` and neither suspends in between:
whatever is answered and however the calls interleave, the three stay those of one
single response (`tokens_never_torn`). -/

namespace Rxon
open Interleaving

/-- The header in which a request carries its access token. -/
def HttpTransport.header? (self : HttpTransport) : Option PyVal :=
  self.headers.lookup authHeaderWorker

/-- The access token and the refresh token. -/
def HttpTransport.pair (self : HttpTransport) : PyVal × PyVal :=
  (self.token, self.refreshTokenValue)

/-- The transport with the tokens of one response. -/
def HttpTransport.withPair (self : HttpTransport) (pair : PyVal × PyVal) : HttpTransport :=
  { self with
    token := pair.1
    refreshTokenValue := pair.2
    headers := Assoc.set authHeaderWorker pair.1 self.headers }

@[simp] theorem HttpTransport.pair_withPair (self : HttpTransport) (pair : PyVal × PyVal) :
    (self.withPair pair).pair = pair := rfl

@[simp] theorem HttpTransport.header?_withPair (self : HttpTransport) (pair : PyVal × PyVal) :
    (self.withPair pair).header? = some pair.1 := Assoc.lookup_set_self ..

section
variable (rt : Runtime rxonDecls)

/-- `data` decodes to a `TokenResponse`. -/
def Decodes (data : PyVal) : Prop :=
  ∃ head fs, fromDict rt "TokenResponse" data = .ok (.struct head fs)

/-- `data` decodes to a `TokenResponse` with these two tokens. -/
def Grants (data : PyVal) (pair : PyVal × PyVal) : Prop :=
  ∃ head fs, fromDict rt "TokenResponse" data = .ok (.struct head fs) ∧
    fs.lookup "access_token" = some pair.1 ∧ fs.lookup "refresh_token" = some pair.2

variable {rt} {data : PyVal} {d : Json} {pair : PyVal × PyVal}

theorem Grants.decodes (h : Grants rt data pair) : Decodes rt data :=
  let ⟨head, fs, hfs, _⟩ := h
  ⟨head, fs, hfs⟩

theorem Grants.unique {pair' : PyVal × PyVal} (h : Grants rt data pair)
    (h' : Grants rt data pair') : pair = pair' := by
  obtain ⟨head, fs, hfs, ha, hr⟩ := h
  obtain ⟨head', fs', hfs', ha', hr'⟩ := h'
  rw [hfs] at hfs'
  cases hfs'
  rw [ha] at ha'
  rw [hr] at hr'
  exact Prod.ext (Option.some.inj ha') (Option.some.inj hr')

/-! ## What a decoded response holds -/

theorem tokenResponse_lookup :
    rxonDecls.lookup "TokenResponse" = some ⟨.struct true, tokenResponse.fields⟩ := rfl

theorem tokenResponse_nodup : (tokenResponse.fields.map FieldDecl.name).Nodup := by decide

/-- A field of a decoded `TokenResponse`. -/
theorem Decodes.lookup {head : StructHead} {fs : List (String × PyVal)}
    (h : fromDict rt "TokenResponse" d.toPy = .ok (.struct head fs)) {f : FieldDecl}
    (hf : f ∈ tokenResponse.fields) :
    ∃ kvs x, d = .obj kvs ∧ fs.lookup f.name = some x ∧
      ((∃ v, kvs.lookup f.name = some v ∧ Reads rxonDecls .none f.type v x) ∨
        kvs.lookup f.name = none ∧ f.default.make? = some x) := by
  have hobj : ∃ kvs, d = .obj kvs := by
    by_contra hno
    rw [fromDict_of_not_obj rt tokenResponse_lookup fun kvs hd => hno ⟨kvs, hd⟩] at h
    cases d <;> simp [Json.toPy] at h
  obtain ⟨kvs, rfl⟩ := hobj
  have hreads := rt.msgspec.convert_sound _ _ _ _ ((fromDict_obj rt).mp h)
  obtain ⟨kvs', fs', x, hkvs, hfs, hx, hfrom⟩ :=
    Reads.lookup_field hreads tokenResponse_lookup hf tokenResponse_nodup
  cases hkvs
  cases hfs
  exact ⟨kvs, x, rfl, hx, hfrom⟩

/-- **A decoded response grants one pair of tokens**, of which the access token is a
string; it also carries the field that the log message reads. -/
theorem Decodes.grants (h : Decodes rt d.toPy) :
    ∃ head fs, ∃ pair : PyVal × PyVal, ∃ e,
      fromDict rt "TokenResponse" d.toPy = .ok (.struct head fs) ∧
      fs.lookup "access_token" = some pair.1 ∧ fs.lookup "refresh_token" = some pair.2 ∧
      fs.lookup "expires_in" = some e ∧ ∃ s, pair.1 = .str s := by
  obtain ⟨head, fs, hfs⟩ := h
  obtain ⟨kvs, a, -, ha, hfrom⟩ := Decodes.lookup hfs (f := ⟨"access_token", .str, .required⟩)
    (by simp [tokenResponse, model])
  obtain ⟨-, r, -, hr, -⟩ := Decodes.lookup hfs
    (f := ⟨"refresh_token", .optional .str, .value .none⟩) (by simp [tokenResponse, model])
  obtain ⟨-, e, -, he, -⟩ := Decodes.lookup hfs (f := ⟨"expires_in", .int, .required⟩)
    (by simp [tokenResponse, model])
  refine ⟨head, fs, (a, r), e, hfs, ha, hr, he, ?_⟩
  rcases hfrom with ⟨v, -, hv⟩ | ⟨-, hnone⟩
  · cases hv with
    | str s => exact ⟨s, rfl⟩
  · cases hnone

/-! ## Taking over the tokens -/

theorem getAttr_struct {c : StructHead} {n : String} {fs : List (String × PyVal)} {x : PyVal}
    (h : fs.lookup n = some x) : (PyVal.struct c fs).getAttr n = .ok x := by
  rw [PyVal.getAttr, h]

/-- What was done before an exception stays done. -/
theorem run_bind_error {α β : Type} {m : ExceptT PyError (StateM HttpTransport) α}
    {f : α → ExceptT PyError (StateM HttpTransport) β} {self self' : HttpTransport} {e : PyError}
    (h : m.run self = (.error e, self')) : (m >>= f).run self = (.error e, self') := by
  change StateT.bind m.run (ExceptT.bindCont f) self = _
  simp only [StateT.bind, show m.run self = (.error e, self') from h]
  rfl

theorem run_bind_ok {α β : Type} {m : ExceptT PyError (StateM HttpTransport) α}
    {f : α → ExceptT PyError (StateM HttpTransport) β} {self self' : HttpTransport} {a : α}
    (h : m.run self = (.ok a, self')) : (m >>= f).run self = (f a).run self' := by
  change StateT.bind m.run (ExceptT.bindCont f) self = _
  simp only [StateT.bind, show m.run self = (.ok a, self') from h]
  rfl

theorem adopt_run {c : StructHead} {fs : List (String × PyVal)} (self : HttpTransport)
    (ha : fs.lookup "access_token" = some pair.1) (hr : fs.lookup "refresh_token" = some pair.2) :
    (adopt (.struct c fs)).run self = (.ok (), self.withPair pair) := by
  rw [adopt, getAttr_struct ha, getAttr_struct hr]
  rfl

theorem adopt_run_error {res : PyVal} {e : PyError} (self : HttpTransport)
    (h : res.getAttr "access_token" = .error e) : (adopt res).run self = (.error e, self) := by
  rw [adopt, h]
  rfl

theorem adoptResponse_run {res : PyVal} (self : HttpTransport)
    (h : fromDict rt "TokenResponse" data = .ok res) :
    (adoptResponse rt data).run self = (do adopt res; return res).run self := by
  rw [adoptResponse, h]
  rfl

/-- A response that decodes is taken over as a whole. -/
theorem adoptResponse_of_decodes (self : HttpTransport) (h : Decodes rt d.toPy) :
    ∃ head fs, ∃ pair : PyVal × PyVal, ∃ e, Grants rt d.toPy pair ∧
      fs.lookup "expires_in" = some e ∧ (∃ s, pair.1 = .str s) ∧
      (adoptResponse rt d.toPy).run self = (.ok (.struct head fs), self.withPair pair) := by
  obtain ⟨head, fs, pair, e, hfs, ha, hr, he, hs⟩ := h.grants
  refine ⟨head, fs, pair, e, ⟨head, fs, hfs, ha, hr⟩, he, hs, ?_⟩
  rw [adoptResponse_run self hfs, run_bind_ok (adopt_run self ha hr)]
  rfl

/-- One that does not decode changes nothing: it fails before the first assignment. -/
theorem adoptResponse_of_not_decodes (self : HttpTransport) (h : ¬ Decodes rt d.toPy) :
    ∃ e, (adoptResponse rt d.toPy).run self = (.error e, self) := by
  cases hfd : fromDict rt "TokenResponse" d.toPy with
  | error e => exact ⟨e, by rw [adoptResponse, hfd]; rfl⟩
  | ok res =>
    refine ⟨.attributeError "access_token", ?_⟩
    have hattr : res.getAttr "access_token" = .error (.attributeError "access_token") := by
      cases d with
      | obj kvs =>
        -- what an object converts to is an instance, so it would decode
        exfalso
        have hreads := rt.msgspec.convert_sound _ _ _ _ ((fromDict_obj rt).mp hfd)
        cases hreads with
        | struct => exact h ⟨_, _, hfd⟩
      | null | bool | int | float | str | arr =>
        rw [fromDict_of_not_obj rt tokenResponse_lookup (by simp)] at hfd
        cases hfd
        simp [Json.toPy, PyVal.getAttr]
    rw [adoptResponse_run self hfd, run_bind_error (adopt_run_error self hattr)]

variable (rt) in
/-- A refresh takes over the tokens of the document it reads, or nothing. -/
theorem onRefreshBody_cases (outer : Option Frame) (d : Json) (self : HttpTransport) :
    (¬ Decodes rt d.toPy ∧
        onRefreshBody rt outer d self = (.refreshLeave outer (some .none), self)) ∨
      ∃ head fs pair, Grants rt d.toPy pair ∧ (∃ s, pair.1 = .str s) ∧
        onRefreshBody rt outer d self =
          (.refreshLeave outer (some (.struct head fs)), self.withPair pair) := by
  by_cases h : Decodes rt d.toPy
  · right
    obtain ⟨head, fs, pair, e, hgrants, he, hs, hrun⟩ := adoptResponse_of_decodes self h
    refine ⟨head, fs, pair, hgrants, hs, ?_⟩
    have hlog : (adoptRefresh rt d.toPy).run self =
        (.ok (.struct head fs), self.withPair pair) := by
      rw [adoptRefresh, run_bind_ok hrun, getAttr_struct he]
      rfl
    rw [onRefreshBody, hlog]
  · left
    obtain ⟨e, hrun⟩ := adoptResponse_of_not_decodes self h
    refine ⟨h, ?_⟩
    have hlog : (adoptRefresh rt d.toPy).run self = (.error e, self) := run_bind_error hrun
    rw [onRefreshBody, hlog]

/-- A refresh that is granted a pair takes it over. -/
theorem onRefreshBody_of_grants (outer : Option Frame) (self : HttpTransport)
    (h : Grants rt d.toPy pair) : ∃ head fs, onRefreshBody rt outer d self =
      (.refreshLeave outer (some (.struct head fs)), self.withPair pair) := by
  rcases onRefreshBody_cases rt outer d self with ⟨hno, -⟩ | ⟨head, fs, pair', h', -, heq⟩
  · exact absurd h.decodes hno
  · rw [h.unique h']
    exact ⟨head, fs, heq⟩

variable (rt) in
/-- So does a registration. -/
theorem adoptRegistration_cases (d : Json) (self : HttpTransport) :
    (adoptRegistration rt d.toPy self = self) ∨
      ∃ pair, Grants rt d.toPy pair ∧ adoptRegistration rt d.toPy self = self.withPair pair := by
  cases d with
  | obj kvs =>
    simp only [Json.toPy_obj, adoptRegistration]
    split
    · rw [← Json.toPy_obj]
      by_cases h : Decodes rt (Json.obj kvs).toPy
      · right
        obtain ⟨_, _, pair, e, hgrants, -, -, hrun⟩ := adoptResponse_of_decodes self h
        exact ⟨pair, hgrants, by rw [hrun]⟩
      · left
        obtain ⟨e, hrun⟩ := adoptResponse_of_not_decodes self h
        rw [hrun]
    · exact Or.inl rfl
  | null | bool | int | float | str | arr => exact Or.inl (by simp [Json.toPy, adoptRegistration])

end

/-! ## What one step does to the credentials -/

/-- What a call is about: it is about to return a value, it is in the middle of a
refresh, or neither. -/
inductive Stance where
  | returns (value : PyVal)
  | refreshes (sent : Request)
  | other

def Point.stance : Point → Stance
  | .leave _ (.return value) => .returns value
  | .refresh _ sent | .refreshBody _ sent => .refreshes sent
  | _ => .other

/-- The document that a step takes for a token response: the body of a refresh, or
what a registration returned. -/
def offered : Point → Answer → Option PyVal
  | .refreshBody _ _, .json data => some data.toPy
  | .leave frame (.return value), .left => if frame.registering then some value else none
  | _, _ => none

section
variable {rt : Runtime rxonDecls} {floatOf : String → Option PyFloat}
  {point point' : Point} {answer : Answer} {self self' : HttpTransport}

theorem stance_refreshOver (outer : Option Frame) (self : HttpTransport) (res : Option PyVal) :
    (refreshOver outer self res).stance = .other := by
  unfold refreshOver refreshed refreshInterrupted
  repeat' split
  all_goals rfl

/-- A refresh starts by sending its request, if there is a session. -/
theorem stance_startRefresh (outer : Option Frame) (self : HttpTransport) :
    (startRefresh outer self).stance =
      if self.session.isNone then .other else .refreshes (refreshRequest self) := by
  unfold startRefresh
  split
  · exact stance_refreshOver outer self (some .none)
  · rfl

/-- **A call returns nothing but documents it was answered**, or nothing at all. -/
theorem resume_returns {value : PyVal}
    (h : resume rt floatOf point answer self = some (point', self'))
    (hv : point'.stance = .returns value) :
    value = .none ∨ ∃ d, answer = .json d ∧ value = d.toPy := by
  cases resume_advances h with
  | noContent => exact Or.inl (Stance.returns.inj hv).symm
  | document => exact Or.inr ⟨_, rfl, (Stance.returns.inj hv).symm⟩
  | refreshFault | refreshLeft | refreshLeaveFault =>
    rw [stance_refreshOver] at hv
    cases hv
  | _ => cases hv

/-- Taking over what was offered, if it was a token response: either only the flag of
the version warning changes, or both tokens and the header become those of the
response. -/
def Takes (rt : Runtime rxonDecls) (data : Option PyVal) (self self' : HttpTransport) : Prop :=
  (∃ b, self' = { self with versionWarningLogged := b }) ∨
    ∃ v pair, data = some v ∧ Grants rt v pair ∧ self' = self.withPair pair

theorem Takes.refl (data : Option PyVal) (self : HttpTransport) : Takes rt data self self :=
  Or.inl ⟨self.versionWarningLogged, rfl⟩

/-- Where nothing is offered, nothing is taken over. -/
theorem Takes.of_none (h : Takes rt none self self') :
    ∃ b, self' = { self with versionWarningLogged := b } := by
  rcases h with h | ⟨v, pair, hv, -, -⟩
  · exact h
  · cases hv

theorem Takes.session {v : Option PyVal} (h : Takes rt v self self') :
    self'.session = self.session := by
  rcases h with ⟨b, rfl⟩ | ⟨v, pair, -, -, rfl⟩ <;> rfl

theorem Takes.header {v : Option PyVal} (h : Takes rt v self self')
    (hself : self.header? = some self.token) : self'.header? = some self'.token := by
  rcases h with ⟨b, rfl⟩ | ⟨v, pair, -, -, rfl⟩
  · exact hself
  · exact HttpTransport.header?_withPair ..

/-- **What a step does to the transport**: it takes over the document it was offered,
if that is a token response, and otherwise leaves the credentials alone. -/
theorem resume_takes (h : resume rt floatOf point answer self = some (point', self'))
    (hv : ∀ frame value, point = .leave frame (.return value) → frame.registering = true →
      ∃ d : Json, value = d.toPy) :
    Takes rt (offered point answer) self self' := by
  cases resume_advances h with
  | noContent | unauthorized | refresh | limited | failed | answered =>
    exact Or.inl (warnVersion_eq ..)
  | returned =>
    split
    · rename_i frame value hreg
      obtain ⟨d, rfl⟩ := hv frame value rfl hreg
      rcases adoptRegistration_cases rt d self with hsame | ⟨pair, hgrants, hpair⟩
      · rw [hsame]
        exact .refl ..
      · exact Or.inr ⟨_, pair, by rw [offered, if_pos hreg], hgrants, hpair⟩
    · exact .refl ..
  | @adopted outer sent data res _ hbody =>
    rcases onRefreshBody_cases rt outer data self with ⟨-, hsame⟩ | ⟨_, fs, pair, hgrants, -, hpair⟩
    · rw [hsame] at hbody
      cases hbody
      exact .refl ..
    · rw [hpair] at hbody
      cases hbody
      exact Or.inr ⟨_, pair, rfl, hgrants, rfl⟩
  | _ => exact .refl ..

end

/-! ## Every run -/

section
variable (rt : Runtime rxonDecls) (floatOf : String → Option PyFloat)

/-- The runs of the transport's coroutines from an idle transport. -/
abbrev TransportRun (self : HttpTransport) (es : List (Program.Event TransportCall Answer))
    (c : Program.Config HttpTransport Point) : Prop :=
  Run (transportProgram rt floatOf).Step ⟨self, []⟩ es c

/-- The document that the next event makes some call take for a token response. -/
def offeredBy (c : Program.Config HttpTransport Point) :
    Program.Event TransportCall Answer → Option PyVal
  | .start _ => none
  | .resume i answer => c.points[i]?.bind fun point => offered point answer

/-- A value that some call was answered, or nothing at all. -/
def Answered (es : List (Program.Event TransportCall Answer)) (value : PyVal) : Prop :=
  value = .none ∨ ∃ i d, .resume i (.json d) ∈ es ∧ value = d.toPy

/-- In the course of the run `es`, some call took one document it was answered for a
token response, and that document grants `pair`. -/
def Took (self : HttpTransport) (es : List (Program.Event TransportCall Answer))
    (pair : PyVal × PyVal) : Prop :=
  ∃ es₁ e c₁ v, es₁ ++ [e] <+: es ∧ TransportRun rt floatOf self es₁ c₁ ∧
    offeredBy c₁ e = some v ∧ Answered (es₁ ++ [e]) v ∧ Grants rt v pair

variable {rt floatOf} {self : HttpTransport} {es : List (Program.Event TransportCall Answer)}
  {c c' : Program.Config HttpTransport Point} {e : Program.Event TransportCall Answer}

theorem Answered.mono {es' : List (Program.Event TransportCall Answer)} {v : PyVal}
    (h : Answered es v) (hs : es ⊆ es') : Answered es' v := by
  rcases h with h | ⟨i, d, hmem, h⟩
  · exact Or.inl h
  · exact Or.inr ⟨i, d, hs hmem, h⟩

theorem Answered.exists_json {v : PyVal} (h : Answered es v) : ∃ d : Json, v = d.toPy := by
  rcases h with rfl | ⟨_, d, _, h⟩
  · exact ⟨.null, rfl⟩
  · exact ⟨d, h⟩

theorem Took.snoc {pair : PyVal × PyVal} (h : Took rt floatOf self es pair) :
    Took rt floatOf self (es ++ [e]) pair := by
  obtain ⟨es₁, e₁, c₁, v, hp, h⟩ := h
  exact ⟨es₁, e₁, c₁, v, hp.trans (List.prefix_append _ _), h⟩

/-- Starting a call writes nothing: what precedes its first await only reads. -/
theorem start_shared (call : TransportCall) (self : HttpTransport) :
    (start call self).2 = self := by
  unfold start startRequest
  split
  · dsimp only
    split <;> rfl
  · rfl
  · dsimp only
    split <;> rfl

theorem start_stance (call : TransportCall) (self : HttpTransport) (value : PyVal) :
    (start call self).1.stance ≠ .returns value := by
  unfold start startRequest
  split
  · dsimp only
    split <;> exact fun h => by cases h
  · rw [stance_startRefresh]
    split <;> exact fun h => by cases h
  · dsimp only
    split <;> exact fun h => by cases h

/-- In every run, calls return documents that were answered in that run. -/
theorem returns_answered (h : TransportRun rt floatOf self es c) :
    ∀ point ∈ c.points, ∀ value, point.stance = .returns value → Answered es value := by
  refine (Program.run_invariant (J := fun _ _ => True)
    (K := fun es _ point => ∀ value, point.stance = .returns value → Answered es value)
    ?_ ?_ trivial (by simp) h).2
  · intro es s call point s' _ hstart
    refine ⟨trivial, fun value hv => ?_, fun q hq value hv => ?_⟩
    · rw [← show (start call s).1 = point from congrArg Prod.fst hstart] at hv
      exact absurd hv (start_stance call s value)
    · exact (hq value hv).mono (List.subset_append_left _ _)
  · intro es s i old answer point s' _ _ hresume
    refine ⟨trivial, fun value hv => ?_, fun q hq value hv => ?_⟩
    · rcases resume_returns hresume hv with h | ⟨d, rfl, h⟩
      · exact Or.inl h
      · exact Or.inr ⟨i, d, List.mem_append_right _ (List.mem_singleton_self _), h⟩
    · exact (hq value hv).mono (List.subset_append_left _ _)

/-- A step takes over the document it is offered, which was answered in the run, or
leaves the credentials alone. -/
theorem step_takes (hrun : TransportRun rt floatOf self es c)
    (h : (transportProgram rt floatOf).Step c e c') :
    Takes rt (offeredBy c e) c.shared c'.shared ∧
      ∀ v, offeredBy c e = some v → Answered (es ++ [e]) v := by
  have hans := returns_answered hrun
  rcases Program.step_cases h with ⟨call, point, s', rfl, hs, rfl⟩ |
    ⟨i, answer, old, point, s', rfl, hi, hr, rfl⟩
  · have hshared : s' = c.shared := by
      rw [← show (start call c.shared).2 = s' from congrArg Prod.snd hs, start_shared]
    rw [hshared]
    exact ⟨.refl .., fun v hv => by cases hv⟩
  · have hmem := List.mem_of_getElem? hi
    have hoffer : offeredBy c (.resume i answer) = offered old answer := by
      rw [offeredBy, hi, Option.bind_some]
    rw [hoffer]
    refine ⟨resume_takes hr fun frame value hold _ => ?_, fun v hv => ?_⟩
    · subst hold
      exact (hans _ hmem value rfl).exists_json
    unfold offered at hv
    split at hv
    · cases hv
      exact Or.inr ⟨i, _, List.mem_append_right _ (List.mem_singleton_self _), rfl⟩
    · split at hv
      · cases hv
        exact (hans _ hmem _ rfl).mono (List.subset_append_left _ _)
      · cases hv
    · cases hv

/-- In every run the header carries the access token. -/
theorem header_token {baseUrl workerId token : String} {session : Option Nat}
    (h : TransportRun rt floatOf (HttpTransport.init baseUrl workerId token session) es c) :
    c.shared.header? = some c.shared.token := by
  induction h with
  | nil => rfl
  | snoc hrun hstep ih => exact (step_takes hrun hstep).1.header ih

/-- **The tokens are never torn.**  However the calls interleave and whatever they are
answered, the header carries the access token; the two tokens are the initial ones or
those of one single token response; and a step that is offered no document which decodes
to a token response leaves tokens and headers as they were. -/
theorem tokens_never_torn {baseUrl workerId token : String} {session : Option Nat}
    (h : TransportRun rt floatOf (HttpTransport.init baseUrl workerId token session) es c) :
    c.shared.headers.lookup "X-Worker-Token" = some c.shared.token ∧
      ((c.shared.token, c.shared.refreshTokenValue) = (.str token, .none) ∨
        Took rt floatOf (HttpTransport.init baseUrl workerId token session) es
          (c.shared.token, c.shared.refreshTokenValue)) ∧
      ∀ e c', (transportProgram rt floatOf).Step c e c' →
        (∀ v, offeredBy c e = some v → ¬ Decodes rt v) →
        c'.shared.token = c.shared.token ∧
          c'.shared.refreshTokenValue = c.shared.refreshTokenValue ∧
          c'.shared.headers = c.shared.headers := by
  generalize hinit : HttpTransport.init baseUrl workerId token session = self at h ⊢
  have hheader : c.shared.header? = some c.shared.token := by
    subst hinit
    exact header_token h
  -- where the pair comes from is an invariant of the run
  have hrun : TransportRun rt floatOf self es c ∧
      (c.shared.pair = (.str token, .none) ∨ Took rt floatOf self es c.shared.pair) := by
    refine Run.invariant (fun es c => TransportRun rt floatOf self es c ∧
      (c.shared.pair = (.str token, .none) ∨ Took rt floatOf self es c.shared.pair)) ?_ ?_ h
    · subst hinit
      exact ⟨.nil, Or.inl rfl⟩
    · intro es c e c' ⟨hrun, hpair⟩ hstep
      refine ⟨.snoc hrun hstep, ?_⟩
      obtain ⟨htakes, hans⟩ := step_takes hrun hstep
      rcases htakes with ⟨b, hsame⟩ | ⟨v, pair, hv, hgrants, hnew⟩
      · rw [hsame]
        exact hpair.imp_right Took.snoc
      · rw [hnew]
        exact Or.inr ⟨es, e, c, v, List.prefix_refl _, hrun, hv, hans v hv, hgrants⟩
  obtain ⟨-, hpair⟩ := hrun
  refine ⟨hheader, hpair, fun e c' hstep hno => ?_⟩
  rcases (step_takes h hstep).1 with ⟨b, hsame⟩ | ⟨v, pair, hv, hgrants, -⟩
  · rw [hsame]
    exact ⟨rfl, rfl, rfl⟩
  · exact absurd hgrants.decodes (hno v hv)

/-- The run of one refresh that is granted. -/
theorem tokens_never_torn_refresh :
    ∃ c, TransportRun (Runtime.reference rxonDecls fun _ => "") (fun _ => none)
      (HttpTransport.init "http://orchestrator" "worker" "token" (some 0))
      [.start .refreshToken, .resume 0 (.head ⟨200, none, none, none⟩),
        .resume 0 (.json (.obj [("access_token", .str "new"), ("refresh_token", .str "next"),
          ("expires_in", .int 300), ("worker_id", .str "worker")]))] c ∧
      c.shared.token = .str "new" ∧
      c.shared.headers.lookup "X-Worker-Token" = some c.shared.token :=
  Exists.imp (p := fun c => TransportRun _ _ _ _ c ∧ c.shared.token = .str "new")
    (fun _ h => ⟨h.1, h.2, (tokens_never_torn h.1).1⟩) ⟨_, Program.runAll_iff.mp rfl, rfl⟩

end
end Rxon
