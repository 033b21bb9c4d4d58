import Rxon.Requests

/-! # Sending a result

`send_result` posts a result until something else than a network error comes of it, or
the budget of attempts is used up, and sleeps twice as long after each failed attempt.
It is a coroutine that awaits `_request` and `sleep`; `Failed` is what it has done after
so many failed attempts, and `ResultDelivered` what a finished call must have done.

Nothing is posted under a budget of zero, and the call returns `False` all the same,
which means "ignored".  A delay that is a float can also grow beyond the floats: the
product becomes infinite, or cannot be computed at all (`result_delivered_iff`). -/

namespace Rxon
open Interleaving (Program)

def endpointTaskResult : String := workerApiPrefix ++ "/tasks/result"

/-! ## Delays -/

/-- A delay in seconds, a finite one. -/
inductive Delay where
  | int (n : Int)
  | float (f : Binary64)

/-- The delay as a number of units. -/
def Delay.units : Delay → Int
  | .int n => n * Binary64.one
  | .float f => f.units

/-- `wait * (2**i)`.  With a float, the integer is made one too, which raises when there
is none, and the product may be infinite. -/
def resultBackoff (wait : Delay) (i : Nat) : Option PyVal :=
  match wait with
  | .int n => some (.int (n * 2 ^ i))
  | .float f =>
    if i < 1024 then
      match f.timesPow? i with
      | some g => some (.float (.finite g))
      | none => some (.float (.inf f.negative))
    else none

/-- `wait * 2 ** i` can be computed, and is a number of seconds. -/
def Delay.Fits (wait : Delay) (i : Nat) : Prop :=
  match wait with
  | .int _ => True
  | .float f => i < 1024 ∧ (f.timesPow? i).isSome = true

/-- The number of seconds `wait * 2 ** i`. -/
def Delay.Is (wait : Delay) (i : Nat) (seconds : PyVal) : Prop :=
  seconds.numeric? = some (.finite (wait.units * 2 ^ i))

theorem fits_iff {wait : Delay} {i : Nat} :
    wait.Fits i ↔ ∃ seconds, resultBackoff wait i = some seconds ∧ wait.Is i seconds := by
  cases wait with
  | int n =>
    refine iff_of_true trivial ⟨_, rfl, ?_⟩
    simp only [Delay.Is, PyVal.numeric?, Delay.units]
    congr 2
    ring
  | float f =>
    simp only [Delay.Fits, resultBackoff, Delay.Is, Delay.units]
    by_cases hi : i < 1024
    · simp only [hi, if_true, true_and]
      cases hf : f.timesPow? i with
      | none => simp [PyVal.numeric?]
      | some g => simp [PyVal.numeric?, Binary64.units_timesPow? hf]
    · simp [hi]

/-! ## `send_result` -/

/-- The arguments of `send_result`, with the two fields of the transport that stand in
for those that are not given. -/
structure SendResult where
  result : PyVal
  maxRetries : Option Int
  delay : Option Delay
  resultRetries : Int
  resultRetryDelay : Delay

def SendResult.retries (call : SendResult) : Int := call.maxRetries.getD call.resultRetries

def SendResult.wait (call : SendResult) : Delay := call.delay.getD call.resultRetryDelay

/-- The locals of a call. -/
structure ResultFrame where
  call : SendResult
  i : Nat
  lastError : Option RxonError

/-- How a call ends; `overflow` is the `OverflowError` of the multiplication. -/
inductive ResultOutcome where
  | returned (value : Bool)
  | raised (e : RxonError)
  | overflow
  | interrupted

inductive ResultPoint where
  | posting (frame : ResultFrame) (sent : RequestArgs)
  | sleeping (frame : ResultFrame) (seconds : PyVal)
  | done (outcome : ResultOutcome)

/-- What an await is answered: what `_request` comes to, or the end of the sleep. -/
inductive ResultAnswer where
  | posted (outcome : Outcome)
  | slept
  | interrupted

/-- `isinstance(resp, dict) and resp.get("status") == "ignored"`. -/
def ignored : PyVal → Bool
  | .dict kvs =>
    match kvs.lookup "status" with
    | some (.str "ignored") => true
    | _ => false
  | _ => false

/-- The head of the loop, and what follows the loop. -/
def attempt (frame : ResultFrame) : ResultPoint :=
  if frame.i < frame.call.retries then
    .posting frame ⟨"POST", endpointTaskResult, .none, frame.call.result⟩
  else
    match frame.lastError with
    | some e => .done (.raised e)
    | none => .done (.returned false)

/-- `if i < retries - 1: await sleep(wait * (2**i))`. -/
def pause (frame : ResultFrame) : ResultPoint :=
  if frame.i < frame.call.retries - 1 then
    match resultBackoff frame.call.wait frame.i with
    | some seconds => .sleeping frame seconds
    | none => .done .overflow
  else attempt { frame with i := frame.i + 1 }

def startResult (call : SendResult) : ResultPoint := attempt ⟨call, 0, none⟩

/-- `_request` is over. -/
def onPosted (frame : ResultFrame) : Outcome → ResultPoint
  | .returned resp => .done (.returned (!ignored resp))
  | .raised e =>
    if e.kind = .network then pause { frame with lastError := some e } else .done (.raised e)
  | .interrupted => .done .interrupted

def resumeResult (point : ResultPoint) (answer : ResultAnswer) : Option ResultPoint :=
  match point, answer with
  | .posting frame _, .posted outcome => some (onPosted frame outcome)
  | .sleeping frame _, .slept => some (attempt { frame with i := frame.i + 1 })
  | .sleeping _ _, .interrupted => some (.done .interrupted)
  | _, _ => none

/-- The coroutines of `send_result`; they share nothing but the transport's two fields,
which nobody writes. -/
def resultProgram : Program Unit SendResult ResultPoint ResultAnswer where
  start call _ := (startResult call, ())
  resume point answer _ := (resumeResult point answer).map fun point => (point, ())

/-! ## What a call has done -/

/-- What a call does to the world. -/
inductive Act where
  | post (outcome : Outcome)
  | sleep (seconds : PyVal)

def act : ResultPoint × ResultAnswer → Option Act
  | (.posting _ _, .posted outcome) => some (.post outcome)
  | (.sleeping _ seconds, .slept) => some (.sleep seconds)
  | _ => none

def acts (steps : List (ResultPoint × ResultAnswer)) : List Act := steps.filterMap act

/-- What came of the posts, in order. -/
def posts (acts : List Act) : List Outcome :=
  acts.filterMap fun
    | .post outcome => some outcome
    | .sleep _ => none

def Outcome.isNetwork : Outcome → Bool
  | .raised e => e.kind = .network
  | _ => false

/-- `i` attempts have failed, each with a network error and followed by a sleep that `p`
describes. -/
inductive Failed (retries : Int) (p : Nat → PyVal → Prop) : Nat → List Act → Prop
  | none : Failed retries p 0 []
  | again {i : Nat} {acts : List Act} {outcome : Outcome} {seconds : PyVal}
      (h : Failed retries p i acts) (ho : outcome.isNetwork = true) (hi : (i : Int) + 1 < retries)
      (hs : p i seconds) : Failed retries p (i + 1) (acts ++ [.post outcome, .sleep seconds])

/-- What a call must do: post until the first outcome that is no network error, sleeping
`wait * 2 ** i` after attempt `i`, and return or raise by the last outcome, which is a
network error only if the budget is used up. -/
def ResultDelivered (retries : Int) (wait : Delay) (acts : List Act) (outcome : ResultOutcome) :
    Prop :=
  ∃ i before last, Failed retries wait.Is i before ∧ acts = before ++ [.post last] ∧
    match last with
    | .returned resp => outcome = .returned (!ignored resp)
    | .raised e => outcome = .raised e ∧ (e.kind = .network → (i : Int) + 1 = retries)
    | .interrupted => False

/-- The attempts up to the `i`-th fail, and it is not the last one. -/
def Sleeps (retries : Int) (posts : List Outcome) (i : Nat) : Prop :=
  (i : Int) + 1 < retries ∧ ∀ j ≤ i, ∃ o, posts[j]? = some o ∧ o.isNetwork = true

section
variable {retries : Int} {wait : Delay} {p q : Nat → PyVal → Prop} {i : Nat} {before : List Act}
  {last : Outcome}

/-! ## Failed attempts -/

theorem isNetwork_raised {e : RxonError} :
    (Outcome.raised e).isNetwork = true ↔ e.kind = .network := by
  simp [Outcome.isNetwork]

theorem posts_append (l l' : List Act) : posts (l ++ l') = posts l ++ posts l' :=
  List.filterMap_append

theorem Failed.length_posts (h : Failed retries p i before) : (posts before).length = i := by
  induction h with
  | none => rfl
  | again h ho hi hs ih =>
    rw [posts_append, List.length_append, ih]
    rfl

theorem Failed.isNetwork (h : Failed retries p i before) :
    ∀ outcome ∈ posts before, outcome.isNetwork = true := by
  induction h with
  | none => exact fun _ h => by cases h
  | again h ho hi hs ih =>
    intro outcome hmem
    rw [posts_append] at hmem
    rcases List.mem_append.mp hmem with hmem | hmem
    · exact ih outcome hmem
    · rw [List.mem_singleton.mp hmem]
      exact ho

theorem Failed.lt_retries (h : Failed retries p i before) {j : Nat} (hj : j < i) :
    (j : Int) + 1 < retries := by
  induction h with
  | none => omega
  | again => omega

/-- Other things can be said of the sleeps, one by one. -/
theorem Failed.imp (h : Failed retries p i before)
    (hpq : ∀ j seconds, j < i → p j seconds → q j seconds) : Failed retries q i before := by
  induction h with
  | none => exact .none
  | again h ho hi hs ih =>
    exact .again (ih fun j seconds hj => hpq j seconds (by omega)) ho hi (hpq _ _ (by omega) hs)

/-- What two descriptions say of a sleep, they say of the same one. -/
theorem Failed.exists_seconds {k : Nat} (h : Failed retries p i before)
    (h' : Failed retries q k before) : ∀ j < i, ∃ seconds, p j seconds ∧ q j seconds := by
  induction h generalizing k with
  | none => exact fun j hj => by omega
  | again h ho hi hs ih =>
    generalize heq : (_ : List Act) ++ _ = acts at h'
    cases h' with
    | none => simp at heq
    | again h' ho' hi' hs' =>
      obtain ⟨rfl, hpair⟩ := List.append_inj' heq rfl
      cases hpair
      have hik := h.length_posts.symm.trans h'.length_posts
      intro j hj
      rcases Nat.lt_succ_iff_lt_or_eq.mp hj with hj | rfl
      · exact ih h' j hj
      · exact ⟨_, hs, hik ▸ hs'⟩

/-- The attempts after which a call sleeps are those that failed before the last. -/
theorem sleeps_iff (h : Failed retries p i before) {j : Nat} :
    Sleeps retries (posts (before ++ [.post last])) j ↔
      j < i ∨ j = i ∧ last.isNetwork = true ∧ (i : Int) + 1 < retries := by
  -- attempt `i` is the last, and all before it failed
  have hposts : posts (before ++ [.post last]) = posts before ++ [last] := posts_append ..
  have hlen := h.length_posts
  constructor
  · rintro ⟨hretries, hall⟩
    obtain ⟨o, ho, hnet⟩ := hall j (Nat.le_refl j)
    rw [hposts] at ho
    have hlt := (List.getElem?_eq_some_iff.mp ho).choose
    rw [List.length_append, List.length_singleton, hlen] at hlt
    rcases Nat.lt_succ_iff_lt_or_eq.mp hlt with hlt | rfl
    · exact Or.inl hlt
    · rw [← hlen, List.getElem?_concat_length] at ho
      cases ho
      exact Or.inr ⟨rfl, hnet, hretries⟩
  · have hbefore : ∀ k < i, ∃ o, (posts before ++ [last])[k]? = some o ∧ o.isNetwork = true := by
      intro k hk
      rw [← hlen] at hk
      exact ⟨_, (List.getElem?_append_left hk).trans (List.getElem?_eq_getElem hk),
        h.isNetwork _ (List.getElem_mem hk)⟩
    rw [hposts]
    rintro (hj | ⟨rfl, hnet, hretries⟩)
    · exact ⟨h.lt_retries hj, fun k hk => hbefore k (by omega)⟩
    · refine ⟨hretries, fun k hk => ?_⟩
      rcases Nat.lt_or_eq_of_le hk with hk | rfl
      · exact hbefore k hk
      · refine ⟨last, ?_, hnet⟩
        rw [← hlen, List.getElem?_concat_length]

/-- The computed sleeps are the right ones iff they fit. -/
theorem Failed.is_iff (h : Failed retries (fun j s => resultBackoff wait j = some s) i before) :
    Failed retries wait.Is i before ↔ ∀ j < i, wait.Fits j := by
  constructor
  · intro h' j hj
    exact fits_iff.mpr (h.exists_seconds h' j hj)
  · intro hfits
    refine h.imp fun j seconds hj hs => ?_
    obtain ⟨seconds', hs', his⟩ := fits_iff.mp (hfits j hj)
    rw [hs] at hs'
    cases hs'
    exact his

/-- If the last attempt ends the call, every sleep it needed lies before. -/
theorem Failed.sleeps_fit_iff
    (h : Failed retries (fun j s => resultBackoff wait j = some s) i before)
    (hlast : last.isNetwork = true → (i : Int) + 1 = retries) :
    (∀ j, Sleeps retries (posts (before ++ [.post last])) j → wait.Fits j) ↔
      Failed retries wait.Is i before := by
  rw [h.is_iff]
  constructor
  · exact fun hall j hj => hall j ((sleeps_iff h).mpr (Or.inl hj))
  · intro hall j hj
    rcases (sleeps_iff h).mp hj with hj | ⟨-, hnet, hlt⟩
    · exact hall j hj
    · have := hlast hnet
      omega

/-! ## What the code comes to -/

/-- How a call comes to its end. -/
inductive Finished (retries : Int) (wait : Delay) : List Act → ResultOutcome → Prop
  | untried (h : retries ≤ 0) : Finished retries wait [] (.returned false)
  | returned {i : Nat} {before : List Act} {resp : PyVal} (hi : (i : Int) < retries)
      (h : Failed retries (fun j s => resultBackoff wait j = some s) i before) :
      Finished retries wait (before ++ [.post (.returned resp)]) (.returned (!ignored resp))
  | raised {i : Nat} {before : List Act} {e : RxonError} (hi : (i : Int) < retries)
      (h : Failed retries (fun j s => resultBackoff wait j = some s) i before)
      (he : e.kind = .network → (i : Int) + 1 = retries) :
      Finished retries wait (before ++ [.post (.raised e)]) (.raised e)
  | overflow {i : Nat} {before : List Act} {e : RxonError}
      (h : Failed retries (fun j s => resultBackoff wait j = some s) i before)
      (he : e.kind = .network) (hi : (i : Int) + 1 < retries)
      (hnone : resultBackoff wait i = none) :
      Finished retries wait (before ++ [.post (.raised e)]) .overflow

theorem Failed.of_concat {k : Nat} {acts : List Act} {o o' : Outcome}
    (h : Failed retries p k before) (heq : acts ++ [.post o] = before ++ [.post o']) :
    before = acts ∧ o' = o := by
  obtain ⟨rfl, hlast⟩ := List.append_inj' heq rfl
  cases hlast
  exact ⟨rfl, rfl⟩

/-- A call that comes to an end has done what it must iff it had an attempt to make and
all sleeps it needed were numbers of seconds. -/
theorem Finished.delivers_iff {acts : List Act} {outcome : ResultOutcome}
    (h : Finished retries wait acts outcome) :
    ResultDelivered retries wait acts outcome ↔
      1 ≤ retries ∧ ∀ j, Sleeps retries (posts acts) j → wait.Fits j := by
  cases h with
  | untried h =>
    refine iff_of_false ?_ fun h' => by omega
    rintro ⟨i, before, last, -, hacts, -⟩
    simp at hacts
  | @returned i before resp hi h =>
    rw [h.sleeps_fit_iff fun hnet => by cases hnet]
    constructor
    · rintro ⟨k, before', last, h', heq, -⟩
      obtain ⟨rfl, rfl⟩ := h'.of_concat heq
      rw [← h.length_posts, h'.length_posts]
      exact ⟨by omega, h'⟩
    · rintro ⟨-, h'⟩
      exact ⟨i, before, _, h', rfl, rfl⟩
  | @raised i before e hi h he =>
    rw [h.sleeps_fit_iff fun hnet => he (isNetwork_raised.mp hnet)]
    constructor
    · rintro ⟨k, before', last, h', heq, -⟩
      obtain ⟨rfl, rfl⟩ := h'.of_concat heq
      rw [← h.length_posts, h'.length_posts]
      exact ⟨by omega, h'⟩
    · rintro ⟨-, h'⟩
      exact ⟨i, before, _, h', rfl, rfl, he⟩
  | @overflow i before e h he hi hnone =>
    refine iff_of_false ?_ ?_
    · rintro ⟨k, before', last, h', heq, hlast⟩
      obtain ⟨rfl, rfl⟩ := h'.of_concat heq
      cases hlast.1
    · rintro ⟨-, hall⟩
      have hnet : Outcome.isNetwork (.raised e) = true := isNetwork_raised.mpr he
      obtain ⟨seconds, hs, -⟩ := fits_iff.mp (hall i ((sleeps_iff h).mpr (Or.inr ⟨rfl, hnet, hi⟩)))
      rw [hnone] at hs
      cases hs

end

/-! ## Every call -/

section
variable {call : SendResult} {done : List Act} {point point' : ResultPoint}
  {answer : ResultAnswer} {steps : List (ResultPoint × ResultAnswer)} {outcome : ResultOutcome}

/-- What a call has done by the time it stands at a point. -/
def ResultStage (call : SendResult) (done : List Act) : ResultPoint → Prop
  | .posting frame _ => frame.call = call ∧ (frame.i : Int) < call.retries ∧
      Failed call.retries (fun j s => resultBackoff call.wait j = some s) frame.i done
  | .sleeping frame seconds => frame.call = call ∧ (frame.i : Int) + 1 < call.retries ∧
      resultBackoff call.wait frame.i = some seconds ∧
      ∃ before e, done = before ++ [.post (.raised e)] ∧ e.kind = .network ∧
        Failed call.retries (fun j s => resultBackoff call.wait j = some s) frame.i before
  | .done .interrupted => True
  | .done outcome => Finished call.retries call.wait done outcome

theorem resultStage_start : ResultStage call [] (startResult call) := by
  unfold startResult attempt
  dsimp only
  split
  · rename_i h
    exact ⟨rfl, h, .none⟩
  · rename_i h
    exact Finished.untried (by simpa using h)

/-- A post has ended in an error. -/
theorem resultStage_pause {frame : ResultFrame} {e : RxonError} (hcall : frame.call = call)
    (hi : (frame.i : Int) < call.retries) (he : e.kind = .network)
    (hlast : frame.lastError = some e)
    (h : Failed call.retries (fun j s => resultBackoff call.wait j = some s) frame.i done) :
    ResultStage call (done ++ [.post (.raised e)]) (pause frame) := by
  subst hcall
  unfold pause
  split
  · have hmore : (frame.i : Int) + 1 < frame.call.retries := by omega
    split
    · rename_i seconds hs
      exact ⟨rfl, hmore, hs, done, e, rfl, he, h⟩
    · rename_i hnone
      exact Finished.overflow h he hmore hnone
  · -- the budget is used up, so the loop ends with the error
    have hend : (frame.i : Int) + 1 = frame.call.retries := by omega
    unfold attempt
    dsimp only
    rw [if_neg (by push_cast; omega), hlast]
    exact Finished.raised hi h fun _ => hend

theorem acts_snoc (steps : List (ResultPoint × ResultAnswer)) (point : ResultPoint)
    (answer : ResultAnswer) :
    acts (steps ++ [(point, answer)]) = acts steps ++ (act (point, answer)).toList := by
  rw [acts, List.filterMap_append, ← acts]
  congr 1

theorem ResultStage.resume (h : ResultStage call (acts steps) point)
    (hr : resumeResult point answer = some point') :
    ResultStage call (acts (steps ++ [(point, answer)])) point' := by
  rw [acts_snoc]
  unfold resumeResult at hr
  split at hr
  · cases hr
    obtain ⟨hcall, hi, h⟩ := h
    rename_i frame sent outcome
    cases outcome with
    | returned resp => exact Finished.returned hi h
    | raised e =>
      simp only [onPosted]
      split
      · rename_i he
        exact resultStage_pause hcall hi he rfl h
      · rename_i he
        exact Finished.raised hi h fun hnet => absurd hnet he
    | interrupted => trivial
  · cases hr
    obtain ⟨rfl, hmore, hs, before, e, hdone, he, h⟩ := h
    rw [attempt]
    dsimp only
    rw [if_pos (by push_cast; omega)]
    refine ⟨rfl, by push_cast; omega, ?_⟩
    rw [hdone, List.append_assoc]
    exact .again h (isNetwork_raised.mpr he) hmore hs
  · cases hr
    trivial
  · cases hr

theorem resultStage_follows (hf : resultProgram.Follows call steps point) :
    ResultStage call (acts steps) point := by
  induction hf with
  | start s => exact resultStage_start
  | @resume steps point point' answer s s' hf hr ih =>
    obtain ⟨p, hp, heq⟩ := Option.map_eq_some_iff.mp hr
    cases heq
    exact ih.resume hp

/-- The posts of a call come out as the server and the connection have it. -/
def Posts (outcomes : Nat → Outcome) (done : List Act) : Prop :=
  ∀ i o, (posts done)[i]? = some o → o = outcomes i

theorem Posts.snoc {outcomes : Nat → Outcome} (h : Posts outcomes done) :
    Posts outcomes (done ++ [.post (outcomes (posts done).length)]) := by
  intro i o ho
  rw [posts_append] at ho
  by_cases hi : i < (posts done).length
  · rw [List.getElem?_append_left hi] at ho
    exact h i o ho
  · rw [List.getElem?_append_right (by omega)] at ho
    have hzero : i - (posts done).length = 0 := by
      have := (List.getElem?_eq_some_iff.mp ho).choose
      exact Nat.lt_one_iff.mp this
    rw [hzero] at ho
    cases ho
    rw [show i = (posts done).length from by omega]

theorem Posts.sleep {outcomes : Nat → Outcome} (h : Posts outcomes done) (seconds : PyVal) :
    Posts outcomes (done ++ [.sleep seconds]) := by
  rw [Posts, posts_append, show posts [.sleep seconds] = [] from rfl, List.append_nil]
  exact h

/-- A post ends the call, or leads to a sleep before another attempt. -/
theorem onPosted_cases (frame : ResultFrame) {o : Outcome} (ho : o ≠ .interrupted) :
    (∃ outcome, onPosted frame o = .done outcome ∧ outcome ≠ .interrupted) ∨
      ∃ e seconds, onPosted frame o = .sleeping { frame with lastError := some e } seconds ∧
        (frame.i : Int) + 1 < frame.call.retries := by
  cases o with
  | interrupted => exact absurd rfl ho
  | returned resp => exact Or.inl ⟨_, rfl, by simp⟩
  | raised e =>
    rw [onPosted]
    by_cases he : e.kind = .network
    · rw [if_pos he, pause]
      dsimp only
      by_cases hlt : (frame.i : Int) < frame.call.retries - 1
      · rw [if_pos hlt]
        cases hb : resultBackoff frame.call.wait frame.i with
        | none => exact Or.inl ⟨_, rfl, by simp⟩
        | some seconds => exact Or.inr ⟨e, seconds, rfl, by omega⟩
      · rw [if_neg hlt, attempt,
          if_neg (show ¬ ((frame.i + 1 : Nat) : Int) < frame.call.retries by omega)]
        exact Or.inl ⟨_, rfl, by simp⟩
    · rw [if_neg he]
      exact Or.inl ⟨_, rfl, by simp⟩

/-- One attempt: the call has ended, or stands at the next. -/
theorem posting_step {outcomes : Nat → Outcome} (hno : ∀ i, outcomes i ≠ .interrupted)
    {frame : ResultFrame} {sent : RequestArgs}
    (hf : resultProgram.Follows call steps (.posting frame sent))
    (hp : Posts outcomes (acts steps)) :
    (∃ steps outcome, resultProgram.Follows call steps (.done outcome) ∧
      outcome ≠ .interrupted ∧ Posts outcomes (acts steps)) ∨
    ∃ steps frame' sent, resultProgram.Follows call steps (.posting frame' sent) ∧
      frame'.i = frame.i + 1 ∧ Posts outcomes (acts steps) := by
  obtain ⟨-, hi, hfailed⟩ := resultStage_follows hf
  have hpost : resultProgram.resume (.posting frame sent) (.posted (outcomes frame.i)) () =
      some (onPosted frame (outcomes frame.i), ()) := rfl
  have hf' := hf.resume hpost
  have hp' : Posts outcomes
      (acts (steps ++ [(.posting frame sent, .posted (outcomes frame.i))])) := by
    rw [acts_snoc, ← hfailed.length_posts]
    exact hp.snoc
  rcases onPosted_cases frame (hno frame.i) with
    ⟨outcome, hdone, hint⟩ | ⟨e, seconds, hsleeping, hlt⟩
  · rw [hdone] at hf'
    exact Or.inl ⟨_, _, hf', hint, hp'⟩
  · right
    rw [hsleeping] at hf'
    -- after the sleep there is another attempt
    have hslept : resultProgram.resume (.sleeping { frame with lastError := some e } seconds)
        .slept () =
          some (attempt { frame with i := frame.i + 1, lastError := some e }, ()) := rfl
    rw [attempt, if_pos (show ((frame.i + 1 : Nat) : Int) < frame.call.retries by omega)] at hslept
    refine ⟨_, _, _, hf'.resume hslept, rfl, ?_⟩
    rw [acts_snoc]
    exact hp'.sleep seconds

/-- **However the posts come out, a call comes to an end**, if each of them does and no
sleep lasts forever. -/
theorem posting_ends {outcomes : Nat → Outcome} (hno : ∀ i, outcomes i ≠ .interrupted) (k : Nat)
    {frame : ResultFrame} {sent : RequestArgs} (hk : call.retries ≤ frame.i + k)
    (hf : resultProgram.Follows call steps (.posting frame sent))
    (hp : Posts outcomes (acts steps)) :
    ∃ steps outcome, resultProgram.Follows call steps (.done outcome) ∧
      outcome ≠ .interrupted ∧ Posts outcomes (acts steps) := by
  -- induction on the attempts that the budget leaves
  induction k generalizing steps frame sent with
  | zero =>
    have hi := (resultStage_follows hf).2.1
    omega
  | succ k ih =>
    rcases posting_step hno hf hp with hdone | ⟨steps', frame', sent', hf', hi, hp'⟩
    · exact hdone
    · exact ih (by omega) hf' hp'

theorem result_ends {outcomes : Nat → Outcome} (hno : ∀ i, outcomes i ≠ .interrupted) :
    ∃ steps outcome, resultProgram.Follows call steps (.done outcome) ∧
      outcome ≠ .interrupted ∧ Posts outcomes (acts steps) := by
  have hstart : resultProgram.Follows call [] (startResult call) := .start ()
  have hnil : Posts outcomes (acts []) := fun i o ho => by cases ho
  rw [startResult, attempt] at hstart
  dsimp only at hstart
  split at hstart
  · exact posting_ends hno call.retries.toNat (by omega) hstart hnil
  · exact ⟨_, _, hstart, by simp, hnil⟩

/-- **A result is delivered iff there is an attempt to make and every sleep it needs is
a number of seconds**: whatever the budget, the delay and the outcomes of the posts, a
call that is not cancelled comes to an end, and it has done what `ResultDelivered` says iff the
budget is at least one and the products `wait * 2 ** i` of the attempts that fail before
the last do not leave the floats. -/
theorem result_delivered_iff (call : SendResult) (outcomes : Nat → Outcome)
    (hno : ∀ i, outcomes i ≠ .interrupted) :
    (∃ steps outcome, resultProgram.Follows call steps (.done outcome) ∧
      outcome ≠ .interrupted ∧ Posts outcomes (acts steps)) ∧
    ∀ steps outcome, resultProgram.Follows call steps (.done outcome) → outcome ≠ .interrupted →
      Posts outcomes (acts steps) →
      (ResultDelivered call.retries call.wait (acts steps) outcome ↔
        1 ≤ call.retries ∧
          ∀ i, Sleeps call.retries (posts (acts steps)) i → call.wait.Fits i) := by
  refine ⟨result_ends hno, fun steps outcome h hint _ => ?_⟩
  have hstage := resultStage_follows h
  cases outcome with
  | interrupted => exact absurd rfl hint
  | returned value => exact Finished.delivers_iff hstage
  | raised e => exact Finished.delivers_iff hstage
  | overflow => exact Finished.delivers_iff hstage

/-- A call whose first post does not get through. -/
def retriedResult : SendResult := ⟨.none, none, none, 3, .int 1⟩

def refusedError : RxonError := ⟨.network, .str "Network error: refused", []⟩

/-- What its posts come to. -/
def retriedOutcome : Nat → Outcome
  | 0 => .raised refusedError
  | _ => .returned .none

/-- A result that is acknowledged at the second attempt, a second after the first. -/
theorem result_delivered_iff_retried :
    ResultDelivered 3 (.int 1)
      [.post (retriedOutcome 0), .sleep (.int 1), .post (retriedOutcome 1)] (.returned true) := by
  have hno : ∀ i, retriedOutcome i ≠ .interrupted := by rintro (_ | i) h <;> cases h
  have hstart : resultProgram.Follows retriedResult [] (startResult retriedResult) := .start ()
  let frame : ResultFrame := ⟨retriedResult, 0, some refusedError⟩
  have hlost : resultProgram.resume (startResult retriedResult) (.posted (retriedOutcome 0)) () =
      some (.sleeping frame (.int 1), ()) := rfl
  have hslept : resultProgram.resume (.sleeping frame (.int 1)) .slept () =
      some (attempt { frame with i := 1 }, ()) := rfl
  have hpost : resultProgram.resume (attempt { frame with i := 1 }) (.posted (retriedOutcome 1))
      () = some (.done (.returned true), ()) := rfl
  have hposts : Posts retriedOutcome
      [.post (retriedOutcome 0), .sleep (.int 1), .post (retriedOutcome 1)] := by
    rintro (_ | _ | i) o ho
    · exact (Option.some.inj ho).symm
    · exact (Option.some.inj ho).symm
    · cases ho
  exact ((result_delivered_iff retriedResult _ hno).2 _ _
    (((hstart.resume hlost).resume hslept).resume hpost) (by simp) hposts).mpr
      ⟨by decide, fun _ _ => trivial⟩

/-- Under a budget of zero a result is dropped: nothing is posted, and `False` is
returned. -/
theorem result_dropped :
    resultProgram.Follows ⟨.none, some 0, none, 3, .int 1⟩ [] (.done (.returned false)) ∧
      ¬ ResultDelivered 0 (.int 1) [] (.returned false) := by
  refine ⟨.start (), ?_⟩
  rintro ⟨i, before, last, -, hacts, -⟩
  simp at hacts

end

end Rxon
