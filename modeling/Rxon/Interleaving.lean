import Mathlib.Data.List.Induction

/-! # Cooperative interleaving

Runs of a labelled transition relation, and the transition relation of a
single-threaded event loop: any number of coroutines over one shared state, each
running alone from one await to the next.  What happens between two awaits is one
step, so a step of one coroutine can change what another one reads only while that
one is suspended.

Invariants come in two forms.  `Run.invariant` carries a predicate of the labels so
far and the state along a run; `Program.run_invariant` needs a shared part, and a
part about each suspended coroutine that the others' steps must leave true. -/

namespace Interleaving

/-! ## Runs -/

/-- `Run step s ls t`: the labels `ls`, in order, lead from `s` to `t`. -/
inductive Run {S L : Type} (step : S → L → S → Prop) (s : S) : List L → S → Prop
  | nil : Run step s [] s
  | snoc {ls : List L} {t u : S} {l : L} (h : Run step s ls t) (hl : step t l u) :
      Run step s (ls ++ [l]) u

namespace Run
variable {S L : Type} {step : S → L → S → Prop} {s t : S} {ls : List L}

theorem of_step {l : L} (h : step s l t) : Run step s [l] t := .snoc .nil h

theorem trans {ls' : List L} {u : S} (h : Run step s ls t) (h' : Run step t ls' u) :
    Run step s (ls ++ ls') u := by
  induction h' with
  | nil => rwa [List.append_nil]
  | snoc _ hl ih =>
    rw [← List.append_assoc]
    exact .snoc ih hl

/-- **The invariant rule**: what holds before the run and survives every step of it
holds after it, of the labels passed and the state reached. -/
theorem invariant (I : List L → S → Prop) (h0 : I [] s)
    (hstep : ∀ ls t l u, I ls t → step t l u → I (ls ++ [l]) u) (h : Run step s ls t) : I ls t := by
  induction h with
  | nil => exact h0
  | snoc _ hl ih => exact hstep _ _ _ _ ih hl

/-- **Simulation**: where `I` is an invariant under which every step of one relation
is, seen through `f`, a step of the other or none at all, every run of the first becomes
a run of the second. -/
theorem simulation {S' L' : Type} {step' : S' → L' → S' → Prop} (f : S → S') (I : S → Prop)
    (hI : ∀ t l u, I t → step t l u → I u)
    (hstep : ∀ t l u, I t → step t l u → f u = f t ∨ ∃ l', step' (f t) l' (f u))
    (h0 : I s) (h : Run step s ls t) : I t ∧ ∃ ls', Run step' (f s) ls' (f t) := by
  induction h with
  | nil => exact ⟨h0, [], .nil⟩
  | snoc _ hl ih =>
    obtain ⟨hIt, ls', hrun⟩ := ih
    refine ⟨hI _ _ _ hIt hl, ?_⟩
    rcases hstep _ _ _ hIt hl with heq | ⟨l', hl'⟩
    · exact ⟨ls', heq ▸ hrun⟩
    · exact ⟨ls' ++ [l'], .snoc hrun hl'⟩

end Run

/-! ## Coroutines -/

/-- The code of the coroutines of an event loop.  `start` runs a new call up to its
first await; `resume` runs a suspended one from its await to the next, on the answer
it awaited, and is undefined on an answer it does not wait for. -/
structure Program (Shared Call Point Answer : Type) where
  start : Call → Shared → Point × Shared
  resume : Point → Answer → Shared → Option (Point × Shared)

namespace Program
variable {Shared Call Point Answer : Type}

/-- The shared state and where each coroutine stands, in the order of their starts. -/
structure Config (Shared Point : Type) where
  shared : Shared
  points : List Point

inductive Event (Call Answer : Type) where
  | start (call : Call)
  | resume (coroutine : Nat) (answer : Answer)

variable (P : Program Shared Call Point Answer)

/-- One step of the event loop. -/
def next (c : Config Shared Point) : Event Call Answer → Option (Config Shared Point)
  | .start call =>
    let (point, shared) := P.start call c.shared
    some ⟨shared, c.points ++ [point]⟩
  | .resume i answer => do
    let point ← c.points[i]?
    let (point, shared) ← P.resume point answer c.shared
    return ⟨shared, c.points.set i point⟩

/-- The event loop as a transition relation. -/
def Step (c : Config Shared Point) (e : Event Call Answer) (c' : Config Shared Point) : Prop :=
  P.next c e = some c'

variable {P} {c c' : Config Shared Point} {e : Event Call Answer}

/-- **What a step can be**: a new coroutine run up to its first await, or a
suspended one run from its await to the next. -/
theorem step_cases (h : P.Step c e c') :
    (∃ call point shared, e = .start call ∧ P.start call c.shared = (point, shared) ∧
      c' = ⟨shared, c.points ++ [point]⟩) ∨
    (∃ i answer old point shared, e = .resume i answer ∧ c.points[i]? = some old ∧
      P.resume old answer c.shared = some (point, shared) ∧
      c' = ⟨shared, c.points.set i point⟩) := by
  cases e with
  | start call =>
    left
    exact ⟨call, _, _, rfl, rfl, (Option.some.inj h).symm⟩
  | resume i answer =>
    right
    simp only [Step, next, Option.bind_eq_bind, Option.bind_eq_some_iff] at h
    obtain ⟨old, hi, ⟨point, shared⟩, hr, heq⟩ := h
    exact ⟨i, answer, old, point, shared, rfl, hi, hr, (Option.some.inj heq).symm⟩

/-- A call that is started is the last of the coroutines. -/
theorem start_cases {call : Call} (h : P.Step c (.start call) c') :
    c' = ⟨(P.start call c.shared).2, c.points ++ [(P.start call c.shared).1]⟩ := by
  rcases step_cases h with ⟨_, point, shared, he, hs, rfl⟩ | ⟨_, _, _, _, _, he, -⟩
  · cases he
    rw [hs]
  · cases he

/-- A coroutine that is resumed goes on from where it stands, and the others stay. -/
theorem resume_cases {i : Nat} {answer : Answer} {point : Point} (hi : c.points[i]? = some point)
    (h : P.Step c (.resume i answer) c') :
    ∃ point' shared, P.resume point answer c.shared = some (point', shared) ∧
      c' = ⟨shared, c.points.set i point'⟩ := by
  rcases step_cases h with ⟨_, _, _, he, -⟩ | ⟨_, _, old, new, shared, he, hold, hr, rfl⟩
  · cases he
  · cases he
    rw [hi] at hold
    cases hold
    exact ⟨new, shared, hr, rfl⟩

variable (P) in
/-- The event loop run on a sequence of events, as far as each of them can happen. -/
def runAll (c : Config Shared Point) (es : List (Event Call Answer)) :
    Option (Config Shared Point) :=
  es.foldlM P.next c

/-- Runs can be computed. -/
theorem runAll_iff {es : List (Event Call Answer)} :
    P.runAll c es = some c' ↔ Run P.Step c es c' := by
  constructor
  · induction es using List.reverseRecOn generalizing c' with
    | nil =>
      intro h
      cases h
      exact .nil
    | append_singleton es e ih =>
      intro h
      rw [runAll, List.foldlM_append] at h
      simp only [Option.bind_eq_bind, Option.bind_eq_some_iff, List.foldlM_cons, List.foldlM_nil,
        Option.pure_def, Option.some.injEq, exists_eq_right] at h
      obtain ⟨d, hd, h⟩ := h
      exact .snoc (ih hd) h
  · intro h
    induction h with
    | nil => rfl
    | snoc _ hl ih =>
      rw [runAll, List.foldlM_append, ← runAll, ih]
      simpa [Step] using hl

/-- **Invariants of an event loop.**  `J` is about the shared state and the events so
far, `K` also about one coroutine.  A coroutine that runs keeps `J`, reaches a point of
which `K` holds, and leaves `K` true of every other point. -/
theorem run_invariant {J : List (Event Call Answer) → Shared → Prop}
    {K : List (Event Call Answer) → Shared → Point → Prop}
    (hstart : ∀ es s call point s', J es s → P.start call s = (point, s') →
      J (es ++ [.start call]) s' ∧ K (es ++ [.start call]) s' point ∧
        ∀ q, K es s q → K (es ++ [.start call]) s' q)
    (hresume : ∀ es s i old answer point s', J es s → K es s old →
      P.resume old answer s = some (point, s') →
      J (es ++ [.resume i answer]) s' ∧ K (es ++ [.resume i answer]) s' point ∧
        ∀ q, K es s q → K (es ++ [.resume i answer]) s' q)
    {es : List (Event Call Answer)} (hJ : J [] c.shared) (hK : ∀ q ∈ c.points, K [] c.shared q)
    (h : Run P.Step c es c') : J es c'.shared ∧ ∀ q ∈ c'.points, K es c'.shared q := by
  refine Run.invariant (fun es c => J es c.shared ∧ ∀ q ∈ c.points, K es c.shared q) ⟨hJ, hK⟩ ?_ h
  intro es c e c' ⟨hJ, hK⟩ hstep
  rcases step_cases hstep with ⟨call, point, s', rfl, hs, rfl⟩ |
    ⟨i, a, old, point, s', rfl, hi, hr, rfl⟩
  · obtain ⟨hJ', hnew, hold⟩ := hstart es _ _ _ _ hJ hs
    refine ⟨hJ', fun q hq => ?_⟩
    rcases List.mem_append.mp hq with hq | hq
    · exact hold q (hK q hq)
    · rwa [List.mem_singleton.mp hq]
  · obtain ⟨hJ', hnew, hold⟩ :=
      hresume es _ i _ _ _ _ hJ (hK old (List.mem_of_getElem? hi)) hr
    refine ⟨hJ', fun q hq => ?_⟩
    rcases List.mem_or_eq_of_mem_set hq with hq | rfl
    · exact hold q (hK q hq)
    · exact hnew

/-- **Invariants of one coroutine**: what holds of where it stands and survives each of
its own steps holds throughout, whatever the others do. -/
theorem run_point_invariant {I : Point → Prop} {i : Nat}
    (hresume : ∀ old answer s point s', I old → P.resume old answer s = some (point, s') → I point)
    {es : List (Event Call Answer)} (h0 : ∃ q, c.points[i]? = some q ∧ I q)
    (h : Run P.Step c es c') : ∃ q, c'.points[i]? = some q ∧ I q := by
  refine Run.invariant (fun _ c => ∃ q, c.points[i]? = some q ∧ I q) h0 ?_ h
  rintro es c e c' ⟨q, hi, hq⟩ hstep
  obtain ⟨hlt, -⟩ := List.getElem?_eq_some_iff.mp hi
  rcases step_cases hstep with ⟨call, point, s', rfl, -, rfl⟩ |
    ⟨j, answer, old, point, s', rfl, hj, hr, rfl⟩
  · exact ⟨q, (List.getElem?_append_left hlt).trans hi, hq⟩
  · by_cases hij : j = i
    · subst hij
      rw [hi] at hj
      cases hj
      exact ⟨point, by simp [hlt], hresume _ _ _ _ _ hq hr⟩
    · exact ⟨q, (List.getElem?_set_ne hij).trans hi, hq⟩

/-! ## What one coroutine goes through -/

/-- The calls started so far; the `i`-th is coroutine `i`. -/
def calls : List (Event Call Answer) → List Call :=
  List.filterMap fun
    | .start call => some call
    | .resume _ _ => none

variable (P) in
/-- What an event is for coroutine `i`: where it stood and what it was answered. -/
def own (i : Nat) (c : Config Shared Point) : Event Call Answer → Option (Point × Answer)
  | .start _ => none
  | .resume j answer => if j = i then c.points[i]?.map fun point => (point, answer) else none

variable (P) in
/-- The steps of coroutine `i` in a run from `c`: where it stood each time it was
resumed, and what it was answered. -/
def trail (i : Nat) (c : Config Shared Point) : List (Event Call Answer) → List (Point × Answer)
  | [] => []
  | e :: es =>
    (own i c e).toList ++ match P.next c e with
      | some c' => trail i c' es
      | none => []

variable (P) in
/-- What a call can go through, whatever state the others leave it at each of its
steps: it is answered at these points and stands at the last. -/
inductive Follows (call : Call) : List (Point × Answer) → Point → Prop
  | start (s : Shared) : Follows call [] (P.start call s).1
  | resume {steps : List (Point × Answer)} {point point' : Point} {answer : Answer}
      {s s' : Shared} (h : Follows call steps point)
      (hr : P.resume point answer s = some (point', s')) :
      Follows call (steps ++ [(point, answer)]) point'

theorem calls_append (es es' : List (Event Call Answer)) :
    calls (es ++ es') = calls es ++ calls es' := List.filterMap_append

theorem trail_append {es : List (Event Call Answer)} (i : Nat) (es' : List (Event Call Answer))
    (h : Run P.Step c es c') : P.trail i c (es ++ es') = P.trail i c es ++ P.trail i c' es' := by
  rw [← runAll_iff] at h
  induction es generalizing c with
  | nil =>
    cases h
    rfl
  | cons e es ih =>
    rw [runAll, List.foldlM_cons] at h
    obtain ⟨d, hd, h⟩ := Option.bind_eq_some_iff.mp h
    rw [List.cons_append, trail, trail, hd, List.append_assoc]
    congr 1
    exact ih h

theorem trail_snoc {es : List (Event Call Answer)} (i : Nat) (e : Event Call Answer)
    (h : Run P.Step c es c') : P.trail i c (es ++ [e]) = P.trail i c es ++ (own i c' e).toList := by
  rw [trail_append i [e] h, trail]
  congr 1
  split <;> exact List.append_nil _

theorem calls_length {es : List (Event Call Answer)} {s : Shared} (h : Run P.Step ⟨s, []⟩ es c) :
    c.points.length = (calls es).length := by
  refine Run.invariant (fun es c => c.points.length = (calls es).length) rfl ?_ h
  intro es c e c' hlen hstep
  rw [calls_append, List.length_append, ← hlen]
  rcases step_cases hstep with ⟨call, point, s', rfl, -, rfl⟩ |
    ⟨j, answer, old, point, s', rfl, -, -, rfl⟩
  · rw [List.length_append]
    rfl
  · rw [List.length_set]
    rfl

/-- A call that is not started yet has gone through nothing. -/
theorem trail_of_unstarted {es : List (Event Call Answer)} {s : Shared} {i : Nat}
    (hi : c.points.length ≤ i) (h : Run P.Step ⟨s, []⟩ es c) : P.trail i ⟨s, []⟩ es = [] := by
  induction h with
  | nil => rfl
  | @snoc es d u e hrun hl ih =>
    rcases step_cases hl with ⟨call, point, s', rfl, -, rfl⟩ |
      ⟨j, answer, old, point, s', rfl, hj, -, rfl⟩
    · rw [List.length_append] at hi
      rw [trail_snoc i _ hrun, ih (Nat.le_of_succ_le hi)]
      rfl
    · rw [List.length_set] at hi
      have hij : j ≠ i := by
        rintro rfl
        rw [List.getElem?_eq_none hi] at hj
        cases hj
      rw [trail_snoc i _ hrun, ih hi, own, if_neg hij]
      rfl

variable (P) in
/-- What a call can go through that was started at `s`. -/
inductive FollowsFrom (call : Call) (s : Shared) : List (Point × Answer) → Point → Prop
  | start : FollowsFrom call s [] (P.start call s).1
  | resume {steps : List (Point × Answer)} {point point' : Point} {answer : Answer}
      {t t' : Shared} (h : FollowsFrom call s steps point)
      (hr : P.resume point answer t = some (point', t')) :
      FollowsFrom call s (steps ++ [(point, answer)]) point'

theorem FollowsFrom.follows {call : Call} {s : Shared} {steps : List (Point × Answer)}
    {point : Point} (h : P.FollowsFrom call s steps point) : P.Follows call steps point := by
  induction h with
  | start => exact .start s
  | resume _ hr ih => exact .resume ih hr

/-- **In every run each call goes through what it can go through**, from the state in which
it was started, and stands where that leads. -/
theorem run_follows_from {es : List (Event Call Answer)} {s : Shared} {i : Nat} {call : Call}
    (h : Run P.Step ⟨s, []⟩ es c) (hi : (calls es)[i]? = some call) :
    ∃ es₀ c₀ point, es₀ <+: es ∧ Run P.Step ⟨s, []⟩ es₀ c₀ ∧ calls es₀ = (calls es).take i ∧
      c.points[i]? = some point ∧ P.FollowsFrom call c₀.shared (P.trail i ⟨s, []⟩ es) point := by
  induction h with
  | nil => cases hi
  | @snoc es d u e hrun hl ih =>
    rw [trail_snoc i e hrun]
    rw [calls_append] at hi ⊢
    rcases step_cases hl with ⟨call', point, s', rfl, hs, rfl⟩ |
      ⟨j, answer, old, point, s', rfl, hj, hr, rfl⟩
    · by_cases hlt : i < (calls es).length
      · rw [List.getElem?_append_left hlt] at hi
        obtain ⟨es₀, c₀, q, hpre, hrun₀, hcalls, hq, hf⟩ := ih hi
        refine ⟨es₀, c₀, q, hpre.trans (List.prefix_append ..), hrun₀, ?_, ?_,
          by rwa [own, Option.toList_none, List.append_nil]⟩
        · rwa [List.take_append_of_le_length (Nat.le_of_lt hlt)]
        · rw [← calls_length hrun] at hlt
          rwa [List.getElem?_append_left hlt]
      · -- the new call stands where its start leads
        have hlast : i = (calls es).length := by
          have hbound := (List.getElem?_eq_some_iff.mp hi).choose
          rw [List.length_append] at hbound
          simp only [calls, List.filterMap_cons, List.filterMap_nil, List.length_cons,
            List.length_nil] at hbound hlt ⊢
          omega
        rw [hlast, List.getElem?_append_right (Nat.le_refl _), Nat.sub_self] at hi
        cases hi
        rw [hlast, List.take_left]
        refine ⟨es, d, point, List.prefix_append .., hrun, rfl, ?_, ?_⟩
        · rw [← calls_length hrun]
          exact List.getElem?_concat_length
        · have hpoint : (P.start call d.shared).1 = point := congrArg Prod.fst hs
          rw [← calls_length hrun, trail_of_unstarted (Nat.le_refl _) hrun, ← hpoint]
          exact .start
    · have hsame : calls es ++ calls [Event.resume j answer] = calls es := List.append_nil _
      rw [hsame] at hi ⊢
      obtain ⟨es₀, c₀, q, hpre, hrun₀, hcalls, hq, hf⟩ := ih hi
      have hpre' := hpre.trans (List.prefix_append es [Event.resume j answer])
      by_cases hij : j = i
      · subst hij
        rw [hq] at hj
        cases hj
        have hlt := (List.getElem?_eq_some_iff.mp hq).choose
        refine ⟨es₀, c₀, point, hpre', hrun₀, hcalls, by simp [hlt], ?_⟩
        rw [own, if_pos rfl, hq]
        exact .resume hf hr
      · refine ⟨es₀, c₀, q, hpre', hrun₀, hcalls, (List.getElem?_set_ne hij).trans hq, ?_⟩
        rwa [own, if_neg hij, Option.toList_none, List.append_nil]

theorem run_follows {es : List (Event Call Answer)} {s : Shared} {i : Nat} {call : Call}
    (h : Run P.Step ⟨s, []⟩ es c) (hi : (calls es)[i]? = some call) :
    ∃ point, c.points[i]? = some point ∧ P.Follows call (P.trail i ⟨s, []⟩ es) point := by
  obtain ⟨_, _, point, -, -, -, hpoint, hf⟩ := run_follows_from h hi
  exact ⟨point, hpoint, hf.follows⟩

/-! ## What a run shows -/

section
variable {β : Type} (f : Config Shared Point → Event Call Answer → List β)

variable (P) in
/-- What the steps of a run from `c` show, in order, by the state before each of them. -/
def observe (c : Config Shared Point) : List (Event Call Answer) → List β
  | [] => []
  | e :: es =>
    f c e ++ match P.next c e with
      | some c' => observe c' es
      | none => []

theorem observe_append {es : List (Event Call Answer)} (es' : List (Event Call Answer))
    (h : Run P.Step c es c') :
    P.observe f c (es ++ es') = P.observe f c es ++ P.observe f c' es' := by
  rw [← runAll_iff] at h
  induction es generalizing c with
  | nil =>
    cases h
    rfl
  | cons e es ih =>
    rw [runAll, List.foldlM_cons] at h
    obtain ⟨d, hd, h⟩ := Option.bind_eq_some_iff.mp h
    rw [List.cons_append, observe, observe, hd, List.append_assoc]
    congr 1
    exact ih h

theorem observe_snoc {es : List (Event Call Answer)} (e : Event Call Answer)
    (h : Run P.Step c es c') : P.observe f c (es ++ [e]) = P.observe f c es ++ f c' e := by
  rw [observe_append f [e] h, observe]
  congr 1
  split <;> exact List.append_nil _

end

end Program

end Interleaving
