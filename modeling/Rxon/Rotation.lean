import Rxon.Interleaving
import Mathlib.Data.Set.Insert
import Mathlib.Logic.Function.Basic

/-! # Rotating single-use tokens

An issuer accepts each token once and answers it with a fresh one.  Any number of
agents share one store: an agent asks with the token it finds there (or with none,
which the issuer always accepts), and puts the token it is granted back.

Two agents that ask with the same token compete, and the one that is served second is
refused.  If an agent asks only while no other one is under way with the stored token,
nobody is ever refused (`never_refused`). -/

namespace Rotation
open Interleaving

/-- How far an agent's exchange has come; `token` is what it asked with. -/
inductive Stage (τ : Type) where
  | idle
  | asked (token : Option τ)
  | granted (token : Option τ) (fresh : τ)

/-- The token an agent is under way with. -/
def Stage.carried? {τ : Type} : Stage τ → Option τ
  | .idle => none
  | .asked token | .granted token _ => token

/-- The token an agent has been granted and not yet put into the store. -/
def Stage.fresh? {τ : Type} : Stage τ → Option τ
  | .idle | .asked _ => none
  | .granted _ fresh => some fresh

structure State (ι τ : Type) where
  store : Option τ
  usable : Set τ
  seen : Set τ
  stage : ι → Stage τ

inductive Label (ι τ : Type) where
  | ask (i : ι)
  | accept (i : ι) (fresh : τ)
  | refuse (i : ι)
  | adopt (i : ι)

variable {ι τ : Type} {s s' : State ι τ} {l : Label ι τ}

section
variable [DecidableEq ι]

/-- One step of an agent or of the issuer. -/
inductive Step : State ι τ → Label ι τ → State ι τ → Prop
  | ask (s : State ι τ) (i : ι) (h : s.stage i = .idle) :
      Step s (.ask i) { s with stage := Function.update s.stage i (.asked s.store) }
  | accept (s : State ι τ) (i : ι) (token : Option τ) (fresh : τ) (h : s.stage i = .asked token)
      (husable : ∀ t, token = some t → t ∈ s.usable) (hfresh : fresh ∉ s.seen) :
      Step s (.accept i fresh)
        { s with
          usable := insert fresh { t ∈ s.usable | token ≠ some t }
          seen := insert fresh s.seen
          stage := Function.update s.stage i (.granted token fresh) }
  | refuse (s : State ι τ) (i : ι) (t : τ) (h : s.stage i = .asked (some t))
      (hused : t ∉ s.usable) :
      Step s (.refuse i) { s with stage := Function.update s.stage i .idle }
  | adopt (s : State ι τ) (i : ι) (token : Option τ) (fresh : τ)
      (h : s.stage i = .granted token fresh) :
      Step s (.adopt i)
        { s with store := some fresh, stage := Function.update s.stage i .idle }

end

/-- An agent asks only while no other one is under way with the stored token. -/
def Solo (s : State ι τ) (l : Label ι τ) : Prop :=
  ∀ i, l = .ask i → ∀ t, s.store = some t → ∀ j, (s.stage j).carried? ≠ some t

/-- The steps that respect `Solo`. -/
def SoloStep [DecidableEq ι] (s : State ι τ) (l : Label ι τ) (s' : State ι τ) : Prop :=
  Step s l s' ∧ Solo s l

/-- Before any exchange: nobody is under way, and the stored token has not been used. -/
structure Initial (s : State ι τ) : Prop where
  idle : ∀ i, s.stage i = .idle
  store : ∀ t, s.store = some t → t ∈ s.usable
  seen : s.usable ⊆ s.seen

/-- **The invariant of solo exchanges.**  The stored token is usable unless an agent is
under way with it; so is every token asked with and not yet answered; and every granted
token, which nobody else has. -/
structure Safe (s : State ι τ) : Prop where
  usable_seen : s.usable ⊆ s.seen
  store_seen : ∀ t, s.store = some t → t ∈ s.seen
  carried_seen : ∀ i t, (s.stage i).carried? = some t → t ∈ s.seen
  store : ∀ t, s.store = some t → t ∈ s.usable ∨ ∃ i, (s.stage i).carried? = some t
  carried_once : ∀ i j t, (s.stage i).carried? = some t → (s.stage j).carried? = some t → i = j
  asked : ∀ i t, s.stage i = .asked (some t) → t ∈ s.usable
  fresh : ∀ i t, (s.stage i).fresh? = some t →
    t ∈ s.usable ∧ s.store ≠ some t ∧ ∀ j, (s.stage j).carried? ≠ some t
  fresh_once : ∀ i j t, (s.stage i).fresh? = some t → (s.stage j).fresh? = some t → i = j

theorem Initial.safe (h : Initial s) : Safe s where
  usable_seen := h.seen
  store_seen t ht := h.seen (h.store t ht)
  carried_seen i t ht := by rw [h.idle i] at ht; cases ht
  store t ht := Or.inl (h.store t ht)
  carried_once i j t hi := by rw [h.idle i] at hi; cases hi
  asked i t ht := by rw [h.idle i] at ht; cases ht
  fresh i t ht := by rw [h.idle i] at ht; cases ht
  fresh_once i j t hi := by rw [h.idle i] at hi; cases hi

variable [DecidableEq ι]

/-- What an agent carries after the stage of one agent has changed. -/
theorem carried_update {f : ι → Stage τ} {i j : ι} {st : Stage τ} {t : τ} :
    (Function.update f i st j).carried? = some t ↔
      (j = i ∧ st.carried? = some t) ∨ (j ≠ i ∧ (f j).carried? = some t) := by
  by_cases h : j = i
  · subst h; simp
  · simp [h]

theorem fresh_update {f : ι → Stage τ} {i j : ι} {st : Stage τ} {t : τ} :
    (Function.update f i st j).fresh? = some t ↔
      (j = i ∧ st.fresh? = some t) ∨ (j ≠ i ∧ (f j).fresh? = some t) := by
  by_cases h : j = i
  · subst h; simp
  · simp [h]

theorem Safe.ask (h : Safe s) {i : ι} (hi : s.stage i = .idle) (hsolo : Solo s (.ask i)) :
    Safe { s with stage := Function.update s.stage i (.asked s.store) } := by
  -- the stored token is carried by nobody, so it was not used
  have hnobody : ∀ t, s.store = some t → ∀ j, (s.stage j).carried? ≠ some t := hsolo i rfl
  have hfree : ∀ t, s.store = some t → t ∈ s.usable := fun t ht => by
    rcases h.store t ht with hu | ⟨j, hj⟩
    · exact hu
    · exact absurd hj (hnobody t ht j)
  refine ⟨h.usable_seen, h.store_seen, ?_, ?_, ?_, ?_, ?_, ?_⟩
  · intro j t hj
    rcases carried_update.mp hj with ⟨-, hstore⟩ | ⟨-, hj⟩
    · exact h.store_seen t hstore
    · exact h.carried_seen j t hj
  · intro t ht
    exact Or.inl (hfree t ht)
  · intro j k t hj hk
    rcases carried_update.mp hj with ⟨hji, hj'⟩ | ⟨-, hj'⟩ <;>
      rcases carried_update.mp hk with ⟨hki, hk'⟩ | ⟨-, hk'⟩
    · exact hji.trans hki.symm
    · exact absurd hk' (hnobody t hj' k)
    · exact absurd hj' (hnobody t hk' j)
    · exact h.carried_once j k t hj' hk'
  · intro j t hj
    by_cases hji : j = i
    · subst hji
      simp only [Function.update_self, Stage.asked.injEq] at hj
      exact hfree t hj
    · simp only [Function.update_of_ne hji] at hj
      exact h.asked j t hj
  · intro j t hj
    rcases fresh_update.mp hj with ⟨-, hj⟩ | ⟨-, hj⟩
    · cases hj
    · obtain ⟨hu, hs, hc⟩ := h.fresh j t hj
      refine ⟨hu, hs, fun k hk => ?_⟩
      rcases carried_update.mp hk with ⟨-, hk⟩ | ⟨-, hk⟩
      · exact hs hk
      · exact hc k hk
  · intro j k t hj hk
    rcases fresh_update.mp hj with ⟨-, hj⟩ | ⟨-, hj⟩
    · cases hj
    rcases fresh_update.mp hk with ⟨-, hk⟩ | ⟨-, hk⟩
    · cases hk
    · exact h.fresh_once j k t hj hk

theorem Safe.accept (h : Safe s) {i : ι} {token : Option τ} {fresh : τ}
    (hi : s.stage i = .asked token) (hfresh : fresh ∉ s.seen) :
    Safe { s with
      usable := insert fresh { t ∈ s.usable | token ≠ some t }
      seen := insert fresh s.seen
      stage := Function.update s.stage i (.granted token fresh) } := by
  have hcarry : ∀ t, token = some t → (s.stage i).carried? = some t := fun t ht => by
    rw [hi]; exact ht
  -- what was carried before is carried still
  have hsame : ∀ j t, (Function.update s.stage i (.granted token fresh) j).carried? = some t ↔
      (s.stage j).carried? = some t := fun j t => by
    rw [carried_update]
    by_cases hji : j = i
    · subst hji; simp [hi, Stage.carried?]
    · simp [hji]
  refine ⟨?_, ?_, ?_, ?_, ?_, ?_, ?_, ?_⟩
  · rintro t (rfl | ⟨ht, -⟩)
    · exact Or.inl rfl
    · exact Or.inr (h.usable_seen ht)
  · exact fun t ht => Or.inr (h.store_seen t ht)
  · exact fun j t hj => Or.inr (h.carried_seen j t ((hsame j t).mp hj))
  · intro t ht
    -- the token that was used up is carried by the agent that asked with it
    by_cases htoken : token = some t
    · exact Or.inr ⟨i, (hsame i t).mpr (hcarry t htoken)⟩
    · rcases h.store t ht with hu | ⟨j, hj⟩
      · exact Or.inl (Or.inr ⟨hu, htoken⟩)
      · exact Or.inr ⟨j, (hsame j t).mpr hj⟩
  · intro j k t hj hk
    exact h.carried_once j k t ((hsame j t).mp hj) ((hsame k t).mp hk)
  · intro j t hj
    by_cases hji : j = i
    · subst hji
      simp at hj
    · simp only [Function.update_of_ne hji] at hj
      refine Or.inr ⟨h.asked j t hj, fun htoken => hji ?_⟩
      exact h.carried_once j i t (by rw [hj]; rfl) (hcarry t htoken)
  · intro j t hj
    rcases fresh_update.mp hj with ⟨-, hnew⟩ | ⟨-, hold⟩
    · cases hnew
      refine ⟨Or.inl rfl, fun hs => hfresh (h.store_seen _ hs), fun k hk => ?_⟩
      exact hfresh (h.carried_seen k _ ((hsame k _).mp hk))
    · obtain ⟨hu, hs, hc⟩ := h.fresh j t hold
      refine ⟨Or.inr ⟨hu, fun htoken => hc i (hcarry t htoken)⟩, hs, fun k hk => ?_⟩
      exact hc k ((hsame k t).mp hk)
  · intro j k t hj hk
    rcases fresh_update.mp hj with ⟨hji, hj'⟩ | ⟨-, hj'⟩ <;>
      rcases fresh_update.mp hk with ⟨hki, hk'⟩ | ⟨-, hk'⟩
    · exact hji.trans hki.symm
    · cases hj'
      exact absurd (h.usable_seen (h.fresh k _ hk').1) hfresh
    · cases hk'
      exact absurd (h.usable_seen (h.fresh j _ hj').1) hfresh
    · exact h.fresh_once j k t hj' hk'

theorem Safe.adopt (h : Safe s) {i : ι} {token : Option τ} {fresh : τ}
    (hi : s.stage i = .granted token fresh) :
    Safe { s with store := some fresh, stage := Function.update s.stage i .idle } := by
  -- the token to be stored has been granted to `i` only
  have hnew := h.fresh i fresh (by rw [hi]; rfl)
  have hcarried : ∀ j t, (Function.update s.stage i .idle j).carried? = some t →
      (s.stage j).carried? = some t := fun j t hj => by
    rcases carried_update.mp hj with ⟨-, hj⟩ | ⟨-, hj⟩
    · cases hj
    · exact hj
  have hfreshes : ∀ j t, (Function.update s.stage i .idle j).fresh? = some t →
      j ≠ i ∧ (s.stage j).fresh? = some t := fun j t hj => by
    rcases fresh_update.mp hj with ⟨-, hj⟩ | hj
    · cases hj
    · exact hj
  refine ⟨h.usable_seen, ?_, ?_, ?_, ?_, ?_, ?_, ?_⟩
  · rintro t ⟨⟩
    exact h.usable_seen hnew.1
  · exact fun j t hj => h.carried_seen j t (hcarried j t hj)
  · rintro t ⟨⟩
    exact Or.inl hnew.1
  · exact fun j k t hj hk => h.carried_once j k t (hcarried j t hj) (hcarried k t hk)
  · intro j t hj
    by_cases hji : j = i
    · subst hji
      simp at hj
    · simp only [Function.update_of_ne hji] at hj
      exact h.asked j t hj
  · intro j t hj
    obtain ⟨hji, hj⟩ := hfreshes j t hj
    obtain ⟨hu, -, hc⟩ := h.fresh j t hj
    refine ⟨hu, fun hs => hji ?_, fun k hk => hc k (hcarried k t hk)⟩
    exact h.fresh_once j i t hj (by rw [hi]; exact hs)
  · intro j k t hj hk
    exact h.fresh_once j k t (hfreshes j t hj).2 (hfreshes k t hk).2

/-- Solo steps keep the invariant; a refusal is none of them. -/
theorem Safe.step (h : Safe s) (hstep : SoloStep s l s') : Safe s' := by
  obtain ⟨hstep, hsolo⟩ := hstep
  cases hstep with
  | ask i hi => exact h.ask hi hsolo
  | accept i token fresh hi _ hfresh => exact h.accept hi hfresh
  | refuse i t hi hused => exact absurd (h.asked i t hi) hused
  | adopt i token fresh hi => exact h.adopt hi

/-- **Nobody is refused**: along solo exchanges, every token an agent has asked with is
still usable. -/
theorem never_refused {s₀ : State ι τ} {ls : List (Label ι τ)} (h0 : Initial s₀)
    (h : Run SoloStep s₀ ls s) : Safe s :=
  Run.invariant (fun _ s => Safe s) h0.safe (fun _ _ _ _ hs hstep => hs.step hstep) h

end Rotation
