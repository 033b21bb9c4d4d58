import Mathlib.Data.List.FinRange
import Mathlib.Data.List.InsertIdx
import Mathlib.Logic.Equiv.Basic
import Mathlib.Logic.Function.Basic
import Mathlib.Order.Fin.Basic

/-! # First-fit assignment

Requests are served in order; each takes the first remaining item of the pool that
fits it, and a request no remaining item fits ends the run.  The fit test may fail
with an error, which ends the run too.

`serve_eq_true_iff` says what a run that serves every request has found: an
injective assignment of requests to positions of the pool in which every request
sits at the first position that fits it among those not taken by earlier requests
(`IsFirstFit`). -/

namespace FirstFit
variable {ε α β ι : Type} (fits : β → α → Except ε Bool)

/-- The position of the first item that fits `a`. -/
def find : List β → α → Except ε (Option Nat)
  | [], _ => .ok none
  | b :: bs, a => do
    if ← fits b a then return some 0
    return (← find bs a).map (· + 1)

/-- Serve the requests in order, removing each chosen item from the pool. -/
def serve : List β → List α → Except ε Bool
  | _, [] => .ok true
  | pool, a :: as => do
    match ← find fits pool a with
    | none => return false
    | some i => serve (pool.eraseIdx i) as

/-- An assignment of the requests to positions of the pool in which every request
takes the first position that fits it among those earlier requests left. -/
structure IsFirstFit (pool : List β) (reqs : List α) (f : Fin reqs.length → Fin pool.length) :
    Prop where
  injective : Function.Injective f
  served : ∀ i, fits (pool.get (f i)) (reqs.get i) = .ok true
  first : ∀ i j, j < f i → (∀ i' < i, f i' ≠ j) → fits (pool.get j) (reqs.get i) = .ok false

variable {fits}

/-! ## Taking an item out of a list -/

theorem rest_sublist (l r : List β) (b : β) : (l ++ r).Sublist (l ++ b :: r) :=
  (List.sublist_cons_self b r).append_left l

/-- What stands in a list and is not the item taken is left. -/
theorem mem_rest {l r : List β} {b c : β} (h : c ∈ l ++ b :: r) (hne : c ≠ b) : c ∈ l ++ r :=
  List.mem_of_ne_of_mem hne (List.perm_middle.mem_iff.mp h)

theorem erase_taken (l r : List β) (b : β) : (l ++ b :: r).eraseIdx l.length = l ++ r := by
  rw [List.eraseIdx_append_of_length_le (Nat.le_refl _), Nat.sub_self, List.eraseIdx_cons_zero]

/-! ## One request -/

theorem find_eq_some {pool : List β} {a : α} {i : Nat} :
    find fits pool a = .ok (some i) ↔ ∃ l b r, pool = l ++ b :: r ∧ l.length = i ∧
      (∀ x ∈ l, fits x a = .ok false) ∧ fits b a = .ok true := by
  induction pool generalizing i with
  | nil => simp [find]
  | cons b bs ih =>
    rw [find]
    constructor
    · intro h
      cases hb : fits b a with
      | error e => rw [hb] at h; cases h
      | ok t =>
        rw [hb] at h
        cases t with
        | true =>
          cases h
          exact ⟨[], b, bs, rfl, rfl, by simp, hb⟩
        | false =>
          cases hf : find fits bs a with
          | error e => simp [hf, bind, Except.bind] at h
          | ok o =>
            rw [hf] at h
            cases o with
            | none => cases h
            | some j =>
              obtain ⟨l, c, r, rfl, rfl, hl, hc⟩ := ih.mp hf
              cases h
              exact ⟨b :: l, c, r, rfl, rfl, List.forall_mem_cons.mpr ⟨hb, hl⟩, hc⟩
    · rintro ⟨l, c, r, hpool, rfl, hl, hc⟩
      cases l with
      | nil =>
        obtain ⟨rfl, rfl⟩ := List.cons.inj hpool
        rw [hc]; rfl
      | cons d l =>
        obtain ⟨rfl, rfl⟩ := List.cons.inj hpool
        obtain ⟨hd, hl⟩ := List.forall_mem_cons.mp hl
        rw [hd, ih.mpr ⟨l, c, r, rfl, rfl, hl, hc⟩]; rfl

/-- One request: it takes the first item that fits, and the rest of the pool
serves the rest of the requests. -/
theorem serve_cons_eq_true {pool : List β} {a : α} {as : List α} :
    serve fits pool (a :: as) = .ok true ↔ ∃ l b r, pool = l ++ b :: r ∧
      (∀ x ∈ l, fits x a = .ok false) ∧ fits b a = .ok true ∧
      serve fits (l ++ r) as = .ok true := by
  rw [serve]
  constructor
  · intro h
    cases hf : find fits pool a with
    | error e => rw [hf] at h; cases h
    | ok o =>
      rw [hf] at h
      cases o with
      | none => cases h
      | some i =>
        obtain ⟨l, b, r, rfl, rfl, hl, hb⟩ := find_eq_some.mp hf
        exact ⟨l, b, r, rfl, hl, hb, by rw [← erase_taken l r b]; exact h⟩
  · rintro ⟨l, b, r, rfl, hl, hb, hs⟩
    rw [find_eq_some.mpr ⟨l, b, r, rfl, rfl, hl, hb⟩]
    show serve fits ((l ++ b :: r).eraseIdx l.length) as = _
    rw [erase_taken, hs]

/-! ## Positions

The pool of a later request is a part of the first one.  The induction follows the
positions still free, in increasing order, with `item` giving what stands there. -/

section Positions
variable [LinearOrder ι] (item : ι → β)

/-- `g` assigns the requests to free positions of `ps`, first fit. -/
def FirstFitOn (fits : β → α → Except ε Bool) (ps : List ι) (reqs : List α)
    (g : Fin reqs.length → ι) : Prop :=
  Function.Injective g ∧ (∀ i, g i ∈ ps ∧ fits (item (g i)) (reqs.get i) = .ok true) ∧
    ∀ i, ∀ q ∈ ps, q < g i → (∀ i' < i, g i' ≠ q) → fits (item q) (reqs.get i) = .ok false

variable {item}

/-- The first request's position splits a first-fit assignment off. -/
theorem firstFitOn_cons {l r : List ι} {p : ι} {a : α} {as : List α}
    {g : Fin as.length → ι} (hps : (l ++ p :: r).Pairwise (· < ·))
    (hl : ∀ q ∈ l, fits (item q) a = .ok false) (hp : fits (item p) a = .ok true)
    (hg : FirstFitOn item fits (l ++ r) as g) :
    FirstFitOn item fits (l ++ p :: r) (a :: as) (Fin.cons p g) := by
  obtain ⟨hinj, hfits, hfirst⟩ := hg
  have hnodup : (l ++ p :: r).Nodup := hps.imp fun h => ne_of_lt h
  have hnot : p ∉ l ++ r := (List.nodup_cons.mp (List.nodup_middle.mp hnodup)).1
  have hpg : ∀ i, g i ≠ p := fun i he => hnot (he ▸ (hfits i).1)
  refine ⟨Fin.cons_injective_iff.mpr ⟨fun ⟨i, hi⟩ => hpg i hi, hinj⟩, ?_, ?_⟩
  · intro i
    refine Fin.cases ⟨by simp, hp⟩ (fun j => ?_) i
    exact ⟨(rest_sublist l r p).subset (hfits j).1, (hfits j).2⟩
  · intro i
    refine Fin.cases (fun q hq hlt _ => ?_) (fun j q hq hlt hfree => ?_) i
    · -- what comes before `p` stands in `l`, as the positions increase
      refine hl q ((List.mem_append.mp hq).resolve_right fun hr => ?_)
      rcases List.mem_cons.mp hr with rfl | hr
      · exact absurd hlt (lt_irrefl q)
      · have := (List.pairwise_cons.mp (List.pairwise_append.mp hps).2.1).1 q hr
        exact absurd hlt (lt_asymm this)
    · -- the first request has taken `p`, so `q` is among what it left
      have hqp : q ≠ p := fun he => hfree 0 (Fin.succ_pos j) he.symm
      refine hfirst j q (mem_rest hq hqp) hlt fun i' hi' => ?_
      exact hfree i'.succ (Fin.succ_lt_succ_iff.mpr hi')

theorem serve_eq_true_of_firstFitOn : ∀ (reqs : List α) (ps : List ι),
    ps.Pairwise (· < ·) → ∀ g, FirstFitOn item fits ps reqs g →
    serve fits (ps.map item) reqs = .ok true
  | [], _, _, _, _ => rfl
  | a :: as, ps, hps, g, ⟨hinj, hfits, hfirst⟩ => by
    obtain ⟨hmem, hfit⟩ := hfits 0
    obtain ⟨l, r, hsplit⟩ := List.append_of_mem hmem
    rw [hsplit] at hps hfits hfirst ⊢
    have hlt : ∀ q ∈ l, q < g 0 := fun q hq =>
      (List.pairwise_append.mp hps).2.2 q hq _ List.mem_cons_self
    have hrest : FirstFitOn item fits (l ++ r) as (fun i => g i.succ) := by
      refine ⟨fun i j h => Fin.succ_injective _ (hinj h), fun i => ⟨?_, (hfits i.succ).2⟩, ?_⟩
      · exact mem_rest (hfits i.succ).1 fun h => Fin.succ_ne_zero i (hinj h)
      · intro i q hq hlt' hfree
        have hnot : g 0 ∉ l ++ r := (List.nodup_cons.mp (List.nodup_middle.mp
          (hps.imp (fun h => ne_of_lt h) : (l ++ g 0 :: r).Nodup))).1
        refine hfirst i.succ q ((rest_sublist l r _).subset hq) hlt' fun i' hi' => ?_
        induction i' using Fin.cases with
        | zero => exact fun he => hnot (he ▸ hq)
        | succ i' => exact hfree i' (Fin.succ_lt_succ_iff.mp hi')
    rw [List.map_append, List.map_cons]
    refine serve_cons_eq_true.mpr ⟨l.map item, item (g 0), r.map item, rfl, ?_, hfit, ?_⟩
    · intro x hx
      obtain ⟨q, hq, rfl⟩ := List.mem_map.mp hx
      exact hfirst 0 q (List.mem_append_left _ hq) (hlt q hq)
        (fun i' hi' => absurd hi' (Fin.not_lt_zero i'))
    · rw [← List.map_append]
      exact serve_eq_true_of_firstFitOn as (l ++ r)
        (hps.sublist (rest_sublist l r _)) _ hrest

theorem exists_firstFitOn : ∀ (reqs : List α) (ps : List ι), ps.Pairwise (· < ·) →
    serve fits (ps.map item) reqs = .ok true → ∃ g, FirstFitOn item fits ps reqs g
  | [], _, _, _ => ⟨Fin.elim0, fun i => i.elim0, fun i => i.elim0, fun i => i.elim0⟩
  | a :: as, ps, hps, h => by
    obtain ⟨l', b, r', hmap, hl, hb, hs⟩ := serve_cons_eq_true.mp h
    obtain ⟨l, rest, rfl, rfl, hrest⟩ := List.map_eq_append_iff.mp hmap
    obtain ⟨p, r, rfl, rfl, rfl⟩ := List.map_eq_cons_iff.mp hrest
    rw [← List.map_append] at hs
    obtain ⟨g, hg⟩ := exists_firstFitOn as (l ++ r) (hps.sublist (rest_sublist l r p)) hs
    exact ⟨Fin.cons p g, firstFitOn_cons hps (fun q hq => hl _ (List.mem_map_of_mem hq)) hb hg⟩

end Positions

/-- **A run serves every request exactly when a first-fit assignment exists.** -/
theorem serve_eq_true_iff {pool : List β} {reqs : List α} :
    serve fits pool reqs = .ok true ↔ ∃ f, IsFirstFit fits pool reqs f := by
  have hpool : (List.finRange pool.length).map pool.get = pool := List.map_get_finRange pool
  have hsorted : (List.finRange pool.length).Pairwise (· < ·) := List.pairwise_lt_finRange _
  constructor
  · intro h
    rw [← hpool] at h
    obtain ⟨g, hinj, hfits, hfirst⟩ := exists_firstFitOn reqs _ hsorted h
    exact ⟨g, hinj, fun i => (hfits i).2, fun i j => hfirst i j (List.mem_finRange j)⟩
  · rintro ⟨f, hinj, hfits, hfirst⟩
    rw [← hpool]
    exact serve_eq_true_of_firstFitOn reqs _ hsorted f
      ⟨hinj, fun i => ⟨List.mem_finRange _, hfits i⟩, fun i q _ => hfirst i q⟩

/-! ## Larger pools and fewer requests -/

/-- Taking the first item that fits keeps a smaller pool inside a larger one. -/
theorem sublist_of_take {l r l' r' : List β} {b b' : β} {a : α}
    (h : (l ++ b :: r).Sublist (l' ++ b' :: r')) (hl : ∀ x ∈ l, fits x a = .ok false)
    (hb : fits b a = .ok true) (hl' : ∀ x ∈ l', fits x a = .ok false)
    (hb' : fits b' a = .ok true) : (l ++ r).Sublist (l' ++ r') := by
  induction l' generalizing l with
  | nil =>
    rcases List.sublist_cons_iff.mp h with h | ⟨t, heq, ht⟩
    · exact (rest_sublist l r b).trans h
    · -- the heads agree, so nothing stands before `b`
      rcases l with _ | ⟨x, l⟩
      · obtain ⟨-, rfl⟩ := List.cons.inj heq
        exact ht
      · obtain ⟨rfl, -⟩ := List.cons.inj heq
        rw [(List.forall_mem_cons.mp hl).1] at hb'
        cases hb'
  | cons y l' ih =>
    obtain ⟨hy, hrest⟩ := List.forall_mem_cons.mp hl'
    rw [List.cons_append] at h ⊢
    rcases List.sublist_cons_iff.mp h with h | ⟨t, heq, ht⟩
    · exact (ih h hl hrest).cons y
    · rcases l with _ | ⟨x, l⟩
      · obtain ⟨rfl, -⟩ := List.cons.inj heq
        rw [hy] at hb
        cases hb
      · obtain ⟨rfl, rfl⟩ := List.cons.inj heq
        rw [List.cons_append]
        exact (ih ht (List.forall_mem_cons.mp hl).2 hrest).cons_cons x

/-- When the test is defined on the pool and some item fits, a first one does. -/
theorem exists_first {pool : List β} {a : α} (htotal : ∀ b ∈ pool, ∃ t, fits b a = .ok t)
    (h : ∃ b ∈ pool, fits b a = .ok true) : ∃ l b r, pool = l ++ b :: r ∧
      (∀ x ∈ l, fits x a = .ok false) ∧ fits b a = .ok true := by
  induction pool with
  | nil =>
    obtain ⟨b, hb, -⟩ := h
    exact absurd hb List.not_mem_nil
  | cons c pool ih =>
    obtain ⟨⟨t, ht⟩, hrest⟩ := List.forall_mem_cons.mp htotal
    cases t with
    | true => exact ⟨[], c, pool, rfl, List.forall_mem_nil _, ht⟩
    | false =>
      obtain ⟨b, hb, hfit⟩ := h
      have hb' : b ∈ pool := by
        rcases List.mem_cons.mp hb with rfl | hb
        · rw [ht] at hfit
          cases hfit
        · exact hb
      obtain ⟨l, b, r, rfl, hl, hfit⟩ := ih hrest ⟨b, hb', hfit⟩
      exact ⟨c :: l, b, r, rfl, List.forall_mem_cons.mpr ⟨ht, hl⟩, hfit⟩

/-- **A larger pool serves fewer requests**: the items left in the run on the smaller
pool stay among those left in the other. -/
theorem serve_mono {pool pool' : List β} {reqs reqs' : List α} (hpool : pool.Sublist pool')
    (hreqs : reqs'.Sublist reqs) (htotal : ∀ b ∈ pool', ∀ a ∈ reqs', ∃ t, fits b a = .ok t)
    (h : serve fits pool reqs = .ok true) : serve fits pool' reqs' = .ok true := by
  induction hreqs generalizing pool pool' with
  | slnil => rfl
  | cons a _ ih =>
    obtain ⟨l, b, r, rfl, -, -, h⟩ := serve_cons_eq_true.mp h
    exact ih ((rest_sublist l r b).trans hpool) htotal h
  | cons_cons a _ ih =>
    obtain ⟨l, b, r, rfl, hl, hb, h⟩ := serve_cons_eq_true.mp h
    have hbmem : b ∈ pool' := hpool.subset (List.mem_append_right l List.mem_cons_self)
    obtain ⟨l', b', r', rfl, hl', hb'⟩ :=
      exists_first (fun c hc => htotal c hc a List.mem_cons_self) ⟨b, hbmem, hb⟩
    refine serve_cons_eq_true.mpr ⟨l', b', r', rfl, hl', hb', ?_⟩
    refine ih (sublist_of_take hpool hl hb hl' hb') (fun c hc d hd => ?_) h
    exact htotal c ((rest_sublist l' r' b').subset hc) d (List.mem_cons_of_mem a hd)

/-! ## Requests listed strictest first -/

/-- On the pool `a` is at least as strict as `a'`, or no item fits both. -/
def Nested (fits : β → α → Except ε Bool) (pool : List β) (a a' : α) : Prop :=
  (∀ b ∈ pool, fits b a = .ok true → fits b a' = .ok true) ∨
    ¬ ∃ b ∈ pool, fits b a = .ok true ∧ fits b a' = .ok true

theorem Nested.subset {pool pool' : List β} {a a' : α} (h : Nested fits pool a a')
    (hsub : pool' ⊆ pool) : Nested fits pool' a a' := by
  rcases h with h | h
  · exact Or.inl fun b hb => h b (hsub hb)
  · exact Or.inr fun ⟨b, hb, hfits⟩ => h ⟨b, hsub hb, hfits⟩

section Exchange
variable [DecidableEq ι] {item : ι → β}

/-- `g` assigns the requests to free positions of `ps`, no two to the same. -/
structure AssignedOn (item : ι → β) (fits : β → α → Except ε Bool) (ps : List ι) (reqs : List α)
    (g : Fin reqs.length → ι) : Prop where
  injective : Function.Injective g
  mem : ∀ i, g i ∈ ps
  served : ∀ i, fits (item (g i)) (reqs.get i) = .ok true

/-- **The exchange.**  The first request takes the position `p`; the request that had
`p`, if any, takes the position the first one leaves, which fits the stricter of the two. -/
theorem AssignedOn.exchange {l r : List ι} {p : ι} {a : α} {as : List α}
    {g : Fin (a :: as).length → ι} (hp : fits (item p) a = .ok true)
    (hnested : ∀ a' ∈ as, Nested fits ((l ++ p :: r).map item) a a')
    (hg : AssignedOn item fits (l ++ p :: r) (a :: as) g) :
    AssignedOn item fits (l ++ r) as fun i => Equiv.swap p (g 0) (g i.succ) := by
  have hne : ∀ i : Fin as.length, g i.succ ≠ g 0 := fun i h =>
    Fin.succ_ne_zero i (hg.injective h)
  refine ⟨fun i j h => ?_, fun i => ?_, fun i => ?_⟩
  · exact Fin.succ_injective _ (hg.injective ((Equiv.swap p (g 0)).injective h))
  · by_cases hi : g i.succ = p
    · rw [hi, Equiv.swap_apply_left]
      exact mem_rest (hg.mem 0) fun h => hne i (hi.trans h.symm)
    · rw [Equiv.swap_apply_of_ne_of_ne hi (hne i)]
      exact mem_rest (hg.mem i.succ) hi
  · by_cases hi : g i.succ = p
    · rw [hi, Equiv.swap_apply_left]
      have hserved : fits (item p) (as.get i) = .ok true := hi ▸ hg.served i.succ
      have hpmem : item p ∈ (l ++ p :: r).map item :=
        List.mem_map_of_mem (List.mem_append_right _ List.mem_cons_self)
      -- what fits the stricter of the two fits the other; or nothing fits both, as `p` does
      rcases hnested _ (List.get_mem as i) with h | h
      · exact h _ (List.mem_map_of_mem (hg.mem 0)) (hg.served 0)
      · exact absurd ⟨item p, hpmem, hp, hserved⟩ h
    · rw [Equiv.swap_apply_of_ne_of_ne hi (hne i)]
      exact hg.served i.succ

theorem serve_eq_true_of_assignedOn : ∀ (reqs : List α) (ps : List ι),
    (∀ b ∈ ps.map item, ∀ a ∈ reqs, ∃ t, fits b a = .ok t) →
    reqs.Pairwise (Nested fits (ps.map item)) → ∀ g, AssignedOn item fits ps reqs g →
    serve fits (ps.map item) reqs = .ok true
  | [], _, _, _, _, _ => rfl
  | a :: as, ps, htotal, hnested, g, hg => by
    obtain ⟨hfirst, hrest⟩ := List.pairwise_cons.mp hnested
    obtain ⟨l', b, r', hmap, hl, hb⟩ := exists_first
      (fun b hb => htotal b hb a List.mem_cons_self)
      ⟨_, List.mem_map_of_mem (hg.mem 0), hg.served 0⟩
    obtain ⟨l, rest, rfl, rfl, hsplit⟩ := List.map_eq_append_iff.mp hmap
    obtain ⟨p, r, rfl, rfl, rfl⟩ := List.map_eq_cons_iff.mp hsplit
    have hsub := rest_sublist l r p
    refine serve_cons_eq_true.mpr ⟨_, _, _, hmap, hl, hb, ?_⟩
    rw [← List.map_append]
    refine serve_eq_true_of_assignedOn as (l ++ r) (fun c hc d hd => ?_)
      (hrest.imp fun h => h.subset (List.map_subset item hsub.subset)) _
      (hg.exchange hb hfirst)
    exact htotal c (List.map_subset item hsub.subset hc) d (List.mem_cons_of_mem a hd)

end Exchange

/-- **First fit is exact on requests listed strictest first**: it serves them all
whenever some assignment does. -/
theorem serve_eq_true_iff_of_nested {pool : List β} {reqs : List α}
    (htotal : ∀ b ∈ pool, ∀ a ∈ reqs, ∃ t, fits b a = .ok t)
    (hnested : reqs.Pairwise (Nested fits pool)) : serve fits pool reqs = .ok true ↔
      ∃ f : Fin reqs.length → Fin pool.length, Function.Injective f ∧
        ∀ i, fits (pool.get (f i)) (reqs.get i) = .ok true := by
  constructor
  · intro h
    obtain ⟨f, hf⟩ := serve_eq_true_iff.mp h
    exact ⟨f, hf.injective, hf.served⟩
  · rintro ⟨f, hinj, hserved⟩
    have hpool : (List.finRange pool.length).map pool.get = pool := List.map_get_finRange pool
    have hg : AssignedOn pool.get fits (List.finRange pool.length) reqs f :=
      ⟨hinj, fun i => List.mem_finRange _, hserved⟩
    have := serve_eq_true_of_assignedOn reqs _ (by rw [hpool]; exact htotal)
      (by rw [hpool]; exact hnested) f hg
    rwa [hpool] at this

/-- A pool of requests serves itself when every one of them fits itself: each takes the
head of what is left. -/
theorem serve_self {fits : α → α → Except ε Bool} {reqs : List α}
    (h : ∀ a ∈ reqs, fits a a = .ok true) : serve fits reqs reqs = .ok true := by
  induction reqs with
  | nil => rfl
  | cons a as ih =>
    obtain ⟨ha, has⟩ := List.forall_mem_cons.mp h
    exact serve_cons_eq_true.mpr ⟨[], a, as, rfl, List.forall_mem_nil _, ha, ih has⟩

/-! ## Runs that raise -/

/-- **What one search does**: it passes over items that do not fit, up to the end of
the pool, to one that fits, or to one on which the test fails. -/
theorem find_cases (fits : β → α → Except ε Bool) (pool : List β) (a : α) :
    (find fits pool a = .ok none ∧ ∀ x ∈ pool, fits x a = .ok false) ∨
      ∃ l b r, pool = l ++ b :: r ∧ (∀ x ∈ l, fits x a = .ok false) ∧
        (fits b a = .ok true ∧ find fits pool a = .ok (some l.length) ∨
          ∃ e, fits b a = .error e ∧ find fits pool a = .error e) := by
  induction pool with
  | nil => exact Or.inl ⟨rfl, List.forall_mem_nil _⟩
  | cons c pool ih =>
    rw [find]
    rcases hc : fits c a with e | t
    · exact Or.inr ⟨[], c, pool, rfl, List.forall_mem_nil _, Or.inr ⟨e, hc, rfl⟩⟩
    · cases t with
      | true => exact Or.inr ⟨[], c, pool, rfl, List.forall_mem_nil _, Or.inl ⟨hc, rfl⟩⟩
      | false =>
        rcases ih with ⟨hf, hpool⟩ | ⟨l, b, r, rfl, hl, h⟩
        · left
          rw [hf]
          exact ⟨rfl, List.forall_mem_cons.mpr ⟨hc, hpool⟩⟩
        · refine Or.inr ⟨c :: l, b, r, rfl, List.forall_mem_cons.mpr ⟨hc, hl⟩, ?_⟩
          rcases h with ⟨hb, hf⟩ | ⟨e, hb, hf⟩
          · left
            rw [hf]
            exact ⟨hb, rfl⟩
          · right
            rw [hf]
            exact ⟨e, hb, rfl⟩

/-- `Compares fits pool reqs b a`: the run on `pool` tests the item `b` for the request
`a`. -/
inductive Compares (fits : β → α → Except ε Bool) : List β → List α → β → α → Prop
  | here {l r : List β} {b : β} {a : α} {as : List α} (hl : ∀ x ∈ l, fits x a = .ok false) :
      Compares fits (l ++ b :: r) (a :: as) b a
  | later {l r : List β} {b c : β} {a d : α} {as : List α} (hl : ∀ x ∈ l, fits x a = .ok false)
      (hb : fits b a = .ok true) (h : Compares fits (l ++ r) as c d) :
      Compares fits (l ++ b :: r) (a :: as) c d

theorem Compares.mem {pool : List β} {reqs : List α} {b : β} {a : α}
    (h : Compares fits pool reqs b a) : b ∈ pool ∧ a ∈ reqs := by
  induction h with
  | here hl => exact ⟨List.mem_append_right _ List.mem_cons_self, List.mem_cons_self⟩
  | @later l r b' c a' d as hl hb h ih =>
    refine ⟨?_, List.mem_cons_of_mem _ ih.2⟩
    exact (rest_sublist l r b').subset ih.1

/-- The first item that fits stands at one place only. -/
theorem take_unique {l r l' r' : List β} {b b' : β} {a : α} (h : l ++ b :: r = l' ++ b' :: r')
    (hl : ∀ x ∈ l, fits x a = .ok false) (hb : fits b a = .ok true)
    (hl' : ∀ x ∈ l', fits x a = .ok false) (hb' : fits b' a = .ok true) : l = l' ∧ r = r' := by
  have hf := find_eq_some.mpr ⟨l, b, r, rfl, rfl, hl, hb⟩
  have hf' := find_eq_some.mpr ⟨l', b', r', h, rfl, hl', hb'⟩
  rw [hf] at hf'
  have hlen : l.length = l'.length := Option.some.inj (Except.ok.inj hf')
  obtain ⟨rfl, hr⟩ := List.append_inj h hlen
  exact ⟨rfl, (List.cons.inj hr).2⟩

/-- What a search compares lies before the item it takes, or is this item. -/
theorem compared_of_take {l r l' r' : List β} {b c : β} {a : α} (h : l' ++ c :: r' = l ++ b :: r)
    (hl : ∀ x ∈ l, fits x a = .ok false) (hb : fits b a = .ok true)
    (hl' : ∀ x ∈ l', fits x a = .ok false) : ∃ t, fits c a = .ok t := by
  rcases List.append_eq_append_iff.mp h with ⟨m, rfl, hm⟩ | ⟨m, rfl, hm⟩
  · rcases m with _ | ⟨d, m⟩
    · obtain ⟨rfl, -⟩ := List.cons.inj hm
      exact ⟨true, hb⟩
    · obtain ⟨rfl, -⟩ := List.cons.inj hm
      exact ⟨false, hl c (List.mem_append_right l' List.mem_cons_self)⟩
  · rcases m with _ | ⟨d, m⟩
    · obtain ⟨rfl, -⟩ := List.cons.inj hm
      exact ⟨true, hb⟩
    · obtain ⟨rfl, -⟩ := List.cons.inj hm
      rw [hl' b (List.mem_append_right l List.mem_cons_self)] at hb
      cases hb

/-- **A run comes to an answer exactly when every test it makes does.** -/
theorem serve_isOk_iff {pool : List β} {reqs : List α} :
    (∃ t, serve fits pool reqs = .ok t) ↔
      ∀ b a, Compares fits pool reqs b a → ∃ t, fits b a = .ok t := by
  induction reqs generalizing pool with
  | nil => exact ⟨fun _ b a h => (by cases h), fun _ => ⟨true, rfl⟩⟩
  | cons a as ih =>
    rw [serve]
    rcases find_cases fits pool a with ⟨hf, hpool⟩ | ⟨l, b, r, rfl, hl, ⟨hb, hf⟩ | ⟨e, hb, hf⟩⟩
    · rw [hf]
      refine ⟨fun _ b d h => ?_, fun _ => ⟨false, rfl⟩⟩
      rcases h with hl | ⟨-, hb, -⟩
      · exact ⟨false, hpool b (List.mem_append_right _ List.mem_cons_self)⟩
      · rw [hpool _ (List.mem_append_right _ List.mem_cons_self)] at hb
        cases hb
    · rw [hf]
      change (∃ t, serve fits ((l ++ b :: r).eraseIdx l.length) as = .ok t) ↔ _
      rw [erase_taken, ih]
      constructor
      · intro h c d hcd
        generalize hp : l ++ b :: r = pool at hcd
        rcases hcd with hl' | ⟨hl', hb', hcd⟩
        · exact compared_of_take hp.symm hl hb hl'
        · obtain ⟨rfl, rfl⟩ := take_unique hp hl hb hl' hb'
          exact h c d hcd
      · exact fun h c d hcd => h c d (.later hl hb hcd)
    · rw [hf]
      constructor
      · rintro ⟨t, ht⟩
        cases ht
      · intro h
        obtain ⟨t, ht⟩ := h b a (.here hl)
        rw [hb] at ht
        cases ht

/-! ## Replacing one item -/

section Replace
variable {pool : List β} {reqs : List α} {j : Fin pool.length} {b' : β}

/-- The items of the pool, with `b'` for the one at `j`. -/
def replaced (pool : List β) (j : Fin pool.length) (b' : β) (i : Fin pool.length) : β :=
  if i = j then b' else pool.get i

@[simp] theorem replaced_self : replaced pool j b' j = b' := if_pos rfl

theorem replaced_ne {i : Fin pool.length} (h : i ≠ j) : replaced pool j b' i = pool.get i :=
  if_neg h

theorem map_replaced : (List.finRange pool.length).map (replaced pool j b') = pool.set j b' := by
  refine List.ext_getElem (by simp) fun i h _ => ?_
  rw [List.getElem_map, List.getElem_finRange, List.getElem_set]
  by_cases hij : j.val = i
  · rw [if_pos hij]
    exact if_pos (Fin.ext hij.symm)
  · rw [if_neg hij]
    exact if_neg fun he => hij (congrArg Fin.val he).symm

/-- An item that served a request goes on serving it: the run takes the same positions. -/
theorem serve_set_of_served
    (hmono : ∀ a ∈ reqs, fits (pool.get j) a = .ok true → fits b' a = .ok true)
    (htotal : ∀ a ∈ reqs, ∃ t, fits b' a = .ok t)
    {f : Fin reqs.length → Fin pool.length} (hf : IsFirstFit fits pool reqs f)
    {i₀ : Fin reqs.length} (hi₀ : f i₀ = j)
    (hkeep : ∀ i, i < i₀ → fits b' (reqs.get i) = .ok true →
      fits (pool.get j) (reqs.get i) = .ok true) :
    serve fits (pool.set j b') reqs = .ok true := by
  rw [← map_replaced]
  refine serve_eq_true_of_firstFitOn reqs _ (List.pairwise_lt_finRange _) f
    ⟨hf.injective, fun i => ⟨List.mem_finRange _, ?_⟩, fun i q _ hlt hfree => ?_⟩
  · by_cases hi : f i = j
    · rw [hi, replaced_self]
      exact hmono _ (List.get_mem reqs i) (hi ▸ hf.served i)
    · rw [replaced_ne hi]
      exact hf.served i
  · by_cases hq : q = j
    · -- free when `i` is served, so `i` comes before the request that `j` serves
      subst hq
      have hlt' : i < i₀ := by
        rcases lt_trichotomy i i₀ with h | rfl | h
        · exact h
        · exact absurd hi₀ (ne_of_gt hlt)
        · exact absurd hi₀ (hfree i₀ h)
      obtain ⟨t, ht⟩ := htotal _ (List.get_mem reqs i)
      rw [replaced_self]
      cases t with
      | false => exact ht
      | true =>
        have := hkeep i hlt' ht
        rw [hf.first i q hlt hfree] at this
        cases this
    · rw [replaced_ne hq]
      exact hf.first i q hlt hfree

/-- An item that served nobody is not needed: the others alone serve the requests. -/
theorem serve_set_of_free (htotal : ∀ b ∈ pool.set j b', ∀ a ∈ reqs, ∃ t, fits b a = .ok t)
    {f : Fin reqs.length → Fin pool.length} (hf : IsFirstFit fits pool reqs f)
    (hne : ∀ i, f i ≠ j) : serve fits (pool.set j b') reqs = .ok true := by
  have hsorted : (List.finRange pool.length).Pairwise (· < ·) := List.pairwise_lt_finRange _
  have hothers : ∀ q ∈ (List.finRange pool.length).filter (· ≠ j), q ≠ j := fun q hq => by
    simpa using (List.mem_filter.mp hq).2
  -- the run on the pool without the item at `j`, which `f` is first fit on as well
  have hserve : serve fits (((List.finRange pool.length).filter (· ≠ j)).map (replaced pool j b'))
      reqs = .ok true := by
    refine serve_eq_true_of_firstFitOn reqs _ (hsorted.sublist List.filter_sublist) f
      ⟨hf.injective, fun i => ?_, fun i q hq hlt hfree => ?_⟩
    · refine ⟨List.mem_filter.mpr ⟨List.mem_finRange _, by simpa using hne i⟩, ?_⟩
      rw [replaced_ne (hne i)]
      exact hf.served i
    · rw [replaced_ne (hothers q hq)]
      exact hf.first i q hlt hfree
  refine serve_mono ?_ (List.Sublist.refl reqs) htotal hserve
  rw [← map_replaced]
  exact List.filter_sublist.map _

/-- **An item can be replaced by one that fits more**, if it does not now fit a request
that comes before the one it served: the same requests are served. -/
theorem serve_set
    (hmono : ∀ a ∈ reqs, fits (pool.get j) a = .ok true → fits b' a = .ok true)
    (htotal : ∀ b ∈ pool.set j b', ∀ a ∈ reqs, ∃ t, fits b a = .ok t)
    {f : Fin reqs.length → Fin pool.length} (hf : IsFirstFit fits pool reqs f)
    (hkeep : ∀ i i₀, f i₀ = j → i < i₀ → fits b' (reqs.get i) = .ok true →
      fits (pool.get j) (reqs.get i) = .ok true) :
    serve fits (pool.set j b') reqs = .ok true := by
  by_cases hserved : ∃ i₀, f i₀ = j
  · obtain ⟨i₀, hi₀⟩ := hserved
    exact serve_set_of_served hmono (htotal b' (List.mem_set j.isLt b')) hf hi₀
      fun i => hkeep i i₀ hi₀
  · exact serve_set_of_free htotal hf fun i hi => hserved ⟨i, hi⟩

end Replace

/-! ## Pools that fit alike -/

theorem find_map {γ : Type} (item : γ → β) (pool : List γ) (a : α) :
    find fits (pool.map item) a = find (fun c => fits (item c)) pool a := by
  induction pool with
  | nil => rfl
  | cons c pool ih => rw [List.map_cons, find, find, ih]

theorem serve_map {γ : Type} (item : γ → β) (pool : List γ) (reqs : List α) :
    serve fits (pool.map item) reqs = serve (fun c => fits (item c)) pool reqs := by
  induction reqs generalizing pool with
  | nil => rfl
  | cons a reqs ih =>
    rw [serve, serve, find_map]
    cases find (fun c => fits (item c)) pool a with
    | error e => rfl
    | ok o =>
      cases o with
      | none => rfl
      | some i =>
        show serve fits ((pool.map item).eraseIdx i) reqs = serve _ (pool.eraseIdx i) reqs
        rw [← ih, List.eraseIdx_map]

/-- A run sees of its pool only what each item fits. -/
theorem serve_congr {pool pool' : List β} (h : pool.map fits = pool'.map fits) (reqs : List α) :
    serve fits pool reqs = serve fits pool' reqs := by
  have hserve (pool : List β) :
      serve (fun (f : α → Except ε Bool) a => f a) (pool.map fits) reqs = serve fits pool reqs :=
    serve_map fits pool reqs
  rw [← hserve pool, ← hserve pool', h]

end FirstFit
