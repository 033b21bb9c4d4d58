import Mathlib.Data.List.Dedup
import Mathlib.Data.List.Induction

/-! # First in, first out, and least recently used

A bounded collection of keys that are requested one after another.  `mostRecent` is what
a least-recently-used policy keeps of a history: the keys whose last requests are the
latest.  `fifo` drops the key that came in first, however often it was requested since.

The two keep the same keys throughout a history exactly when, at every request that drops
a key, the one that came in first is also the one whose last request is the earliest
(`fifo_recent_iff`). -/

namespace Recency
variable {κ : Type} [DecidableEq κ] {bound : Nat} {requests keys older recent : List κ} {k : κ}

/-- The distinct keys of a history whose last requests are the latest, `bound` at most; the
earliest comes first. -/
def mostRecent (bound : Nat) (requests : List κ) : List κ :=
  requests.dedup.drop (requests.dedup.length - bound)

/-- The keys that are kept after another request. -/
def fifo (bound : Nat) (keys : List κ) (k : κ) : List κ :=
  if k ∈ keys then keys else (if bound ≤ keys.length then keys.tail else keys) ++ [k]

def fifoAfter (bound : Nat) (requests : List κ) : List κ := requests.foldl (fifo bound) []

/-- The key that was kept first is, of those that are kept, the one whose last request is
the earliest, if another one has to make room for `k`. -/
def DropsLeastRecent (bound : Nat) (requests keys : List κ) (k : κ) : Prop :=
  k ∉ keys → bound ≤ keys.length →
    keys.head? = (requests.dedup.filter fun k => decide (k ∈ keys)).head?

/-! ## The most recent keys -/

theorem dedup_snoc (requests : List κ) (k : κ) :
    (requests ++ [k]).dedup = requests.dedup.filter (fun x => decide (x ≠ k)) ++ [k] := by
  induction requests with
  | nil => rfl
  | cons x xs ih =>
    rw [List.cons_append]
    by_cases hx : x ∈ xs
    · rw [List.dedup_cons_of_mem (List.mem_append_left _ hx), List.dedup_cons_of_mem hx, ih]
    · rw [List.dedup_cons_of_notMem hx]
      by_cases hk : x = k
      · subst hk
        rw [List.dedup_cons_of_mem (by simp), ih, List.filter_cons_of_neg (by simp)]
      · rw [List.dedup_cons_of_notMem (by simp [hx, hk]), ih, List.filter_cons_of_pos (by simpa),
          List.cons_append]

/-- The keys of a history are the most recent ones after some older ones, of which there
are none unless the most recent ones fill the collection. -/
theorem exists_older (bound : Nat) (requests : List κ) :
    ∃ older, requests.dedup = older ++ mostRecent bound requests ∧
      (mostRecent bound requests).length ≤ bound ∧
      (older = [] ∨ (mostRecent bound requests).length = bound) := by
  refine ⟨requests.dedup.take (requests.dedup.length - bound), ?_, ?_, ?_⟩
  · exact (List.take_append_drop _ _).symm
  · rw [mostRecent, List.length_drop]
    omega
  · by_cases h : requests.dedup.length ≤ bound
    · left
      rw [Nat.sub_eq_zero_of_le h, List.take_zero]
    · right
      rw [mostRecent, List.length_drop]
      omega

omit [DecidableEq κ] in
/-- The most recent ones are the last ones. -/
theorem drop_append_eq (hlen : recent.length ≤ bound)
    (holder : older = [] ∨ recent.length = bound) :
    (older ++ recent).drop ((older ++ recent).length - bound) = recent := by
  rcases holder with rfl | hfull
  · rw [List.nil_append, Nat.sub_eq_zero_of_le hlen, List.drop_zero]
  · rw [List.length_append, hfull, Nat.add_sub_cancel, List.drop_left]

theorem nodup_mostRecent (bound : Nat) (requests : List κ) :
    (mostRecent bound requests).Nodup :=
  (List.nodup_dedup requests).sublist (List.drop_sublist _ _)

theorem filter_ne_self {l : List κ} (h : k ∉ l) : l.filter (fun x => decide (x ≠ k)) = l :=
  List.filter_eq_self.mpr fun x hx => decide_eq_true fun hxk => h (by rwa [← hxk])

/-- A key that is requested again is as recent as can be, and nothing is dropped. -/
theorem mem_mostRecent_hit (h : k ∈ mostRecent bound requests) {x : κ} :
    x ∈ mostRecent bound (requests ++ [k]) ↔ x ∈ mostRecent bound requests := by
  obtain ⟨older, heq, hlen, holder⟩ := exists_older bound requests
  have hnodup := List.nodup_dedup requests
  rw [heq] at hnodup
  have hnot : k ∉ older := fun hk => List.disjoint_of_nodup_append hnodup hk h
  have hlength : ((mostRecent bound requests).filter (fun x => decide (x ≠ k)) ++ [k]).length =
      (mostRecent bound requests).length := by
    have hfilter : (mostRecent bound requests).filter (fun x => decide (x ≠ k)) =
        (mostRecent bound requests).erase k := by
      rw [(nodup_mostRecent bound requests).erase_eq_filter]
      exact List.filter_congr fun x _ => by rw [bne, beq_eq_decide, decide_not]
    have hpos := List.length_pos_of_mem h
    rw [hfilter, List.length_append, List.length_singleton, List.length_erase_of_mem h]
    omega
  have hsnoc : mostRecent bound (requests ++ [k]) =
      (mostRecent bound requests).filter (fun x => decide (x ≠ k)) ++ [k] := by
    conv_lhs => rw [mostRecent, dedup_snoc, heq, List.filter_append, filter_ne_self hnot,
      List.append_assoc]
    apply drop_append_eq <;> rw [hlength]
    · exact hlen
    · exact holder
  rw [hsnoc, List.mem_append, List.mem_filter, List.mem_singleton, decide_eq_true_eq]
  by_cases hx : x = k
  · subst hx
    simp [h]
  · simp [hx]

/-- A key that is not among the most recent ones joins them, where there is room. -/
theorem mostRecent_room (h : k ∉ mostRecent bound requests)
    (hroom : (mostRecent bound requests).length < bound) :
    mostRecent bound (requests ++ [k]) = mostRecent bound requests ++ [k] := by
  obtain ⟨older, heq, hlen, holder⟩ := exists_older bound requests
  obtain rfl : older = [] := holder.resolve_right (by omega)
  have hlen' : (mostRecent bound requests ++ [k]).length ≤ bound := by
    rw [List.length_append, List.length_singleton]
    omega
  have hdrop : ([] ++ (mostRecent bound requests ++ [k])).drop
      (([] ++ (mostRecent bound requests ++ [k])).length - bound) =
        mostRecent bound requests ++ [k] := drop_append_eq hlen' (Or.inl rfl)
  conv_lhs => rw [mostRecent, dedup_snoc, heq, List.nil_append, filter_ne_self h]
  exact hdrop

/-- Otherwise the least recent one is dropped. -/
theorem mostRecent_full (h : k ∉ mostRecent bound requests) (hpos : 0 < bound)
    (hfull : bound ≤ (mostRecent bound requests).length) :
    mostRecent bound (requests ++ [k]) = (mostRecent bound requests).tail ++ [k] := by
  obtain ⟨older, heq, hlen, -⟩ := exists_older bound requests
  cases hrecent : mostRecent bound requests with
  | nil =>
    rw [hrecent] at hfull
    exact absurd hfull (by simpa using Nat.ne_of_gt hpos)
  | cons x xs =>
    rw [hrecent] at heq hlen hfull h
    conv_lhs => rw [mostRecent, dedup_snoc, heq, List.filter_append, filter_ne_self h,
      List.append_assoc, List.cons_append, List.append_cons]
    have hlength : (xs ++ [k]).length = (x :: xs).length := by
      rw [List.length_append, List.length_singleton, List.length_cons]
    apply drop_append_eq <;> rw [hlength]
    · exact hlen
    · right
      omega

/-! ## The policies -/

/-- Both policies keep the same keys. -/
def Recent (bound : Nat) (requests keys : List κ) : Prop :=
  ∀ x, x ∈ keys ↔ x ∈ mostRecent bound requests

theorem nodup_fifo (h : keys.Nodup) (k : κ) : (fifo bound keys k).Nodup := by
  unfold fifo
  split
  · exact h
  · rename_i hk
    have hsub : (if bound ≤ keys.length then keys.tail else keys).Sublist keys := by
      split
      · exact List.tail_sublist keys
      · exact List.Sublist.refl keys
    refine List.Nodup.append (h.sublist hsub) (List.nodup_singleton k) fun x hx hxk => ?_
    rw [List.mem_singleton.mp hxk] at hx
    exact hk (hsub.subset hx)

/-- The least recent key that is kept. -/
theorem head_filter_of_recent (h : Recent bound requests keys) :
    (requests.dedup.filter fun k => decide (k ∈ keys)).head? =
      (mostRecent bound requests).head? := by
  obtain ⟨older, heq, -, -⟩ := exists_older bound requests
  have hnodup := List.nodup_dedup requests
  rw [heq] at hnodup
  rw [heq, List.filter_append, List.filter_eq_nil_iff.mpr, List.filter_eq_self.mpr]
  · rfl
  · exact fun x hx => decide_eq_true ((h x).mpr hx)
  · intro x hx hmem
    exact List.disjoint_of_nodup_append hnodup hx ((h x).mp (of_decide_eq_true hmem))

omit [DecidableEq κ] in
/-- Collections of the same keys still hold the same keys after each has dropped its first
one for a new one iff they have dropped the same. -/
theorem mem_tail_snoc_iff {x y : κ} {xs ys : List κ} (hperm : (y :: ys).Perm (x :: xs))
    (hnodup : (x :: xs).Nodup) (hnew : k ∉ x :: xs) :
    (∀ z, z ∈ ys ++ [k] ↔ z ∈ xs ++ [k]) ↔ y = x := by
  constructor
  · intro hsame
    by_contra hne
    have hx : x ∈ ys := by
      have hmem := hperm.mem_iff.mpr (List.mem_cons_self (a := x) (l := xs))
      exact (List.mem_cons.mp hmem).resolve_left fun hxy => hne hxy.symm
    have hmem := (hsame x).mp (List.mem_append_left _ hx)
    rcases List.mem_append.mp hmem with hmem | hmem
    · exact (List.nodup_cons.mp hnodup).1 hmem
    · rw [List.mem_singleton.mp hmem] at hnew
      exact hnew (List.mem_cons_self ..)
  · rintro rfl z
    rw [List.mem_append, List.mem_append, hperm.cons_inv.mem_iff]

/-- A full collection drops the least recent key iff it is the first. -/
theorem recent_full_iff (hpos : 0 < bound) (h : keys.Perm (mostRecent bound requests))
    (hk : k ∉ mostRecent bound requests) (hfull : bound ≤ keys.length) :
    Recent bound (requests ++ [k]) (keys.tail ++ [k]) ↔
      keys.head? = (mostRecent bound requests).head? := by
  have hfull' : bound ≤ (mostRecent bound requests).length := by rwa [← h.length_eq]
  obtain ⟨y, ys, hkeys⟩ := List.exists_cons_of_length_pos (Nat.lt_of_lt_of_le hpos hfull)
  obtain ⟨x, xs, hrecent⟩ := List.exists_cons_of_length_pos (Nat.lt_of_lt_of_le hpos hfull')
  have hnodup := nodup_mostRecent bound requests
  rw [Recent, mostRecent_full hk hpos hfull']
  rw [hkeys, hrecent] at h
  rw [hrecent] at hnodup hk
  rw [hkeys, hrecent, List.tail_cons, List.tail_cons, List.head?_cons, List.head?_cons,
    Option.some.injEq]
  exact mem_tail_snoc_iff h hnodup hk

/-- **One request**: the policies go on keeping the same keys iff the one that is dropped,
if any, is the least recent one. -/
theorem recent_fifo_iff (hpos : 0 < bound) (h : Recent bound requests keys)
    (hnodup : keys.Nodup) (k : κ) :
    Recent bound (requests ++ [k]) (fifo bound keys k) ↔
      DropsLeastRecent bound requests keys k := by
  have hperm : keys.Perm (mostRecent bound requests) :=
    (List.perm_ext_iff_of_nodup hnodup (nodup_mostRecent bound requests)).mpr h
  unfold DropsLeastRecent
  rw [head_filter_of_recent h]
  by_cases hk : k ∈ keys
  · -- a hit changes neither of the two
    rw [fifo, if_pos hk]
    refine iff_of_true (fun x => ?_) fun hnot => absurd hk hnot
    rw [h x, mem_mostRecent_hit ((h k).mp hk)]
  · have hk' : k ∉ mostRecent bound requests := fun hmem => hk ((h k).mpr hmem)
    rw [fifo, if_neg hk]
    by_cases hfull : bound ≤ keys.length
    · rw [if_pos hfull, recent_full_iff hpos hperm hk' hfull]
      exact ⟨fun hhead _ _ => hhead, fun hhead => hhead hk hfull⟩
    · have hroom : (mostRecent bound requests).length < bound := by
        rw [← hperm.length_eq]
        omega
      rw [if_neg hfull]
      refine iff_of_true (fun x => ?_) fun _ hle => absurd hle hfull
      rw [mostRecent_room hk' hroom, List.mem_append, List.mem_append, h x]

theorem fifoAfter_snoc (bound : Nat) (requests : List κ) (k : κ) :
    fifoAfter bound (requests ++ [k]) = fifo bound (fifoAfter bound requests) k := by
  rw [fifoAfter, List.foldl_append]
  rfl

theorem nodup_fifoAfter (bound : Nat) (requests : List κ) :
    (fifoAfter bound requests).Nodup := by
  induction requests using List.reverseRecOn with
  | nil => exact List.nodup_nil
  | append_singleton requests k ih =>
    rw [fifoAfter_snoc]
    exact nodup_fifo ih k

/-- **Dropping what came in first is dropping the least recently used, throughout a
history, iff the two are the same key whenever one is dropped.** -/
theorem fifo_recent_iff (hpos : 0 < bound) (requests : List κ) :
    (∀ p, p <+: requests → Recent bound p (fifoAfter bound p)) ↔
      ∀ p k, p ++ [k] <+: requests → DropsLeastRecent bound p (fifoAfter bound p) k := by
  constructor
  · intro h p k hp
    have hbefore := h p ((List.prefix_append p [k]).trans hp)
    have hafter := h (p ++ [k]) hp
    rw [fifoAfter_snoc] at hafter
    exact (recent_fifo_iff hpos hbefore (nodup_fifoAfter bound p) k).mp hafter
  · intro h p
    induction p using List.reverseRecOn with
    | nil =>
      intro _ x
      simp [fifoAfter, mostRecent]
    | append_singleton p k ih =>
      intro hp
      rw [fifoAfter_snoc]
      have hbefore := ih ((List.prefix_append p [k]).trans hp)
      exact (recent_fifo_iff hpos hbefore (nodup_fifoAfter bound p) k).mpr (h p k hp)

/-- Keys that are all new are kept in their order, as long as there is room. -/
theorem fifoAfter_of_nodup (h : requests.Nodup) (hlen : requests.length ≤ bound) :
    fifoAfter bound requests = requests := by
  induction requests using List.reverseRecOn with
  | nil => rfl
  | append_singleton requests k ih =>
    have hsub := List.sublist_append_left requests [k]
    rw [List.length_append, List.length_singleton] at hlen
    rw [fifoAfter_snoc, ih (h.sublist hsub) (by omega), fifo, if_neg, if_neg (by omega)]
    intro hmem
    exact List.disjoint_of_nodup_append h hmem (List.mem_singleton_self k)

/-! ## A key that is requested again and again -/

/-- The last request but one is recent. -/
theorem mem_mostRecent_of_last_two (hbound : 2 ≤ bound) {k' : κ} (h : k ≠ k') :
    k ∈ mostRecent bound (requests ++ [k] ++ [k']) := by
  rw [mostRecent, dedup_snoc, dedup_snoc, List.filter_append, List.filter_cons_of_pos (by simpa),
    List.filter_nil, List.append_assoc]
  generalize List.filter _ (List.filter _ requests.dedup) = before
  have hle : (before ++ ([k] ++ [k'])).length - bound ≤ before.length := by
    simp only [List.length_append, List.length_cons, List.length_nil]
    omega
  rw [List.drop_append_of_le_length hle]
  exact List.mem_append_right _ (by simp)

/-- It is dropped all the same if it came in first. -/
theorem fifoAfter_requested_again {k' : κ} (h : (k :: keys).Nodup)
    (hlen : (k :: keys).length = bound) (hnew : k' ∉ k :: keys) :
    fifoAfter bound (k :: keys ++ [k] ++ [k']) = keys ++ [k'] := by
  rw [fifoAfter_snoc, fifoAfter_snoc, fifoAfter_of_nodup h (Nat.le_of_eq hlen)]
  have hhit : fifo bound (k :: keys) k = k :: keys := if_pos (List.mem_cons_self ..)
  rw [hhit, fifo, if_neg hnew, if_pos (Nat.le_of_eq hlen.symm), List.tail_cons]

end Recency
