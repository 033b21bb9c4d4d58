import Mathlib.Data.List.Nodup
import Mathlib.Data.List.Sort
import Mathlib.Order.Defs.LinearOrder

/-! # Association lists with unique keys

A dictionary is the list of its entries in insertion order, with no key twice.
Lookups see neither the order nor how the list was built; two lists sorted by key
that answer every lookup alike are equal (`ext_of_sorted`), so sorting by key is a
canonical form of a dictionary. -/

namespace List
variable {α β : Type} {xs : List α} {ys : List β}

/-- Beside a list that is as long every element has its partner. -/
theorem exists_mem_zip_left (hlen : xs.length = ys.length) {x : α} (hx : x ∈ xs) :
    ∃ y, (x, y) ∈ xs.zip ys := by
  rw [← map_fst_zip (Nat.le_of_eq hlen)] at hx
  obtain ⟨p, hp, rfl⟩ := mem_map.mp hx
  exact ⟨p.2, hp⟩

theorem exists_mem_zip_right (hlen : xs.length = ys.length) {y : β} (hy : y ∈ ys) :
    ∃ x, (x, y) ∈ xs.zip ys := by
  rw [← map_snd_zip (Nat.le_of_eq hlen.symm)] at hy
  obtain ⟨p, hp, rfl⟩ := mem_map.mp hy
  exact ⟨p.1, hp⟩

/-- The two parts of a pair stand at the same position. -/
theorem mem_zip_iff_getElem? {p : α × β} :
    p ∈ xs.zip ys ↔ ∃ i : Nat, xs[i]? = some p.1 ∧ ys[i]? = some p.2 := by
  rw [mem_iff_getElem?]
  exact exists_congr fun i => getElem?_zip_eq_some

/-- What holds at every position of a list, by the head and the tail. -/
theorem forall_getElem?_cons {p : Nat → α → Prop} {x : α} :
    (∀ i y, (x :: xs)[i]? = some y → p i y) ↔ p 0 x ∧ ∀ i y, xs[i]? = some y → p (i + 1) y := by
  constructor
  · exact fun h => ⟨h 0 x rfl, fun i y hy => h (i + 1) y hy⟩
  · rintro ⟨hx, hxs⟩ i y hy
    cases i with
    | zero => cases hy; exact hx
    | succ i => exact hxs i y hy

/-! Functions on trees go through the lists in a tree by a function of their own. -/

theorem eq_map_of_cons {f : List α → List β} {g : α → β} (hnil : f [] = [])
    (hcons : ∀ x xs, f (x :: xs) = g x :: f xs) (xs : List α) : f xs = xs.map g := by
  induction xs with
  | nil => exact hnil
  | cons x xs ih => rw [hcons, ih, map_cons]

theorem forall_iff_of_cons {f : List α → Bool} {p : α → Bool} (hnil : f [] = true)
    (hcons : ∀ x xs, f (x :: xs) = (p x && f xs)) (xs : List α) :
    f xs = true ↔ ∀ x ∈ xs, p x = true := by
  induction xs with
  | nil => exact iff_of_true hnil nofun
  | cons x xs ih => rw [hcons, Bool.and_eq_true, ih, forall_mem_cons]

end List

namespace Assoc
variable {κ α β : Type} {l l' : List (κ × α)} {k : κ} {v : α}

/-- The keys, in order. -/
def keys (l : List (κ × α)) : List κ := l.map Prod.fst

/-- No key occurs twice. -/
def Unique (l : List (κ × α)) : Prop := (keys l).Nodup

instance [DecidableEq κ] (l : List (κ × α)) : Decidable (Unique l) :=
  inferInstanceAs (Decidable (keys l).Nodup)

@[simp] theorem keys_nil : keys ([] : List (κ × α)) = [] := rfl
@[simp] theorem keys_cons (e : κ × α) : keys (e :: l) = e.1 :: keys l := rfl
@[simp] theorem keys_append : keys (l ++ l') = keys l ++ keys l' := List.map_append
@[simp] theorem unique_nil : Unique ([] : List (κ × α)) := List.nodup_nil

theorem unique_cons {e : κ × α} : Unique (e :: l) ↔ e.1 ∉ keys l ∧ Unique l := List.nodup_cons

theorem length_eq_of_keys {l' : List (κ × β)} (h : keys l = keys l') : l.length = l'.length := by
  have := congrArg List.length h
  rwa [keys, keys, List.length_map, List.length_map] at this

theorem mem_keys_of_mem {e : κ × α} (h : e ∈ l) : e.1 ∈ keys l := List.mem_map_of_mem h

theorem Unique.perm (h : Unique l) (hp : l.Perm l') : Unique l' :=
  (hp.map Prod.fst).nodup_iff.mp h

theorem Unique.sublist (h : Unique l) (hs : l'.Sublist l) : Unique l' :=
  List.Nodup.sublist (hs.map Prod.fst) h

/-- Apply `f` to every value. -/
def mapVal (f : α → β) (l : List (κ × α)) : List (κ × β) := l.map fun e => (e.1, f e.2)

@[simp] theorem mapVal_nil (f : α → β) : mapVal f ([] : List (κ × α)) = [] := rfl
@[simp] theorem mapVal_cons (f : α → β) (e : κ × α) :
    mapVal f (e :: l) = (e.1, f e.2) :: mapVal f l := rfl

@[simp] theorem keys_mapVal (f : α → β) : keys (mapVal f l) = keys l := by
  simp [keys, mapVal]

theorem unique_mapVal {f : α → β} : Unique (mapVal f l) ↔ Unique l := by
  rw [Unique, keys_mapVal, Unique]

theorem mapVal_congr {f g : α → β} (h : ∀ e ∈ l, f e.2 = g e.2) : mapVal f l = mapVal g l :=
  List.map_congr_left fun e he => by rw [h e he]

/-- The entries whose value satisfies `p`. -/
def filterVal (p : α → Bool) (l : List (κ × α)) : List (κ × α) := l.filter fun e => p e.2

theorem Unique.filterVal (h : Unique l) (p : α → Bool) : Unique (filterVal p l) :=
  h.sublist List.filter_sublist

/-- Two maps with the same keys. -/
structure SameKeys (l l' : List (κ × α)) : Prop where
  left : Unique l
  right : Unique l'
  keys (k : κ) : k ∈ keys l ↔ k ∈ keys l'

namespace SameKeys

theorem symm (h : SameKeys l l') : SameKeys l' l := ⟨h.right, h.left, fun k => (h.keys k).symm⟩

theorem exists_right (h : SameKeys l l') {e : κ × α} (he : e ∈ l) : ∃ v, (e.1, v) ∈ l' := by
  obtain ⟨e', he', heq⟩ := List.mem_map.mp ((h.keys e.1).mp (mem_keys_of_mem he))
  exact ⟨e'.2, by rwa [← heq]⟩

theorem length_eq (h : SameKeys l l') : l.length = l'.length := by
  have hperm : (Assoc.keys l).Perm (Assoc.keys l') :=
    (List.perm_ext_iff_of_nodup h.left h.right).mpr h.keys
  have hlen := hperm.length_eq
  rwa [Assoc.keys, Assoc.keys, List.length_map, List.length_map] at hlen

/-- Entries are left out of both maps when they have the same keys. -/
theorem filter (h : SameKeys l l') {p : κ × α → Bool}
    (hp : ∀ e ∈ l, ∀ e' ∈ l', e.1 = e'.1 → p e = p e') :
    SameKeys (l.filter p) (l'.filter p) := by
  have hsub {l l' : List (κ × α)} (h : SameKeys l l')
      (hp : ∀ e ∈ l, ∀ e' ∈ l', e.1 = e'.1 → p e = p e') {k : κ}
      (hk : k ∈ Assoc.keys (l.filter p)) : k ∈ Assoc.keys (l'.filter p) := by
    obtain ⟨e, he, rfl⟩ := List.mem_map.mp hk
    obtain ⟨hmem, hpe⟩ := List.mem_filter.mp he
    obtain ⟨v, hv⟩ := h.exists_right hmem
    have hfiltered : (e.1, v) ∈ l'.filter p :=
      List.mem_filter.mpr ⟨hv, (hp e hmem (e.1, v) hv rfl).symm.trans hpe⟩
    exact List.mem_map.mpr ⟨(e.1, v), hfiltered, rfl⟩
  refine ⟨h.left.sublist List.filter_sublist, h.right.sublist List.filter_sublist, fun k => ?_⟩
  exact ⟨hsub h hp, hsub h.symm fun e he e' he' heq => (hp e' he' e he heq.symm).symm⟩

end SameKeys

section Lookup
variable [DecidableEq κ]

theorem lookup_cons_self (k : κ) (v : α) (l : List (κ × α)) :
    List.lookup k ((k, v) :: l) = some v := by
  simp

theorem lookup_cons_ne {k' : κ} (h : k ≠ k') : List.lookup k ((k', v) :: l) = List.lookup k l := by
  rw [List.lookup_cons, beq_eq_false_iff_ne.mpr h]

theorem lookup_eq_none : List.lookup k l = none ↔ k ∉ keys l := by
  induction l with
  | nil => simp
  | cons e l ih =>
    obtain ⟨k', v⟩ := e
    by_cases h : k = k'
    · subst h; simp
    · rw [lookup_cons_ne h, ih, keys_cons, List.mem_cons]; simp [h]

theorem mem_of_lookup (h : List.lookup k l = some v) : (k, v) ∈ l := by
  obtain ⟨l₁, l₂, rfl, -⟩ := List.lookup_eq_some_iff.mp h
  simp

theorem lookup_of_mem (hu : Unique l) (h : (k, v) ∈ l) : List.lookup k l = some v := by
  induction l with
  | nil => cases h
  | cons e l ih =>
    obtain ⟨k', v'⟩ := e
    obtain ⟨hnot, hu⟩ := unique_cons.mp hu
    rcases List.mem_cons.mp h with he | h
    · cases he; exact lookup_cons_self k v l
    · have hk : k ∈ keys l := mem_keys_of_mem h
      have hne : k ≠ k' := by rintro rfl; exact hnot hk
      rw [lookup_cons_ne hne, ih hu h]

theorem lookup_eq_some (hu : Unique l) : List.lookup k l = some v ↔ (k, v) ∈ l :=
  ⟨mem_of_lookup, lookup_of_mem hu⟩

/-- A lookup does not see the order of the entries. -/
theorem lookup_perm (hu : Unique l) (hp : l.Perm l') (k : κ) :
    List.lookup k l = List.lookup k l' := by
  apply Option.ext
  intro v
  rw [lookup_eq_some hu, lookup_eq_some (hu.perm hp), hp.mem_iff]

theorem lookup_mapVal (f : α → β) (k : κ) (l : List (κ × α)) :
    List.lookup k (mapVal f l) = (List.lookup k l).map f := by
  induction l with
  | nil => rfl
  | cons e l ih =>
    obtain ⟨k', v⟩ := e
    by_cases h : k = k'
    · subst h; simp
    · rw [mapVal_cons, lookup_cons_ne h, lookup_cons_ne h, ih]

theorem lookup_filter (hu : Unique l) (p : κ × α → Bool) (k : κ) :
    List.lookup k (l.filter p) = (List.lookup k l).filter fun v => p (k, v) := by
  apply Option.ext
  intro v
  rw [lookup_eq_some (hu.sublist List.filter_sublist), List.mem_filter, Option.filter_eq_some_iff,
    lookup_eq_some hu]

theorem lookup_filterVal (hu : Unique l) (p : α → Bool) (k : κ) :
    List.lookup k (filterVal p l) = (List.lookup k l).filter p :=
  lookup_filter hu (fun e => p e.2) k

/-- `d.pop(k, None)`: the dictionary without the key. -/
def pop (k : κ) (l : List (κ × α)) : List (κ × α) := l.filter fun e => e.1 ≠ k

theorem lookup_pop (k k' : κ) (l : List (κ × α)) :
    List.lookup k (pop k' l) = if k = k' then none else List.lookup k l := by
  unfold pop
  induction l with
  | nil => simp
  | cons e l ih =>
    obtain ⟨k₀, v⟩ := e
    by_cases he : k₀ = k'
    · rw [List.filter_cons_of_neg (by simp [he]), ih]
      split
      · rfl
      · rw [lookup_cons_ne (by rintro rfl; contradiction)]
    · rw [List.filter_cons_of_pos (by simp [he])]
      by_cases hk : k = k₀
      · subst hk; rw [lookup_cons_self, lookup_cons_self, if_neg he]
      · rw [lookup_cons_ne hk, lookup_cons_ne hk, ih]

/-- `pop` for each of the keys. -/
def popAll (ks : List κ) (l : List (κ × α)) : List (κ × α) := ks.foldl (fun d k => pop k d) l

theorem popAll_sublist (ks : List κ) (l : List (κ × α)) : (popAll ks l).Sublist l := by
  induction ks generalizing l with
  | nil => exact List.Sublist.refl l
  | cons k ks ih => exact (ih (pop k l)).trans List.filter_sublist

theorem lookup_popAll (k : κ) (ks : List κ) (l : List (κ × α)) :
    List.lookup k (popAll ks l) = if k ∈ ks then none else List.lookup k l := by
  induction ks generalizing l with
  | nil => simp [popAll]
  | cons k' ks ih =>
    rw [popAll, List.foldl_cons, ← popAll, ih, lookup_pop]
    by_cases hk : k ∈ ks
    · rw [if_pos hk, if_pos (List.mem_cons_of_mem k' hk)]
    · rw [if_neg hk]
      by_cases he : k = k'
      · rw [if_pos he, if_pos (by rw [he]; exact List.mem_cons_self)]
      · rw [if_neg he, if_neg (by simp [he, hk])]

/-- `d[k] = v`: an existing key keeps its place, a new one goes last. -/
def set (k : κ) (v : α) : List (κ × α) → List (κ × α)
  | [] => [(k, v)]
  | e :: l => if e.1 = k then (k, v) :: l else e :: set k v l

theorem lookup_set_self (k : κ) (v : α) (l : List (κ × α)) :
    List.lookup k (set k v l) = some v := by
  induction l with
  | nil => exact lookup_cons_self k v []
  | cons e l ih =>
    unfold set
    split
    · exact lookup_cons_self k v l
    · rename_i he
      rw [lookup_cons_ne (fun h => he h.symm), ih]

theorem lookup_set_ne {k' : κ} (h : k' ≠ k) (v : α) (l : List (κ × α)) :
    List.lookup k' (set k v l) = List.lookup k' l := by
  induction l with
  | nil => exact lookup_cons_ne h
  | cons e l ih =>
    obtain ⟨k₀, v₀⟩ := e
    unfold set
    split
    · rename_i he
      cases he
      rw [lookup_cons_ne h, lookup_cons_ne h]
    · by_cases hk : k' = k₀
      · subst hk; rw [lookup_cons_self, lookup_cons_self]
      · rw [lookup_cons_ne hk, lookup_cons_ne hk, ih]

/-- Setting a key to what it has changes nothing. -/
theorem set_of_lookup (h : l.lookup k = some v) : set k v l = l := by
  induction l with
  | nil => cases h
  | cons e l ih =>
    obtain ⟨k', v'⟩ := e
    unfold set
    by_cases hk : k' = k
    · subst hk
      rw [lookup_cons_self] at h
      cases h
      exact if_pos rfl
    · rw [lookup_cons_ne (fun h => hk h.symm)] at h
      rw [if_neg hk, ih h]

/-- Setting a key that is there keeps the keys. -/
theorem keys_set (h : k ∈ keys l) (v : α) : keys (set k v l) = keys l := by
  induction l with
  | nil => cases h
  | cons e l ih =>
    unfold set
    split
    · rename_i he
      rw [keys_cons, keys_cons, he]
    · rename_i he
      rw [keys_cons, keys_cons, ih ((List.mem_cons.mp h).resolve_left fun hk => he hk.symm)]

theorem mem_set {e : κ × α} (h : e ∈ set k v l) : e = (k, v) ∨ e ∈ l := by
  induction l with
  | nil => exact Or.inl (List.mem_singleton.mp h)
  | cons d l ih =>
    unfold set at h
    split at h
    · exact (List.mem_cons.mp h).imp_right (List.mem_cons_of_mem d)
    · rcases List.mem_cons.mp h with rfl | h
      · exact Or.inr List.mem_cons_self
      · exact (ih h).imp_right (List.mem_cons_of_mem d)

theorem mem_keys_set {k' : κ} (h : k' ∈ keys (set k v l)) : k' = k ∨ k' ∈ keys l := by
  obtain ⟨e, he, rfl⟩ := List.mem_map.mp h
  rcases mem_set he with rfl | he
  · exact Or.inl rfl
  · exact Or.inr (mem_keys_of_mem he)

theorem Unique.set (h : Unique l) (k : κ) (v : α) : Unique (set k v l) := by
  induction l with
  | nil => exact List.nodup_singleton k
  | cons e l ih =>
    obtain ⟨he, hl⟩ := unique_cons.mp h
    unfold Assoc.set
    split
    · rename_i hk
      exact unique_cons.mpr ⟨hk ▸ he, hl⟩
    · rename_i hk
      refine unique_cons.mpr ⟨fun hmem => ?_, ih hl⟩
      rcases mem_keys_set hmem with hek | hmem
      · exact hk hek
      · exact he hmem

/-- Beside another list, setting a key changes the positions of the key only. -/
theorem mem_zip_set {ι : Type} {xs : List ι} {p : ι × κ × α} (h : p ∈ xs.zip (set k v l)) :
    p.2 = (k, v) ∨ p ∈ xs.zip l := by
  induction l generalizing xs with
  | nil => exact Or.inl (List.mem_singleton.mp (List.of_mem_zip h).2)
  | cons d l ih =>
    cases xs with
    | nil => cases h
    | cons x xs =>
      unfold set at h
      split at h
      · rcases List.mem_cons.mp h with rfl | h
        · exact Or.inl rfl
        · exact Or.inr (List.mem_cons_of_mem _ h)
      · rcases List.mem_cons.mp h with rfl | h
        · exact Or.inr List.mem_cons_self
        · exact (ih h).imp_right (List.mem_cons_of_mem _)

end Lookup

/-! ## Sorting by key -/

section Sorting
variable [LinearOrder κ]

/-- The keys increase strictly. -/
def Sorted (l : List (κ × α)) : Prop := l.Pairwise fun a b => a.1 < b.1

/-- The entries in the order of their keys. -/
def sortByKey (l : List (κ × α)) : List (κ × α) := l.insertionSort fun a b => a.1 ≤ b.1

theorem perm_sortByKey (l : List (κ × α)) : (sortByKey l).Perm l := List.perm_insertionSort _ l

theorem Unique.sortByKey (h : Unique l) : Unique (sortByKey l) := h.perm (perm_sortByKey l).symm

theorem Sorted.unique (h : Sorted l) : Unique l := by
  unfold Unique keys
  exact List.pairwise_map.mpr (h.imp fun hlt => ne_of_lt hlt)

instance total_keys : Std.Total fun a b : κ × α => a.1 ≤ b.1 := ⟨fun a b => le_total a.1 b.1⟩
instance isTrans_keys : IsTrans (κ × α) fun a b => a.1 ≤ b.1 := ⟨fun _ _ _ => le_trans⟩

theorem sorted_sortByKey (h : Unique l) : Sorted (sortByKey l) := by
  have hle := List.pairwise_insertionSort (fun a b : κ × α => a.1 ≤ b.1) l
  have hne : (sortByKey l).Pairwise fun a b => a.1 ≠ b.1 := List.pairwise_map.mp h.sortByKey
  exact (List.Pairwise.and hle hne).imp fun hab => lt_of_le_of_ne hab.1 hab.2

theorem Sorted.sublist (h : Sorted l) (hs : l'.Sublist l) : Sorted l' := List.Pairwise.sublist hs h

theorem Sorted.mapVal (h : Sorted l) (f : α → β) : Sorted (mapVal f l) :=
  List.pairwise_map.mpr h

/-- **Sorted dictionaries with the same lookups are the same list.** -/
theorem ext_of_sorted (hl : Sorted l) (hl' : Sorted l')
    (h : ∀ k, List.lookup k l = List.lookup k l') : l = l' := by
  have hmem : ∀ e, e ∈ l ↔ e ∈ l' := fun e => by
    rw [← lookup_eq_some hl.unique, h, lookup_eq_some hl'.unique]
  have hperm : l.Perm l' :=
    (List.perm_ext_iff_of_nodup (List.Nodup.of_map _ hl.unique)
      (List.Nodup.of_map _ hl'.unique)).mpr hmem
  exact hperm.eq_of_pairwise (fun _ _ _ _ h₁ h₂ => absurd h₁ (lt_asymm h₂)) hl hl'

theorem lookup_sortByKey (h : Unique l) (k : κ) :
    List.lookup k (sortByKey l) = List.lookup k l :=
  lookup_perm h.sortByKey (perm_sortByKey l) k

theorem sortByKey_eq_of_sorted (h : Sorted l) : sortByKey l = l :=
  ext_of_sorted (sorted_sortByKey h.unique) h (lookup_sortByKey h.unique)

end Sorting
end Assoc
