import Rxon.Json

/-! # Normal forms of documents

`stripped` drops the null entries of every object and turns every integral double
into the integer of the same value; `canon` also puts the keys in order.  Documents
are equivalent (`Equiv`) when reordering keys, dropping null entries and replacing
integral doubles, anywhere, leads from one to the other.  The main result
(`equiv_iff_canon_eq`) is that `canon` decides this equivalence. -/

namespace Json

mutual

/-- The document without null object entries and without integral doubles. -/
def stripped : Json → Json
  | .float f => if f.IsInteger then .int f.toInt else .float f
  | .arr xs => .arr (strippedList xs)
  | .obj kvs => .obj (strippedEntries kvs)
  | j => j

def strippedList : List Json → List Json
  | [] => []
  | x :: xs => stripped x :: strippedList xs

def strippedEntries : List (String × Json) → List (String × Json)
  | [] => []
  | (k, x) :: kvs =>
    if x.isNull then strippedEntries kvs else (k, stripped x) :: strippedEntries kvs

end

/-- The entries whose value is not null. -/
def nonNull (kvs : List (String × Json)) : List (String × Json) :=
  Assoc.filterVal (fun x => !x.isNull) kvs

@[simp] theorem stripped_arr (xs : List Json) : stripped (.arr xs) = .arr (xs.map stripped) := by
  rw [stripped, List.eq_map_of_cons (f := strippedList) rfl fun _ _ => rfl]

@[simp] theorem stripped_obj (kvs : List (String × Json)) :
    stripped (.obj kvs) = .obj (Assoc.mapVal stripped (nonNull kvs)) := by
  have h : ∀ kvs, strippedEntries kvs = Assoc.mapVal stripped (nonNull kvs) := by
    intro kvs
    induction kvs with
    | nil => rfl
    | cons e kvs ih =>
      rw [strippedEntries, ih, nonNull, nonNull, Assoc.filterVal, Assoc.filterVal, List.filter_cons]
      cases e.2.isNull <;> simp
  rw [stripped, h]

theorem stripped_float_of_holds {f : Binary64} {i : Int} (h : f.Holds i) :
    stripped (.float f) = .int i := by
  rw [stripped, if_pos h.isInteger, h.toInt_eq]

theorem stripped_float_of_not {f : Binary64} (h : ¬ f.IsInteger) :
    stripped (.float f) = .float f := by
  rw [stripped, if_neg h]

/-- The normal form: stripped, with the keys of every object in order. -/
def canon (j : Json) : Json := sortKeys (stripped j)

@[simp] theorem canon_null : canon .null = .null := rfl
@[simp] theorem canon_bool (b : Bool) : canon (.bool b) = .bool b := rfl
@[simp] theorem canon_int (i : Int) : canon (.int i) = .int i := rfl
@[simp] theorem canon_str (s : String) : canon (.str s) = .str s := rfl

theorem canon_float_of_holds {f : Binary64} {i : Int} (h : f.Holds i) :
    canon (.float f) = .int i := by
  rw [canon, stripped_float_of_holds h, sortKeys]
  intro xs hx
  cases hx
  intro kvs hk
  cases hk

theorem canon_float_of_not {f : Binary64} (h : ¬ f.IsInteger) : canon (.float f) = .float f := by
  rw [canon, stripped_float_of_not h]; rfl

@[simp] theorem canon_arr (xs : List Json) : canon (.arr xs) = .arr (xs.map canon) := by
  rw [canon, stripped_arr, sortKeys_arr, List.map_map]; rfl

@[simp] theorem canon_obj (kvs : List (String × Json)) :
    canon (.obj kvs) = .obj (Assoc.sortByKey (Assoc.mapVal canon (nonNull kvs))) := by
  rw [canon, stripped_obj, sortKeys_obj, Assoc.mapVal, Assoc.mapVal, List.map_map]; rfl

@[simp] theorem isNull_canon (j : Json) : (canon j).isNull = j.isNull := by
  cases j with
  | float f =>
    by_cases h : f.IsInteger
    · rw [canon_float_of_holds (Binary64.holds_toInt h)]; rfl
    · rw [canon_float_of_not h]
  | null | bool | int | str | arr | obj => simp [isNull]

/-! ## Lookups -/

variable {kvs kvs' : List (String × Json)}

/-- The value of an entry, a null counting as no entry. -/
def present : Option Json → Option Json
  | some x => if x.isNull then none else some x
  | none => none

@[simp] theorem present_none : present none = none := rfl
@[simp] theorem present_null : present (some .null) = none := rfl

theorem present_of_null {x : Json} (h : x.isNull = true) : present (some x) = none := if_pos h

theorem present_of_not {x : Json} (h : x.isNull = false) : present (some x) = some x :=
  if_neg (by simp [h])

theorem lookup_nonNull (hu : Assoc.Unique kvs) (k : String) :
    List.lookup k (nonNull kvs) = present (List.lookup k kvs) := by
  rw [nonNull, Assoc.lookup_filterVal hu]
  cases List.lookup k kvs with
  | none => rfl
  | some x => cases hx : x.isNull <;> simp [present, hx]

theorem unique_nonNull (hu : Assoc.Unique kvs) : Assoc.Unique (nonNull kvs) := hu.filterVal _

theorem unique_mapVal_nonNull (hu : Assoc.Unique kvs) (f : Json → Json) :
    Assoc.Unique (Assoc.mapVal f (nonNull kvs)) := Assoc.unique_mapVal.mpr (unique_nonNull hu)

/-- What the normal form of an object shows at an entry. -/
def shown (o : Option Json) : Option Json := (present o).map canon

@[simp] theorem shown_none : shown none = none := rfl

theorem shown_of_null {x : Json} (h : x.isNull = true) : shown (some x) = none := by
  rw [shown, present_of_null h]; rfl

theorem shown_of_not {x : Json} (h : x.isNull = false) : shown (some x) = some (canon x) := by
  rw [shown, present_of_not h]; rfl

theorem shown_eq_none {x : Json} : shown (some x) = none ↔ x.isNull = true := by
  cases h : x.isNull with
  | true => simp [shown_of_null h]
  | false => simp [shown_of_not h]

theorem exists_of_shown {o : Option Json} {y : Json} (h : shown o = some y) :
    ∃ x, o = some x ∧ y = canon x := by
  obtain ⟨x, hx, rfl⟩ := Option.map_eq_some_iff.mp h
  cases o with
  | none => cases hx
  | some x' =>
    dsimp only [present] at hx
    split at hx
    · cases hx
    · cases hx
      exact ⟨x, rfl, rfl⟩

theorem shown_eq_iff {x y : Json} : shown (some x) = shown (some y) ↔ canon x = canon y := by
  refine ⟨fun h => ?_, fun h => ?_⟩
  · cases hx : x.isNull with
    | true =>
      rw [shown_of_null hx] at h
      rw [isNull_iff.mp hx, isNull_iff.mp (shown_eq_none.mp h.symm)]
    | false =>
      rw [shown_of_not hx] at h
      cases hy : y.isNull with
      | true => rw [shown_of_null hy] at h; cases h
      | false => rw [shown_of_not hy] at h; exact Option.some.inj h
  · have hn : x.isNull = y.isNull := by rw [← isNull_canon x, h, isNull_canon]
    cases hy : y.isNull with
    | true => rw [shown_of_null hy, shown_of_null (hn.trans hy)]
    | false => rw [shown_of_not hy, shown_of_not (hn.trans hy), h]

/-- What a normal form holds at a key. -/
theorem lookup_canon (hu : Assoc.Unique kvs) (k : String) :
    List.lookup k (Assoc.sortByKey (Assoc.mapVal canon (nonNull kvs))) =
      shown (List.lookup k kvs) := by
  rw [Assoc.lookup_sortByKey (unique_mapVal_nonNull hu _), Assoc.lookup_mapVal, lookup_nonNull hu]
  rfl

/-- **Two objects have the same normal form exactly when every key finds the same
normal form in both**, a null counting as absent. -/
theorem canon_obj_eq_iff (hu : Assoc.Unique kvs) (hu' : Assoc.Unique kvs') :
    canon (.obj kvs) = canon (.obj kvs') ↔
      ∀ k, shown (List.lookup k kvs) = shown (List.lookup k kvs') := by
  rw [canon_obj, canon_obj, obj.injEq]
  constructor
  · intro h k
    rw [← lookup_canon hu, ← lookup_canon hu', h]
  · intro h
    refine Assoc.ext_of_sorted (Assoc.sorted_sortByKey (unique_mapVal_nonNull hu _))
      (Assoc.sorted_sortByKey (unique_mapVal_nonNull hu' _)) fun k => ?_
    rw [lookup_canon hu, lookup_canon hu', h k]

theorem unique_mapVal_filter {α : Type} {l : List (String × α)} (hu : Assoc.Unique l)
    (f : α → Json) (p : String × α → Bool) : Assoc.Unique (Assoc.mapVal f (l.filter p)) :=
  Assoc.unique_mapVal.mpr (hu.sublist List.filter_sublist)

/-- An object and one with some of its entries left out have the same normal form when
the others are equal, and those that are left out are null. -/
theorem canon_mapVal_filter_iff {α : Type} {l : List (String × α)} (hu : Assoc.Unique l)
    (f g : α → Json) (p : String × α → Bool) :
    canon (.obj (Assoc.mapVal f l)) = canon (.obj (Assoc.mapVal g (l.filter p))) ↔
      ∀ e ∈ l, (p e = true → canon (f e.2) = canon (g e.2)) ∧
        (p e = false → (f e.2).isNull = true) := by
  rw [canon_obj_eq_iff (Assoc.unique_mapVal.mpr hu) (unique_mapVal_filter hu g p)]
  simp only [Assoc.lookup_mapVal, Assoc.lookup_filter hu]
  constructor
  · rintro h ⟨k, x⟩ he
    have hk := h k
    rw [Assoc.lookup_of_mem hu he, Option.filter_some] at hk
    constructor
    · intro hp
      rw [if_pos hp] at hk
      exact shown_eq_iff.mp hk
    · intro hp
      rw [hp] at hk
      exact shown_eq_none.mp hk
  · intro h k
    cases hk : List.lookup k l with
    | none => rfl
    | some x =>
      have he := h (k, x) (Assoc.mem_of_lookup hk)
      rw [Option.filter_some]
      cases hp : p (k, x) with
      | true => exact shown_eq_iff.mpr (he.1 hp)
      | false => exact shown_eq_none.mpr (he.2 hp)

/-- Objects made of the same entries have the same normal form when their values have. -/
theorem canon_mapVal_iff {α : Type} {l : List (String × α)} (hu : Assoc.Unique l)
    (f g : α → Json) : canon (.obj (Assoc.mapVal f l)) = canon (.obj (Assoc.mapVal g l)) ↔
      ∀ e ∈ l, canon (f e.2) = canon (g e.2) := by
  have h := canon_mapVal_filter_iff hu f g fun _ => true
  rw [List.filter_eq_self.mpr fun _ _ => rfl] at h
  simpa using h

/-- Objects with the same keys have the same normal form when the values at each key have. -/
theorem canon_mapVal_sameKeys_iff {α : Type} {l l' : List (String × α)}
    (h : Assoc.SameKeys l l') (f : α → Json) :
    canon (.obj (Assoc.mapVal f l)) = canon (.obj (Assoc.mapVal f l')) ↔
      ∀ e ∈ l, ∀ e' ∈ l', e.1 = e'.1 → canon (f e.2) = canon (f e'.2) := by
  rw [canon_obj_eq_iff (Assoc.unique_mapVal.mpr h.left) (Assoc.unique_mapVal.mpr h.right)]
  simp only [Assoc.lookup_mapVal]
  constructor
  · rintro hshown ⟨k, x⟩ he ⟨k', x'⟩ he' rfl
    have hk := hshown k
    rw [Assoc.lookup_of_mem h.left he, Assoc.lookup_of_mem h.right he'] at hk
    exact shown_eq_iff.mp hk
  · intro hvalues k
    by_cases hk : k ∈ Assoc.keys l
    · obtain ⟨⟨k, x⟩, he, rfl⟩ := List.mem_map.mp hk
      obtain ⟨x', he'⟩ := h.exists_right he
      rw [Assoc.lookup_of_mem h.left he, Assoc.lookup_of_mem h.right he']
      exact shown_eq_iff.mpr (hvalues _ he _ he' rfl)
    · rw [Assoc.lookup_eq_none.mpr hk, Assoc.lookup_eq_none.mpr fun hk' => hk ((h.keys k).mpr hk')]

theorem canon_map_iff {α : Type} {l : List α} (f g : α → Json) :
    canon (.arr (l.map f)) = canon (.arr (l.map g)) ↔ ∀ x ∈ l, canon (f x) = canon (g x) := by
  rw [canon_arr, canon_arr, arr.injEq, List.map_map, List.map_map, List.map_inj_left]
  rfl

/-- Arrays made of elements of two lists, position by position. -/
theorem canon_map_zip_iff {α : Type} {l l' : List α} (hlen : l.length = l'.length)
    (f : α → Json) :
    canon (.arr (l.map f)) = canon (.arr (l'.map f)) ↔
      ∀ p ∈ l.zip l', canon (f p.1) = canon (f p.2) := by
  rw [canon_arr, canon_arr, arr.injEq, List.map_map, List.map_map]
  induction l generalizing l' with
  | nil =>
    rw [List.eq_nil_of_length_eq_zero hlen.symm]
    simp
  | cons x l ih =>
    cases l' with
    | nil => cases hlen
    | cons x' l' =>
      rw [List.map_cons, List.map_cons, List.cons.injEq, ih (Nat.succ.inj hlen),
        List.zip_cons_cons, List.forall_mem_cons]
      rfl

/-! ## The normal form is normal -/

/-- The entries of a normal form: sorted, and none of them null. -/
theorem canon_entries {e : String × Json}
    (he : e ∈ Assoc.sortByKey (Assoc.mapVal canon (nonNull kvs))) :
    ∃ x, (e.1, x) ∈ kvs ∧ x.isNull = false ∧ e.2 = canon x := by
  obtain ⟨d, hd, rfl⟩ := List.mem_map.mp ((Assoc.perm_sortByKey _).mem_iff.mp he)
  obtain ⟨hmem, hnn⟩ := List.mem_filter.mp hd
  exact ⟨d.2, hmem, by simpa using hnn, rfl⟩

theorem wf_canon {j : Json} (hj : WF j) : WF (canon j) := by
  induction j with
  | null | bool | int | str => simp
  | float f =>
    by_cases h : f.IsInteger
    · rw [canon_float_of_holds (Binary64.holds_toInt h)]; exact wf_int _
    · rwa [canon_float_of_not h]
  | arr xs ih =>
    rw [canon_arr, wf_arr]
    intro y hy
    obtain ⟨x, hx, rfl⟩ := List.mem_map.mp hy
    exact ih x hx (wf_arr.mp hj x hx)
  | obj kvs ih =>
    obtain ⟨hu, hv⟩ := wf_obj.mp hj
    rw [canon_obj, wf_obj]
    refine ⟨(unique_mapVal_nonNull hu _).sortByKey, fun e he => ?_⟩
    obtain ⟨x, hx, -, hex⟩ := canon_entries he
    rw [hex]
    exact ih _ hx (hv _ hx)

/-- **Normalizing twice is normalizing once.** -/
theorem canon_canon {j : Json} (hj : WF j) : canon (canon j) = canon j := by
  induction j with
  | null | bool | int | str => simp
  | float f =>
    by_cases h : f.IsInteger
    · rw [canon_float_of_holds (Binary64.holds_toInt h), canon_int]
    · rw [canon_float_of_not h, canon_float_of_not h]
  | arr xs ih =>
    rw [canon_arr, canon_arr, List.map_map]
    exact congrArg arr (List.map_congr_left fun x hx => ih x hx (wf_arr.mp hj x hx))
  | obj kvs ih =>
    obtain ⟨hu, hv⟩ := wf_obj.mp hj
    have hc := wf_canon hj
    rw [canon_obj] at hc
    refine (congrArg canon (canon_obj kvs)).trans ((canon_obj_eq_iff (wf_obj.mp hc).1 hu).mpr ?_)
    intro k
    rw [lookup_canon hu]
    cases hk : List.lookup k kvs with
    | none => rfl
    | some x =>
      cases hn : x.isNull with
      | true => rw [shown_of_null hn, shown_none]
      | false =>
        rw [shown_of_not hn, shown_of_not (by rwa [isNull_canon]),
          ih _ (Assoc.mem_of_lookup hk) (hj.lookup hk)]

/-- Sorting first and stripping after gives the same normal form. -/
theorem stripped_sortKeys {j : Json} (hj : WF j) : stripped (sortKeys j) = canon j := by
  induction j with
  | null | bool | int | str => rfl
  | float f =>
    by_cases h : f.IsInteger
    · rw [canon_float_of_holds (Binary64.holds_toInt h), sortKeys,
        stripped_float_of_holds (Binary64.holds_toInt h)]
      intro xs hx
      cases hx
      intro kvs hk
      cases hk
    · rw [canon_float_of_not h]; exact stripped_float_of_not h
  | arr xs ih =>
    rw [sortKeys_arr, stripped_arr, canon_arr, List.map_map]
    exact congrArg arr (List.map_congr_left fun x hx => ih x hx (wf_arr.mp hj x hx))
  | obj kvs ih =>
    obtain ⟨hu, hv⟩ := wf_obj.mp hj
    have hus : Assoc.Unique (Assoc.mapVal sortKeys kvs) := Assoc.unique_mapVal.mpr hu
    rw [sortKeys_obj, stripped_obj, canon_obj, obj.injEq]
    -- both sides are sorted, so they are compared by their lookups
    refine Assoc.ext_of_sorted
      (((Assoc.sorted_sortByKey hus).sublist List.filter_sublist).mapVal _)
      (Assoc.sorted_sortByKey (unique_mapVal_nonNull hu _)) fun k => ?_
    rw [lookup_canon hu, Assoc.lookup_mapVal, lookup_nonNull hus.sortByKey,
      Assoc.lookup_sortByKey hus, Assoc.lookup_mapVal]
    cases hk : List.lookup k kvs with
    | none => rfl
    | some x =>
      rw [Option.map_some]
      cases hn : x.isNull with
      | true => rw [shown_of_null hn, present_of_null (by rwa [isNull_sortKeys])]; rfl
      | false =>
        rw [shown_of_not hn, present_of_not (by rwa [isNull_sortKeys]), Option.map_some,
          ih _ (Assoc.mem_of_lookup hk) (hj.lookup hk)]

theorem sortKeys_sortKeys {j : Json} (hj : WF j) : sortKeys (sortKeys j) = sortKeys j := by
  induction j with
  | null | bool | int | float | str => rfl
  | arr xs ih =>
    rw [sortKeys_arr, sortKeys_arr, List.map_map]
    exact congrArg arr (List.map_congr_left fun x hx => ih x hx (wf_arr.mp hj x hx))
  | obj kvs ih =>
    obtain ⟨hu, hv⟩ := wf_obj.mp hj
    have hus : Assoc.Unique (Assoc.mapVal sortKeys kvs) := Assoc.unique_mapVal.mpr hu
    have hfix : Assoc.mapVal sortKeys (Assoc.sortByKey (Assoc.mapVal sortKeys kvs)) =
        Assoc.sortByKey (Assoc.mapVal sortKeys kvs) := by
      refine (Assoc.mapVal_congr (g := id) fun e he => ?_).trans (List.map_id _)
      obtain ⟨d, hd, rfl⟩ := List.mem_map.mp ((Assoc.perm_sortByKey _).mem_iff.mp he)
      exact ih d hd (hv d hd)
    rw [sortKeys_obj, sortKeys_obj, hfix,
      Assoc.sortByKey_eq_of_sorted (Assoc.sorted_sortByKey hus)]

theorem wf_stripped {j : Json} (hj : WF j) : WF (stripped j) := by
  induction j with
  | null | bool | int | str => exact hj
  | float f =>
    rw [stripped]
    split
    · exact wf_int _
    · exact hj
  | arr xs ih =>
    rw [stripped_arr, wf_arr]
    intro y hy
    obtain ⟨x, hx, rfl⟩ := List.mem_map.mp hy
    exact ih x hx (wf_arr.mp hj x hx)
  | obj kvs ih =>
    obtain ⟨hu, hv⟩ := wf_obj.mp hj
    rw [stripped_obj, wf_obj]
    refine ⟨unique_mapVal_nonNull hu _, fun e he => ?_⟩
    obtain ⟨d, hd, rfl⟩ := List.mem_map.mp he
    exact ih d (List.mem_of_mem_filter hd) (hv d (List.mem_of_mem_filter hd))

/-- A normal form is sorted and stripped already. -/
theorem sortKeys_canon {j : Json} (hj : WF j) : sortKeys (canon j) = canon j :=
  sortKeys_sortKeys (wf_stripped hj)

/-! ## Sizes -/

theorem forall_sorted_mapVal {f : Json → Json} {p : String × Json → Prop} :
    (∀ e ∈ Assoc.sortByKey (Assoc.mapVal f kvs), p e) ↔ ∀ e ∈ kvs, p (e.1, f e.2) := by
  simp only [(Assoc.perm_sortByKey _).mem_iff]
  rw [Assoc.mapVal, List.forall_mem_map]

theorem intsFit_sortKeys {j : Json} : IntsFit (sortKeys j) ↔ IntsFit j := by
  induction j with
  | null | bool | int | float | str => rfl
  | arr xs ih =>
    rw [sortKeys_arr, intsFit_arr, intsFit_arr, List.forall_mem_map]
    exact forall₂_congr ih
  | obj kvs ih =>
    rw [sortKeys_obj, intsFit_obj, intsFit_obj, forall_sorted_mapVal]
    exact forall₂_congr ih

theorem keptDepth_sortKeys (j : Json) : keptDepth (sortKeys j) = keptDepth j := by
  induction j with
  | null | bool | int | float | str => rfl
  | arr xs ih =>
    refine eq_of_forall_ge_iff fun n => ?_
    rw [← Nat.zero_add (keptDepth (sortKeys _)), ← Nat.zero_add (keptDepth (arr xs)), sortKeys_arr,
      keptDepth_arr_le (Nat.zero_le n), keptDepth_arr_le (Nat.zero_le n), List.forall_mem_map]
    exact forall₂_congr fun x hx => by rw [ih x hx]
  | obj kvs ih =>
    refine eq_of_forall_ge_iff fun n => ?_
    rw [← Nat.zero_add (keptDepth (sortKeys _)), ← Nat.zero_add (keptDepth (obj kvs)), sortKeys_obj,
      keptDepth_obj_le (Nat.zero_le n), keptDepth_obj_le (Nat.zero_le n), forall_sorted_mapVal]
    exact forall₂_congr fun e he => by rw [ih e he, isNull_sortKeys]

theorem forall_canon_entries {p : String × Json → Prop} :
    (∀ e ∈ Assoc.sortByKey (Assoc.mapVal canon (nonNull kvs)), p e) ↔
      ∀ e ∈ kvs, e.2.isNull = false → p (e.1, canon e.2) := by
  rw [forall_sorted_mapVal]
  simp only [nonNull, Assoc.filterVal, List.mem_filter, Bool.not_eq_true', and_imp]

theorem keptDepth_canon (j : Json) : keptDepth (canon j) = keptDepth j := by
  induction j with
  | null | bool | int | str => rfl
  | float f =>
    by_cases h : f.IsInteger
    · rw [canon_float_of_holds (Binary64.holds_toInt h)]; rfl
    · rw [canon_float_of_not h]
  | arr xs ih =>
    refine eq_of_forall_ge_iff fun n => ?_
    rw [← Nat.zero_add (keptDepth (canon _)), ← Nat.zero_add (keptDepth (arr xs)), canon_arr,
      keptDepth_arr_le (Nat.zero_le n), keptDepth_arr_le (Nat.zero_le n), List.forall_mem_map]
    exact forall₂_congr fun x hx => by rw [ih x hx]
  | obj kvs ih =>
    refine eq_of_forall_ge_iff fun n => ?_
    rw [← Nat.zero_add (keptDepth (canon _)), ← Nat.zero_add (keptDepth (obj kvs)), canon_obj,
      keptDepth_obj_le (Nat.zero_le n), keptDepth_obj_le (Nat.zero_le n), forall_canon_entries]
    exact forall₂_congr fun e he => by rw [ih e he, isNull_canon, ← and_imp, and_self]

theorem intsFit_of_isNull {j : Json} (h : j.isNull = true) : IntsFit j := by
  rw [isNull_iff.mp h]
  intro n hn
  cases List.mem_singleton.mp hn
  trivial

theorem floatsFit_of_isNull {j : Json} (h : j.isNull = true) : FloatsFit j := by
  rw [isNull_iff.mp h]
  intro n hn
  cases List.mem_singleton.mp hn
  trivial

/-- **The integers of the normal form are those of the document and the values of
its integral doubles.** -/
theorem intsFit_canon {j : Json} : IntsFit (canon j) ↔ IntsFit j ∧ FloatsFit j := by
  induction j with
  | null | bool | int | str => simp [IntsFit, FloatsFit, All, nodes]
  | float f =>
    by_cases h : f.IsInteger
    · rw [canon_float_of_holds (Binary64.holds_toInt h)]
      simp [IntsFit, FloatsFit, All, nodes, h]
    · rw [canon_float_of_not h]
      simp [IntsFit, FloatsFit, All, nodes, h]
  | arr xs ih =>
    rw [canon_arr, intsFit_arr, intsFit_arr, floatsFit_arr, List.forall_mem_map, ← forall₂_and]
    exact forall₂_congr ih
  | obj kvs ih =>
    rw [canon_obj, intsFit_obj, intsFit_obj, floatsFit_obj, ← forall₂_and, forall_canon_entries]
    refine forall₂_congr fun e he => ?_
    rw [ih e he]
    cases hn : e.2.isNull with
    | true => simp [intsFit_of_isNull hn, floatsFit_of_isNull hn]
    | false => simp

/-! ## Equivalence of documents -/

/-- Documents that differ in key order, in null entries and in how integral numbers
are written: the congruence these three rewritings generate. -/
inductive Equiv : Json → Json → Prop
  | refl (x : Json) : Equiv x x
  | symm {x y : Json} : Equiv x y → Equiv y x
  | trans {x y z : Json} : Equiv x y → Equiv y z → Equiv x z
  | reorder {kvs kvs' : List (String × Json)} (hu : Assoc.Unique kvs) (hp : kvs.Perm kvs') :
      Equiv (.obj kvs) (.obj kvs')
  | dropNull (pre post : List (String × Json)) (k : String)
      (hu : Assoc.Unique (pre ++ (k, .null) :: post)) :
      Equiv (.obj (pre ++ (k, .null) :: post)) (.obj (pre ++ post))
  | integral {f : Binary64} {i : Int} (h : f.Holds i) : Equiv (.float f) (.int i)
  | element (pre post : List Json) {x y : Json} :
      Equiv x y → Equiv (.arr (pre ++ x :: post)) (.arr (pre ++ y :: post))
  | entry (pre post : List (String × Json)) (k : String) {x y : Json} :
      Equiv x y → Equiv (.obj (pre ++ (k, x) :: post)) (.obj (pre ++ (k, y) :: post))

/-- Each rewriting keeps the normal form. -/
theorem Equiv.canon_eq {x y : Json} (h : Equiv x y) : canon x = canon y := by
  induction h with
  | refl => rfl
  | symm _ ih => exact ih.symm
  | trans _ _ ih ih' => exact ih.trans ih'
  | reorder hu hp =>
    rw [canon_obj_eq_iff hu (hu.perm hp)]
    exact fun k => by rw [Assoc.lookup_perm hu hp]
  | dropNull pre post k hu => simp [nonNull, Assoc.filterVal, isNull]
  | integral h => rw [canon_float_of_holds h, canon_int]
  | element pre post _ ih => simp [ih]
  | @entry pre post k x y _ ih =>
    have hn : x.isNull = y.isNull := by rw [← isNull_canon x, ih, isNull_canon]
    cases hy : y.isNull <;>
      simp [nonNull, Assoc.filterVal, Assoc.mapVal, hn, hy, ih]

/-- Arrays are equivalent when their elements are, position by position. -/
theorem Equiv.arr_map {f : Json → Json} {xs : List Json} (h : ∀ x ∈ xs, Equiv x (f x)) :
    Equiv (.arr xs) (.arr (xs.map f)) := by
  have key : ∀ pre : List Json, Equiv (.arr (pre ++ xs)) (.arr (pre ++ xs.map f)) := by
    induction xs with
    | nil => exact fun pre => .refl _
    | cons x xs ih =>
      intro pre
      have htail := ih (fun y hy => h y (List.mem_cons_of_mem x hy)) (pre ++ [f x])
      rw [List.append_assoc, List.append_assoc] at htail
      exact (Equiv.element pre xs (h x List.mem_cons_self)).trans htail
  exact key []

/-- Objects are equivalent when their values are, entry by entry. -/
theorem Equiv.obj_mapVal {f : Json → Json} {kvs : List (String × Json)}
    (h : ∀ e ∈ kvs, Equiv e.2 (f e.2)) : Equiv (.obj kvs) (.obj (Assoc.mapVal f kvs)) := by
  have key : ∀ pre : List (String × Json),
      Equiv (.obj (pre ++ kvs)) (.obj (pre ++ Assoc.mapVal f kvs)) := by
    induction kvs with
    | nil => exact fun pre => .refl _
    | cons e kvs ih =>
      intro pre
      have htail := ih (fun d hd => h d (List.mem_cons_of_mem e hd)) (pre ++ [(e.1, f e.2)])
      rw [List.append_assoc, List.append_assoc] at htail
      exact (Equiv.entry pre kvs e.1 (h e List.mem_cons_self)).trans htail
  exact key []

/-- The null entries can be dropped one after the other. -/
theorem Equiv.obj_nonNull {kvs : List (String × Json)} (hu : Assoc.Unique kvs) :
    Equiv (.obj kvs) (.obj (nonNull kvs)) := by
  have key : ∀ pre : List (String × Json), Assoc.Unique (pre ++ kvs) →
      Equiv (.obj (pre ++ kvs)) (.obj (pre ++ nonNull kvs)) := by
    clear hu
    induction kvs with
    | nil => exact fun pre _ => .refl _
    | cons e kvs ih =>
      obtain ⟨k, x⟩ := e
      intro pre hu
      cases hx : x.isNull with
      | true =>
        obtain rfl := isNull_iff.mp hx
        have htail := ih pre (hu.sublist (by simp))
        exact (Equiv.dropNull pre kvs k hu).trans htail
      | false =>
        have htail := ih (pre ++ [(k, x)]) (by rwa [List.append_assoc])
        rw [List.append_assoc, List.append_assoc] at htail
        simpa [nonNull, Assoc.filterVal, List.filter_cons, hx] using htail
  exact key [] hu

theorem equiv_canon {j : Json} (hj : WF j) : Equiv j (canon j) := by
  induction j with
  | null | bool | int | str => exact .refl _
  | float f =>
    by_cases h : f.IsInteger
    · rw [canon_float_of_holds (Binary64.holds_toInt h)]
      exact .integral (Binary64.holds_toInt h)
    · rw [canon_float_of_not h]
      exact .refl _
  | arr xs ih =>
    rw [canon_arr]
    exact Equiv.arr_map fun x hx => ih x hx (wf_arr.mp hj x hx)
  | obj kvs ih =>
    obtain ⟨hu, hv⟩ := wf_obj.mp hj
    rw [canon_obj]
    have hvals : Equiv (.obj (nonNull kvs)) (.obj (Assoc.mapVal canon (nonNull kvs))) :=
      Equiv.obj_mapVal fun e he =>
        ih e (List.mem_of_mem_filter he) (hv e (List.mem_of_mem_filter he))
    exact ((Equiv.obj_nonNull hu).trans hvals).trans
      (.reorder (unique_mapVal_nonNull hu _) (Assoc.perm_sortByKey _).symm)

/-- **Two documents are equivalent exactly when they have the same normal form.** -/
theorem equiv_iff_canon_eq {x y : Json} (hx : WF x) (hy : WF y) :
    Equiv x y ↔ canon x = canon y := by
  refine ⟨Equiv.canon_eq, fun h => ?_⟩
  have hxy : Equiv x (canon y) := h ▸ equiv_canon hx
  exact hxy.trans (equiv_canon hy).symm

end Json
