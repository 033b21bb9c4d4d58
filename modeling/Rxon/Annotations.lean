import Rxon.TypeDecl

/-! # Annotations without metadata

`get_type_hints` without extras takes the `Annotated` off an annotation, however deep they
stand.  A union that had some is built again from its alternatives: nested unions become
part of it, and of alternatives that are then equal the first one stays.  So a union may
change in more than its metadata, but what it has among its alternatives it keeps. -/

namespace Ty

/-! ## Equality -/

def sameMembers : List (String × PyVal) → List (String × PyVal) → Bool
  | [], [] => true
  | (m, v) :: ms, (m', v') :: ms' => decide (m = m') && v.same v' && sameMembers ms ms'
  | _, _ => false

mutual

/-- `t == t'`, on annotations without metadata; unions are equal as sets are. -/
def same : Ty → Ty → Bool
  | .any, .any | .str, .str | .int, .int | .float, .float | .bool, .bool | .none, .none
  | .uuid, .uuid => true
  | .enum c ms, .enum c' ms' => decide (c = c') && sameMembers ms ms'
  | .list t, .list t' | .dict t, .dict t' => same t t'
  | .union ts, .union ts' => within ts ts' && ts'.all fun t' => among ts t'
  | .cls c, .cls c' | .text c, .text c' | .other c, .other c' => decide (c = c')
  | _, _ => false

/-- Every alternative has an equal one. -/
def within : List Ty → List Ty → Bool
  | [], _ => true
  | t :: ts, ts' => ts'.any (fun t' => same t t') && within ts ts'

/-- Some alternative is equal to this one. -/
def among : List Ty → Ty → Bool
  | [], _ => false
  | t :: ts, t' => same t t' || among ts t'

end

/-! ## Unions -/

/-- What stays of the alternatives, of which some were `seen` before. -/
def dedupe (seen : List Ty) : List Ty → List Ty
  | [] => []
  | t :: ts =>
    if seen.any fun u => u.same t then dedupe seen ts else t :: dedupe (t :: seen) ts

/-- The alternatives of a union; any other annotation is its only one. -/
def members : Ty → List Ty
  | .union ts => ts
  | t => [t]

/-- `Union[ts]`. -/
def unionOf (ts : List Ty) : Ty :=
  match dedupe [] (ts.flatMap members) with
  | [t] => t
  | us => .union us

mutual

/-- Whether there is an `Annotated` in it. -/
def hasExtras : Ty → Bool
  | .annotated _ => true
  | .list t | .dict t => hasExtras t
  | .union ts => hasExtrasList ts
  | _ => false

def hasExtrasList : List Ty → Bool
  | [] => false
  | t :: ts => hasExtras t || hasExtrasList ts

end

mutual

/-- The annotation as `get_type_hints` returns it without extras. -/
def withoutExtras : Ty → Ty
  | .list t => .list (withoutExtras t)
  | .dict t => .dict (withoutExtras t)
  | .union ts => if hasExtrasList ts then unionOf (withoutExtrasList ts) else .union ts
  | .annotated t => withoutExtras t
  | t => t

def withoutExtrasList : List Ty → List Ty
  | [] => []
  | t :: ts => withoutExtras t :: withoutExtrasList ts

end

section
variable {t u a : Ty} {ts us seen : List Ty}

theorem hasExtrasList_iff : hasExtrasList ts = false ↔ ∀ t ∈ ts, t.hasExtras = false := by
  induction ts with
  | nil => simp [hasExtrasList]
  | cons t ts ih => simp [hasExtrasList, ih]

theorem withoutExtrasList_eq (ts : List Ty) : withoutExtrasList ts = ts.map withoutExtras :=
  List.eq_map_of_cons rfl (fun _ _ => rfl) ts

theorem withoutExtras_union (ts : List Ty) : withoutExtras (.union ts) =
    if hasExtrasList ts then unionOf (ts.map withoutExtras) else .union ts := by
  rw [withoutExtras, withoutExtrasList_eq]

/-- There is nothing to strip. -/
theorem withoutExtras_eq (h : t.hasExtras = false) : t.withoutExtras = t := by
  induction t with
  | list t ih => rw [withoutExtras, ih h]
  | dict t ih => rw [withoutExtras, ih h]
  | union ts _ =>
    rw [hasExtras] at h
    rw [withoutExtras_union, h]
    rfl
  | annotated => cases h
  | any | str | int | float | bool | none | uuid | enum | cls | text | other => rfl

theorem among_iff : among ts t = true ↔ ∃ u ∈ ts, u.same t = true := by
  induction ts with
  | nil => simp [among]
  | cons u us ih => simp [among, ih]

/-- Equal annotations have equal alternatives. -/
theorem exists_same_alternative (h : u.same t = true) (ha : a ∈ t.alternatives) :
    ∃ a' ∈ u.alternatives, a'.same a = true := by
  induction u generalizing t with
  | union us ih =>
    cases t with
    | union ts =>
      rw [same, Bool.and_eq_true, List.all_eq_true] at h
      obtain ⟨t, ht, ha⟩ := mem_alternativesList.mp ha
      obtain ⟨u, hu, hsame⟩ := among_iff.mp (h.2 t ht)
      obtain ⟨a', ha', hsame⟩ := ih u hu hsame ha
      exact ⟨a', mem_alternativesList.mpr ⟨u, hu, ha'⟩, hsame⟩
    | _ => cases h
  | annotated u _ => cases t <;> cases h
  | any | str | int | float | bool | none | uuid | enum | list | dict | cls | text | other =>
    refine ⟨_, List.mem_singleton_self _, ?_⟩
    cases t with
    | union | annotated => cases h
    | any | str | int | float | bool | none | uuid | enum | list | dict | cls | text | other =>
      rw [List.mem_singleton.mp ha]
      exact h

theorem mem_of_sameMembers {ms ms' : List (String × PyVal)} (h : sameMembers ms ms' = true)
    {m s : String} (hm : (m, PyVal.str s) ∈ ms') : (m, PyVal.str s) ∈ ms := by
  induction ms generalizing ms' with
  | nil =>
    cases ms' with
    | nil => exact hm
    | cons => cases h
  | cons e ms ih =>
    cases ms' with
    | nil => cases h
    | cons e' ms' =>
      obtain ⟨n, v⟩ := e
      obtain ⟨n', v'⟩ := e'
      simp only [sameMembers, Bool.and_eq_true, decide_eq_true_eq] at h
      obtain ⟨⟨rfl, hv⟩, hms⟩ := h
      rcases List.mem_cons.mp hm with heq | hm
      · obtain ⟨rfl, rfl⟩ := Prod.mk.inj heq
        rw [PyVal.eq_str_of_same hv]
        exact List.mem_cons_self
      · exact List.mem_cons_of_mem _ (ih hms hm)

/-! ### Alternatives that stay -/

theorem dedupe_sublist (seen ts : List Ty) : (dedupe seen ts).Sublist ts := by
  induction ts generalizing seen with
  | nil => exact List.Sublist.refl _
  | cons t ts ih =>
    unfold dedupe
    split
    · exact (ih seen).cons t
    · exact (ih (t :: seen)).cons_cons t

/-- What does not stay is equal to what does. -/
theorem exists_dedupe (seen : List Ty) (ht : t ∈ ts) :
    t ∈ dedupe seen ts ∨ ∃ u ∈ seen ++ dedupe seen ts, u.same t = true := by
  induction ts generalizing seen with
  | nil => cases ht
  | cons t' ts ih =>
    unfold dedupe
    split
    · next hseen =>
      rcases List.mem_cons.mp ht with rfl | ht
      · obtain ⟨u, hu, hsame⟩ := List.any_eq_true.mp hseen
        exact Or.inr ⟨u, List.mem_append_left _ hu, hsame⟩
      · exact ih seen ht
    · rcases List.mem_cons.mp ht with rfl | ht
      · exact Or.inl List.mem_cons_self
      · rcases ih (t' :: seen) ht with hstays | ⟨u, hu, hsame⟩
        · exact Or.inl (List.mem_cons_of_mem t' hstays)
        · refine Or.inr ⟨u, ?_, hsame⟩
          simp only [List.cons_append, List.mem_cons, List.mem_append] at hu ⊢
          tauto

theorem mem_members (ha : a ∈ t.alternatives) : ∃ u ∈ t.members, a ∈ u.alternatives := by
  cases t with
  | union ts => exact mem_alternativesList.mp ha
  | any | str | int | float | bool | none | uuid | enum | list | dict | annotated | cls
    | text | other => exact ⟨_, List.mem_singleton_self _, ha⟩

/-- A property of all alternatives is one of their union. -/
theorem unionOf_induction {P : Ty → Prop} (hunion : ∀ us : List Ty, P (.union us) ↔ ∀ u ∈ us, P u)
    (h : ∀ t ∈ ts, P t) : P (unionOf ts) := by
  have hmembers : ∀ u ∈ dedupe [] (ts.flatMap members), P u := by
    intro u hu
    obtain ⟨t, ht, hu⟩ := List.mem_flatMap.mp ((dedupe_sublist _ _).subset hu)
    cases t with
    | union us => exact (hunion us).mp (h _ ht) u hu
    | any | str | int | float | bool | none | uuid | enum | list | dict | annotated | cls
      | text | other =>
      rw [List.mem_singleton.mp hu]
      exact h _ ht
  unfold unionOf
  split
  · next u heq =>
    rw [heq] at hmembers
    exact hmembers u (List.mem_singleton_self u)
  · exact (hunion _).mpr hmembers

/-- A union keeps the alternatives of what it is made of, or equal ones. -/
theorem unionOf_alternatives (ht : t ∈ ts) (ha : a ∈ t.alternatives) :
    a ∈ (unionOf ts).alternatives ∨ ∃ a' ∈ (unionOf ts).alternatives, a'.same a = true := by
  have hstays : ∀ u ∈ dedupe [] (ts.flatMap members), ∀ a ∈ u.alternatives,
      a ∈ (unionOf ts).alternatives := by
    intro u hu a ha
    unfold unionOf
    split
    · next u' heq =>
      rw [heq] at hu
      rwa [← List.mem_singleton.mp hu]
    · exact mem_alternativesList.mpr ⟨u, hu, ha⟩
  obtain ⟨u, hu, ha⟩ := mem_members ha
  rcases exists_dedupe [] (List.mem_flatMap.mpr ⟨t, ht, hu⟩) with hu | ⟨u', hu', hsame⟩
  · exact Or.inl (hstays u hu a ha)
  · obtain ⟨a', ha', hsame⟩ := exists_same_alternative hsame ha
    exact Or.inr ⟨a', hstays u' hu' a' ha', hsame⟩

end

end Ty
