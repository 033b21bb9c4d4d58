import Rxon.Messages
import Rxon.PropertyRelation
import Rxon.Deliveries

/-! # What a registration offers

A worker registers with its resources, its artifacts and its skills; the orchestrator matches
requirements against what it restores of them.  In between lies the normal form, which puts keys
in order, drops null entries and turns integral doubles into integers.

A requirement is answered by what was restored as it is by what the worker has
(`registrations_match`), as long as no property value holds an object with a null entry: Python
compares numbers by value, and objects by key. -/

namespace Json

/-! ## Values that lose no entry -/

/-- No object in the value has a null entry. -/
def Whole : Json → Prop := All fun
  | .obj kvs => ∀ e ∈ kvs, e.2.isNull = false
  | _ => True

variable {j : Json} {xs : List Json} {kvs : List (String × Json)}

theorem whole_arr : Whole (.arr xs) ↔ ∀ x ∈ xs, Whole x := by
  rw [Whole, all_arr, true_and]

theorem whole_obj : Whole (.obj kvs) ↔ (∀ e ∈ kvs, e.2.isNull = false) ∧ ∀ e ∈ kvs, Whole e.2 :=
  all_obj

instance (j : Json) : Decidable (Whole j) :=
  @List.decidableBAll Json _ (fun
    | .obj kvs => inferInstanceAs (Decidable (∀ e ∈ kvs, e.2.isNull = false))
    | .null | .bool _ | .int _ | .float _ | .str _ | .arr _ => isTrue trivial) (nodes j)

theorem nonNull_of_whole (h : Whole (.obj kvs)) : nonNull kvs = kvs := by
  rw [nonNull, Assoc.filterVal, List.filter_eq_self]
  intro e he
  rw [(whole_obj.mp h).1 e he, Bool.not_false]

/-- The number that a value is to Python is the one that its normal form is. -/
theorem numeric?_canon (j : Json) : (canon j).toPy.numeric? = j.toPy.numeric? := by
  cases j with
  | float f =>
    by_cases h : f.IsInteger
    · have hh := Binary64.holds_toInt h
      rw [canon_float_of_holds hh]
      show some (PyVal.Numeric.finite _) = some (PyVal.Numeric.finite _)
      rw [hh]
    · rw [canon_float_of_not h]
  | arr xs => rw [canon_arr, toPy_arr, toPy_arr]; rfl
  | obj kvs => rw [canon_obj, toPy_obj, toPy_obj]; rfl
  | null | bool | int | str => rfl

theorem same_of_numeric_canon {n : Int} (h : j.toPy.numeric? = some (.finite n)) :
    j.toPy.same (canon j).toPy = true ∧ (canon j).toPy.same j.toPy = true := by
  have hc : (canon j).toPy.numeric? = some (.finite n) := by rw [numeric?_canon, h]
  have hn : PyVal.Numeric.finite n ≠ .nan := by simp
  rw [PyVal.same_of_numeric (by rw [h]; exact Option.some_ne_none _),
    PyVal.same_of_numeric (by rw [hc]; exact Option.some_ne_none _), PyVal.sameNumber_iff,
    PyVal.sameNumber_iff]
  exact ⟨Or.inr ⟨_, hn, h, hc⟩, Or.inr ⟨_, hn, hc, h⟩⟩

theorem sameList_canon (h : ∀ x ∈ xs, x.toPy.same (canon x).toPy = true ∧
    (canon x).toPy.same x.toPy = true) :
    PyVal.sameList (xs.map toPy) (xs.map fun x => (canon x).toPy) = true ∧
      PyVal.sameList (xs.map fun x => (canon x).toPy) (xs.map toPy) = true := by
  induction xs with
  | nil => simp [PyVal.sameList]
  | cons x xs ih =>
    obtain ⟨hx, hxs⟩ := List.forall_mem_cons.mp h
    simp only [List.map_cons, PyVal.sameList, hx.1, hx.2, ih hxs, Bool.and_self, and_self]

/-- **A value that loses no entry equals its normal form**, as Python compares. -/
theorem same_canon (hj : j.WF) (h : j.Whole) :
    j.toPy.same (canon j).toPy = true ∧ (canon j).toPy.same j.toPy = true := by
  induction j with
  | null => simp [toPy, PyVal.same]
  | bool _ | int _ | float _ => exact same_of_numeric_canon rfl
  | str s => simp [toPy, PyVal.same]
  | arr xs ih =>
    have hxs := sameList_canon fun x hx => ih x hx (wf_arr.mp hj x hx) (whole_arr.mp h x hx)
    rw [canon_arr, toPy_arr, toPy_arr, List.map_map, PyVal.same, PyVal.same]
    exact hxs
  | obj kvs ih =>
    obtain ⟨hu, hwf⟩ := wf_obj.mp hj
    obtain ⟨hnull, hwhole⟩ := whole_obj.mp h
    have hu' := unique_mapVal_nonNull hu canon
    have hlen : (Assoc.sortByKey (Assoc.mapVal canon (nonNull kvs))).length = kvs.length := by
      rw [(Assoc.perm_sortByKey _).length_eq, nonNull_of_whole h, Assoc.mapVal, List.length_map]
    rw [canon_obj, toPy_obj, toPy_obj]
    simp only [PyVal.same, Bool.and_eq_true, beq_iff_eq, PyVal.sameEntries_iff]
    refine ⟨⟨by simpa [Assoc.mapVal] using hlen.symm, ?_⟩, by simpa [Assoc.mapVal] using hlen, ?_⟩
    · rw [Assoc.mapVal, List.forall_mem_map]
      intro e he
      refine ⟨(canon e.2).toPy, ?_, (ih e he (hwf e he) (hwhole e he)).1⟩
      rw [Assoc.lookup_mapVal, lookup_canon hu, Assoc.lookup_of_mem hu he,
        shown_of_not (hnull e he), Option.map_some]
    · rw [Assoc.mapVal, List.forall_mem_map]
      refine forall_canon_entries.mpr fun e he _ => ?_
      refine ⟨e.2.toPy, ?_, (ih e he (hwf e he) (hwhole e he)).2⟩
      rw [Assoc.lookup_mapVal, Assoc.lookup_of_mem hu he, Option.map_some]

/-- Python compares anything with the normal form as with the value. -/
theorem canon_same (hj : j.WF) (h : j.Whole) (v : PyVal) :
    (canon j).toPy.same v = j.toPy.same v := by
  obtain ⟨hto, hfrom⟩ := same_canon hj h
  exact Bool.eq_iff_iff.mpr ⟨PyVal.same_trans hto, PyVal.same_trans hfrom⟩

theorem same_canon_right (hj : j.WF) (h : j.Whole) (v : PyVal) :
    v.same (canon j).toPy = v.same j.toPy := by
  obtain ⟨hto, hfrom⟩ := same_canon hj h
  exact Bool.eq_iff_iff.mpr ⟨fun hv => PyVal.same_trans hv hfrom,
    fun hv => PyVal.same_trans hv hto⟩

/-! ## Matching what is in normal form -/

theorem elements?_canon (j : Json) : (canon j).elements? = j.elements?.map (·.map canon) := by
  cases j with
  | float f =>
    by_cases h : f.IsInteger
    · rw [canon_float_of_holds (Binary64.holds_toInt h)]; rfl
    · rw [canon_float_of_not h]; rfl
  | arr xs => rw [canon_arr]; rfl
  | obj kvs => rw [canon_obj]; rfl
  | null | bool | int | str => rfl

theorem hashable_canon (j : Json) : (canon j).toPy.hashable = j.toPy.hashable := by
  cases j with
  | float f =>
    by_cases h : f.IsInteger
    · rw [canon_float_of_holds (Binary64.holds_toInt h), hashable_toPy, hashable_toPy]; rfl
    · rw [canon_float_of_not h]
  | arr xs => rw [canon_arr, hashable_toPy, hashable_toPy]; rfl
  | obj kvs => rw [canon_obj, hashable_toPy, hashable_toPy]; rfl
  | null | bool | int | str => rfl

theorem toPy_ne_none (h : j.isNull = false) : j.toPy ≠ .none := by
  cases j <;> simp [toPy, isNull] at h ⊢

theorem eq_of_toPy (j : Json) (v : PyVal) : j.toPy.eq v = j.toPy.same v := by
  cases j <;> simp [toPy, PyVal.eq]

/-- The set that is made of the elements fails or not as that of the values. -/
theorem toSet_canon (xs : List Json) :
    Rxon.toSet (false, (xs.map canon).map toPy) =
      if xs.all (·.toPy.hashable) then .ok ((xs.map canon).map toPy)
      else .error (.typeError "unhashable type") := by
  have hall : ((xs.map canon).map toPy).all PyVal.hashable = xs.all (·.toPy.hashable) := by
    rw [List.all_map, List.all_map]
    exact congrArg xs.all (funext hashable_canon)
  rw [Rxon.toSet, hall]

theorem any_same_canon (h : ∀ x ∈ xs, x.WF ∧ x.Whole) (v : PyVal) :
    ((xs.map canon).map toPy).any v.same = (xs.map toPy).any v.same := by
  rw [Bool.eq_iff_iff]
  simp only [List.any_map, List.any_eq_true, Function.comp_apply]
  refine exists_congr fun x => and_congr_right fun hx => ?_
  rw [same_canon_right (h x hx).1 (h x hx).2]

theorem any_meets_canon (h : ∀ x ∈ xs, x.WF ∧ x.Whole) (req : List PyVal) :
    (((xs.map canon).map toPy).any fun v => req.any v.same) =
      (xs.map toPy).any fun v => req.any v.same := by
  rw [Bool.eq_iff_iff]
  simp only [List.any_map, List.any_eq_true, Function.comp_apply]
  refine exists_congr fun x => and_congr_right fun hx => ?_
  simp only [canon_same (h x hx).1 (h x hx).2]

/-- An offered list is met through the set of its elements. -/
theorem valueMatches_list (xs : List PyVal) (req : PyVal) :
    Rxon.valueMatches (.list xs) req = (match Rxon.collection? req with
      | some r => do
        let reqSet ← Rxon.toSet r
        let mySet ← Rxon.toSet (false, xs)
        return mySet.any fun v => reqSet.any v.same
      | none => (Rxon.toSet (false, xs)).bind fun mySet => Rxon.setContains mySet req) := by
  unfold Rxon.valueMatches
  split
  · rename_i hmy
    cases hmy
  · cases Rxon.collection? req <;> rfl

theorem valueMatches_arr (hj : (arr xs).WF) (h : (arr xs).Whole) (req : PyVal) :
    Rxon.valueMatches (canon (arr xs)).toPy req = Rxon.valueMatches (arr xs).toPy req := by
  have hall : ∀ x ∈ xs, x.WF ∧ x.Whole := fun x hx =>
    ⟨wf_arr.mp hj x hx, whole_arr.mp h x hx⟩
  have hset : Rxon.toSet (false, xs.map toPy) = if xs.all (·.toPy.hashable) then
      .ok (xs.map toPy) else .error (.typeError "unhashable type") := by
    rw [Rxon.toSet, List.all_map]
    rfl
  rw [canon_arr, toPy_arr, toPy_arr, valueMatches_list, valueMatches_list, toSet_canon, hset]
  -- whether the elements can be hashed is the same question
  cases xs.all (·.toPy.hashable) with
  | false => rfl
  | true =>
    simp only [if_true, bind, Except.bind, Rxon.setContains, any_same_canon hall,
      any_meets_canon hall]

/-- **A required value is met by the normal form as by the value.** -/
theorem valueMatches_canon (hj : j.WF) (h : j.Whole) (req : PyVal) :
    Rxon.valueMatches (canon j).toPy req = Rxon.valueMatches j.toPy req := by
  cases hxs : j.elements? with
  | some xs =>
    obtain rfl := elements?_eq_some.mp hxs
    exact valueMatches_arr hj h req
  | none =>
    have heq : (canon j).toPy.eq req = j.toPy.eq req := by
      rw [eq_of_toPy, eq_of_toPy, canon_same hj h]
    have hany (s : List PyVal) : s.any (canon j).toPy.same = s.any j.toPy.same :=
      congrArg s.any (funext (canon_same hj h))
    unfold Rxon.valueMatches
    rw [numeric?_canon, collection?_toPy_eq, collection?_toPy_eq, elements?_canon, hxs]
    simp only [Option.map_none, Rxon.setContains, hashable_canon, heq, hany]

end Json

/-! ## What arrives of a value -/

section
variable (D : Decls)

/-- `x'` is what is restored of the value `x` of type `t`. -/
structure ArrivesAs (t : Ty) (x x' : PyVal) : Prop where
  type : HasType D t x
  reads : Reads D .none t (Json.canon (x.tree D)) x'

/-- `x'` is what a field holds in the restored Struct, where the sent one holds `x`. -/
structure FieldArrivesAs (f : FieldDecl) (x x' : PyVal) : Prop where
  type : HasType D f.type x
  reads : Reads D .none f.type (Json.canon (x.tree D)) x' ∨
    f.default.make? = some x' ∧ (x = .none ∨ x.same x' = true)

/-- The fields of a restored Struct, against those of the one that was sent. -/
def FieldsArriveAs (fields : List FieldDecl) (fs fs' : List (String × PyVal)) : Prop :=
  ∀ f ∈ fields, ∃ x x', fs.lookup f.name = some x ∧ fs'.lookup f.name = some x' ∧
    FieldArrivesAs D f x x'

/-- Whatever is restored, `read` finds something in it and in what was sent, and the relation
holds of the two. -/
def ReadsAlike {α : Type} (t : Ty) (read : PyVal → Option α) (R : α → α → Prop) : Prop :=
  ∀ x x', ArrivesAs D t x x' → ∃ a a', read x = some a ∧ read x' = some a' ∧ R a a'

variable {D} {α : Type} {t : Ty} {x x' v v' : PyVal} {c : String} {fields : List FieldDecl}

/-- What the fields of a restored Struct hold. -/
theorem ArrivesAs.eq_struct (hD : D.wire = true) (hdecl : D.lookup c = some ⟨.struct true, fields⟩)
    (h : ArrivesAs D (.cls c) v v') :
    ∃ head head' fs fs', v = .struct head fs ∧ v' = .struct head' fs' ∧ head.cls = c ∧
      head'.cls = c ∧ FieldsArriveAs D fields fs fs' := by
  obtain ⟨hv, hr⟩ := h
  obtain ⟨-, hnodup, -⟩ := Decls.wire_lookup hD hdecl
  cases hv with
  | dataclass _ fields' fs hd _ _ => cases (Decls.wire_lookup hD hd).1
  | struct _ head hhead b fields' fs hdecl' hnames hall =>
    rw [hdecl] at hdecl'
    cases hdecl'
    have hdecl' : D.lookup head.cls = some ⟨.struct true, fields⟩ := hhead ▸ hdecl
    have hu : Assoc.Unique fs := by rwa [Assoc.Unique, ← hnames]
    generalize hd : Json.canon ((PyVal.struct head fs).tree D) = d at hr
    cases hr with
    | struct _ b' fields' kvs fs' hread hnames' hgiven habsent =>
      rw [hdecl] at hread
      cases hread
      refine ⟨head, _, fs, fs', rfl, rfl, hhead, rfl, fun f hf => ?_⟩
      obtain ⟨x, hx⟩ := FieldDecl.exists_mem_zip hnames hf
      obtain ⟨x', hx'⟩ := FieldDecl.exists_mem_zip hnames' hf
      have hxwire := ((hall _ hx).restores hD (FieldDecl.wire_iff.mp
        ((Decls.wire_lookup hD hdecl).2.2 f hf)).2.1).wire
      refine ⟨x.2, x'.2, FieldDecl.lookup_of_mem_zip hnames hnodup hx,
        FieldDecl.lookup_of_mem_zip hnames' hnodup hx', hall _ hx, ?_⟩
      -- what the document shows of the field
      rw [PyVal.tree_struct, Json.canon_obj, Json.obj.injEq] at hd
      have hshown := HasType.lookup_field hD hdecl' hnames hx
      have hkept : Assoc.Unique (Assoc.mapVal (PyVal.tree D) (D.kept head fs)) :=
        Decls.unique_kept hu
      have hlook := Json.lookup_canon hkept f.name
      rw [hd, hshown] at hlook
      cases homits : D.omits head f.name x.2 with
      | true =>
        rw [homits] at hlook
        have habs := habsent _ hx' hlook
        obtain ⟨w, hw, hcanon, -⟩ :=
          (HasType.omits_iff hD hdecl' hf hxwire (hall _ hx)).mp homits
        cases habs.symm.trans hw
        refine Or.inr ⟨habs, Or.inr ((PyVal.same_iff_canon_eq hxwire ?_).mpr hcanon)⟩
        have hwire := (Decls.wire_lookup hD hdecl).2.2 f hf
        exact (hall _ hx).comparable ((FieldDecl.wire_iff.mp hwire).2.2.1 _ hw)
      | false =>
        simp only [homits, Bool.false_eq_true, if_false] at hlook
        cases hnull : (x.2.tree D).isNull with
        | true =>
          rw [Json.shown_of_null hnull] at hlook
          exact Or.inr ⟨habsent _ hx' hlook, Or.inl (hxwire.isNull_tree.mp hnull)⟩
        | false =>
          rw [Json.shown_of_not hnull] at hlook
          exact Or.inl (hgiven _ hx' _ hlook)

/-! ### Readers -/

theorem FieldArrivesAs.text {f : FieldDecl} (h : FieldArrivesAs D f x x') (ht : f.type = .str) :
    ∃ s, x = .str s ∧ x' = .str s := by
  obtain ⟨htype, hfrom⟩ := h
  rw [ht] at htype hfrom
  cases htype with
  | str s =>
    refine ⟨s, rfl, ?_⟩
    rcases hfrom with hreads | ⟨-, hnone | hsame⟩
    · cases hreads
      rfl
    · cases hnone
    · exact PyVal.eq_str_of_same_str hsame

theorem FieldArrivesAs.optional {f : FieldDecl} {read : PyVal → Option α} {R : α → α → Prop}
    (hread : ReadsAlike D t read R) (h : FieldArrivesAs D f x x') (ht : f.type = t.optional)
    (hw : t.optional.wire = true) (hD : D.wire = true) (hdefault : f.default = .value .none) :
    ∃ o o', x.optional? read = some o ∧ x'.optional? read = some o' ∧ Option.Rel R o o' := by
  obtain ⟨htype, hfrom⟩ := h
  rw [ht] at htype hfrom
  rw [hdefault] at hfrom
  have hxwire := (htype.restores hD hw).wire
  by_cases hx : x = .none
  · subst hx
    have hx' : x' = .none := by
      rcases hfrom with hreads | ⟨hmake, -⟩
      · exact hreads.eq_none_iff.mpr rfl
      · exact (Option.some.inj hmake).symm
    subst hx'
    exact ⟨none, none, rfl, rfl, .none⟩
  · have hxt : HasType D t x := by
      cases htype with
      | union a _ _ ha hxa =>
        rcases List.mem_cons.mp ha with rfl | ha
        · exact hxa
        · obtain rfl := List.mem_singleton.mp ha
          cases hxa
          exact absurd rfl hx
    have hnull : Json.canon (x.tree D) ≠ .null := by
      rw [Ne, ← Json.isNull_iff, Json.isNull_canon, hxwire.isNull_tree]
      exact hx
    have hreads : Reads D .none t (Json.canon (x.tree D)) x' := by
      rcases hfrom with hreads | ⟨hmake, hnone | hsame⟩
      · rcases hreads.of_optional with hreads' | hnone
        · exact hreads'
        · exact absurd (hreads.eq_none_iff.mp hnone) hnull
      · exact absurd hnone hx
      · obtain rfl := Option.some.inj hmake
        exact absurd ((PyVal.same_none hxwire).mp hsame) hx
    have hx' : x' ≠ .none := fun hnone => hnull (hreads.eq_none_iff.mp hnone)
    obtain ⟨a, a', ha, ha', hR⟩ := hread x x' ⟨hxt, hreads⟩
    have hopt (v : PyVal) (hv : v ≠ .none) : v.optional? read = (read v).map some := by
      cases v <;> first | exact absurd rfl hv | rfl
    exact ⟨some a, some a', by rw [hopt x hx, ha]; rfl, by rw [hopt x' hx', ha']; rfl, .some hR⟩

section
variable {fs fs' : List (String × PyVal)} (name : String)

theorem FieldsArriveAs.text (h : FieldsArriveAs D fields fs fs')
    (hf : ∃ default, ⟨name, .str, default⟩ ∈ fields) :
    ∃ s, fs.lookup name = some (.str s) ∧ fs'.lookup name = some (.str s) := by
  obtain ⟨default, hf⟩ := hf
  obtain ⟨x, x', hx, hx', harrives⟩ := h _ hf
  obtain ⟨s, rfl, rfl⟩ := harrives.text rfl
  exact ⟨s, hx, hx'⟩

theorem FieldsArriveAs.optional {read : PyVal → Option α} {R : α → α → Prop}
    (h : FieldsArriveAs D fields fs fs') (hread : ReadsAlike D t read R) (hD : D.wire = true)
    (hw : t.optional.wire = true) (hf : ⟨name, t.optional, .value .none⟩ ∈ fields) :
    ∃ x x' o o', fs.lookup name = some x ∧ fs'.lookup name = some x' ∧
      x.optional? read = some o ∧ x'.optional? read = some o' ∧ Option.Rel R o o' := by
  obtain ⟨x, x', hx, hx', harrives⟩ := h _ hf
  obtain ⟨o, o', ho, ho', hrel⟩ := harrives.optional hread rfl hw hD rfl
  exact ⟨x, x', o, o', hx, hx', ho, ho', hrel⟩

end

theorem readsAlike_text : ReadsAlike D .str PyVal.text? Eq := by
  rintro x x' ⟨htype, hreads⟩
  cases htype
  cases hreads
  exact ⟨_, _, rfl, rfl, rfl⟩

/-- The elements of a list, read one by one. -/
def PyVal.elementsOf (read : PyVal → Option α) (x : PyVal) : Option (List α) :=
  x.elements?.bind (·.mapM read)

theorem readsAlike_list {read : PyVal → Option α} {R : α → α → Prop}
    (hread : ReadsAlike D t read R) :
    ReadsAlike D (.list t) (PyVal.elementsOf read) (List.Forall₂ R) := by
  rintro x x' ⟨htype, hreads⟩
  cases htype with
  | list _ xs hxs =>
    rw [PyVal.tree_list, Json.canon_arr, List.map_map] at hreads
    cases hreads with
    | list _ _ xs' hlen hxs' =>
      show ∃ as as', xs.mapM read = some as ∧ xs'.mapM read = some as' ∧ List.Forall₂ R as as'
      induction xs generalizing xs' with
      | nil =>
        obtain rfl := List.length_eq_zero_iff.mp hlen.symm
        exact ⟨[], [], rfl, rfl, .nil⟩
      | cons x xs ih =>
        obtain ⟨hx, hxs⟩ := List.forall_mem_cons.mp hxs
        cases xs' with
        | nil => cases hlen
        | cons x' xs' =>
          obtain ⟨a, a', ha, ha', hR⟩ := hread x x' ⟨hx, hxs' 0 _ _ rfl rfl⟩
          obtain ⟨as, as', has, has', hRs⟩ :=
            ih hxs xs' (Nat.succ.inj hlen) fun i d r hd hr => hxs' (i + 1) d r hd hr
          refine ⟨a :: as, a' :: as', ?_, ?_, .cons hR hRs⟩
          · rw [List.mapM_cons, ha, has]; rfl
          · rw [List.mapM_cons, ha', has']; rfl

/-- A dict of JSON values, and the dict of their normal forms. -/
def CarriedValues (p p' : List (String × PyVal)) : Prop :=
  ∃ js, (Json.obj js).WF ∧ p = Assoc.mapVal Json.toPy js ∧
    p' = Assoc.mapVal Json.toPy (Assoc.sortByKey (Assoc.mapVal Json.canon (Json.nonNull js)))

theorem readsAlike_entries : ReadsAlike D (.dict .any) PyVal.entries? CarriedValues := by
  rintro x x' ⟨htype, hreads⟩
  cases htype with
  | dict _ kvs hu hkvs =>
    have hjson : ∀ e ∈ kvs, (e.2.tree D).WF ∧ (e.2.tree D).toPy = e.2 := by
      intro e he
      have hany := hkvs e he
      generalize e.2 = y at hany
      cases hany with
      | any j hj => rw [PyVal.tree_toPy]; exact ⟨hj, rfl⟩
    have hentries : kvs = Assoc.mapVal Json.toPy (Assoc.mapVal (PyVal.tree D) kvs) := by
      rw [Assoc.mapVal, Assoc.mapVal, List.map_map]
      refine (List.map_id kvs).symm.trans (List.map_congr_left fun e he => ?_)
      exact Prod.ext rfl (hjson e he).2.symm
    rw [PyVal.tree_dict, Json.canon_obj] at hreads
    generalize hds : Assoc.sortByKey (Assoc.mapVal Json.canon (Json.nonNull
      (Assoc.mapVal (PyVal.tree D) kvs))) = ds at hreads
    cases hreads with
    | dict _ _ rs hkeys hrs =>
      refine ⟨kvs, rs, rfl, rfl, Assoc.mapVal (PyVal.tree D) kvs, ?_, hentries, ?_⟩
      · rw [Json.wf_obj, Assoc.mapVal, List.forall_mem_map]
        exact ⟨Assoc.unique_mapVal.mpr hu, fun e he => (hjson e he).1⟩
      · rw [hds]
        clear hds
        induction ds generalizing rs with
        | nil =>
          cases rs with
          | nil => rfl
          | cons => cases hkeys
        | cons d ds ih =>
          cases rs with
          | nil => cases hkeys
          | cons r rs =>
            rw [Assoc.keys_cons, Assoc.keys_cons, List.cons.injEq] at hkeys
            rw [List.zip_cons_cons, List.forall_mem_cons] at hrs
            have hr : r.2 = d.2.toPy := by
              have hreads := hrs.1
              generalize r.2 = y at hreads
              cases hreads
              rfl
            rw [Assoc.mapVal_cons, ← ih rs hkeys.2 hrs.2, ← hr, hkeys.1]

end

namespace Rxon

/-! ## Skills -/

/-- What is matched of a skill, or listed of it in an index. -/
structure SkillInfo where
  name : String
  type : Option String := none
  description : Option String := none
  version : Option String := none
  schemaDialect : String := "json-schema"
  risk : String := "low"
  permissions : Option (List String) := none

namespace SkillInfo

def «matches» (self req : SkillInfo) : Bool :=
  if self.name ≠ req.name then false
  else if req.type ≠ none ∧ self.type ≠ req.type then false
  else req.version = none || self.version = req.version

/-- `to_index`. -/
def toIndex (self : SkillInfo) : PyVal :=
  .dict [("name", .str self.name), ("type", optStr self.type),
    ("description", optStr self.description), ("version", optStr self.version),
    ("risk", .str self.risk),
    ("permissions", .list ((self.permissions.getD []).map .str)),
    ("schema_dialect", .str self.schemaDialect)]

/-- The instance as a record. -/
def ofPy : PyVal → Option SkillInfo
  | .struct head fs =>
    if head.cls = "SkillInfo" then do
      return {
        name := ← (← fs.lookup "name").text?
        type := ← (← fs.lookup "type").optional? PyVal.text?
        description := ← (← fs.lookup "description").optional? PyVal.text?
        version := ← (← fs.lookup "version").optional? PyVal.text?
        schemaDialect := ← (← fs.lookup "schema_dialect").text?
        risk := ← (← fs.lookup "risk").text?
        permissions := ← (← fs.lookup "permissions").optional? (PyVal.elementsOf PyVal.text?) }
    else none
  | _ => none

end SkillInfo

/-! ## Offers -/

/-- What a registration offers. -/
structure Offer where
  resources : Option Resources
  artifacts : Option (List InstalledArtifact)
  skills : Option (List SkillInfo)

/-- What the `WorkerRegistration` offers. -/
def Offer.ofPy : PyVal → Option Offer
  | .struct head fs =>
    if head.cls = "WorkerRegistration" then do
      return {
        resources := ← (← fs.lookup "resources").optional? Resources.ofPy
        artifacts := ← (← fs.lookup "installed_artifacts").optional?
          (PyVal.elementsOf InstalledArtifact.ofPy)
        skills := ← (← fs.lookup "supported_skills").optional?
          (PyVal.elementsOf SkillInfo.ofPy) }
    else none
  | _ => none

/-- No value of the dict holds an object with a null entry. -/
def WholeValues (props : List (String × PyVal)) : Prop :=
  ∀ e ∈ props, ∀ j : Json, e.2 = j.toPy → j.Whole

/-- The documents that the values spell tell whether the dict is whole. -/
theorem wholeValues_of_tree {props : List (String × PyVal)}
    (h : ∀ e ∈ props, (e.2.tree []).Whole) : WholeValues props := by
  intro e he j hj
  have htree := h e he
  rwa [hj, PyVal.tree_toPy] at htree

/-- No property value holds an object with a null entry. -/
structure Offer.Whole (o : Offer) : Prop where
  devices : ∀ r ∈ o.resources, ∀ d ∈ r.deviceList, WholeValues (d.properties.getD [])
  resources : ∀ r ∈ o.resources, WholeValues (r.properties.getD [])
  artifacts : ∀ a ∈ o.artifacts.getD [], WholeValues (a.properties.getD [])

/-- The two offers answer every requirement alike, and list the same skills. -/
structure Offer.AnswersAs (lower : String → String) (o o' : Offer) : Prop where
  resources : o'.resources.map (Resources.matches lower) =
    o.resources.map (Resources.matches lower)
  artifacts : o'.artifacts.map (·.map InstalledArtifact.matches) =
    o.artifacts.map (·.map InstalledArtifact.matches)
  skills : o'.skills.map (·.map SkillInfo.matches) = o.skills.map (·.map SkillInfo.matches)
  index : o'.skills.map (·.map SkillInfo.toIndex) = o.skills.map (·.map SkillInfo.toIndex)

/-! ### Restored records -/

/-- The properties of a record and of the restored one. -/
abbrev CarriedProperties (p p' : Option (List (String × PyVal))) : Prop :=
  Option.Rel CarriedValues p p'

/-- The device as it is restored: only the properties may look different. -/
structure HardwareDevice.Carried (d d' : HardwareDevice) : Prop where
  type : d.type = d'.type
  model : d.model = d'.model
  id : d.id = d'.id
  properties : CarriedProperties d.properties d'.properties

structure Resources.Carried (r r' : Resources) : Prop where
  devices : Option.Rel (List.Forall₂ HardwareDevice.Carried) r.devices r'.devices
  properties : CarriedProperties r.properties r'.properties

structure InstalledArtifact.Carried (a a' : InstalledArtifact) : Prop where
  name : a.name = a'.name
  version : a.version = a'.version
  type : a.type = a'.type
  properties : CarriedProperties a.properties a'.properties

structure Offer.Carried (o o' : Offer) : Prop where
  resources : Option.Rel Resources.Carried o.resources o'.resources
  artifacts : Option.Rel (List.Forall₂ InstalledArtifact.Carried) o.artifacts o'.artifacts
  skills : o.skills = o'.skills

theorem eq_of_rel {α : Type} {o o' : Option α} (h : Option.Rel Eq o o') : o = o' := by
  cases h with
  | none => rfl
  | some h => rw [h]

/-- Lists whose elements are related give the same images, where related elements do. -/
theorem map_eq_of_forall₂ {α β : Type} {R : α → α → Prop} {f : α → β} {xs ys : List α}
    (h : List.Forall₂ R xs ys) (hf : ∀ x ∈ xs, ∀ y, R x y → f y = f x) :
    ys.map f = xs.map f := by
  induction h with
  | nil => rfl
  | cons h _ ih =>
    obtain ⟨hx, hxs⟩ := List.forall_mem_cons.mp hf
    rw [List.map_cons, List.map_cons, hx _ h, ih hxs]

theorem eq_of_forall₂ {α : Type} {xs ys : List α} (h : List.Forall₂ Eq xs ys) : xs = ys := by
  induction h with
  | nil => rfl
  | cons h _ ih => rw [h, ih]

theorem eq_of_rel_forall₂ {α : Type} {o o' : Option (List α)}
    (h : Option.Rel (List.Forall₂ Eq) o o') : o = o' := by
  cases h with
  | none => rfl
  | some h => rw [eq_of_forall₂ h]

theorem readsAlike_device :
    ReadsAlike rxonDecls (.cls "HardwareDevice") HardwareDevice.ofPy HardwareDevice.Carried := by
  intro x x' h
  have hdecl : rxonDecls.lookup "HardwareDevice" = some hardwareDevice := rfl
  obtain ⟨_, _, fs, fs', rfl, rfl, hcls, hcls', hfields⟩ := h.eq_struct rxonDecls_wire hdecl
  obtain ⟨type, ht, ht'⟩ := hfields.text "type" (by simp)
  obtain ⟨_, _, model, model', hm, hm', hmodel, hmodel', hmodels⟩ :=
    hfields.optional "model" readsAlike_text rxonDecls_wire rfl (by simp)
  obtain ⟨_, _, id, id', hi, hi', hid, hid', hids⟩ :=
    hfields.optional "id" readsAlike_text rxonDecls_wire rfl (by simp)
  obtain ⟨_, _, props, props', hp, hp', hprops, hprops', hcarried⟩ :=
    hfields.optional "properties" readsAlike_entries rxonDecls_wire rfl (by simp)
  obtain ⟨_, _, metrics, metrics', hn, hn', hmetrics, hmetrics', -⟩ :=
    hfields.optional "metrics" readsAlike_entries rxonDecls_wire rfl (by simp)
  refine ⟨⟨type, model, id, props, metrics⟩, ⟨type, model', id', props', metrics'⟩, ?_, ?_,
    ⟨rfl, eq_of_rel hmodels, eq_of_rel hids, hcarried⟩⟩
  · simp only [HardwareDevice.ofPy, hcls, ht, hm, hi, hp, hn, hmodel, hid, hprops, hmetrics,
      PyVal.text?, if_true, Option.bind_eq_bind, Option.bind_some, Option.pure_def]
  · simp only [HardwareDevice.ofPy, hcls', ht', hm', hi', hp', hn', hmodel', hid', hprops',
      hmetrics', PyVal.text?, if_true, Option.bind_eq_bind, Option.bind_some, Option.pure_def]

/-- The devices of a `Resources`, in the order in which its fields are read. -/
theorem optional?_elementsOf {α : Type} (read : PyVal → Option α) (x : PyVal) :
    (x.optional? PyVal.elements?).bind (fun o => o.mapM (·.mapM read)) =
      x.optional? (PyVal.elementsOf read) := by
  cases x with
  | list xs =>
    show (some xs).mapM (·.mapM read) = (xs.mapM read).map some
    rw [Option.mapM_some]
    cases xs.mapM read <;> rfl
  | none | bool | int | float | str | dict | set | struct | dataclass | enum | uuid | datetime
    | coded | object => rfl

theorem readsAlike_resources :
    ReadsAlike rxonDecls (.cls "Resources") Resources.ofPy Resources.Carried := by
  intro x x' h
  have hdecl : rxonDecls.lookup "Resources" = some resources := rfl
  obtain ⟨_, _, fs, fs', rfl, rfl, hcls, hcls', hfields⟩ := h.eq_struct rxonDecls_wire hdecl
  obtain ⟨_, _, devices, devices', hd, hd', hdevices, hdevices', hdevs⟩ :=
    hfields.optional "devices" (readsAlike_list readsAlike_device) rxonDecls_wire rfl (by simp)
  obtain ⟨_, _, props, props', hp, hp', hprops, hprops', hcarried⟩ :=
    hfields.optional "properties" readsAlike_entries rxonDecls_wire rfl (by simp)
  rw [← optional?_elementsOf] at hdevices hdevices'
  refine ⟨⟨devices, props⟩, ⟨devices', props'⟩, ?_, ?_, ⟨hdevs, hcarried⟩⟩
  · obtain ⟨o, ho, hmap⟩ := Option.bind_eq_some_iff.mp hdevices
    simp only [Resources.ofPy, hcls, hd, hp, ho, hmap, hprops, if_true, Option.bind_eq_bind,
      Option.bind_some, Option.pure_def]
  · obtain ⟨o, ho, hmap⟩ := Option.bind_eq_some_iff.mp hdevices'
    simp only [Resources.ofPy, hcls', hd', hp', ho, hmap, hprops', if_true, Option.bind_eq_bind,
      Option.bind_some, Option.pure_def]

theorem readsAlike_artifact : ReadsAlike rxonDecls (.cls "InstalledArtifact")
    InstalledArtifact.ofPy InstalledArtifact.Carried := by
  intro x x' h
  have hdecl : rxonDecls.lookup "InstalledArtifact" = some installedArtifact := rfl
  obtain ⟨_, _, fs, fs', rfl, rfl, hcls, hcls', hfields⟩ := h.eq_struct rxonDecls_wire hdecl
  obtain ⟨artifact, hn, hn'⟩ := hfields.text "name" (by simp)
  obtain ⟨version, hv, hv'⟩ := hfields.text "version" (by simp)
  obtain ⟨_, _, type, type', ht, ht', htype, htype', htypes⟩ :=
    hfields.optional "type" readsAlike_text rxonDecls_wire rfl (by simp)
  obtain ⟨_, _, props, props', hp, hp', hprops, hprops', hcarried⟩ :=
    hfields.optional "properties" readsAlike_entries rxonDecls_wire rfl (by simp)
  refine ⟨⟨artifact, version, type, props⟩, ⟨artifact, version, type', props'⟩, ?_, ?_,
    ⟨rfl, rfl, eq_of_rel htypes, hcarried⟩⟩
  · simp only [InstalledArtifact.ofPy, hcls, hn, hv, ht, hp, htype, hprops, PyVal.text?, if_true,
      Option.bind_eq_bind, Option.bind_some, Option.pure_def]
  · simp only [InstalledArtifact.ofPy, hcls', hn', hv', ht', hp', htype', hprops', PyVal.text?,
      if_true, Option.bind_eq_bind, Option.bind_some, Option.pure_def]

theorem readsAlike_skill : ReadsAlike rxonDecls (.cls "SkillInfo") SkillInfo.ofPy Eq := by
  intro x x' h
  have hdecl : rxonDecls.lookup "SkillInfo" = some skillInfo := rfl
  obtain ⟨_, _, fs, fs', rfl, rfl, hcls, hcls', hfields⟩ := h.eq_struct rxonDecls_wire hdecl
  obtain ⟨skill, hn, hn'⟩ := hfields.text "name" (by simp)
  obtain ⟨dialect, hk, hk'⟩ := hfields.text "schema_dialect" (by simp)
  obtain ⟨risk, hr, hr'⟩ := hfields.text "risk" (by simp)
  obtain ⟨_, _, type, _, ht, ht', htype, htype', htypes⟩ :=
    hfields.optional "type" readsAlike_text rxonDecls_wire rfl (by simp)
  obtain ⟨_, _, text, _, hd, hd', htext, htext', htexts⟩ :=
    hfields.optional "description" readsAlike_text rxonDecls_wire rfl (by simp)
  obtain ⟨_, _, version, _, hv, hv', hversion, hversion', hversions⟩ :=
    hfields.optional "version" readsAlike_text rxonDecls_wire rfl (by simp)
  obtain ⟨_, _, perms, _, hq, hq', hperms, hperms', hpermissions⟩ :=
    hfields.optional "permissions" (readsAlike_list readsAlike_text) rxonDecls_wire rfl (by simp)
  obtain rfl := eq_of_rel htypes
  obtain rfl := eq_of_rel htexts
  obtain rfl := eq_of_rel hversions
  obtain rfl := eq_of_rel_forall₂ hpermissions
  refine ⟨⟨skill, type, text, version, dialect, risk, perms⟩, _, ?_, ?_, rfl⟩
  · simp only [SkillInfo.ofPy, hcls, hn, hk, hr, ht, hd, hv, hq, htype, htext, hversion, hperms,
      PyVal.text?, if_true, Option.bind_eq_bind, Option.bind_some, Option.pure_def]
  · simp only [SkillInfo.ofPy, hcls', hn', hk', hr', ht', hd', hv', hq', htype', htext', hversion',
      hperms', PyVal.text?, if_true, Option.bind_eq_bind, Option.bind_some, Option.pure_def]

/-- What a registration offers, as it is restored. -/
theorem readsAlike_offer :
    ReadsAlike rxonDecls (.cls "WorkerRegistration") Offer.ofPy Offer.Carried := by
  intro x x' h
  have hdecl : rxonDecls.lookup "WorkerRegistration" = some workerRegistration := rfl
  obtain ⟨_, _, fs, fs', rfl, rfl, hcls, hcls', hfields⟩ := h.eq_struct rxonDecls_wire hdecl
  obtain ⟨_, _, res, res', hr, hr', hres, hres', hresources⟩ :=
    hfields.optional "resources" readsAlike_resources rxonDecls_wire rfl (by simp)
  obtain ⟨_, _, arts, arts', ha, ha', harts, harts', hartifacts⟩ :=
    hfields.optional "installed_artifacts" (readsAlike_list readsAlike_artifact) rxonDecls_wire
      rfl (by simp)
  obtain ⟨_, _, skills, skills', hk, hk', hskills, hskills', hrel⟩ :=
    hfields.optional "supported_skills" (readsAlike_list readsAlike_skill) rxonDecls_wire rfl
      (by simp)
  refine ⟨⟨res, arts, skills⟩, ⟨res', arts', skills'⟩, ?_, ?_,
    ⟨hresources, hartifacts, eq_of_rel_forall₂ hrel⟩⟩
  · simp only [Offer.ofPy, hcls, hr, ha, hk, hres, harts, hskills, if_true, Option.bind_eq_bind,
      Option.bind_some, Option.pure_def]
  · simp only [Offer.ofPy, hcls', hr', ha', hk', hres', harts', hskills', if_true,
      Option.bind_eq_bind, Option.bind_some, Option.pure_def]

/-! ## Matching what was restored -/

section
variable {lower : String → String}

/-- An entry of the restored dict is the normal form of the one that was sent. -/
theorem lookup_carried {p p' : List (String × PyVal)} (h : CarriedValues p p')
    (hw : WholeValues p) (k : String) :
    ((p.lookup k = none ∨ p.lookup k = some .none) ∧ p'.lookup k = none) ∨
      ∃ j : Json, j.WF ∧ j.Whole ∧ j.isNull = false ∧ p.lookup k = some j.toPy ∧
        p'.lookup k = some (Json.canon j).toPy := by
  obtain ⟨js, hwf, rfl, rfl⟩ := h
  obtain ⟨hu, hvalues⟩ := Json.wf_obj.mp hwf
  rw [Assoc.lookup_mapVal, Assoc.lookup_mapVal, Json.lookup_canon hu]
  cases hk : js.lookup k with
  | none => exact Or.inl ⟨Or.inl rfl, rfl⟩
  | some j =>
    have hmem := Assoc.mem_of_lookup hk
    cases hnull : j.isNull with
    | true =>
      rw [Json.shown_of_null hnull, Json.isNull_iff.mp hnull]
      exact Or.inl ⟨Or.inr rfl, rfl⟩
    | false =>
      rw [Json.shown_of_not hnull]
      refine Or.inr ⟨j, hvalues _ hmem, ?_, hnull, rfl, rfl⟩
      exact hw (k, j.toPy) (List.mem_map_of_mem hmem) j rfl

theorem propertiesMatch_cons {my req : List (String × PyVal)} {k : String} {myV reqV : PyVal}
    (hk : my.lookup k = some myV) (hne : myV ≠ .none) :
    propertiesMatch my ((k, reqV) :: req) =
      do if ← valueMatches myV reqV then propertiesMatch my req else return false := by
  rw [propertiesMatch, hk]
  split
  · rename_i hnone
    cases hnone
  · rename_i hnone
    exact absurd (Option.some.inj hnone) hne
  · rename_i hsome
    cases hsome
    rfl

/-- **The property loop answers the same for the restored properties.** -/
theorem propertiesMatch_carried {p p' : List (String × PyVal)} (h : CarriedValues p p')
    (hw : WholeValues p) (req : List (String × PyVal)) :
    propertiesMatch p' req = propertiesMatch p req := by
  induction req with
  | nil => rfl
  | cons e req ih =>
    obtain ⟨k, reqV⟩ := e
    rcases lookup_carried h hw k with ⟨hnone | hnone, hk'⟩ | ⟨j, hwf, hwhole, hnull, hk, hk'⟩
    · rw [propertiesMatch, propertiesMatch, hnone, hk']
    · rw [propertiesMatch, propertiesMatch, hnone, hk']
    · rw [propertiesMatch_cons hk (Json.toPy_ne_none hnull),
        propertiesMatch_cons hk' (Json.toPy_ne_none ((Json.isNull_canon j).trans hnull)),
        Json.valueMatches_canon hwf hwhole, ih]

theorem propertiesMatch_restored {p p' : Option (List (String × PyVal))}
    (h : CarriedProperties p p') (hw : WholeValues (p.getD [])) (req : List (String × PyVal)) :
    propertiesMatch (p'.getD []) req = propertiesMatch (p.getD []) req := by
  cases h with
  | none => rfl
  | some h => exact propertiesMatch_carried h hw req

theorem HardwareDevice.Carried.matches {d d' : HardwareDevice} (h : d.Carried d')
    (hw : WholeValues (d.properties.getD [])) : d'.matches lower = d.matches lower := by
  funext req
  unfold HardwareDevice.matches
  rw [← h.type, ← h.model, ← h.id, propertiesMatch_restored h.properties hw]

theorem Resources.Carried.matches {r r' : Resources} (h : r.Carried r')
    (hd : ∀ d ∈ r.deviceList, WholeValues (d.properties.getD []))
    (hw : WholeValues (r.properties.getD [])) : r'.matches lower = r.matches lower := by
  have hdevices : r'.deviceList.map (HardwareDevice.matches lower) =
      r.deviceList.map (HardwareDevice.matches lower) := by
    obtain ⟨hrel, -⟩ := h
    unfold Resources.deviceList at hd ⊢
    generalize r.devices = ds, r'.devices = ds' at hd hrel ⊢
    cases hrel with
    | none => rfl
    | some hrel => exact map_eq_of_forall₂ hrel fun d hmem _ h => h.matches (hd d hmem)
  funext req
  have hserve : devicesMatch lower r' req = devicesMatch lower r req :=
    FirstFit.serve_congr hdevices _
  unfold Resources.matches
  rw [hserve, propertiesMatch_restored h.properties hw]

theorem InstalledArtifact.Carried.matches {a a' : InstalledArtifact} (h : a.Carried a')
    (hw : WholeValues (a.properties.getD [])) : a'.matches = a.matches := by
  funext req
  unfold InstalledArtifact.matches
  rw [← h.name, ← h.version, propertiesMatch_restored h.properties hw]

/-- **A restored offer answers as the one that was sent.** -/
theorem Offer.Carried.answersAs {o o' : Offer} (h : o.Carried o') (hw : o.Whole) :
    o.AnswersAs lower o' := by
  obtain ⟨hresources, hartifacts, hskills⟩ := h
  obtain ⟨hdevs, hprops, harts⟩ := hw
  refine ⟨?_, ?_, by rw [hskills], by rw [hskills]⟩
  · generalize o.resources = r, o'.resources = r' at hresources hdevs hprops ⊢
    cases hresources with
    | none => rfl
    | some h => exact congrArg some (h.matches (hdevs _ rfl) (hprops _ rfl))
  · generalize o.artifacts = xs, o'.artifacts = xs' at hartifacts harts ⊢
    cases hartifacts with
    | none => rfl
    | some hrel =>
      exact congrArg some (map_eq_of_forall₂ hrel fun a hmem _ h => h.matches (harts a hmem))

end

/-! ## Offers in every run -/

/-- What is sent of a registration can be restored, and offers what the worker offers. -/
theorem offer_restored {rt : Runtime rxonDecls} {m : PyVal} {d : Json}
    (hm : HasType rxonDecls (.cls "WorkerRegistration") m) (hd : toDict rt m 0 = .ok d) :
    ∃ restored o o', fromDict rt "WorkerRegistration" d.toPy = .ok restored ∧
      Offer.ofPy m = some o ∧ Offer.ofPy restored = some o' ∧ o.Carried o' := by
  obtain ⟨-, -, rfl⟩ := (toDict_of_hasType rt rxonDecls_wire hm).mp hd
  obtain ⟨r, hreadable⟩ := (hm.restores rxonDecls_wire rfl).readable
  obtain ⟨restored, hconvert⟩ := rt.msgspec.convert_complete _ _ _ r hreadable
  have hreads := rt.msgspec.convert_sound _ _ _ _ hconvert
  obtain ⟨o, o', ho, ho', hcarried⟩ := readsAlike_offer _ _ ⟨hm, hreads⟩
  obtain ⟨kvs, hobj⟩ := hreads.exists_obj
  refine ⟨restored, o, o', ?_, ho, ho', hcarried⟩
  rw [hobj] at hconvert ⊢
  exact (fromDict_obj rt).mpr hconvert

namespace Exchanges
open Interleaving

section
variable {ι : Type} {rt : Runtime rxonDecls} {floatOf : String → Option PyFloat}
  {x : Exchange ι rt.orjson.Bytes}

end

/-! ### A registration with a graphics card -/

/-- A card whose memory is given as a double. -/
def card : PyVal := .struct ⟨"HardwareDevice", []⟩
  [("type", .str "gpu"), ("model", .none), ("id", .none),
   ("properties", .dict [("vram", .float (.finite (Binary64.ofInt 24)))]), ("metrics", .none)]

def cardRegistration : PyVal := .struct ⟨"WorkerRegistration", ["worker_type"]⟩
  [("worker_id", .str "w-1"), ("worker_type", .str "generic"), ("supported_skills", .none),
   ("available_skills", .none), ("hot_skills", .none),
   ("resources", .struct ⟨"Resources", []⟩ [("devices", .list [card]), ("properties", .none)]),
   ("installed_software", .none), ("installed_artifacts", .none), ("capabilities", .none),
   ("skills_hash", .none), ("security", .none), ("metadata", .none), ("timestamp", .none)]

theorem hasType_card : HasType rxonDecls (.cls "HardwareDevice") card := by
  refine .struct "HardwareDevice" _ rfl true _ _ rfl rfl ?_
  simp only [List.zip_cons_cons, List.zip_nil_right, List.forall_mem_cons]
  refine ⟨.str _, hasType_optional_none, hasType_optional_none, hasType_optional ?_,
    hasType_optional_none, fun _ h => by cases h⟩
  refine .dict _ _ (by decide) ?_
  simp only [List.forall_mem_cons]
  exact ⟨.any (.float (Binary64.ofInt 24)) (Json.wf_float _), fun _ h => by cases h⟩

theorem hasType_cardRegistration :
    HasType rxonDecls (.cls "WorkerRegistration") cardRegistration := by
  refine .struct "WorkerRegistration" _ rfl true _ _ rfl rfl ?_
  simp only [List.zip_cons_cons, List.zip_nil_right, List.forall_mem_cons]
  refine ⟨.str _, .str _, hasType_optional_none, hasType_optional_none, hasType_optional_none,
    hasType_optional (.struct "Resources" _ rfl true _ _ rfl rfl ?_), hasType_optional_none,
    hasType_optional_none, hasType_optional_none, hasType_optional_none, hasType_optional_none,
    hasType_optional_none, hasType_optional_none, fun _ h => by cases h⟩
  simp only [List.zip_cons_cons, List.zip_nil_right, List.forall_mem_cons]
  refine ⟨hasType_optional (.list _ _ ?_), hasType_optional_none, fun _ h => by cases h⟩
  simp only [List.forall_mem_cons]
  exact ⟨hasType_card, fun _ h => by cases h⟩

/-- The document that is sent of it. -/
def sentRegistration : Json :=
  .obj [("resources", .obj [("devices", .arr [.obj [("properties", .obj [("vram", .int 24)]),
      ("type", .str "gpu")]])]), ("worker_id", .str "w-1")]

def offered : Exchange Unit Runtime.messages.orjson.Bytes where
  worker := ()
  call := 0
  request := (lone ()).request (.register cardRegistration) (lone ()).transport.headers
  received :=
    ⟨0, none, [], true, .ok sentRegistration, some "secret", some "w-1", some "1.0.0", none⟩
  handler := some fun _ _ _ => .ok (.data (.dict []))
  response := WebResponse.withVersion
    ⟨200, [("Content-Type", "application/json; charset=utf-8")],
      .json (.obj [("status", .str "registered")])⟩

theorem jsonDumps_sentRegistration :
    jsonDumps Runtime.messages cardRegistration = .ok sentRegistration := by
  have hdict : toDict Runtime.messages cardRegistration 0 =
      .ok (Json.canon (cardRegistration.tree rxonDecls)) :=
    (toDict_of_hasType _ rxonDecls_wire hasType_cardRegistration).mpr
      ⟨by decide +kernel, by decide +kernel, rfl⟩
  have hcanon : Json.canon (cardRegistration.tree rxonDecls) = sentRegistration := by
    decide +kernel
  rw [jsonDumps_of_toDict Runtime.messages hdict, hcanon]
  rfl

theorem offered_takes : offered.Takes Runtime.messages fun _ => none := by
  refine ⟨⟨fun params h => ?_, rfl, rfl, rfl,
    Or.inr ⟨?_, rfl, sentRegistration, sentRegistration, jsonDumps_sentRegistration, rfl, rfl⟩⟩,
    ?_, rfl⟩
  · cases h
  · exact fun h => by cases h
  · have hroute : resolve offered.request.method (urlPath offered.request.url) =
        some (.action (.worker .register), []) := by decide +kernel
    exact .served hroute rfl rfl

/-- A worker registers its card. -/
theorem run_offered : ∃ es w,
    Run (Step Runtime.messages fun _ => none) (World.initial Runtime.messages lone) es w ∧
    w.log = [offered] ∧ w.calls () = [.operation (.register cardRegistration)] :=
  ⟨_, _, .snoc (.snoc .nil (.call _ () (.operation (.register cardRegistration)) _ rfl))
    (.handle _ offered (List.mem_singleton_self _) offered_takes), rfl, rfl⟩

/-- A null entry in a property value is not sent, and may be what a requirement fails on. -/
example : propertiesMatch [("gpu", .dict [("driver", .none)])] [("gpu", .dict [])] = .ok false ∧
    propertiesMatch [("gpu", .dict [])] [("gpu", .dict [])] = .ok true := by
  decide +kernel

end Exchanges
end Rxon
