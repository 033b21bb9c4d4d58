import Rxon.Utils

/-! # What the encoding of a value writes

orjson writes dicts, dataclasses, enum members and UUIDs itself and hands Structs to the
default handler, which asks msgspec; the two order keys differently, and agree in
everything else.  `Writes D v j` says that `j` is a document of `v`, up to the order of
its keys.  Every value without foreign parts has one, and `to_dict` returns it, stripped,
where it is not too deep (`toDict_writes`). -/

namespace PyVal

/-- Values without foreign parts: their integers have 64 bits, their floats are finite,
and the fields of instances are public and distinct. -/
inductive Sendable : PyVal → Prop
  | none : Sendable .none
  | bool (b : Bool) : Sendable (.bool b)
  | int (i : Int) (h : Json.Fits64 i) : Sendable (.int i)
  | float (f : Binary64) : Sendable (.float (.finite f))
  | str (s : String) : Sendable (.str s)
  | uuid (s : String) : Sendable (.uuid s)
  | enum {v : PyVal} (c m : String) (h : Sendable v) : Sendable (.enum c m v)
  | list {xs : List PyVal} (h : ∀ x ∈ xs, Sendable x) : Sendable (.list xs)
  | dict {kvs : List (String × PyVal)} (h : ∀ e ∈ kvs, Sendable e.2) : Sendable (.dict kvs)
  | struct {c : StructHead} {fs : List (String × PyVal)} (hunique : Assoc.Unique fs)
      (hpublic : ∀ e ∈ fs, e.1.toList.head? ≠ some '_') (h : ∀ e ∈ fs, Sendable e.2) :
      Sendable (.struct c fs)
  | dataclass {c : String} {fs : List (String × PyVal)} (hunique : Assoc.Unique fs)
      (hpublic : ∀ e ∈ fs, e.1.toList.head? ≠ some '_') (h : ∀ e ∈ fs, Sendable e.2) :
      Sendable (.dataclass c fs)

/-- The entries of the object that a value is written as. -/
def written (D : Decls) : PyVal → Option (List (String × PyVal))
  | .dict kvs => some kvs
  | .struct c fs => some (D.kept c fs)
  | .dataclass _ fs => some fs
  | _ => Option.none

/-- `j` is a document of the value. -/
inductive Writes (D : Decls) : PyVal → Json → Prop
  | none : Writes D .none .null
  | bool (b : Bool) : Writes D (.bool b) (.bool b)
  | int (i : Int) : Writes D (.int i) (.int i)
  | float (f : Binary64) : Writes D (.float (.finite f)) (.float f)
  | str (s : String) : Writes D (.str s) (.str s)
  | uuid (s : String) : Writes D (.uuid s) (.str s)
  | enum {v : PyVal} {j : Json} (c m : String) (h : Writes D v j) : Writes D (.enum c m v) j
  | list {xs : List PyVal} (g : PyVal → Json) (h : ∀ x ∈ xs, Writes D x (g x)) :
      Writes D (.list xs) (.arr (xs.map g))
  | obj {v : PyVal} {kvs : List (String × PyVal)} {es : List (String × Json)} (g : PyVal → Json)
      (hv : v.written D = some kvs) (hperm : es.Perm (Assoc.mapVal g kvs))
      (h : ∀ e ∈ kvs, Writes D e.2 (g e.2)) : Writes D v (.obj es)

instance instNonemptyPyVal : Nonempty PyVal := ⟨.none⟩
instance instNonemptyJson : Nonempty Json := ⟨.null⟩

variable {D : Decls} {v : PyVal} {j : Json} {kvs : List (String × PyVal)} {xs : List PyVal}

theorem Sendable.written (h : Sendable v) (hv : v.written D = some kvs) :
    ∀ e ∈ kvs, Sendable e.2 := by
  cases h with
  | dict h | dataclass _ _ h =>
    cases hv
    exact h
  | struct _ _ h =>
    cases hv
    exact fun e he => h e (List.mem_of_mem_filter he)
  | none | bool | int | float | str | uuid | enum | list => cases hv

namespace Writes

/-- The entries of a document are those of the value. -/
theorem mem_iff {es : List (String × Json)} {g : PyVal → Json}
    (hperm : es.Perm (Assoc.mapVal g kvs)) {e : String × Json} :
    e ∈ es ↔ ∃ r ∈ kvs, (r.1, g r.2) = e :=
  hperm.mem_iff.trans List.mem_map

/-- Keys can be sorted. -/
theorem sortKeys (h : Writes D v j) : Writes D v j.sortKeys := by
  induction h with
  | none => exact .none
  | bool b => exact .bool b
  | int i => exact .int i
  | float f => exact .float f
  | str s => exact .str s
  | uuid s => exact .uuid s
  | enum c m _ ih => exact .enum c m ih
  | @list xs g _ ih =>
    rw [Json.sortKeys_arr, List.map_map]
    exact .list _ ih
  | @obj v kvs es g hv hperm _ ih =>
    rw [Json.sortKeys_obj]
    refine .obj (Json.sortKeys ∘ g) hv ?_ ih
    refine (Assoc.perm_sortByKey _).trans ((hperm.map _).trans ?_)
    rw [Assoc.mapVal, Assoc.mapVal, List.map_map]
    rfl

theorem intsFit (h : Writes D v j) (hv : Sendable v) : j.IntsFit := by
  induction h with
  | none | bool | float | str | uuid => simp [Json.IntsFit, Json.All, Json.nodes]
  | int i =>
    cases hv with
    | int _ h => simpa [Json.IntsFit, Json.All, Json.nodes] using h
  | enum c m _ ih =>
    cases hv with
    | enum _ _ hv => exact ih hv
  | list g _ ih =>
    cases hv with
    | list hv =>
      rw [Json.intsFit_arr, List.forall_mem_map]
      exact fun x hx => ih x hx (hv x hx)
  | obj g hwritten hperm _ ih =>
    rw [Json.intsFit_obj]
    intro e he
    obtain ⟨r, hr, rfl⟩ := (mem_iff hperm).mp he
    exact ih r hr (hv.written hwritten r hr)

end Writes

/-! ## msgspec -/

theorem mapM_eq_ok {ε : Type} {f : PyVal → Except ε PyVal} {g : PyVal → PyVal}
    (h : ∀ x ∈ xs, f x = .ok (g x)) : xs.mapM f = .ok (xs.map g) := by
  induction xs with
  | nil => rfl
  | cons x xs ih =>
    obtain ⟨hx, hxs⟩ := List.forall_mem_cons.mp h
    rw [List.mapM_cons, hx, ih hxs]
    rfl

theorem mapValM_eq_ok {ε : Type} {f : PyVal → Except ε PyVal} {g : PyVal → PyVal}
    (h : ∀ e ∈ kvs, f e.2 = .ok (g e.2)) : Assoc.mapValM f kvs = .ok (Assoc.mapVal g kvs) := by
  induction kvs with
  | nil => rfl
  | cons e kvs ih =>
    obtain ⟨he, hkvs⟩ := List.forall_mem_cons.mp h
    rw [Assoc.mapValM, he, ih hkvs]
    rfl

/-- What is made of the entries of an object, from what is made of their values. -/
theorem exists_entries {β : Type} [Nonempty β] {P : PyVal → β → Prop}
    (h : ∀ e ∈ kvs, ∃ d, P e.2 d) : ∃ g : PyVal → β, ∀ e ∈ kvs, P e.2 (g e.2) := by
  have hvalue : ∀ x, ∃ d, x ∈ kvs.map Prod.snd → P x d := by
    intro x
    by_cases hx : x ∈ kvs.map Prod.snd
    · obtain ⟨e, he, rfl⟩ := List.mem_map.mp hx
      obtain ⟨d, hd⟩ := h e he
      exact ⟨d, fun _ => hd⟩
    · exact ⟨Classical.arbitrary β, fun hmem => absurd hmem hx⟩
  choose g hg using hvalue
  exact ⟨g, fun e he => hg e.2 (List.mem_map_of_mem he)⟩

theorem exists_elements {β : Type} [Nonempty β] {P : PyVal → β → Prop}
    (h : ∀ x ∈ xs, ∃ d, P x d) : ∃ g : PyVal → β, ∀ x ∈ xs, P x (g x) := by
  have hpairs : ∀ e ∈ xs.map fun x => ("", x), ∃ d, P e.2 d := by simpa using h
  obtain ⟨g, hg⟩ := exists_entries (P := P) hpairs
  exact ⟨g, by simpa using hg⟩

/-- An object that msgspec makes. -/
theorem toBuiltins_obj (ms : Msgspec D) (hv : v.written D = some kvs)
    (h : ∀ e ∈ kvs, ∃ d : Json, ms.toBuiltins e.2 = .ok d.toPy ∧ Writes D e.2 d) :
    ∃ es, Assoc.mapValM ms.toBuiltins kvs = .ok (Assoc.mapVal Json.toPy es) ∧
      Writes D v (.obj es) := by
  obtain ⟨g, hg⟩ :=
    exists_entries (P := fun x d => ms.toBuiltins x = .ok d.toPy ∧ Writes D x d) h
  refine ⟨Assoc.mapVal g kvs, ?_, .obj g hv (List.Perm.refl _) fun e he => (hg e he).2⟩
  rw [mapValM_eq_ok (g := Json.toPy ∘ g) fun e he => (hg e he).1]
  rw [Assoc.mapVal, Assoc.mapVal, Assoc.mapVal, List.map_map]
  rfl

/-- **`to_builtins` of a value without foreign parts is a document of it.** -/
theorem toBuiltins_writes (ms : Msgspec D) (h : Sendable v) :
    ∃ d : Json, ms.toBuiltins v = .ok d.toPy ∧ Writes D v d := by
  induction h with
  | none => exact ⟨.null, ms.toBuiltins_none, .none⟩
  | bool b => exact ⟨.bool b, ms.toBuiltins_bool b, .bool b⟩
  | int i => exact ⟨.int i, ms.toBuiltins_int i, .int i⟩
  | float f => exact ⟨.float f, ms.toBuiltins_float _, .float f⟩
  | str s => exact ⟨.str s, ms.toBuiltins_str s, .str s⟩
  | uuid s => exact ⟨.str s, ms.toBuiltins_uuid s, .uuid s⟩
  | enum c m _ ih =>
    obtain ⟨d, hd, hw⟩ := ih
    exact ⟨d, (ms.toBuiltins_enum c m _).trans hd, .enum c m hw⟩
  | @list xs _ ih =>
    obtain ⟨g, hg⟩ := exists_elements ih
    refine ⟨.arr (xs.map g), ?_, .list g fun x hx => (hg x hx).2⟩
    rw [ms.toBuiltins_list, mapM_eq_ok (g := Json.toPy ∘ g) fun x hx => (hg x hx).1, Json.toPy_arr,
      List.map_map]
    rfl
  | @dict kvs _ ih =>
    obtain ⟨es, hes, hw⟩ := toBuiltins_obj ms (v := .dict kvs) rfl ih
    refine ⟨.obj es, ?_, hw⟩
    rw [ms.toBuiltins_dict, hes, Json.toPy_obj]
    rfl
  | @struct c fs _ _ _ ih =>
    have hkept : ∀ e ∈ D.kept c fs, ∃ d : Json, ms.toBuiltins e.2 = .ok d.toPy ∧ Writes D e.2 d :=
      fun e he => ih e (List.mem_of_mem_filter he)
    obtain ⟨es, hes, hw⟩ := toBuiltins_obj ms (v := .struct c fs) rfl hkept
    refine ⟨.obj es, ?_, hw⟩
    rw [ms.toBuiltins_struct, hes, Json.toPy_obj]
    rfl
  | @dataclass c fs _ _ _ ih =>
    obtain ⟨es, hes, hw⟩ := toBuiltins_obj ms (v := .dataclass c fs) rfl ih
    refine ⟨.obj es, ?_, hw⟩
    rw [ms.toBuiltins_dataclass, hes, Json.toPy_obj]
    rfl

/-! ## orjson -/

section
variable {foreign : PyVal → Except PyError Json} {g : PyVal → Json}

theorem documentElements_eq_ok (h : ∀ x ∈ xs, documentWith true foreign x = .ok (g x)) :
    documentElements true foreign xs = .ok (xs.map g) := by
  induction xs with
  | nil => rfl
  | cons x xs ih =>
    obtain ⟨hx, hxs⟩ := List.forall_mem_cons.mp h
    rw [documentElements, hx, ih hxs]
    rfl

theorem documentEntries_eq_ok (h : ∀ e ∈ kvs, documentWith true foreign e.2 = .ok (g e.2)) :
    documentEntries true foreign kvs = .ok (Assoc.mapVal g kvs) := by
  induction kvs with
  | nil => rfl
  | cons e kvs ih =>
    obtain ⟨he, hkvs⟩ := List.forall_mem_cons.mp h
    rw [documentEntries, he, ih hkvs]
    rfl

theorem documentFields_eq_ok (hpublic : ∀ e ∈ kvs, e.1.toList.head? ≠ some '_')
    (h : ∀ e ∈ kvs, documentWith true foreign e.2 = .ok (g e.2)) :
    documentFields true foreign kvs = .ok (Assoc.mapVal g kvs) := by
  induction kvs with
  | nil => rfl
  | cons e kvs ih =>
    obtain ⟨he, hkvs⟩ := List.forall_mem_cons.mp h
    obtain ⟨hname, hnames⟩ := List.forall_mem_cons.mp hpublic
    rw [documentFields, if_neg hname, he, ih hnames hkvs]
    rfl

end

end PyVal

namespace Rxon
open Json (stripped)

variable {D : Decls} (rt : Runtime D) {v : PyVal}

/-- A Struct with public fields is handed on as a document of it. -/
theorem defaultHandler_writes {c : StructHead} {fs : List (String × PyVal)}
    (h : PyVal.Sendable (.struct c fs)) :
    ∃ d : Json, defaultHandler rt (.struct c fs) = d.toPy ∧ PyVal.Writes D (.struct c fs) d := by
  obtain ⟨d, hd, hw⟩ := PyVal.toBuiltins_writes rt.msgspec h
  refine ⟨d, ?_, hw⟩
  cases hw with
  | @obj _ kvs es g hv hperm _ =>
    cases hv
    rw [Json.toPy_obj] at hd ⊢
    simp only [defaultHandler, hd, PyVal.dict.injEq]
    refine List.filter_eq_self.mpr fun x hx => ?_
    obtain ⟨e, he, rfl⟩ := List.mem_map.mp hx
    obtain ⟨r, hr, rfl⟩ := (PyVal.Writes.mem_iff hperm).mp he
    cases h with
    | struct _ hpublic _ => simpa using hpublic r (List.mem_of_mem_filter hr)

/-- **What orjson writes for a value without foreign parts is a document of it.** -/
theorem document_writes (h : PyVal.Sendable v) (calls : Nat) :
    ∃ j, v.document true (fun o => .ok (defaultHandler rt o)) (calls + 1) = .ok j ∧
      PyVal.Writes D v j := by
  unfold PyVal.document
  induction h with
  | none => exact ⟨.null, rfl, .none⟩
  | bool b => exact ⟨.bool b, rfl, .bool b⟩
  | int i => exact ⟨.int i, rfl, .int i⟩
  | float f => exact ⟨.float f, rfl, .float f⟩
  | str s => exact ⟨.str s, rfl, .str s⟩
  | uuid s => exact ⟨.str s, rfl, .uuid s⟩
  | enum c m _ ih =>
    obtain ⟨j, hj, hw⟩ := ih
    exact ⟨j, hj, .enum c m hw⟩
  | @list xs _ ih =>
    obtain ⟨g, hg⟩ := PyVal.exists_elements ih
    refine ⟨.arr (xs.map g), ?_, .list g fun x hx => (hg x hx).2⟩
    rw [PyVal.documentWith, PyVal.documentElements_eq_ok fun x hx => (hg x hx).1]
    rfl
  | @dict kvs _ ih =>
    obtain ⟨g, hg⟩ := PyVal.exists_entries
      (P := fun x j => PyVal.documentWith true _ x = .ok j ∧ PyVal.Writes D x j) ih
    refine ⟨.obj (Assoc.sortByKey (Assoc.mapVal g kvs)), ?_,
      .obj g rfl (Assoc.perm_sortByKey _) fun e he => (hg e he).2⟩
    rw [PyVal.documentWith, PyVal.documentEntries_eq_ok fun e he => (hg e he).1]
    rfl
  | @struct c fs hunique hpublic hfields _ =>
    -- orjson does not know Structs: the default handler is called, and its dict is written
    obtain ⟨d, hd, hw⟩ := defaultHandler_writes rt (.struct hunique hpublic hfields)
    refine ⟨d.sortKeys, ?_, hw.sortKeys⟩
    change PyVal.document true _ calls (defaultHandler rt (.struct c fs)) = _
    rw [hd, PyVal.document_toPy]
    rfl
  | @dataclass c fs _ hpublic _ ih =>
    obtain ⟨g, hg⟩ := PyVal.exists_entries
      (P := fun x j => PyVal.documentWith true _ x = .ok j ∧ PyVal.Writes D x j) ih
    refine ⟨.obj (Assoc.mapVal g fs), ?_,
      .obj g rfl (List.Perm.refl _) fun e he => (hg e he).2⟩
    rw [PyVal.documentWith, PyVal.documentFields_eq_ok hpublic fun e he => (hg e he).1]
    rfl

/-- **`to_dict` of a value without foreign parts is a document of it, stripped**, unless
something lies beyond the depth limit. -/
theorem toDict_writes (h : PyVal.Sendable v) : ∃ j, PyVal.Writes D v j ∧ toDict rt v 0 =
    if j.keptDepth ≤ maxRecursionDepth then .ok (stripped j) else .error tooDeep := by
  obtain ⟨j, hj, hw⟩ := document_writes rt h 253
  refine ⟨j, hw, ?_⟩
  by_cases hv : v = .none
  · subst hv
    cases hw with
    | none => rfl
    | obj g hv => cases hv
  · exact toDict_eq rt hv hj (hw.intsFit h)

end Rxon
