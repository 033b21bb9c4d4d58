import Rxon.Utils

/-! # Values that travel as JSON

A wire value is made of JSON data and Structs.  `tree` is the document its encoding
spells; on a Struct with public field names `to_dict` is the normal form of that
document (`toDict_struct`).  A Struct leaves out fields that hold their default, and
for the defaults RXON declares only values that spell the same document equal them
(`same_iff_canon_eq`). -/

namespace PyVal

mutual

/-- The document a wire value spells. -/
def tree (D : Decls) : PyVal → Json
  | .bool b => .bool b
  | .int i => .int i
  | .float (.finite f) => .float f
  | .str s => .str s
  | .list xs => .arr (treeList D xs)
  | .dict kvs => .obj (treeEntries D kvs)
  | .struct c fs => .obj (treeFields D c fs)
  | _ => .null

def treeList (D : Decls) : List PyVal → List Json
  | [] => []
  | x :: xs => tree D x :: treeList D xs

def treeEntries (D : Decls) : List (String × PyVal) → List (String × Json)
  | [] => []
  | (k, x) :: kvs => (k, tree D x) :: treeEntries D kvs

def treeFields (D : Decls) (c : StructHead) : List (String × PyVal) → List (String × Json)
  | [] => []
  | (k, x) :: fs =>
    if D.omits c k x then treeFields D c fs else (k, tree D x) :: treeFields D c fs

end

/-- JSON data and Structs. -/
inductive Wire : PyVal → Prop
  | none : Wire .none
  | bool (b : Bool) : Wire (.bool b)
  | int (i : Int) : Wire (.int i)
  | float (f : Binary64) : Wire (.float (.finite f))
  | str (s : String) : Wire (.str s)
  | list (xs : List PyVal) (h : ∀ x ∈ xs, Wire x) : Wire (.list xs)
  | dict (kvs : List (String × PyVal)) (h : ∀ e ∈ kvs, Wire e.2) : Wire (.dict kvs)
  | struct (c : StructHead) (fs : List (String × PyVal)) (h : ∀ e ∈ fs, Wire e.2) :
      Wire (.struct c fs)

variable {D : Decls}

@[simp] theorem tree_list (xs : List PyVal) : tree D (.list xs) = .arr (xs.map (tree D)) := by
  rw [tree, List.eq_map_of_cons (f := treeList D) rfl fun _ _ => rfl]

@[simp] theorem tree_dict (kvs : List (String × PyVal)) :
    tree D (.dict kvs) = .obj (Assoc.mapVal (tree D) kvs) := by
  have h : treeEntries D kvs = Assoc.mapVal (tree D) kvs :=
    List.eq_map_of_cons rfl (fun _ _ => rfl) kvs
  rw [tree, h]

@[simp] theorem tree_struct (c : StructHead) (fs : List (String × PyVal)) :
    tree D (.struct c fs) = .obj (Assoc.mapVal (tree D) (D.kept c fs)) := by
  have h : ∀ fs, treeFields D c fs = Assoc.mapVal (tree D) (D.kept c fs) := by
    intro fs
    induction fs with
    | nil => rfl
    | cons e fs ih =>
      rw [treeFields, ih, Decls.kept, Decls.kept, List.filter_cons]
      cases D.omits c e.1 e.2 <;> rfl
  rw [tree, h]

theorem tree_toPy (j : Json) : tree D j.toPy = j := by
  induction j with
  | null | bool | int | float | str => rfl
  | arr xs ih =>
    rw [Json.toPy_arr, tree_list, List.map_map]
    exact congrArg Json.arr ((List.map_congr_left ih).trans (List.map_id xs))
  | obj kvs ih =>
    rw [Json.toPy_obj, tree_dict, Assoc.mapVal, Assoc.mapVal, List.map_map]
    refine congrArg Json.obj ((List.map_congr_left fun e he => ?_).trans (List.map_id kvs))
    exact Prod.ext rfl (ih e he)

theorem wire_toPy (j : Json) : Wire j.toPy := by
  induction j with
  | null => exact .none
  | bool b => exact .bool b
  | int i => exact .int i
  | float f => exact .float f
  | str s => exact .str s
  | arr xs ih =>
    rw [Json.toPy_arr]
    refine .list _ fun y hy => ?_
    obtain ⟨x, hx, rfl⟩ := List.mem_map.mp hy
    exact ih x hx
  | obj kvs ih =>
    rw [Json.toPy_obj]
    refine .dict _ fun e he => ?_
    obtain ⟨d, hd, rfl⟩ := List.mem_map.mp he
    exact ih d hd

/-- Among wire values only `None` spells null. -/
theorem Wire.isNull_tree {v : PyVal} (h : Wire v) : (tree D v).isNull = true ↔ v = .none := by
  cases h <;> simp [tree, Json.isNull]

/-! ## Holding the default -/

/-- The comparisons with a default that RXON makes: `None` or a text with anything,
and otherwise two scalars of one kind, a float default being integral. -/
inductive Comparable : PyVal → PyVal → Prop
  | none (v : PyVal) : Comparable v .none
  | str (v : PyVal) (s : String) : Comparable v (.str s)
  | bool (b b' : Bool) : Comparable (.bool b) (.bool b')
  | int (i i' : Int) : Comparable (.int i) (.int i')
  | float (f f' : Binary64) (h : f'.IsInteger) :
      Comparable (.float (.finite f)) (.float (.finite f'))

theorem same_float (f f' : Binary64) :
    same (.float (.finite f)) (.float (.finite f')) = true ↔ f.units = f'.units := by
  simp [same, sameNumber, numeric?, Numeric.eq]

theorem same_bool (b b' : Bool) : same (.bool b) (.bool b') = true ↔ b = b' := by
  have hone : (0 : Int) ≠ Binary64.one := (Int.natCast_ne_zero.mpr Binary64.one_ne_zero).symm
  cases b <;> cases b' <;> simp [same, sameNumber, numeric?, Numeric.eq, hone,
    Binary64.one_ne_zero]

theorem same_int (i i' : Int) : same (.int i) (.int i') = true ↔ i = i' := by
  simp [same, sameNumber, numeric?, Numeric.eq, Binary64.one_ne_zero]

theorem same_none {v : PyVal} (h : Wire v) : same v .none = true ↔ v = .none := by
  cases h <;> simp [same, sameNumber, numeric?]

theorem same_str {v : PyVal} (h : Wire v) (s : String) : same v (.str s) = true ↔ v = .str s := by
  cases h <;> simp [same, sameNumber, numeric?]

theorem canon_float_eq_iff {f f' : Binary64} (h : f'.IsInteger) :
    Json.canon (.float f) = Json.canon (.float f') ↔ f.units = f'.units := by
  rw [Json.canon_float_of_holds (Binary64.holds_toInt h), Binary64.holds_toInt h]
  by_cases hf : f.IsInteger
  · rw [Json.canon_float_of_holds (Binary64.holds_toInt hf), Json.int.injEq]
    exact ⟨fun he => by rw [Binary64.holds_toInt hf, he], fun he => Binary64.Holds.toInt_eq he⟩
  · rw [Json.canon_float_of_not hf]
    exact ⟨nofun, fun he => absurd (Binary64.Holds.isInteger he) hf⟩

/-- **A value equals a default it may be compared with exactly when both spell the
same document up to normalization.** -/
theorem same_iff_canon_eq {v w : PyVal} (hv : Wire v) (h : Comparable v w) :
    same v w = true ↔ Json.canon (tree D v) = Json.canon (tree D w) := by
  cases h with
  | none => rw [same_none hv, ← hv.isNull_tree (D := D), ← Json.isNull_canon, Json.isNull_iff]; rfl
  | str s =>
    rw [same_str hv]
    refine ⟨fun h => by rw [h], fun h => ?_⟩
    cases hv with
    | float f =>
      by_cases hf : f.IsInteger
      · rw [tree, Json.canon_float_of_holds (Binary64.holds_toInt hf)] at h; cases h
      · rw [tree, Json.canon_float_of_not hf] at h; cases h
    | str s' => cases h; rfl
    | none | bool | int => cases h
    | list | dict | struct => simp [tree] at h
  | bool b b' => rw [same_bool, tree, tree, Json.canon_bool, Json.canon_bool, Json.bool.injEq]
  | int i i' => rw [same_int, tree, tree, Json.canon_int, Json.canon_int, Json.int.injEq]
  | float f f' h => rw [same_float, tree, tree, canon_float_eq_iff h]

/-! ## The encoding of a wire value -/

theorem toBuiltins_entries (ms : Msgspec D) {kvs : List (String × PyVal)}
    (h : ∀ e ∈ kvs, ms.toBuiltins e.2 = .ok (tree D e.2).toPy) :
    Assoc.mapValM ms.toBuiltins kvs =
      .ok (Assoc.mapVal Json.toPy (Assoc.mapVal (tree D) kvs)) := by
  induction kvs with
  | nil => rfl
  | cons e kvs ih =>
    obtain ⟨he, hkvs⟩ := List.forall_mem_cons.mp h
    rw [Assoc.mapValM, he, ih hkvs]; rfl

/-- `to_builtins` of a wire value is the document it spells. -/
theorem toBuiltins_wire (ms : Msgspec D) {v : PyVal} (h : Wire v) :
    ms.toBuiltins v = .ok (tree D v).toPy := by
  induction h with
  | none => exact ms.toBuiltins_none
  | bool b => exact ms.toBuiltins_bool b
  | int i => exact ms.toBuiltins_int i
  | float f => exact ms.toBuiltins_float _
  | str s => exact ms.toBuiltins_str s
  | list xs _ ih =>
    have hxs : xs.mapM ms.toBuiltins = .ok ((xs.map (tree D)).map Json.toPy) := by
      induction xs with
      | nil => rfl
      | cons x xs ihx =>
        obtain ⟨hx, hxs⟩ := List.forall_mem_cons.mp ih
        rw [List.mapM_cons, hx,
          ihx (fun y hy => ‹∀ x ∈ _, Wire x› y (List.mem_cons_of_mem x hy)) hxs]
        rfl
    rw [ms.toBuiltins_list, hxs, tree_list, Json.toPy_arr]; rfl
  | dict kvs _ ih =>
    rw [ms.toBuiltins_dict, toBuiltins_entries ms ih, tree_dict, Json.toPy_obj]
    rfl
  | struct c fs _ ih =>
    have hkept : ∀ e ∈ D.kept c fs, ms.toBuiltins e.2 = .ok (tree D e.2).toPy :=
      fun e he => ih e (List.mem_of_mem_filter he)
    rw [ms.toBuiltins_struct, toBuiltins_entries ms hkept, tree_struct, Json.toPy_obj]; rfl

end PyVal

namespace Rxon
variable {D : Decls} (rt : Runtime D)

/-- A Struct whose field names are public is handed on as the dict it spells. -/
theorem defaultHandler_struct {c : StructHead} {fs : List (String × PyVal)}
    (h : PyVal.Wire (.struct c fs)) (hpub : ∀ e ∈ fs, e.1.toList.head? ≠ some '_') :
    defaultHandler rt (.struct c fs) = ((PyVal.struct c fs).tree D).toPy := by
  have hb := PyVal.toBuiltins_wire rt.msgspec h
  rw [PyVal.tree_struct, Json.toPy_obj] at hb ⊢
  simp only [defaultHandler, hb, PyVal.dict.injEq]
  refine List.filter_eq_self.mpr fun x hx => ?_
  obtain ⟨d, hd, rfl⟩ := List.mem_map.mp hx
  obtain ⟨e, he, rfl⟩ := List.mem_map.mp hd
  simpa using hpub e (List.mem_of_mem_filter he)

theorem document_struct {c : StructHead} {fs : List (String × PyVal)}
    (h : PyVal.Wire (.struct c fs)) (hpub : ∀ e ∈ fs, e.1.toList.head? ≠ some '_') :
    (PyVal.struct c fs).document true (fun o => .ok (defaultHandler rt o)) PyVal.defaultCalls =
      .ok (Json.sortKeys ((PyVal.struct c fs).tree D)) := by
  rw [show PyVal.defaultCalls = 253 + 1 from rfl, PyVal.document_struct,
    defaultHandler_struct rt h hpub]
  exact PyVal.document_toPy true _ 253 _

/-- **`to_dict` of a Struct is the normal form of the document it spells**, and is
one whenever its integers can be written and nothing lies beyond the depth limit. -/
theorem toDict_struct {c : StructHead} {fs : List (String × PyVal)} {x : Json}
    (h : PyVal.Wire (.struct c fs)) (hpub : ∀ e ∈ fs, e.1.toList.head? ≠ some '_')
    (hw : ((PyVal.struct c fs).tree D).WF) :
    toDict rt (.struct c fs) 0 = .ok x ↔
      ((PyVal.struct c fs).tree D).IntsFit ∧
      ((PyVal.struct c fs).tree D).keptDepth ≤ maxRecursionDepth ∧
      x = Json.canon ((PyVal.struct c fs).tree D) := by
  rw [toDict_eq_ok rt (by simp) (document_struct rt h hpub), Json.intsFit_sortKeys,
    Json.keptDepth_sortKeys, Json.stripped_sortKeys hw]

end Rxon
