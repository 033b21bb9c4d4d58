import Rxon.Assoc
import Rxon.Binary64
import Mathlib.Data.String.Basic

/-! # JSON documents

The values `orjson.loads` produces: numbers are integers of any size or finite
doubles, objects have string keys.  A document is well formed (`WF`) when no
object repeats a key, which every Python dict satisfies.

`keptDepth` is the nesting RXON bounds: null entries of objects are dropped before
they are visited, so they do not count. -/

inductive Json where
  | null
  | bool (b : Bool)
  | int (i : Int)
  | float (f : Binary64)
  | str (s : String)
  | arr (elems : List Json)
  | obj (entries : List (String × Json))

namespace Json

/-- Induction over a document, with the hypothesis for every element of an array
and every value of an object. -/
@[elab_as_elim, induction_eliminator]
theorem induction {P : Json → Prop} (null : P .null) (bool : ∀ b, P (.bool b))
    (int : ∀ i, P (.int i)) (float : ∀ f, P (.float f)) (str : ∀ s, P (.str s))
    (arr : ∀ xs : List Json, (∀ x ∈ xs, P x) → P (.arr xs))
    (obj : ∀ kvs : List (String × Json), (∀ e ∈ kvs, P e.2) → P (.obj kvs)) (j : Json) : P j :=
  @Json.rec P (fun xs => ∀ x ∈ xs, P x) (fun kvs => ∀ e ∈ kvs, P e.2) (fun e => P e.2)
    null bool int float str (fun xs ih => arr xs ih) (fun kvs ih => obj kvs ih)
    (fun _ h => nomatch h) (fun _ _ hx hxs => List.forall_mem_cons.mpr ⟨hx, hxs⟩)
    (fun _ h => nomatch h) (fun _ _ he hkvs => List.forall_mem_cons.mpr ⟨he, hkvs⟩)
    (fun _ _ hv => hv) j

/-- Whether a value is `None`. -/
def isNull : Json → Bool
  | .null => true
  | _ => false

theorem isNull_iff {j : Json} : j.isNull = true ↔ j = .null := by
  cases j <;> simp [isNull]

/-- The value of a number, in binary64 units. -/
def units? : Json → Option Int
  | .int i => some (i * Binary64.one)
  | .float f => some f.units
  | _ => none

/-! ## Equality -/

mutual

/-- Equality of documents, entry order included. -/
def same : Json → Json → Bool
  | .null, .null => true
  | .bool a, .bool b => a == b
  | .int a, .int b => a == b
  | .float a, .float b => a == b
  | .str a, .str b => a == b
  | .arr xs, .arr ys => sameList xs ys
  | .obj kvs, .obj kvs' => sameEntries kvs kvs'
  | _, _ => false

def sameList : List Json → List Json → Bool
  | [], [] => true
  | x :: xs, y :: ys => same x y && sameList xs ys
  | _, _ => false

def sameEntries : List (String × Json) → List (String × Json) → Bool
  | [], [] => true
  | (k, x) :: kvs, (k', y) :: kvs' => k == k' && same x y && sameEntries kvs kvs'
  | _, _ => false

end

theorem same_iff {a b : Json} : same a b = true ↔ a = b := by
  induction a generalizing b with
  | null | bool | int | float | str => cases b <;> simp [same]
  | arr xs ih =>
    cases b with
    | arr ys =>
      rw [same, arr.injEq]
      induction xs generalizing ys with
      | nil => cases ys <;> simp [sameList]
      | cons x xs ihx =>
        obtain ⟨hx, hxs⟩ := List.forall_mem_cons.mp ih
        cases ys with
        | nil => simp [sameList]
        | cons y ys =>
          rw [sameList, Bool.and_eq_true, hx, ihx (fun x hx => hxs x hx), List.cons.injEq]
    | null | bool | int | float | str | obj => simp [same]
  | obj kvs ih =>
    cases b with
    | obj kvs' =>
      rw [same, obj.injEq]
      induction kvs generalizing kvs' with
      | nil => cases kvs' <;> simp [sameEntries]
      | cons e kvs ihe =>
        obtain ⟨he, hkvs⟩ := List.forall_mem_cons.mp ih
        cases kvs' with
        | nil => simp [sameEntries]
        | cons e' kvs' =>
          rw [sameEntries, Bool.and_eq_true, Bool.and_eq_true, he, ihe (fun e he => hkvs e he),
            beq_iff_eq, List.cons.injEq, Prod.ext_iff]
    | null | bool | int | float | str | arr => simp [same]

instance : DecidableEq Json := fun _ _ => decidable_of_iff _ same_iff

/-! ## The nodes of a document -/

mutual

/-- Every value occurring in a document, itself included. -/
def nodes : Json → List Json
  | .arr xs => .arr xs :: nodesList xs
  | .obj kvs => .obj kvs :: nodesEntries kvs
  | j => [j]

def nodesList : List Json → List Json
  | [] => []
  | x :: xs => nodes x ++ nodesList xs

def nodesEntries : List (String × Json) → List Json
  | [] => []
  | (_, x) :: kvs => nodes x ++ nodesEntries kvs

end

theorem mem_nodesList {xs : List Json} {n : Json} :
    n ∈ nodesList xs ↔ ∃ x ∈ xs, n ∈ nodes x := by
  induction xs with
  | nil => simp [nodesList]
  | cons x xs ih => simp [nodesList, ih]

theorem mem_nodesEntries {kvs : List (String × Json)} {n : Json} :
    n ∈ nodesEntries kvs ↔ ∃ e ∈ kvs, n ∈ nodes e.2 := by
  induction kvs with
  | nil => simp [nodesEntries]
  | cons e kvs ih => simp [nodesEntries, ih]

/-- `p` holds of every value occurring in the document. -/
def All (p : Json → Prop) (j : Json) : Prop := ∀ n ∈ nodes j, p n

theorem all_arr {p : Json → Prop} {xs : List Json} :
    All p (.arr xs) ↔ p (.arr xs) ∧ ∀ x ∈ xs, All p x := by
  simp only [All, nodes, List.mem_cons, forall_eq_or_imp, mem_nodesList, forall_exists_index,
    and_imp]
  exact and_congr_right fun _ => ⟨fun h x hx n hn => h n x hx hn, fun h n x hx hn => h x hx n hn⟩

theorem all_obj {p : Json → Prop} {kvs : List (String × Json)} :
    All p (.obj kvs) ↔ p (.obj kvs) ∧ ∀ e ∈ kvs, All p e.2 := by
  simp only [All, nodes, List.mem_cons, forall_eq_or_imp, mem_nodesEntries, forall_exists_index,
    and_imp]
  exact and_congr_right fun _ => ⟨fun h x hx n hn => h n x hx hn, fun h n x hx hn => h x hx n hn⟩

/-- No object of the document repeats a key. -/
def WF : Json → Prop := All fun
  | .obj kvs => Assoc.Unique kvs
  | _ => True

instance (j : Json) : Decidable (WF j) :=
  @List.decidableBAll Json _ (fun
    | .obj kvs => inferInstanceAs (Decidable (Assoc.Unique kvs))
    | .null | .bool _ | .int _ | .float _ | .str _ | .arr _ => isTrue trivial) (nodes j)

@[simp] theorem wf_null : WF .null := by simp [WF, All, nodes]
@[simp] theorem wf_bool (b : Bool) : WF (.bool b) := by simp [WF, All, nodes]
@[simp] theorem wf_int (i : Int) : WF (.int i) := by simp [WF, All, nodes]
@[simp] theorem wf_float (f : Binary64) : WF (.float f) := by simp [WF, All, nodes]
@[simp] theorem wf_str (s : String) : WF (.str s) := by simp [WF, All, nodes]

theorem wf_arr {xs : List Json} : WF (.arr xs) ↔ ∀ x ∈ xs, WF x := by
  rw [WF, all_arr, true_and]

theorem wf_obj {kvs : List (String × Json)} :
    WF (.obj kvs) ↔ Assoc.Unique kvs ∧ ∀ e ∈ kvs, WF e.2 := all_obj

theorem WF.lookup {kvs : List (String × Json)} (h : WF (.obj kvs)) {k : String} {v : Json}
    (hv : kvs.lookup k = some v) : WF v := (wf_obj.mp h).2 _ (Assoc.mem_of_lookup hv)

/-! ## Key order -/

mutual

/-- The document with the keys of every object in order. -/
def sortKeys : Json → Json
  | .arr xs => .arr (sortKeysList xs)
  | .obj kvs => .obj (Assoc.sortByKey (sortKeysEntries kvs))
  | j => j

def sortKeysList : List Json → List Json
  | [] => []
  | x :: xs => sortKeys x :: sortKeysList xs

def sortKeysEntries : List (String × Json) → List (String × Json)
  | [] => []
  | (k, x) :: kvs => (k, sortKeys x) :: sortKeysEntries kvs

end

@[simp] theorem sortKeys_arr (xs : List Json) : sortKeys (.arr xs) = .arr (xs.map sortKeys) := by
  rw [sortKeys, List.eq_map_of_cons (f := sortKeysList) rfl fun _ _ => rfl]

@[simp] theorem sortKeys_obj (kvs : List (String × Json)) :
    sortKeys (.obj kvs) = .obj (Assoc.sortByKey (Assoc.mapVal sortKeys kvs)) := by
  have h : sortKeysEntries kvs = Assoc.mapVal sortKeys kvs :=
    List.eq_map_of_cons rfl (fun _ _ => rfl) kvs
  rw [sortKeys, h]

@[simp] theorem isNull_sortKeys (j : Json) : (sortKeys j).isNull = j.isNull := by
  cases j <;> simp [sortKeys, isNull]

/-! ## Nesting -/

mutual

/-- The number of containers on the longest path from the root. -/
def height : Json → Nat
  | .arr xs => heightList xs + 1
  | .obj kvs => heightEntries kvs + 1
  | _ => 0

def heightList : List Json → Nat
  | [] => 0
  | x :: xs => max (height x) (heightList xs)

def heightEntries : List (String × Json) → Nat
  | [] => 0
  | (_, x) :: kvs => max (height x) (heightEntries kvs)

end

mutual

/-- The depth of the deepest value that is not a null entry of an object; the
root has depth 0. -/
def keptDepth : Json → Nat
  | .arr xs => keptDepthList xs
  | .obj kvs => keptDepthEntries kvs
  | _ => 0

def keptDepthList : List Json → Nat
  | [] => 0
  | x :: xs => max (keptDepth x + 1) (keptDepthList xs)

def keptDepthEntries : List (String × Json) → Nat
  | [] => 0
  | (_, x) :: kvs =>
    if x.isNull then keptDepthEntries kvs else max (keptDepth x + 1) (keptDepthEntries kvs)

end

theorem keptDepth_arr_le {xs : List Json} {d n : Nat} (hd : d ≤ n) :
    d + keptDepth (.arr xs) ≤ n ↔ ∀ x ∈ xs, d + 1 + keptDepth x ≤ n := by
  rw [keptDepth]
  induction xs with
  | nil => simpa [keptDepthList] using hd
  | cons x xs ih => rw [keptDepthList, List.forall_mem_cons, ← ih]; omega

theorem keptDepth_obj_le {kvs : List (String × Json)} {d n : Nat} (hd : d ≤ n) :
    d + keptDepth (.obj kvs) ≤ n ↔ ∀ e ∈ kvs, e.2.isNull = false → d + 1 + keptDepth e.2 ≤ n := by
  rw [keptDepth]
  induction kvs with
  | nil => simpa [keptDepthEntries] using hd
  | cons e kvs ih =>
    rw [keptDepthEntries, List.forall_mem_cons, ← ih]
    cases hn : e.2.isNull with
    | true => simp
    | false => simp only [Bool.false_eq_true, if_false, forall_const]; omega

theorem heightList_le {xs : List Json} {n : Nat} :
    heightList xs ≤ n ↔ ∀ x ∈ xs, height x ≤ n := by
  induction xs with
  | nil => simp [heightList]
  | cons x xs ih => rw [heightList, List.forall_mem_cons, ← ih]; omega

theorem heightEntries_le {kvs : List (String × Json)} {n : Nat} :
    heightEntries kvs ≤ n ↔ ∀ e ∈ kvs, height e.2 ≤ n := by
  induction kvs with
  | nil => simp [heightEntries]
  | cons e kvs ih => rw [heightEntries, List.forall_mem_cons, ← ih]; omega

/-- Dropping null entries hides at most one level of containers. -/
theorem height_le_keptDepth (j : Json) : height j ≤ keptDepth j + 1 := by
  induction j with
  | null | bool | int | float | str => simp [height]
  | arr xs ih =>
    rw [height, Nat.add_le_add_iff_right, heightList_le]
    intro x hx
    have hk := (keptDepth_arr_le (Nat.zero_le _)).mp
      (Nat.le_of_eq (Nat.zero_add (keptDepth (.arr xs)))) x hx
    exact Nat.le_trans (ih x hx) (by omega)
  | obj kvs ih =>
    rw [height, Nat.add_le_add_iff_right, heightEntries_le]
    intro e he
    cases hn : e.2.isNull with
    | true => rw [isNull_iff.mp hn]; exact Nat.zero_le _
    | false =>
      have hk := (keptDepth_obj_le (Nat.zero_le _)).mp
        (Nat.le_of_eq (Nat.zero_add (keptDepth (.obj kvs)))) e he hn
      exact Nat.le_trans (ih e he) (by omega)

/-! ## The integers orjson writes -/

/-- The integers a 64-bit encoder accepts, signed or unsigned. -/
def Fits64 (i : Int) : Prop := -2 ^ 63 ≤ i ∧ i < 2 ^ 64

instance (i : Int) : Decidable (Fits64 i) := inferInstanceAs (Decidable (_ ∧ _))

/-- Every integer of the document fits 64 bits. -/
def IntsFit : Json → Prop := All fun
  | .int i => Fits64 i
  | _ => True

/-- Every integral double of the document has a value that fits 64 bits. -/
def FloatsFit : Json → Prop := All fun
  | .float f => f.IsInteger → Fits64 f.toInt
  | _ => True

instance (j : Json) : Decidable (IntsFit j) :=
  @List.decidableBAll Json _ (fun
    | .int i => inferInstanceAs (Decidable (Fits64 i))
    | .null | .bool _ | .float _ | .str _ | .arr _ | .obj _ => isTrue trivial) (nodes j)

instance (j : Json) : Decidable (FloatsFit j) :=
  @List.decidableBAll Json _ (fun
    | .float f => inferInstanceAs (Decidable (f.IsInteger → Fits64 f.toInt))
    | .null | .bool _ | .int _ | .str _ | .arr _ | .obj _ => isTrue trivial) (nodes j)

theorem intsFit_arr {xs : List Json} : IntsFit (.arr xs) ↔ ∀ x ∈ xs, IntsFit x := by
  rw [IntsFit, all_arr, true_and]

theorem intsFit_obj {kvs : List (String × Json)} :
    IntsFit (.obj kvs) ↔ ∀ e ∈ kvs, IntsFit e.2 := by
  rw [IntsFit, all_obj, true_and]

theorem floatsFit_arr {xs : List Json} : FloatsFit (.arr xs) ↔ ∀ x ∈ xs, FloatsFit x := by
  rw [FloatsFit, all_arr, true_and]

theorem floatsFit_obj {kvs : List (String × Json)} :
    FloatsFit (.obj kvs) ↔ ∀ e ∈ kvs, FloatsFit e.2 := by
  rw [FloatsFit, all_obj, true_and]

end Json
