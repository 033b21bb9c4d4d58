import Rxon.TypeDecl

/-! # Identity of values and annotations

When two values, or two annotations, are the same expression of the model: a stricter
question than `==`, which types are compared by when they are the keys of a dict. -/

namespace PyVal

mutual

def identical : PyVal → PyVal → Bool
  | .none, .none => true
  | .bool a, .bool b => a == b
  | .int a, .int b => a == b
  | .float a, .float b => a == b
  | .str a, .str b => a == b
  | .list xs, .list ys => identicalList xs ys
  | .dict kvs, .dict kvs' => identicalEntries kvs kvs'
  | .set a xs, .set b ys => a == b && identicalList xs ys
  | .struct c fs, .struct c' fs' => c == c' && identicalEntries fs fs'
  | .dataclass c fs, .dataclass c' fs' => c == c' && identicalEntries fs fs'
  | .enum c m v, .enum c' m' v' => c == c' && (m == m' && identical v v')
  | .uuid a, .uuid b => a == b
  | .datetime a z, .datetime b z' => a == b && z == z'
  | .coded k a s, .coded k' b t => k == k' && (a == b && s == t)
  | .object a, .object b => a == b
  | _, _ => false

def identicalList : List PyVal → List PyVal → Bool
  | [], [] => true
  | x :: xs, y :: ys => identical x y && identicalList xs ys
  | _, _ => false

def identicalEntries : List (String × PyVal) → List (String × PyVal) → Bool
  | [], [] => true
  | (k, x) :: kvs, (k', y) :: kvs' => k == k' && (identical x y && identicalEntries kvs kvs')
  | _, _ => false

end

theorem identicalList_iff {xs ys : List PyVal} (h : ∀ x ∈ xs, ∀ y, identical x y = true ↔ x = y) :
    identicalList xs ys = true ↔ xs = ys := by
  induction xs generalizing ys with
  | nil => cases ys <;> simp [identicalList]
  | cons x xs ih =>
    obtain ⟨hx, hxs⟩ := List.forall_mem_cons.mp h
    cases ys with
    | nil => simp [identicalList]
    | cons y ys => rw [identicalList, Bool.and_eq_true, hx, ih hxs, List.cons.injEq]

theorem identicalEntries_iff {kvs kvs' : List (String × PyVal)}
    (h : ∀ e ∈ kvs, ∀ y, identical e.2 y = true ↔ e.2 = y) :
    identicalEntries kvs kvs' = true ↔ kvs = kvs' := by
  induction kvs generalizing kvs' with
  | nil => cases kvs' <;> simp [identicalEntries]
  | cons e kvs ih =>
    obtain ⟨he, hkvs⟩ := List.forall_mem_cons.mp h
    cases kvs' with
    | nil => simp [identicalEntries]
    | cons e' kvs' =>
      rw [identicalEntries, Bool.and_eq_true, Bool.and_eq_true, he, ih hkvs, beq_iff_eq,
        List.cons.injEq, Prod.ext_iff, and_assoc]

theorem identical_iff {a b : PyVal} : identical a b = true ↔ a = b := by
  induction a generalizing b with
  | list xs ih => cases b <;> simp [identical, identicalList_iff ih]
  | dict kvs ih => cases b <;> simp [identical, identicalEntries_iff ih]
  | set frozen xs ih => cases b <;> simp [identical, identicalList_iff ih]
  | struct c fs ih => cases b <;> simp [identical, identicalEntries_iff ih]
  | dataclass c fs ih => cases b <;> simp [identical, identicalEntries_iff ih]
  | enum c m v ih => cases b <;> simp [identical, ih]
  | none | bool | int | float | str | uuid | datetime | coded | object =>
    cases b <;> simp [identical]

instance instDecidableEq : DecidableEq PyVal := fun _ _ => decidable_of_iff _ identical_iff

end PyVal

namespace Ty

mutual

def identical : Ty → Ty → Bool
  | .any, .any | .str, .str | .int, .int | .float, .float | .bool, .bool | .none, .none
  | .uuid, .uuid => true
  | .enum c ms, .enum c' ms' => c == c' && decide (ms = ms')
  | .list t, .list u => identical t u
  | .dict t, .dict u => identical t u
  | .union ts, .union us => identicalList ts us
  | .annotated t, .annotated u => identical t u
  | .cls c, .cls c' => c == c'
  | .text s, .text s' => s == s'
  | .other c, .other c' => c == c'
  | _, _ => false

def identicalList : List Ty → List Ty → Bool
  | [], [] => true
  | t :: ts, u :: us => identical t u && identicalList ts us
  | _, _ => false

end

theorem identicalList_iff {ts us : List Ty} (h : ∀ t ∈ ts, ∀ u, identical t u = true ↔ t = u) :
    identicalList ts us = true ↔ ts = us := by
  induction ts generalizing us with
  | nil => cases us <;> simp [identicalList]
  | cons t ts ih =>
    obtain ⟨ht, hts⟩ := List.forall_mem_cons.mp h
    cases us with
    | nil => simp [identicalList]
    | cons u us => rw [identicalList, Bool.and_eq_true, ht, ih hts, List.cons.injEq]

theorem identical_iff {t u : Ty} : identical t u = true ↔ t = u := by
  induction t generalizing u with
  | list t ih => cases u <;> simp [identical, ih]
  | dict t ih => cases u <;> simp [identical, ih]
  | union ts ih => cases u <;> simp [identical, identicalList_iff ih]
  | annotated t ih => cases u <;> simp [identical, ih]
  | any | str | int | float | bool | none | uuid | enum | cls | text | other =>
    cases u <;> simp [identical]

instance instDecidableEq : DecidableEq Ty := fun _ _ => decidable_of_iff _ identical_iff

end Ty
