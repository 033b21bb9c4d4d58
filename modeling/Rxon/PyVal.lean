import Rxon.Json

/-! # Python values

The Python objects RXON handles: JSON-like data, sets, `msgspec` Structs,
dataclasses, enum members, UUIDs, datetimes and any other object, which is known
by its identity only.  Bytes and timedeltas, which msgspec writes otherwise than
`str` does, come with both texts.  Dictionaries have string keys; sets carry their
elements in iteration order.

`same` is Python's "identical or equal", the comparison of containers and of set
membership; `eq` is `==`, which differs from it on a NaN only. -/

inductive PyError where
  | recursionError (msg : String)
  | typeError (msg : String)
  | valueError (msg : String)
  | attributeError (msg : String)
deriving DecidableEq

/-- A Python float; two NaN objects are told apart by their identity. -/
inductive PyFloat where
  | finite (f : Binary64)
  | inf (negative : Bool)
  | nan (object : Nat)
deriving DecidableEq

/-- The leaves that msgspec writes in a code of its own; bytes include their writable
kinds, such as a bytearray. -/
inductive CodedKind where
  | bytes (writable : Bool)
  | timedelta
deriving DecidableEq

/-- What a Struct instance is besides its fields: its class, and the fields that hold the very
object kept as the class's default.  Fields that hold an object of which there is only one, such
as `None`, need not be named. -/
structure StructHead where
  cls : String
  defaulted : List String := []
deriving DecidableEq

inductive PyVal where
  | none
  | bool (b : Bool)
  | int (i : Int)
  | float (x : PyFloat)
  | str (s : String)
  | list (elems : List PyVal)
  | dict (entries : List (String × PyVal))
  | set (frozen : Bool) (elems : List PyVal)
  | struct (head : StructHead) (fields : List (String × PyVal))
  | dataclass (cls : String) (fields : List (String × PyVal))
  | enum (cls member : String) (value : PyVal)
  | uuid (text : String)
  | datetime (clock offset : String)
  | coded (kind : CodedKind) (code text : String)
  | object (id : Nat)

/-- `needle in hay`, on strings. -/
def containsStr (hay needle : String) : Bool := hay.toList.tails.any needle.toList.isPrefixOf

theorem containsStr_iff {hay needle : String} :
    containsStr hay needle = true ↔ needle.toList <:+: hay.toList := by
  rw [containsStr, List.any_eq_true, List.infix_iff_prefix_suffix]
  constructor
  · rintro ⟨t, ht, hp⟩
    exact ⟨t, List.isPrefixOf_iff_prefix.mp hp, (List.mem_tails _ _).mp ht⟩
  · rintro ⟨t, hp, hs⟩
    exact ⟨t, (List.mem_tails _ _).mpr hs, List.isPrefixOf_iff_prefix.mpr hp⟩

theorem containsStr_refl (s : String) : containsStr s s = true :=
  containsStr_iff.mpr List.infix_rfl

theorem containsStr_trans {r s t : String} (h : containsStr r s = true)
    (h' : containsStr s t = true) : containsStr r t = true :=
  containsStr_iff.mpr ((containsStr_iff.mp h').trans (containsStr_iff.mp h))

namespace PyVal

/-- Induction over a value, with the hypothesis for everything it contains. -/
@[elab_as_elim, induction_eliminator]
theorem induction {P : PyVal → Prop} (none : P .none) (bool : ∀ b, P (.bool b))
    (int : ∀ i, P (.int i)) (float : ∀ x, P (.float x)) (str : ∀ s, P (.str s))
    (list : ∀ xs : List PyVal, (∀ x ∈ xs, P x) → P (.list xs))
    (dict : ∀ kvs : List (String × PyVal), (∀ e ∈ kvs, P e.2) → P (.dict kvs))
    (set : ∀ (frozen : Bool) (xs : List PyVal), (∀ x ∈ xs, P x) → P (.set frozen xs))
    (struct : ∀ (c : StructHead) (fs : List (String × PyVal)), (∀ e ∈ fs, P e.2) → P (.struct c fs))
    (dataclass : ∀ (c : String) (fs : List (String × PyVal)),
      (∀ e ∈ fs, P e.2) → P (.dataclass c fs))
    (enum : ∀ c m v, P v → P (.enum c m v)) (uuid : ∀ s, P (.uuid s))
    (datetime : ∀ s z, P (.datetime s z)) (coded : ∀ k s t, P (.coded k s t))
    (object : ∀ i, P (.object i)) (v : PyVal) : P v :=
  @PyVal.rec P (fun xs => ∀ x ∈ xs, P x) (fun kvs => ∀ e ∈ kvs, P e.2) (fun e => P e.2)
    none bool int float str (fun xs ih => list xs ih) (fun kvs ih => dict kvs ih)
    (fun b xs ih => set b xs ih) (fun c fs ih => struct c fs ih) (fun c fs ih => dataclass c fs ih)
    (fun c m v ih => enum c m v ih) uuid datetime coded object
    (fun _ h => nomatch h) (fun _ _ hx hxs => List.forall_mem_cons.mpr ⟨hx, hxs⟩)
    (fun _ h => nomatch h) (fun _ _ he hkvs => List.forall_mem_cons.mpr ⟨he, hkvs⟩)
    (fun _ _ hv => hv) v

/-! ## Numbers -/

/-- The value of a number: a whole number of binary64 units, an infinity or NaN. -/
inductive Numeric where
  | finite (units : Int)
  | inf (negative : Bool)
  | nan
deriving DecidableEq

namespace Numeric

/-- `a < b` on numbers; false when either is NaN. -/
def lt : Numeric → Numeric → Bool
  | .finite a, .finite b => decide (a < b)
  | .finite _, .inf negative => !negative
  | .inf negative, .finite _ => negative
  | .inf a, .inf b => a && !b
  | .nan, _ | _, .nan => false

/-- `a == b` on numbers; false when either is NaN. -/
def eq : Numeric → Numeric → Bool
  | .nan, _ | _, .nan => false
  | a, b => decide (a = b)

end Numeric

/-- The number a value is to `isinstance(v, (int, float))`; a bool is an int. -/
def numeric? : PyVal → Option Numeric
  | .bool b => some (.finite (if b then Binary64.one else 0))
  | .int i => some (.finite (i * Binary64.one))
  | .float (.finite f) => some (.finite f.units)
  | .float (.inf negative) => some (.inf negative)
  | .float (.nan _) => some .nan
  | _ => Option.none

/-! ## Equality and hashing -/

/-- Identity or equality of two numbers; anything else is neither. -/
def sameNumber : PyVal → PyVal → Bool
  | .float (.nan i), .float (.nan j) => i == j
  | v, w => match v.numeric?, w.numeric? with
    | some a, some b => a.eq b
    | _, _ => false

mutual

/-- `v is w or v == w`. -/
def same : PyVal → PyVal → Bool
  | .none, .none => true
  | .str s, .str t => s == t
  | .list xs, .list ys => sameList xs ys
  | .dict kvs, .dict kvs' => kvs.length == kvs'.length && sameEntries kvs kvs'
  | .set _ xs, .set _ ys => xs.length == ys.length && sameElements xs ys
  | .struct c fs, .struct c' fs' =>
    c.cls == c'.cls && fs.length == fs'.length && sameEntries fs fs'
  | .dataclass c fs, .dataclass c' fs' => c == c' && fs.length == fs'.length && sameEntries fs fs'
  | .enum c m _, .enum c' m' _ => c == c' && m == m'
  | .uuid s, .uuid t => s == t
  | .datetime s z, .datetime t z' => s == t && z == z'
  | .coded (.bytes _) s _, .coded (.bytes _) t _ => s == t
  | .coded .timedelta s _, .coded .timedelta t _ => s == t
  | .object i, .object j => i == j
  | v, w => sameNumber v w

def sameList : List PyVal → List PyVal → Bool
  | [], [] => true
  | x :: xs, y :: ys => same x y && sameList xs ys
  | _, _ => false

def sameEntries : List (String × PyVal) → List (String × PyVal) → Bool
  | [], _ => true
  | (k, x) :: kvs, kvs' => (match kvs'.lookup k with
    | some y => same x y
    | Option.none => false) && sameEntries kvs kvs'

def sameElements : List PyVal → List PyVal → Bool
  | [], _ => true
  | x :: xs, ys => ys.any (fun y => same x y) && sameElements xs ys

end

theorem Numeric.eq_iff {a b : Numeric} : a.eq b = true ↔ a = b ∧ a ≠ .nan := by
  cases a <;> cases b <;> simp [Numeric.eq]

/-- Numbers are the same when they are one NaN or have one value. -/
theorem sameNumber_iff {v w : PyVal} :
    sameNumber v w = true ↔ (∃ i, v = .float (.nan i) ∧ w = .float (.nan i)) ∨
      ∃ n, n ≠ .nan ∧ v.numeric? = some n ∧ w.numeric? = some n := by
  unfold sameNumber
  split
  · rename_i i j
    rw [beq_iff_eq]
    constructor
    · rintro rfl
      exact Or.inl ⟨i, rfl, rfl⟩
    · rintro (⟨k, h, h'⟩ | ⟨n, hn, h, -⟩)
      · cases h
        cases h'
        rfl
      · exact absurd (Option.some.inj h).symm hn
  · rename_i hne
    have hno : ¬ ∃ i, v = .float (.nan i) ∧ w = .float (.nan i) := by
      rintro ⟨i, rfl, rfl⟩
      exact hne i i rfl rfl
    rw [or_iff_right hno]
    split
    · rename_i a b ha hb
      rw [Numeric.eq_iff, ha, hb]
      constructor
      · rintro ⟨rfl, hn⟩
        exact ⟨a, hn, rfl, rfl⟩
      · rintro ⟨n, hn, h, h'⟩
        cases h
        cases h'
        exact ⟨rfl, hn⟩
    · rename_i hnum
      refine iff_of_false Bool.false_ne_true ?_
      rintro ⟨n, -, h, h'⟩
      exact hnum n n h h'

theorem sameNumber_trans {u v w : PyVal} (h : sameNumber u v = true) (h' : sameNumber v w = true) :
    sameNumber u w = true := by
  rw [sameNumber_iff] at h h' ⊢
  rcases h with ⟨i, rfl, rfl⟩ | ⟨n, hn, hu, hv⟩
  · rcases h' with ⟨j, hj, rfl⟩ | ⟨m, hm, hv, -⟩
    · cases hj
      exact Or.inl ⟨i, rfl, rfl⟩
    · exact absurd (Option.some.inj hv).symm hm
  · rcases h' with ⟨j, rfl, -⟩ | ⟨m, -, hv', hw⟩
    · exact absurd (Option.some.inj hv).symm hn
    · rw [hv] at hv'
      exact Or.inr ⟨n, hn, hu, by rw [hw, hv']⟩

theorem same_of_numeric {v : PyVal} (h : v.numeric? ≠ Option.none) (w : PyVal) :
    same v w = sameNumber v w := by
  cases v <;> first | exact absurd rfl h | simp [same]

theorem sameEntries_iff {kvs kvs' : List (String × PyVal)} :
    sameEntries kvs kvs' = true ↔
      ∀ e ∈ kvs, ∃ y, kvs'.lookup e.1 = some y ∧ same e.2 y = true := by
  induction kvs with
  | nil => simp [sameEntries]
  | cons e kvs ih =>
    obtain ⟨k, x⟩ := e
    rw [sameEntries, Bool.and_eq_true, ih, List.forall_mem_cons]
    refine and_congr_left fun _ => ?_
    dsimp only
    cases kvs'.lookup k <;> simp

theorem sameElements_iff {xs ys : List PyVal} :
    sameElements xs ys = true ↔ ∀ x ∈ xs, ∃ y ∈ ys, same x y = true := by
  induction xs with
  | nil => simp [sameElements]
  | cons x xs ih => simp [sameElements, ih]

theorem sameList_trans {xs ys zs : List PyVal}
    (ih : ∀ x ∈ xs, ∀ y z, same x y = true → same y z = true → same x z = true)
    (h : sameList xs ys = true) (h' : sameList ys zs = true) : sameList xs zs = true := by
  induction xs generalizing ys zs with
  | nil =>
    cases ys with
    | nil => exact h'
    | cons y ys => simp [sameList] at h
  | cons x xs ihxs =>
    obtain ⟨hx, hxs⟩ := List.forall_mem_cons.mp ih
    cases ys with
    | nil => simp [sameList] at h
    | cons y ys =>
      cases zs with
      | nil => simp [sameList] at h'
      | cons z zs =>
        simp only [sameList, Bool.and_eq_true] at h h' ⊢
        exact ⟨hx y z h.1 h'.1, ihxs hxs h.2 h'.2⟩

theorem eq_str_of_same {v : PyVal} {t : String} (h : same v (.str t) = true) : v = .str t := by
  cases v with
  | str s =>
    rw [same, beq_iff_eq] at h
    rw [h]
  | none | bool | int | float | list | dict | set | struct | dataclass | enum | uuid | datetime
    | coded | object => simp [same, sameNumber, numeric?] at h

theorem eq_str_of_same_str {w : PyVal} {s : String} (h : same (.str s) w = true) : w = .str s := by
  cases w with
  | str t =>
    rw [same, beq_iff_eq] at h
    rw [h]
  | none | bool | int | float | list | dict | set | struct | dataclass | enum | uuid | datetime
    | coded | object => simp [same, sameNumber, numeric?] at h

theorem exists_same_of_sameList {xs ys : List PyVal} (h : sameList xs ys = true) {y : PyVal}
    (hy : y ∈ ys) : ∃ x ∈ xs, same x y = true := by
  induction xs generalizing ys with
  | nil =>
    cases ys with
    | nil => cases hy
    | cons z zs => simp [sameList] at h
  | cons x xs ih =>
    cases ys with
    | nil => cases hy
    | cons z zs =>
      rw [sameList, Bool.and_eq_true] at h
      rcases List.mem_cons.mp hy with rfl | hy
      · exact ⟨x, List.mem_cons_self, h.1⟩
      · obtain ⟨x', hx', hsame⟩ := ih h.2 hy
        exact ⟨x', List.mem_cons_of_mem x hx', hsame⟩

theorem sameEntries_trans {kvs kvs' kvs'' : List (String × PyVal)}
    (ih : ∀ e ∈ kvs, ∀ y z, same e.2 y = true → same y z = true → same e.2 z = true)
    (h : sameEntries kvs kvs' = true) (h' : sameEntries kvs' kvs'' = true) :
    sameEntries kvs kvs'' = true := by
  rw [sameEntries_iff] at h h' ⊢
  intro e he
  obtain ⟨y, hy, hey⟩ := h e he
  obtain ⟨z, hz, hyz⟩ := h' (e.1, y) (Assoc.mem_of_lookup hy)
  exact ⟨z, hz, ih e he y z hey hyz⟩

theorem same_trans_of_numeric {u v w : PyVal} (hu : u.numeric? ≠ Option.none)
    (h : same u v = true) (h' : same v w = true) : same u w = true := by
  rw [same_of_numeric hu] at h ⊢
  have hv : v.numeric? ≠ Option.none := by
    rcases sameNumber_iff.mp h with ⟨i, -, rfl⟩ | ⟨n, -, -, hn⟩
    · exact fun hn => by cases hn
    · rw [hn]
      exact Option.some_ne_none n
  rw [same_of_numeric hv] at h'
  exact sameNumber_trans h h'

theorem numeric?_float (x : PyFloat) : (float x).numeric? ≠ Option.none := by
  cases x <;> exact Option.some_ne_none _

/-- **Being the same carries over.** -/
theorem same_trans {u v w : PyVal} (h : same u v = true) (h' : same v w = true) :
    same u w = true := by
  induction u generalizing v w with
  | bool b => exact same_trans_of_numeric (Option.some_ne_none _) h h'
  | int i => exact same_trans_of_numeric (Option.some_ne_none _) h h'
  | float x => exact same_trans_of_numeric (numeric?_float x) h h'
  | list xs ih =>
    cases v with
    | list ys =>
      cases w with
      | list zs =>
        rw [same] at h h' ⊢
        exact sameList_trans (fun x hx y z => ih x hx) h h'
      | _ => simp [same, sameNumber, numeric?] at h'
    | _ => simp [same, sameNumber, numeric?] at h
  | dict kvs ih =>
    cases v with
    | dict kvs' =>
      cases w with
      | dict kvs'' =>
        simp only [same, Bool.and_eq_true, beq_iff_eq] at h h' ⊢
        exact ⟨h.1.trans h'.1, sameEntries_trans (fun e he y z => ih e he) h.2 h'.2⟩
      | _ => simp [same, sameNumber, numeric?] at h'
    | _ => simp [same, sameNumber, numeric?] at h
  | set frozen xs ih =>
    cases v with
    | set _ ys =>
      cases w with
      | set _ zs =>
        simp only [same, Bool.and_eq_true, beq_iff_eq, sameElements_iff] at h h' ⊢
        refine ⟨h.1.trans h'.1, fun x hx => ?_⟩
        obtain ⟨y, hy, hxy⟩ := h.2 x hx
        obtain ⟨z, hz, hyz⟩ := h'.2 y hy
        exact ⟨z, hz, ih x hx hxy hyz⟩
      | _ => simp [same, sameNumber, numeric?] at h'
    | _ => simp [same, sameNumber, numeric?] at h
  | struct c fs ih =>
    cases v with
    | struct c' fs' =>
      cases w with
      | struct c'' fs'' =>
        simp only [same, Bool.and_eq_true, beq_iff_eq] at h h' ⊢
        exact ⟨⟨h.1.1.trans h'.1.1, h.1.2.trans h'.1.2⟩,
          sameEntries_trans (fun e he y z => ih e he) h.2 h'.2⟩
      | _ => simp [same, sameNumber, numeric?] at h'
    | _ => simp [same, sameNumber, numeric?] at h
  | dataclass c fs ih =>
    cases v with
    | dataclass c' fs' =>
      cases w with
      | dataclass c'' fs'' =>
        simp only [same, Bool.and_eq_true, beq_iff_eq] at h h' ⊢
        exact ⟨⟨h.1.1.trans h'.1.1, h.1.2.trans h'.1.2⟩,
          sameEntries_trans (fun e he y z => ih e he) h.2 h'.2⟩
      | _ => simp [same, sameNumber, numeric?] at h'
    | _ => simp [same, sameNumber, numeric?] at h
  | coded k s t =>
    cases v with
    | coded k' s' t' =>
      cases w with
      | coded k'' s'' t'' =>
        cases k <;> cases k' <;> simp [same, sameNumber, numeric?] at h
        all_goals cases k'' <;> simp [same, sameNumber, numeric?] at h' ⊢
        all_goals exact h.trans h'
      | _ => cases k' <;> simp [same, sameNumber, numeric?] at h'
    | _ => cases k <;> simp [same, sameNumber, numeric?] at h
  -- what has neither parts nor a number is the same only as its equals
  | none | str | enum | uuid | datetime | object =>
    cases v <;> simp [same, sameNumber, numeric?] at h
    all_goals cases w <;> simp [same, sameNumber, numeric?] at h' ⊢
    all_goals simp_all

/-- Whether two values can only be one object: CPython keeps one object each of `None`, the
booleans, the small integers and the enum members, and any other object is known by its
identity. -/
def isOne : PyVal → PyVal → Bool
  | .none, .none => true
  | .bool b, .bool b' => b == b'
  | .int i, .int i' => i == i' && decide (-5 ≤ i ∧ i ≤ 256)
  | .float (.nan i), .float (.nan j) => i == j
  | .enum c m _, .enum c' m' _ => c == c' && m == m'
  | .object i, .object j => i == j
  | _, _ => false

theorem same_of_isOne {v w : PyVal} (h : isOne v w = true) : same v w = true := by
  unfold isOne at h
  split at h <;> simp_all [same, sameNumber, numeric?, Numeric.eq]

/-- `v == w`: a NaN equals nothing, not even itself. -/
def eq : PyVal → PyVal → Bool
  | .float (.nan _), _ => false
  | v, w => same v w

theorem same_of_eq {v w : PyVal} (h : eq v w = true) : same v w = true := by
  unfold eq at h
  split at h
  · cases h
  · exact h

/-- What equals a value is equal to all that it equals. -/
theorem eq_of_same_of_eq {u v w : PyVal} (h : same u v = true) (h' : eq v w = true) :
    eq u w = true := by
  have hsame (x y : PyVal) (hx : ∀ i, x ≠ .float (.nan i)) : eq x y = same x y := by
    unfold eq
    split
    · exact absurd rfl (hx _)
    · rfl
  have hv : ∀ i, v ≠ .float (.nan i) := by
    rintro i rfl
    cases h'
  have hu : ∀ i, u ≠ .float (.nan i) := by
    rintro i rfl
    rw [same_of_numeric (numeric?_float _)] at h
    rcases sameNumber_iff.mp h with ⟨j, -, rfl⟩ | ⟨n, hn, hnan, -⟩
    · exact hv j rfl
    · exact absurd (Option.some.inj hnan).symm hn
  rw [hsame v w hv] at h'
  rw [hsame u w hu]
  exact same_trans h h'

mutual

/-- Whether `hash(v)` is defined.  RXON's Structs are frozen, so a Struct hashes
when its fields do; lists, dicts, mutable sets and dataclasses never do. -/
def hashable : PyVal → Bool
  | .list _ | .dict _ | .dataclass _ _ => false
  | .set frozen _ => frozen
  | .struct _ fs => hashableEntries fs
  | .coded kind _ _ => kind ≠ .bytes true
  | _ => true

def hashableEntries : List (String × PyVal) → Bool
  | [] => true
  | (_, x) :: fs => hashable x && hashableEntries fs

end

/-- `bool(v)`; an object without a length or a truth value of its own is true. -/
def truthy : PyVal → Bool
  | .none => false
  | .bool b => b
  | .int i => i ≠ 0
  | .float (.finite f) => f.units ≠ 0
  | .str s => s ≠ ""
  | .list xs | .set _ xs => !xs.isEmpty
  | .dict kvs => !kvs.isEmpty
  | .coded (.bytes _) code _ => code ≠ ""
  | .coded .timedelta _ text => text ≠ "0:00:00"
  | _ => true

end PyVal

/-! ## Documents as Python values -/

namespace Json

mutual

/-- The Python value of a document. -/
def toPy : Json → PyVal
  | .null => .none
  | .bool b => .bool b
  | .int i => .int i
  | .float f => .float (.finite f)
  | .str s => .str s
  | .arr xs => .list (toPyList xs)
  | .obj kvs => .dict (toPyEntries kvs)

def toPyList : List Json → List PyVal
  | [] => []
  | x :: xs => toPy x :: toPyList xs

def toPyEntries : List (String × Json) → List (String × PyVal)
  | [] => []
  | (k, x) :: kvs => (k, toPy x) :: toPyEntries kvs

end

theorem toPyList_eq (xs : List Json) : toPyList xs = xs.map toPy :=
  List.eq_map_of_cons rfl (fun _ _ => rfl) xs

theorem toPyEntries_eq (kvs : List (String × Json)) : toPyEntries kvs = Assoc.mapVal toPy kvs :=
  List.eq_map_of_cons rfl (fun _ _ => rfl) kvs

@[simp] theorem toPy_arr (xs : List Json) : toPy (.arr xs) = .list (xs.map toPy) := by
  rw [toPy, toPyList_eq]

@[simp] theorem toPy_obj (kvs : List (String × Json)) :
    toPy (.obj kvs) = .dict (Assoc.mapVal toPy kvs) := by
  rw [toPy, toPyEntries_eq]

end Json
