import Rxon.MatchingOrder
import Rxon.WireMatching

/-! # The documented property relation

What `matches` promises about JSON property values: numbers are compared by size,
arrays by membership or intersection, anything else for equality (`Json.meets`).

The code tells the kinds of values apart with `isinstance`, for which a boolean is an
integer.  It decides the documented relation on the documents with `true` replaced by 1
and `false` by 0 (`propertiesMatch_toPy`), so it differs from the documented one
exactly when a boolean is met as a number (`propertiesMatch_iff_documented`). -/

namespace Json

/-! ## Equality of JSON values -/

mutual

/-- Equality of JSON values: numbers by their value, objects by key. -/
def equal : Json → Json → Bool
  | .null, .null => true
  | .bool a, .bool b => a == b
  | .str s, .str t => s == t
  | .arr xs, .arr ys => equalList xs ys
  | .obj kvs, .obj kvs' => kvs.length == kvs'.length && equalEntries kvs kvs'
  | x, y => match x.units?, y.units? with
    | some a, some b => a == b
    | _, _ => false

def equalList : List Json → List Json → Bool
  | [], [] => true
  | x :: xs, y :: ys => equal x y && equalList xs ys
  | _, _ => false

def equalEntries : List (String × Json) → List (String × Json) → Bool
  | [], _ => true
  | (k, x) :: kvs, kvs' => (match kvs'.lookup k with
    | some y => equal x y
    | none => false) && equalEntries kvs kvs'

end

theorem equalEntries_iff {kvs kvs' : List (String × Json)} :
    equalEntries kvs kvs' = true ↔
      ∀ e ∈ kvs, ∃ y, kvs'.lookup e.1 = some y ∧ equal e.2 y = true := by
  induction kvs with
  | nil => simp [equalEntries]
  | cons e kvs ih =>
    obtain ⟨k, x⟩ := e
    rw [equalEntries, Bool.and_eq_true, ih, List.forall_mem_cons]
    refine and_congr_left fun _ => ?_
    dsimp only
    cases kvs'.lookup k <;> simp

/-- The elements of an array. -/
def elements? : Json → Option (List Json)
  | .arr xs => some xs
  | _ => none

/-- Intersection of two arrays, membership in one, equality otherwise. -/
def includes (offered required : Json) : Bool :=
  match required.elements?, offered.elements? with
  | some ys, some xs => xs.any fun x => ys.any fun y => x.equal y
  | some ys, none => ys.any fun y => offered.equal y
  | none, some xs => xs.any fun x => required.equal x
  | none, none => offered.equal required

/-- The documented relation of an offered value to a required one. -/
def meets (offered required : Json) : Bool :=
  match required.units?, offered.units? with
  | some r, some o => decide (r ≤ o)
  | _, _ => offered.includes required

/-! ## Booleans as numbers -/

mutual

/-- The document with 1 for `true` and 0 for `false`. -/
def numbered : Json → Json
  | .bool b => .int (if b then 1 else 0)
  | .arr xs => .arr (numberedList xs)
  | .obj kvs => .obj (numberedEntries kvs)
  | j => j

def numberedList : List Json → List Json
  | [] => []
  | x :: xs => numbered x :: numberedList xs

def numberedEntries : List (String × Json) → List (String × Json)
  | [] => []
  | (k, x) :: kvs => (k, numbered x) :: numberedEntries kvs

end

@[simp] theorem numbered_arr (xs : List Json) : numbered (.arr xs) = .arr (xs.map numbered) := by
  rw [numbered, List.eq_map_of_cons (f := numberedList) rfl fun _ _ => rfl]

@[simp] theorem numbered_obj (kvs : List (String × Json)) :
    numbered (.obj kvs) = .obj (Assoc.mapVal numbered kvs) := by
  have h : numberedEntries kvs = Assoc.mapVal numbered kvs :=
    List.eq_map_of_cons rfl (fun _ _ => rfl) kvs
  rw [numbered, h]

theorem units?_numbered {j : Json} {n : Int} (h : j.units? = some n) :
    j.numbered.units? = some n := by
  cases j <;> first | exact h | cases h

/-- A number equals the numbers of the same value. -/
theorem equal_of_units {x y : Json} {n : Int} (hx : x.units? = some n) :
    equal x y = true ↔ y.units? = some n := by
  have hmatch : equal x y = match y.units? with
      | some m => n == m
      | none => false := by
    cases x with
    | int i => cases hx; cases y <;> simp only [equal, units?]
    | float f => cases hx; cases y <;> simp only [equal, units?]
    | null | bool | str | arr | obj => cases hx
  rw [hmatch]
  cases y.units? with
  | none => exact iff_of_false Bool.false_ne_true nofun
  | some m => rw [beq_iff_eq, Option.some.injEq, eq_comm]

section

attribute [local simp] equal units?

theorem equal_null {y : Json} : equal .null y = true ↔ .null = y := by
  cases y <;> simp

theorem equal_bool {b : Bool} {y : Json} : equal (.bool b) y = true ↔ .bool b = y := by
  cases y <;> simp

theorem equal_str {s : String} {y : Json} : equal (.str s) y = true ↔ .str s = y := by
  cases y <;> simp

theorem equal_arr {xs : List Json} {y : Json} :
    equal (.arr xs) y = true ↔ ∃ ys, y = .arr ys ∧ equalList xs ys = true := by
  cases y <;> simp

theorem equal_obj {kvs : List (String × Json)} {y : Json} :
    equal (.obj kvs) y = true ↔
      ∃ kvs', y = .obj kvs' ∧ kvs.length = kvs'.length ∧ equalEntries kvs kvs' = true := by
  cases y <;> simp

end

/-- Equal values stay equal when booleans are read as numbers. -/
theorem equal_numbered {x y : Json} (h : equal x y = true) :
    equal x.numbered y.numbered = true := by
  induction x generalizing y with
  | null => rw [← equal_null.mp h]; exact equal_null.mpr rfl
  | bool b => rw [← equal_bool.mp h]; exact (equal_of_units rfl).mpr rfl
  | str s => rw [← equal_str.mp h]; exact equal_str.mpr rfl
  | int i => exact (equal_of_units rfl).mpr (units?_numbered ((equal_of_units rfl).mp h))
  | float f => exact (equal_of_units rfl).mpr (units?_numbered ((equal_of_units rfl).mp h))
  | arr xs ih =>
    obtain ⟨ys, rfl, hlist⟩ := equal_arr.mp h
    rw [numbered_arr, numbered_arr]
    refine equal_arr.mpr ⟨_, rfl, ?_⟩
    -- element by element, along both arrays
    induction xs generalizing ys with
    | nil =>
      cases ys with
      | nil => rfl
      | cons y ys => cases hlist
    | cons x xs ihxs =>
      obtain ⟨hx, hxs⟩ := List.forall_mem_cons.mp ih
      cases ys with
      | nil => cases hlist
      | cons y ys =>
        rw [equalList, Bool.and_eq_true] at hlist
        rw [List.map_cons, List.map_cons, equalList, Bool.and_eq_true]
        exact ⟨hx hlist.1, ihxs hxs ys (equal_arr.mpr ⟨ys, rfl, hlist.2⟩) hlist.2⟩
  | obj kvs ih =>
    obtain ⟨kvs', rfl, hlen, hentries⟩ := equal_obj.mp h
    rw [numbered_obj, numbered_obj]
    refine equal_obj.mpr ⟨_, rfl, by simpa [Assoc.mapVal] using hlen, ?_⟩
    rw [equalEntries_iff] at hentries ⊢
    intro e he
    obtain ⟨e', he', rfl⟩ := List.mem_map.mp he
    obtain ⟨y, hy, heq⟩ := hentries e' he'
    exact ⟨y.numbered, by rw [Assoc.lookup_mapVal, hy]; rfl, ih e' he' heq⟩

/-! ## Python's comparison -/

theorem numeric?_toPy (x : Json) : x.toPy.numeric? = x.numbered.units?.map .finite := by
  cases x with
  | bool b => cases b <;> simp [toPy, PyVal.numeric?, numbered, units?]
  | arr xs => rw [toPy_arr, numbered_arr]; rfl
  | obj kvs => rw [toPy_obj, numbered_obj]; rfl
  | null | int | float | str => rfl

theorem same_toPy_of_units {x y : Json} {n : Int} (hx : x.numbered.units? = some n) :
    x.toPy.same y.toPy = true ↔ x.numbered.equal y.numbered = true := by
  have hnumeric : x.toPy.numeric? = some (.finite n) := by rw [numeric?_toPy, hx]; rfl
  have hnan : ∀ i, x.toPy ≠ .float (.nan i) := by
    rintro i h
    rw [h] at hnumeric
    cases hnumeric
  rw [PyVal.same_of_numeric (by rw [hnumeric]; nofun), PyVal.sameNumber_iff, equal_of_units hx,
    hnumeric, numeric?_toPy]
  constructor
  · rintro (⟨i, h, -⟩ | ⟨m, -, hm, hy⟩)
    · exact absurd h (hnan i)
    · cases hm
      obtain ⟨n', hn', heq⟩ := Option.map_eq_some_iff.mp hy
      cases heq
      exact hn'
  · intro h
    exact Or.inr ⟨.finite n, nofun, rfl, by rw [h]; rfl⟩

/-- **Python's `==` on documents is equality once booleans are read as numbers.** -/
theorem same_toPy {x y : Json} :
    x.toPy.same y.toPy = true ↔ x.numbered.equal y.numbered = true := by
  induction x generalizing y with
  | null => cases y <;> simp [toPy, PyVal.same, PyVal.sameNumber, PyVal.numeric?, numbered,
      equal, units?]
  | str s => cases y <;> simp [toPy, PyVal.same, PyVal.sameNumber, PyVal.numeric?, numbered,
      equal, units?]
  | bool b => exact same_toPy_of_units rfl
  | int i => exact same_toPy_of_units rfl
  | float f => exact same_toPy_of_units rfl
  | arr xs ih =>
    rw [toPy_arr, numbered_arr, equal_arr]
    cases y with
    | arr ys =>
      rw [toPy_arr, numbered_arr, PyVal.same]
      simp only [arr.injEq, exists_eq_left']
      induction xs generalizing ys with
      | nil => cases ys <;> simp [PyVal.sameList, equalList]
      | cons x xs ihxs =>
        obtain ⟨hx, hxs⟩ := List.forall_mem_cons.mp ih
        cases ys with
        | nil => simp [PyVal.sameList, equalList]
        | cons y ys =>
          rw [List.map_cons, List.map_cons, List.map_cons, List.map_cons, PyVal.sameList, equalList,
            Bool.and_eq_true, Bool.and_eq_true, hx, ihxs hxs]
    | _ => simp [toPy, numbered, PyVal.same, PyVal.sameNumber, PyVal.numeric?]
  | obj kvs ih =>
    rw [toPy_obj, numbered_obj, equal_obj]
    cases y with
    | obj kvs' =>
      rw [toPy_obj, numbered_obj, PyVal.same]
      simp only [obj.injEq, exists_eq_left', Bool.and_eq_true, beq_iff_eq, PyVal.sameEntries_iff,
        equalEntries_iff, Assoc.lookup_mapVal]
      refine and_congr (by simp [Assoc.mapVal]) ?_
      refine List.forall_mem_map.trans (Iff.trans ?_ List.forall_mem_map.symm)
      refine forall_congr' fun e => forall_congr' fun he => ?_
      cases hlookup : kvs'.lookup e.1 with
      | none => simp
      | some y => simpa using ih e he
    | _ => simp [toPy, numbered, PyVal.same, PyVal.sameNumber, PyVal.numeric?]

/-! ## The relation, kind by kind -/

section Meets
variable {x y : Json} {xs ys : List Json} {m n : Int}

theorem meets_of_units (hx : x.units? = some m) (hy : y.units? = some n) :
    x.meets y = decide (n ≤ m) := by
  rw [meets, hx, hy]

theorem elements?_eq_some : x.elements? = some xs ↔ x = .arr xs := by
  cases x <;> simp [elements?]

theorem elements?_numbered (x : Json) :
    x.numbered.elements? = x.elements?.map (·.map numbered) := by
  cases x with
  | arr xs => rw [numbered_arr]; rfl
  | obj kvs => rw [numbered_obj]; rfl
  | null | bool | int | float | str => rfl

theorem meets_eq_includes (h : ∀ m n, x.units? = some m → y.units? = some n → False) :
    x.meets y = x.includes y := by
  unfold meets
  split
  · rename_i hn hm
    exact absurd (h _ _ hm hn) id
  · rfl

theorem meets_of_includes (h : x.includes y = true) : x.meets y = true := by
  by_cases hnum : ∃ m n, x.units? = some m ∧ y.units? = some n
  · obtain ⟨m, n, hm, hn⟩ := hnum
    have hx : x.elements? = none := by cases x <;> first | rfl | cases hm
    have hy : y.elements? = none := by cases y <;> first | rfl | cases hn
    rw [includes, hx, hy] at h
    rw [(equal_of_units hm).mp h] at hn
    cases hn
    rw [meets_of_units hm ((equal_of_units hm).mp h), decide_eq_true (Int.le_refl m)]
  · rw [meets_eq_includes fun m n hm hn => hnum ⟨m, n, hm, hn⟩]
    exact h

theorem includes_numbered (h : x.includes y = true) : x.numbered.includes y.numbered = true := by
  unfold includes at h ⊢
  rw [elements?_numbered, elements?_numbered]
  cases hy : y.elements? with
  | none =>
    cases hx : x.elements? with
    | none =>
      rw [hx, hy] at h
      exact equal_numbered h
    | some xs =>
      simp only [hx, hy, Option.map_some, Option.map_none, List.any_map, List.any_eq_true] at h ⊢
      obtain ⟨x, hx, heq⟩ := h
      exact ⟨x, hx, equal_numbered heq⟩
  | some ys =>
    cases hx : x.elements? with
    | none =>
      simp only [hx, hy, Option.map_some, Option.map_none, List.any_map, List.any_eq_true] at h ⊢
      obtain ⟨y, hy, heq⟩ := h
      exact ⟨y, hy, equal_numbered heq⟩
    | some xs =>
      simp only [hx, hy, Option.map_some, List.any_map, List.any_eq_true] at h ⊢
      obtain ⟨x, hx, y, hy, heq⟩ := h
      exact ⟨x, hx, List.any_eq_true.mpr ⟨y, hy, equal_numbered heq⟩⟩

/-- **Only more is met when booleans are read as numbers.** -/
theorem meets_numbered (h : x.meets y = true) : x.numbered.meets y.numbered = true := by
  by_cases hnum : ∃ m n, x.units? = some m ∧ y.units? = some n
  · obtain ⟨m, n, hm, hn⟩ := hnum
    rw [meets_of_units hm hn] at h
    rw [meets_of_units (units?_numbered hm) (units?_numbered hn), h]
  · rw [meets_eq_includes fun m n hm hn => hnum ⟨m, n, hm, hn⟩] at h
    exact meets_of_includes (includes_numbered h)

/-! ## The relation the code decides -/

theorem collection?_toPy_eq (x : Json) :
    Rxon.collection? x.toPy = x.elements?.map fun xs => (false, xs.map toPy) := by
  cases x with
  | arr xs => rw [toPy_arr]; rfl
  | obj kvs => rw [toPy_obj]; rfl
  | null | bool | int | float | str => rfl

theorem eq_toPy (x y : Json) : x.toPy.eq y.toPy = x.toPy.same y.toPy := by
  cases x <;> simp [toPy, PyVal.eq]

theorem toSet_toPy (h : (arr xs).nests = false) :
    Rxon.toSet (false, xs.map toPy) = .ok (xs.map toPy) := by
  refine Rxon.toSet_of_settable ?_
  rw [settable_arr, h]
  rfl

/-- An object or an array equals only objects and arrays. -/
theorem container_of_equal (hx : (x.isArr || x.isObj) = true)
    (h : x.numbered.equal y.numbered = true) : (y.isArr || y.isObj) = true := by
  cases x with
  | arr xs =>
    rw [numbered_arr] at h
    obtain ⟨ys, hys, -⟩ := equal_arr.mp h
    cases y <;> first | rfl | cases hys
  | obj kvs =>
    rw [numbered_obj] at h
    obtain ⟨kvs', hkvs, -⟩ := equal_obj.mp h
    cases y <;> first | rfl | cases hkvs
  | null | bool | int | float | str => cases hx

/-- A value looked up in a flat array: for an object the code raises, and it is no
element. -/
theorem setContains_toPy (h : (arr ys).nests = false) :
    Rxon.setContains (ys.map toPy) x.toPy = .ok true ↔
      ∃ y ∈ ys, x.numbered.equal y.numbered = true := by
  unfold Rxon.setContains
  cases hx : x.isArr || x.isObj with
  | true =>
    -- not hashable, so it equals none of the scalars in the array
    rw [hashable_toPy, hx]
    refine iff_of_false nofun ?_
    rintro ⟨y, hy, heq⟩
    have hflat := List.any_eq_false.mp h y hy
    exact hflat (container_of_equal hx heq)
  | false =>
    rw [hashable_toPy, hx, Bool.not_false, if_pos rfl, Except.ok.injEq, List.any_map,
      List.any_eq_true]
    exact exists_congr fun y => and_congr_right fun _ => same_toPy

/-- **The comparison of the code is the documented one once booleans are read as
numbers.** -/
theorem valueMatches_toPy (hx : x.nests = false) (hy : y.nests = false) :
    Rxon.valueMatches x.toPy y.toPy = .ok true ↔ x.numbered.meets y.numbered = true := by
  by_cases hnum : ∃ m n, x.numbered.units? = some m ∧ y.numbered.units? = some n
  · obtain ⟨m, n, hm, hn⟩ := hnum
    simp only [Rxon.valueMatches, numeric?_toPy, hm, hn, Option.map_some, meets_of_units hm hn,
      PyVal.Numeric.lt, Except.ok.injEq, Bool.not_eq_true', decide_eq_false_iff_not,
      decide_eq_true_eq, Int.not_lt]
  · rw [meets_eq_includes fun m n hm hn => hnum ⟨m, n, hm, hn⟩]
    unfold Rxon.valueMatches includes
    rw [numeric?_toPy, numeric?_toPy, collection?_toPy_eq, collection?_toPy_eq, elements?_numbered,
      elements?_numbered]
    split
    · rename_i hn hm
      obtain ⟨n, hn, -⟩ := Option.map_eq_some_iff.mp hn
      obtain ⟨m, hm, -⟩ := Option.map_eq_some_iff.mp hm
      exact absurd ⟨m, n, hm, hn⟩ hnum
    · -- the four cases of `includes`, each a branch of the source
      cases hys : y.elements? with
      | none =>
        cases hxs : x.elements? with
        | none =>
          simp only [Option.map_none, Except.ok.injEq]
          rw [eq_toPy]
          exact same_toPy
        | some xs =>
          rw [elements?_eq_some.mp hxs] at hx
          simp only [Option.map_none, Option.map_some, toSet_toPy hx, List.any_map,
            List.any_eq_true]
          exact setContains_toPy hx
      | some ys =>
        rw [elements?_eq_some.mp hys] at hy
        cases hxs : x.elements? with
        | none =>
          simp only [Option.map_none, Option.map_some, toSet_toPy hy, List.any_map,
            List.any_eq_true]
          exact setContains_toPy hy
        | some xs =>
          rw [elements?_eq_some.mp hxs] at hx
          simp only [Option.map_some, toSet_toPy hx, toSet_toPy hy, List.any_map, List.any_eq_true]
          change Except.ok _ = Except.ok _ ↔ _
          simp only [Except.ok.injEq, List.any_map, List.any_eq_true, Function.comp_apply,
            same_toPy]

/-! ## Where the two differ -/

def isBool : Json → Bool
  | .bool _ => true
  | _ => false

theorem isBool_iff : x.isBool = true ↔ ∃ b, x = .bool b := by
  cases x <;> simp [isBool]

/-- The offered value meets the required one only because a boolean is read as a number:
a boolean stands against a number, or `true` is offered for `false`, and the order of the
numbers holds; or arrays, or objects, have only such values in common. -/
def misread (offered required : Json) : Bool :=
  match offered.numbered.units?, required.numbered.units? with
  | some o, some r =>
    (offered.isBool || required.isBool) && !offered.equal required && decide (r ≤ o)
  | _, _ => !offered.includes required && offered.numbered.includes required.numbered

theorem units?_of_not_bool (h : x.isBool = false) : x.numbered.units? = x.units? := by
  cases x with
  | arr xs => rw [numbered_arr]; rfl
  | obj kvs => rw [numbered_obj]; rfl
  | bool b => cases h
  | null | int | float | str => rfl

theorem misread_iff : x.misread y = true ↔
    x.numbered.meets y.numbered = true ∧ x.meets y = false := by
  by_cases hnum : ∃ m n, x.numbered.units? = some m ∧ y.numbered.units? = some n
  · obtain ⟨m, n, hm, hn⟩ := hnum
    have hmis : x.misread y = ((x.isBool || y.isBool) && !x.equal y && decide (n ≤ m)) := by
      rw [misread, hm, hn]
    rw [hmis, meets_of_units hm hn]
    cases hbool : x.isBool || y.isBool with
    -- two numbers are compared by size either way
    | false =>
      obtain ⟨hx, hy⟩ := Bool.or_eq_false_iff.mp hbool
      rw [units?_of_not_bool hx] at hm
      rw [units?_of_not_bool hy] at hn
      rw [meets_of_units hm hn]
      simp
    -- a boolean is documented to meet only its equal
    | true =>
      have hx : x.elements? = none := by cases x <;> first | rfl | simp [units?] at hm
      have hy : y.elements? = none := by cases y <;> first | rfl | simp [units?] at hn
      have hmeets : x.meets y = x.equal y := by
        rw [meets_eq_includes, includes, hx, hy]
        intro m' n' hm' hn'
        rcases Bool.or_eq_true_iff.mp hbool with h | h
        · obtain ⟨b, rfl⟩ := isBool_iff.mp h
          cases hm'
        · obtain ⟨b, rfl⟩ := isBool_iff.mp h
          cases hn'
      rw [hmeets, Bool.true_and, Bool.and_eq_true, Bool.not_eq_true', and_comm]
  · have hmis : x.misread y = (!x.includes y && x.numbered.includes y.numbered) := by
      unfold misread
      split
      · rename_i hm hn
        exact absurd ⟨_, _, hm, hn⟩ hnum
      · rfl
    rw [hmis, meets_eq_includes fun m n hm hn => hnum ⟨m, n, hm, hn⟩,
      meets_eq_includes fun m n hm hn =>
        hnum ⟨m, n, units?_numbered hm, units?_numbered hn⟩, Bool.and_eq_true, Bool.not_eq_true',
      and_comm]

end Meets

/-! ## Property dicts -/

variable {offered required : List (String × Json)}

/-- **The documented relation of two property dicts**: every required key is offered
with a non-null value that meets the required one. -/
def Documented (offered required : List (String × Json)) : Prop :=
  ∀ e ∈ required, ∃ x, offered.lookup e.1 = some x ∧ x ≠ .null ∧ x.meets e.2 = true

/-- Arrays among the property values hold only scalars. -/
def Flat (props : List (String × Json)) : Prop := ∀ e ∈ props, e.2.nests = false

instance (props : List (String × Json)) : Decidable (Flat props) :=
  inferInstanceAs (Decidable (∀ e ∈ props, e.2.nests = false))

/-- No requirement is met only by reading a boolean as a number, or some requirement is
not met even so. -/
def NoneMisread (offered required : List (String × Json)) : Prop :=
  (∀ e ∈ required, ∀ x, offered.lookup e.1 = some x → x.misread e.2 = false) ∨
  ∃ e ∈ required, ∀ x, offered.lookup e.1 = some x →
    x = .null ∨ x.numbered.meets e.2.numbered = false

/-- What the code decides. -/
theorem propertiesMatch_toPy (ho : Flat offered) (hr : Flat required) :
    Rxon.propertiesMatch (Assoc.mapVal toPy offered) (Assoc.mapVal toPy required) = .ok true ↔
      ∀ e ∈ required, ∃ x, offered.lookup e.1 = some x ∧ x ≠ .null ∧
        x.numbered.meets e.2.numbered = true := by
  rw [Rxon.propertiesMatch_eq_true]
  refine List.forall_mem_map.trans (forall_congr' fun e => forall_congr' fun he => ?_)
  simp only [Assoc.lookup_mapVal, Option.map_eq_some_iff]
  constructor
  · rintro ⟨_, ⟨x, hx, rfl⟩, hne, hm⟩
    refine ⟨x, hx, ?_, (valueMatches_toPy (ho _ (Assoc.mem_of_lookup hx)) (hr e he)).mp hm⟩
    rintro rfl
    exact hne rfl
  · rintro ⟨x, hx, hne, hm⟩
    refine ⟨x.toPy, ⟨x, hx, rfl⟩, ?_,
      (valueMatches_toPy (ho _ (Assoc.mem_of_lookup hx)) (hr e he)).mpr hm⟩
    intro hnone
    cases x <;> first | exact hne rfl | cases hnone

/-- **The property part of matching is the documented relation exactly when no boolean
decides it as a number.** -/
theorem propertiesMatch_iff_documented (ho : Flat offered) (hr : Flat required) :
    (Rxon.propertiesMatch (Assoc.mapVal toPy offered) (Assoc.mapVal toPy required) = .ok true ↔
      Documented offered required) ↔ NoneMisread offered required := by
  rw [propertiesMatch_toPy ho hr]
  constructor
  · intro h
    by_cases hcode : ∀ e ∈ required, ∃ x, offered.lookup e.1 = some x ∧ x ≠ .null ∧
        x.numbered.meets e.2.numbered = true
    · left
      intro e he x hx
      obtain ⟨x', hx', -, hmeets⟩ := h.mp hcode e he
      rw [hx] at hx'
      cases hx'
      rw [← Bool.not_eq_true, misread_iff, hmeets]
      exact fun h => nomatch h.2
    · right
      push Not at hcode
      obtain ⟨e, he, hunmet⟩ := hcode
      refine ⟨e, he, fun x hx => ?_⟩
      by_cases hnull : x = .null
      · exact Or.inl hnull
      · exact Or.inr (Bool.eq_false_iff.mpr (hunmet x hx hnull))
  · intro hnone
    refine ⟨fun hcode e he => ?_, fun hdoc e he => ?_⟩
    · obtain ⟨x, hx, hne, hmeets⟩ := hcode e he
      refine ⟨x, hx, hne, ?_⟩
      rcases hnone with hread | ⟨e', he', hunmet⟩
      · have hmis := hread e he x hx
        rw [← Bool.not_eq_true, misread_iff] at hmis
        by_contra hnot
        exact hmis ⟨hmeets, Bool.eq_false_iff.mpr hnot⟩
      · obtain ⟨x', hx', hne', hmeets'⟩ := hcode e' he'
        rcases hunmet x' hx' with h | h
        · exact absurd h hne'
        · rw [hmeets'] at h
          cases h
    · obtain ⟨x, hx, hne, hmeets⟩ := hdoc e he
      exact ⟨x, hx, hne, meets_numbered hmeets⟩

end Json

namespace Rxon
open Json (Documented Flat NoneMisread)
variable {lower : String → String} {offered required : List (String × Json)}

/-- **`matches` of the three classes decides the documented property relation exactly
when no boolean is met as a number**, once everything else they compare fits. -/
theorem matches_iff_documented {d q : HardwareDevice} {a r : Resources} {x y : InstalledArtifact}
    (ho : Flat offered) (hr : Flat required)
    (hd : d.properties.getD [] = Assoc.mapVal Json.toPy offered)
    (hq : q.properties.getD [] = Assoc.mapVal Json.toPy required)
    (ha : a.properties.getD [] = Assoc.mapVal Json.toPy offered)
    (hra : r.properties.getD [] = Assoc.mapVal Json.toPy required)
    (hx : x.properties.getD [] = Assoc.mapVal Json.toPy offered)
    (hy : y.properties.getD [] = Assoc.mapVal Json.toPy required)
    (hdevice : HardwareDevice.Admits lower d q)
    (hdevices : Resources.devicesMatch lower a r = .ok true)
    (hartifact : InstalledArtifact.Admits x y) :
    ((d.matches lower q = .ok true ↔ Documented offered required) ↔
      NoneMisread offered required) ∧
    ((a.matches lower r = .ok true ↔ Documented offered required) ↔
      NoneMisread offered required) ∧
    ((x.matches y = .ok true ↔ Documented offered required) ↔
      NoneMisread offered required) := by
  have hparts := Json.propertiesMatch_iff_documented ho hr
  refine ⟨?_, ?_, ?_⟩
  · rw [HardwareDevice.matches_eq_true, hd, hq, and_iff_right hdevice]
    exact hparts
  · have hserve : FirstFit.serve (HardwareDevice.matches lower) a.deviceList r.deviceList =
        .ok true := hdevices
    rw [Resources.matches_eq_true, ha, hra, and_iff_right hserve]
    exact hparts
  · rw [InstalledArtifact.matches_eq_true, hx, hy, and_iff_right hartifact]
    exact hparts

/-- Memory is compared by size and a flag with the same flag. -/
theorem matches_iff_documented_spot :
    let offered : List (String × Json) := [("vram", .int 24), ("preemptible", .bool true)]
    let required : List (String × Json) := [("preemptible", .bool true), ("vram", .int 16)]
    InstalledArtifact.matches
      { name := "cuda", properties := some (Assoc.mapVal Json.toPy offered) }
      { name := "cuda", properties := some (Assoc.mapVal Json.toPy required) } = .ok true ↔
        Documented offered required := by
  intro offered required
  have hdevice : HardwareDevice.Admits String.toLower
      { type := "gpu", properties := some (Assoc.mapVal Json.toPy offered) }
      { type := "gpu", properties := some (Assoc.mapVal Json.toPy required) } :=
    HardwareDevice.admits_iff.mpr ⟨Or.inr rfl, nofun, nofun⟩
  refine (matches_iff_documented
    (a := { properties := some (Assoc.mapVal Json.toPy offered) })
    (r := { properties := some (Assoc.mapVal Json.toPy required) })
    (x := { name := "cuda", properties := some (Assoc.mapVal Json.toPy offered) })
    (y := { name := "cuda", properties := some (Assoc.mapVal Json.toPy required) })
    (by decide) (by decide) rfl rfl rfl rfl rfl rfl hdevice rfl
    ⟨rfl, Or.inr rfl⟩).2.2.mpr (Or.inl ?_)
  intro e he x hx
  rcases List.mem_cons.mp he with rfl | he
  · cases hx
    decide +kernel
  · cases List.mem_singleton.mp he
    cases hx
    decide +kernel

/-- A node that must not be preempted, offered one that may be. -/
theorem preemptible_matches :
    let offered : List (String × Json) := [("preemptible", .bool true)]
    let required : List (String × Json) := [("preemptible", .bool false)]
    Flat offered ∧ Flat required ∧ ¬ Documented offered required ∧
    HardwareDevice.matches String.toLower
      { type := "gpu", properties := some (Assoc.mapVal Json.toPy offered) }
      { type := "gpu", properties := some (Assoc.mapVal Json.toPy required) } = .ok true ∧
    Resources.matches String.toLower { properties := some (Assoc.mapVal Json.toPy offered) }
      { properties := some (Assoc.mapVal Json.toPy required) } = .ok true ∧
    InstalledArtifact.matches
      { name := "cuda", properties := some (Assoc.mapVal Json.toPy offered) }
      { name := "cuda", properties := some (Assoc.mapVal Json.toPy required) } = .ok true := by
  refine ⟨by decide, by decide, ?_, by decide +kernel, by decide +kernel, by decide +kernel⟩
  intro h
  obtain ⟨x, hx, -, hmeets⟩ := h _ List.mem_cons_self
  cases hx
  exact absurd hmeets (by decide)

end Rxon
