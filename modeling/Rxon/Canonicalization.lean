import Rxon.Reference

/-! # to_dict on documents

`to_dict` is a bounded canonicalizer of JSON values (`toDict_canonicalizes`): beyond
the depth limit it fails, and within it the result has no null entry and no integral
double left, is equivalent to the value, and is its own result. -/

namespace Json

/-- A value that is not a null entry of an object lies `d` levels below the root. -/
inductive KeptAt : Json → Nat → Prop
  | root (j : Json) : KeptAt j 0
  | element {xs : List Json} {x : Json} {d : Nat} (hx : x ∈ xs) (h : KeptAt x d) :
      KeptAt (.arr xs) (d + 1)
  | entry {kvs : List (String × Json)} {e : String × Json} {d : Nat} (he : e ∈ kvs)
      (hne : e.2 ≠ .null) (h : KeptAt e.2 d) : KeptAt (.obj kvs) (d + 1)

/-- No object has a null entry, and no double is integral. -/
def Normal : Json → Prop := All fun
  | .obj kvs => ∀ e ∈ kvs, e.2 ≠ .null
  | .float f => ¬ f.IsInteger
  | _ => True

/-- **`keptDepth` is the depth of the deepest value that is kept.** -/
theorem keptDepth_le_iff {j : Json} {n : Nat} : j.keptDepth ≤ n ↔ ∀ d, j.KeptAt d → d ≤ n := by
  induction j generalizing n with
  | null | bool | int | float | str =>
    refine iff_of_true (Nat.zero_le n) fun d h => ?_
    cases h
    exact Nat.zero_le n
  | arr xs ih =>
    rw [← Nat.zero_add (keptDepth _), keptDepth_arr_le (Nat.zero_le n)]
    constructor
    · intro h d hd
      cases hd with
      | root => exact Nat.zero_le n
      | @element _ x d hx hd =>
        -- inside an element there is one level less to go
        have hle := h x hx
        have := (ih x hx (n := n - 1)).mp (by omega) d hd
        omega
    · intro h x hx
      have hpos : 1 ≤ n := h 1 (.element hx (.root x))
      have := (ih x hx (n := n - 1)).mpr fun d hd => by
        have := h (d + 1) (.element hx hd)
        omega
      omega
  | obj kvs ih =>
    rw [← Nat.zero_add (keptDepth _), keptDepth_obj_le (Nat.zero_le n)]
    constructor
    · intro h d hd
      cases hd with
      | root => exact Nat.zero_le n
      | @entry _ e d he hne hd =>
        -- entries that are null are left out and have no depth
        have hle := h e he (by rwa [← Bool.not_eq_true, isNull_iff])
        have := (ih e he (n := n - 1)).mp (by omega) d hd
        omega
    · intro h e he hnull
      have hne : e.2 ≠ .null := by rwa [Ne, ← isNull_iff, Bool.not_eq_true]
      have hpos : 1 ≤ n := h 1 (.entry he hne (.root e.2))
      have := (ih e he (n := n - 1)).mpr fun d hd => by
        have := h (d + 1) (.entry he hne hd)
        omega
      omega

theorem normal_canon (j : Json) : (canon j).Normal := by
  induction j with
  | null | bool | int | str => simp [Normal, All, nodes]
  | float f =>
    by_cases h : f.IsInteger
    · rw [canon_float_of_holds (Binary64.holds_toInt h)]
      simp [Normal, All, nodes]
    · rw [canon_float_of_not h]
      simpa [Normal, All, nodes] using h
  | arr xs ih =>
    rw [canon_arr, Normal, all_arr]
    refine ⟨trivial, fun y hy => ?_⟩
    obtain ⟨x, hx, rfl⟩ := List.mem_map.mp hy
    exact ih x hx
  | obj kvs ih =>
    rw [canon_obj, Normal, all_obj]
    constructor
    · refine forall_canon_entries.mpr fun e he hnull => ?_
      rwa [Ne, ← isNull_iff, isNull_canon, Bool.not_eq_true]
    · exact forall_canon_entries.mpr fun e he _ => ih e he

end Json

namespace Rxon
variable {D : Decls} (rt : Runtime D)

/-- **`to_dict` is a bounded canonicalizer.** -/
theorem toDict_canonicalizes {j : Json} (hj : j.WF) (hi : j.IntsFit) (hf : j.FloatsFit) :
    ((∃ msg, toDict rt j.toPy 0 = .error (.recursionError msg)) ↔ ∃ d, 30 < d ∧ j.KeptAt d) ∧
    ((¬ ∃ d, 30 < d ∧ j.KeptAt d) → ∃ y : Json, toDict rt j.toPy 0 = .ok y ∧ y.Normal ∧
      j.Equiv y ∧ toDict rt y.toPy 0 = .ok y) := by
  have hdeep : (∃ d, 30 < d ∧ j.KeptAt d) ↔ ¬ j.keptDepth ≤ maxRecursionDepth := by
    rw [Json.keptDepth_le_iff]
    push Not
    exact exists_congr fun d => and_comm
  rw [hdeep, not_not]
  constructor
  · rw [toDict_toPy rt hj hi]
    split
    · rename_i hd
      exact iff_of_false nofun (not_not.mpr hd)
    · rename_i hd
      exact iff_of_true ⟨_, rfl⟩ hd
  · intro hd
    refine ⟨j.canon, toDict_ok rt hj hi hd, j.normal_canon, Json.equiv_canon hj, ?_⟩
    -- the result is no deeper, so it passes again, and comes out as it is
    have hcanon := toDict_ok rt (Json.wf_canon hj) (Json.intsFit_canon.mpr ⟨hi, hf⟩)
      (by rwa [Json.keptDepth_canon])
    rwa [Json.canon_canon hj] at hcanon

/-- A null and an integral double, beside a value that stays. -/
theorem toDict_canonicalizes_payload :
    let j : Json := .obj [("load", .float (Binary64.ofInt 10)), ("gone", .null), ("id", .str "w")]
    ∃ y : Json, toDict (Runtime.reference [] fun _ => "") j.toPy 0 = .ok y ∧ y.Normal ∧
      j.Equiv y ∧ toDict (Runtime.reference [] fun _ => "") y.toPy 0 = .ok y := by
  intro j
  have hdepth : j.keptDepth ≤ 30 := by decide
  refine (toDict_canonicalizes _ (by decide) (by decide +kernel) (by decide +kernel)).2 ?_
  rintro ⟨d, hd, hkept⟩
  have := Json.keptDepth_le_iff.mp hdepth d hkept
  omega

end Rxon
