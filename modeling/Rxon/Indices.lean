import Rxon.Cuts
import Rxon.Translation

/-! # Indices in a message

`translate_error` first turns every `[3]` of a message into `.3`, wherever it stands.  A
message is its own rewriting iff there is no index in it (`rewriteIndices_eq_self_iff`),
and else loses a closing bracket (`count_rewriteIndices`). -/

namespace Rxon

section
variable {py : PyText} {s x ds : List Char} {c : Char}

/-- `[3]` stands in the text. -/
def HasIndex (py : PyText) (s : List Char) : Prop :=
  ∃ x ds y, s = x ++ '[' :: (ds ++ ']' :: y) ∧ ds ≠ [] ∧ ∀ c ∈ ds, (py.decimal c).isSome

theorem decimal_bracket (py : PyText) : py.decimal ']' = none := by
  rw [py.decimal_ascii ']' (by decide)]
  rfl

theorem bracket_not_mem (hds : ∀ c ∈ ds, (py.decimal c).isSome) : ']' ∉ ds := by
  intro h
  have hsome := hds ']' h
  rw [decimal_bracket] at hsome
  cases hsome

theorem opensIndex_iff : opensIndex py s = true ↔
    ∃ ds y, s = ds ++ ']' :: y ∧ ds ≠ [] ∧ ∀ c ∈ ds, (py.decimal c).isSome := by
  constructor
  · intro h
    have hcut := List.takeWhile_append_dropWhile (p := fun c => (py.decimal c).isSome) (l := s)
    unfold opensIndex at h
    split at h
    · rename_i y hy
      rw [hy] at hcut
      refine ⟨_, y, hcut.symm, ?_, fun c hc =>
        List.mem_takeWhile_imp (p := fun c => (py.decimal c).isSome) hc⟩
      intro hnil
      rw [hnil] at hcut
      rw [← hcut] at h
      change (py.decimal ']').isSome = true at h
      rw [decimal_bracket] at h
      cases h
    · cases h
  · rintro ⟨ds, y, rfl, hne, hds⟩
    obtain ⟨d, ds, rfl⟩ := List.exists_cons_of_ne_nil hne
    have hend : (d :: ds ++ ']' :: y).dropWhile (fun c => (py.decimal c).isSome) = ']' :: y := by
      rw [List.dropWhile_append_of_pos hds, List.dropWhile_cons_of_neg]
      simp [decimal_bracket]
    rw [opensIndex, hend]
    exact hds d List.mem_cons_self

/-- What stands between the brackets is kept. -/
theorem rewriteIndices_inside (hds : ']' ∉ ds) :
    rewriteIndices py true (ds ++ ']' :: s) = ds ++ rewriteIndices py false s := by
  induction ds with
  | nil =>
    rw [List.nil_append, rewriteIndices, if_pos rfl, if_pos rfl]
    rfl
  | cons d ds ih =>
    have hd : d ≠ ']' := fun h => hds (h ▸ List.mem_cons_self)
    rw [List.cons_append, rewriteIndices, if_pos rfl, if_neg hd,
      ih fun h => hds (List.mem_cons_of_mem d h)]
    rfl

theorem rewriteIndices_index (hne : ds ≠ []) (hds : ∀ c ∈ ds, (py.decimal c).isSome) :
    rewriteIndices py false ('[' :: (ds ++ ']' :: s)) =
      '.' :: (ds ++ rewriteIndices py false s) := by
  have hopens : opensIndex py (ds ++ ']' :: s) = true := opensIndex_iff.mpr ⟨ds, s, rfl, hne, hds⟩
  rw [rewriteIndices, if_neg Bool.false_ne_true, if_pos ⟨rfl, hopens⟩,
    rewriteIndices_inside (bracket_not_mem hds)]

theorem rewriteIndices_plain (h : ¬ (c = '[' ∧ opensIndex py s = true)) :
    rewriteIndices py false (c :: s) = c :: rewriteIndices py false s := by
  rw [rewriteIndices, if_neg Bool.false_ne_true, if_neg h]

/-- **A text is made of indices and of other characters**, in the order in which they are
rewritten. -/
theorem index_induction (py : PyText) {motive : List Char → Prop} (nil : motive [])
    (index : ∀ ds s, ds ≠ [] → (∀ c ∈ ds, (py.decimal c).isSome) → motive s →
      motive ('[' :: (ds ++ ']' :: s)))
    (plain : ∀ c s, ¬ (c = '[' ∧ opensIndex py s = true) → motive s → motive (c :: s))
    (s : List Char) : motive s := by
  induction hn : s.length using Nat.strong_induction_on generalizing s with
  | _ n ih =>
    cases s with
    | nil => exact nil
    | cons c s =>
      rw [List.length_cons] at hn
      by_cases h : c = '[' ∧ opensIndex py s = true
      · obtain ⟨rfl, h⟩ := h
        obtain ⟨ds, y, rfl, hne, hds⟩ := opensIndex_iff.mp h
        refine index ds y hne hds (ih y.length ?_ y rfl)
        rw [List.length_append, List.length_cons] at hn
        omega
      · exact plain c s h (ih s.length (by omega) s rfl)

theorem rewriteIndices_append (hx : '[' ∉ x) :
    rewriteIndices py false (x ++ s) = x ++ rewriteIndices py false s := by
  induction x with
  | nil => rfl
  | cons c x ih =>
    have hc : c ≠ '[' := fun h => hx (h ▸ List.mem_cons_self)
    rw [List.cons_append, rewriteIndices_plain fun h => hc h.1,
      ih fun h => hx (List.mem_cons_of_mem c h), List.cons_append]

theorem hasIndex_cons :
    HasIndex py (c :: s) ↔ (c = '[' ∧ opensIndex py s = true) ∨ HasIndex py s := by
  constructor
  · rintro ⟨x, ds, y, hs, hne, hds⟩
    cases x with
    | nil =>
      obtain ⟨rfl, rfl⟩ := List.cons.inj hs
      exact Or.inl ⟨rfl, opensIndex_iff.mpr ⟨ds, y, rfl, hne, hds⟩⟩
    | cons d x =>
      obtain ⟨rfl, rfl⟩ := List.cons.inj hs
      exact Or.inr ⟨x, ds, y, rfl, hne, hds⟩
  · rintro (⟨rfl, h⟩ | ⟨x, ds, y, rfl, hne, hds⟩)
    · obtain ⟨ds, y, rfl, hne, hds⟩ := opensIndex_iff.mp h
      exact ⟨[], ds, y, rfl, hne, hds⟩
    · exact ⟨c :: x, ds, y, rfl, hne, hds⟩

theorem hasIndex_append_left (hx : '[' ∉ x) : HasIndex py (x ++ s) ↔ HasIndex py s := by
  induction x with
  | nil => rfl
  | cons c x ih =>
    have hc : c ≠ '[' := fun h => hx (h ▸ List.mem_cons_self)
    rw [List.cons_append, hasIndex_cons, ih fun h => hx (List.mem_cons_of_mem c h)]
    exact or_iff_right fun h => hc h.1

theorem hasIndex_append_right (hx : ']' ∉ x) : HasIndex py (s ++ x) ↔ HasIndex py s := by
  constructor
  · rintro ⟨l, ds, r, heq, hne, hds⟩
    rw [← List.cons_append, ← List.append_assoc] at heq
    rcases List.append_eq_append_iff.mp heq with ⟨m, -, hx'⟩ | ⟨m, hs, hm⟩
    · refine absurd ?_ hx
      rw [hx']
      exact List.mem_append_right m List.mem_cons_self
    · cases m with
      | nil =>
        rw [List.nil_append] at hm
        exact absurd (hm ▸ List.mem_cons_self) hx
      | cons c m =>
        obtain ⟨rfl, -⟩ := List.cons.inj hm
        exact ⟨l, ds, m, by rw [hs, List.append_assoc, List.cons_append], hne, hds⟩
  · rintro ⟨l, ds, r, rfl, hne, hds⟩
    exact ⟨l, ds, r ++ x, by simp, hne, hds⟩

/-- **The texts that are left as they are.** -/
theorem rewriteIndices_eq_self_iff : rewriteIndices py false s = s ↔ ¬ HasIndex py s := by
  induction s with
  | nil => exact iff_of_true rfl fun ⟨x, _, _, h, _⟩ => by simp at h
  | cons c s ih =>
    rw [hasIndex_cons, not_or]
    by_cases h : c = '[' ∧ opensIndex py s = true
    · refine iff_of_false ?_ fun hnot => hnot.1 h
      obtain ⟨rfl, h⟩ := h
      obtain ⟨ds, y, rfl, hne, hds⟩ := opensIndex_iff.mp h
      rw [rewriteIndices_index hne hds]
      intro heq
      exact absurd (List.cons.inj heq).1 (by decide)
    · rw [rewriteIndices_plain h, List.cons.injEq, ih]
      exact ⟨fun hs => ⟨h, hs.2⟩, fun hs => ⟨rfl, hs.2⟩⟩

theorem rewriteIndices_of_not_mem (hs : '[' ∉ s) : rewriteIndices py false s = s := by
  rw [← List.append_nil s, rewriteIndices_append hs]
  rfl

/-- Every index that is rewritten costs a closing bracket. -/
theorem count_rewriteIndices (py : PyText) (s : List Char) : rewriteIndices py false s = s ∨
    (rewriteIndices py false s).count ']' < s.count ']' := by
  induction s using index_induction py with
  | nil => exact Or.inl rfl
  | index ds s hne hds ih =>
    have hrest : (rewriteIndices py false s).count ']' ≤ s.count ']' := by
      rcases ih with h | h
      · rw [h]
      · exact Nat.le_of_lt h
    have hzero : ds.count ']' = 0 := List.count_eq_zero.mpr (bracket_not_mem hds)
    rw [rewriteIndices_index hne hds]
    have hleft : ('.' :: (ds ++ rewriteIndices py false s)).count ']' =
        (rewriteIndices py false s).count ']' := by simp [hzero]
    have hright : ('[' :: (ds ++ ']' :: s)).count ']' = s.count ']' + 1 := by simp [hzero]
    exact Or.inr (by omega)
  | plain c s h ih =>
    rw [rewriteIndices_plain h]
    refine ih.imp (fun h => by rw [h]) fun h => ?_
    rw [List.count_cons, List.count_cons]
    omega

end
end Rxon
