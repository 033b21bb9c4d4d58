import Mathlib.Data.List.Basic
import Mathlib.Data.List.Infix

/-! # Cutting a list at an element

A list that holds an element is cut there into what comes before and what comes behind.
Two cuts at the same element are the same, or one of them is behind the other
(`cut_cases`).  Two cuts at the first element of a kind are the same (`cut_unique`).  A list
that is cut at every one of a kind falls into the parts that it was joined from
(`splitOn_flatMap_cons`).

What stands in a list stands on one side of an element that it does not hold
(`infix_cut`), and behind a beginning in which no occurrence of it starts
(`StartsNowhere.drop`). -/

namespace List
variable {α : Type} {p : α → Prop} {x x' y y' w : List α} {c d : α}

/-- **Two cuts of one list at the same element**: they are the same, or one is behind the
other. -/
theorem cut_cases (h : x ++ c :: y = x' ++ c :: y') :
    (x = x' ∧ y = y') ∨ (∃ m, x' = x ++ c :: m ∧ y = m ++ c :: y') ∨
      ∃ m, x = x' ++ c :: m ∧ y' = m ++ c :: y := by
  rcases append_eq_append_iff.mp h with ⟨m, rfl, hm⟩ | ⟨m, rfl, hm⟩
  · cases m with
    | nil => exact Or.inl ⟨(append_nil x).symm, (cons.inj hm).2⟩
    | cons e m =>
      obtain ⟨rfl, hy⟩ := cons.inj hm
      exact Or.inr (Or.inl ⟨m, rfl, hy⟩)
  · cases m with
    | nil => exact Or.inl ⟨append_nil x', (cons.inj hm).2.symm⟩
    | cons e m =>
      obtain ⟨rfl, hy⟩ := cons.inj hm
      exact Or.inr (Or.inr ⟨m, rfl, hy⟩)

/-- The first element of a kind is at one place. -/
theorem cut_unique (h : x ++ c :: y = x' ++ d :: y') (hx : ∀ a ∈ x, ¬ p a) (hx' : ∀ a ∈ x', ¬ p a)
    (hc : p c) (hd : p d) : x = x' ∧ c = d ∧ y = y' := by
  induction x generalizing x' with
  | nil =>
    cases x' with
    | nil =>
      obtain ⟨rfl, rfl⟩ := cons.inj h
      exact ⟨rfl, rfl, rfl⟩
    | cons e x' =>
      obtain ⟨rfl, -⟩ := cons.inj h
      exact absurd hc (hx' c mem_cons_self)
  | cons a x ih =>
    cases x' with
    | nil =>
      obtain ⟨rfl, -⟩ := cons.inj h
      exact absurd hd (hx a mem_cons_self)
    | cons e x' =>
      obtain ⟨rfl, htail⟩ := cons.inj h
      obtain ⟨rfl, hcd, hy⟩ := ih htail (fun b hb => hx b (mem_cons_of_mem a hb))
        fun b hb => hx' b (mem_cons_of_mem a hb)
      exact ⟨rfl, hcd, hy⟩

/-- **Splitting undoes joining**, where the separator stands before every part but the
first. -/
theorem splitOn_flatMap_cons [BEq α] [LawfulBEq α] {parts : List (List α)} (hx : d ∉ x)
    (hparts : ∀ part ∈ parts, d ∉ part) :
    (x ++ parts.flatMap (d :: ·)).splitOn d = x :: parts := by
  induction parts generalizing x with
  | nil => rw [flatMap_nil, append_nil, splitOn_eq_singleton hx]
  | cons part parts ih =>
    obtain ⟨hpart, hparts⟩ := forall_mem_cons.mp hparts
    rw [flatMap_cons, cons_append, splitOn_append_cons_self, splitOn_eq_singleton hx,
      ih hpart hparts]
    rfl

/-- An element that is not only the first one has something before it. -/
theorem mem_tail_iff : c ∈ w.tail ↔ ∃ x y, x ≠ [] ∧ w = x ++ c :: y := by
  constructor
  · intro h
    cases w with
    | nil => exact absurd h not_mem_nil
    | cons a w =>
      obtain ⟨x, y, hw⟩ := append_of_mem h
      exact ⟨a :: x, y, cons_ne_nil a x, by rw [cons_append, ← hw, tail_cons]⟩
  · rintro ⟨x, y, hx, rfl⟩
    obtain ⟨a, x, rfl⟩ := exists_cons_of_ne_nil hx
    exact mem_append_right x mem_cons_self

/-- An element that is not only the last one has something behind it. -/
theorem mem_dropLast_iff : c ∈ w.dropLast ↔ ∃ x y, y ≠ [] ∧ w = x ++ c :: y := by
  constructor
  · intro h
    have hw : w ≠ [] := by
      rintro rfl
      exact absurd h not_mem_nil
    obtain ⟨x, y, hxy⟩ := append_of_mem h
    refine ⟨x, y ++ [w.getLast hw], by simp, ?_⟩
    rw [← cons_append, ← append_assoc, ← hxy, dropLast_append_getLast]
  · rintro ⟨x, y, hy, rfl⟩
    rw [dropLast_append_cons, dropLast_cons_of_ne_nil hy]
    exact mem_append_right x mem_cons_self

/-! ## What stands in a list -/

/-- What does not hold an element stands on one side of it. -/
theorem infix_cut (hc : c ∉ w) : w <:+: x ++ c :: y ↔ w <:+: x ∨ w <:+: y := by
  constructor
  · intro h
    rcases infix_append_iff.mp h with h | h | ⟨u, v, rfl, hu, hv⟩
    · exact Or.inl h
    · rcases infix_cons_iff.mp h with h | h
      · rcases prefix_cons_iff.mp h with rfl | ⟨t, rfl, -⟩
        · exact Or.inl nil_infix
        · exact absurd mem_cons_self hc
      · exact Or.inr h
    · rcases prefix_cons_iff.mp hv with rfl | ⟨t, rfl, -⟩
      · rw [append_nil]
        exact Or.inl hu.isInfix
      · exact absurd (mem_append_right u mem_cons_self) hc
  · rintro (h | h)
    · exact h.trans (prefix_append x _).isInfix
    · exact h.trans ((suffix_cons c y).trans (suffix_append x _)).isInfix

theorem infix_of_infix_cons (hcd : c ≠ d) (h : c :: w <:+: d :: y) : c :: w <:+: y := by
  rcases infix_cons_iff.mp h with h | h
  · exact absurd (cons_prefix_cons.mp h).1 hcd
  · exact h

theorem infix_of_infix_append (hc : c ∉ y) (h : w ++ [c] <:+: x ++ y) : w ++ [c] <:+: x := by
  obtain ⟨u, v, huv⟩ := h
  have heq : (u ++ w) ++ c :: v = x ++ y := by
    rw [← huv]
    simp
  rcases append_eq_append_iff.mp heq with ⟨m, hx, hm⟩ | ⟨m, -, hy⟩
  · cases m with
    | nil =>
      rw [nil_append] at hm
      exact absurd (hm ▸ mem_cons_self) hc
    | cons d m =>
      obtain ⟨rfl, -⟩ := cons.inj hm
      exact ⟨u, m, by rw [hx]; simp⟩
  · exact absurd (hy ▸ mem_append_right m mem_cons_self) hc

/-- What holds an element once, in a list that is cut at its first one: it stands behind the
cut, or across it. -/
theorem infix_behind (hx : c ∉ x) (hw : c ∉ w) (h : w ++ c :: x' <:+: x ++ c :: y) :
    x' <+: y ∨ w ++ c :: x' <:+: y := by
  obtain ⟨u, v, huv⟩ := h
  have heq : (u ++ w) ++ c :: (x' ++ v) = x ++ c :: y := by
    rw [← huv]
    simp
  rcases cut_cases heq with ⟨-, hy⟩ | ⟨m, hx', -⟩ | ⟨m, hm, hy⟩
  · exact Or.inl ⟨v, hy⟩
  · refine absurd ?_ hx
    rw [hx']
    exact mem_append_right _ mem_cons_self
  · right
    rcases append_eq_append_iff.mp hm with ⟨l, -, hl⟩ | ⟨l, -, hl⟩
    · refine absurd ?_ hw
      rw [hl]
      exact mem_append_right l mem_cons_self
    · cases l with
      | nil =>
        rw [nil_append] at hl
        exact absurd (hl ▸ mem_cons_self) hw
      | cons d l =>
        obtain ⟨rfl, rfl⟩ := cons.inj hl
        exact ⟨l, v, by rw [hy]; simp⟩

theorem not_prefix_append (h : ¬ w <+: x) (h' : ¬ x <+: w) : ¬ w <+: x ++ y := by
  intro hw
  rcases prefix_or_prefix_of_prefix hw (prefix_append x y) with hwx | hxw
  · exact h hwx
  · exact h' hxw

/-- No occurrence of `w` starts in `x`, whatever follows. -/
def StartsNowhere (w x : List α) : Prop := ∀ z ∈ x.tails, z ≠ [] → ¬ z <+: w ∧ ¬ w <+: z

theorem StartsNowhere.drop (h : StartsNowhere w x) (heq : x ++ y = x' ++ (w ++ y')) :
    ∃ m, x' = x ++ m ∧ y = m ++ (w ++ y') := by
  rcases append_eq_append_iff.mp heq with ⟨m, rfl, hm⟩ | ⟨m, rfl, hm⟩
  · exact ⟨m, rfl, hm⟩
  · by_cases hne : m = []
    · subst hne
      exact ⟨[], by simp, hm.symm⟩
    · have hm' := h m ((mem_tails m _).mpr (suffix_append x' m)) hne
      rcases prefix_or_prefix_of_prefix (prefix_append m y) (hm ▸ prefix_append w y') with h' | h'
      · exact absurd h' hm'.1
      · exact absurd h' hm'.2

end List
