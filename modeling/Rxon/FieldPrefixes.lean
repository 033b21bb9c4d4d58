import Rxon.Cuts
import Rxon.Translation
import Mathlib.Data.List.DropRight

/-! # Paths and the fields they name

A path in a message is a row of segments, each behind a dot; the text names a segment as
`Field '…': `.  Segments of the characters of names and numbers are read back from the path
(`splitOn_dotted`), and from the text (`fieldPrefix_inj`).

A path that has run into the words behind it has a segment with a blank, and no fields of
plain segments can stand for it (`fieldPrefix_ne_stray`). -/

namespace Rxon

/-- What ends a segment in a message or in a text. -/
def reserved : List Char := [' ', '.', '\'', '\n', '[']

/-- A segment of the characters of names and numbers. -/
def Unreserved (p : List Char) : Prop := ∀ c ∈ p, c ∉ reserved

/-- A path, as it stands behind `data` when its indices have been rewritten. -/
def dotted (segs : List (List Char)) : List Char := segs.flatMap ('.' :: ·)

section
variable {p q last s t w y : List Char} {segs parts pre post : List (List Char)} {c : Char}

theorem Unreserved.not_mem (hp : Unreserved p) (hc : c ∈ reserved) : c ∉ p := fun h => hp c h hc

@[simp] theorem dotted_nil : dotted [] = [] := rfl

@[simp] theorem dotted_cons : dotted (p :: segs) = '.' :: (p ++ dotted segs) := rfl

/-! ## Reading a path -/

theorem splitOn_dotted (hp : '.' ∉ p) (hsegs : ∀ q ∈ segs, '.' ∉ q) :
    (p ++ dotted segs).splitOn '.' = p :: segs :=
  List.splitOn_flatMap_cons hp hsegs

/-- The segment that runs into what stands behind the path. -/
theorem splitOn_stray (hp : '.' ∉ p) (hsegs : ∀ q ∈ segs, '.' ∉ q) (y : List Char) :
    ∃ pre last z post, (p ++ (dotted segs ++ ' ' :: y)).splitOn '.' =
      pre ++ (last ++ ' ' :: z) :: post ∧ p :: segs = pre ++ [last] := by
  induction segs generalizing p with
  | nil =>
    rw [dotted_nil, List.nil_append]
    by_cases hy : '.' ∈ y
    · obtain ⟨z, rest, rfl, hz⟩ := List.eq_append_cons_of_mem hy
      have hdot : '.' ∉ p ++ ' ' :: z := by simpa [hp] using hz
      refine ⟨[], p, z, rest.splitOn '.', ?_, rfl⟩
      rw [← List.cons_append, ← List.append_assoc, List.splitOn_append_cons_self,
        List.splitOn_eq_singleton hdot]
      rfl
    · have hdot : '.' ∉ p ++ ' ' :: y := by simpa [hp] using hy
      exact ⟨[], p, y, [], List.splitOn_eq_singleton hdot, rfl⟩
  | cons q segs ih =>
    obtain ⟨hq, hsegs⟩ := List.forall_mem_cons.mp hsegs
    obtain ⟨pre, last, z, post, hsplit, hpre⟩ := ih hq hsegs
    refine ⟨p :: pre, last, z, post, ?_, by rw [hpre]; rfl⟩
    rw [dotted_cons, List.cons_append, List.splitOn_append_cons_self,
      List.splitOn_eq_singleton hp, List.append_assoc, hsplit]
    rfl

theorem not_mem_of_mem_splitOn {d : Char} (h : p ∈ s.splitOn d) : d ∉ p := by
  induction s generalizing p with
  | nil =>
    rw [List.splitOn_nil, List.mem_singleton] at h
    rw [h]
    exact List.not_mem_nil
  | cons c s ih =>
    rw [List.splitOn_cons_eq_if_modifyHead] at h
    split at h
    · rcases List.mem_cons.mp h with rfl | h
      · exact List.not_mem_nil
      · exact ih h
    · rename_i hcd
      obtain ⟨q, qs, hsplit⟩ := List.exists_cons_of_ne_nil (List.splitOn_ne_nil d s)
      rw [hsplit, List.modifyHead_cons] at h
      rcases List.mem_cons.mp h with rfl | h
      · have hq : d ∉ q := ih (hsplit ▸ List.mem_cons_self)
        intro hmem
        rcases List.mem_cons.mp hmem with rfl | hmem
        · exact hcd (beq_self_eq_true d)
        · exact hq hmem
      · exact ih (hsplit ▸ List.mem_cons_of_mem q h)

/-! ## Stripping -/

theorem stripChars_eq (chars s : List Char) :
    stripChars chars s = (s.dropWhile (· ∈ chars)).rdropWhile (· ∈ chars) := rfl

/-- What is stripped stands at the ends. -/
theorem exists_strip (chars s : List Char) : ∃ u v, s = u ++ (stripChars chars s ++ v) := by
  obtain ⟨v, hv⟩ := List.rdropWhile_prefix (· ∈ chars) (l := s.dropWhile (· ∈ chars))
  refine ⟨s.takeWhile (· ∈ chars), v, ?_⟩
  rw [stripChars_eq, hv, List.takeWhile_append_dropWhile]

theorem stripChars_of_not_mem {chars : List Char} (h : ∀ c ∈ chars, c ∉ s) :
    stripChars chars s = s := by
  have hdrop : s.dropWhile (· ∈ chars) = s := by
    rw [List.dropWhile_eq_self_iff]
    intro hlen hc
    exact h _ (of_decide_eq_true hc) (List.getElem_mem hlen)
  rw [stripChars_eq, hdrop, List.rdropWhile_eq_self_iff]
  intro hne hc
  exact h _ (of_decide_eq_true hc) (List.getLast_mem hne)

/-- Characters that are stripped do not count at the ends. -/
theorem stripChars_quoted {chars quotes : List Char} (h : ∀ c ∈ quotes, c ∈ chars) :
    stripChars chars (quotes ++ (s ++ quotes)) = stripChars chars s := by
  have hquotes : ∀ c ∈ quotes, decide (c ∈ chars) = true := fun c hc => decide_eq_true (h c hc)
  have hrdrop : ∀ t : List Char,
      (t ++ quotes).rdropWhile (· ∈ chars) = t.rdropWhile (· ∈ chars) := by
    intro t
    rw [List.rdropWhile, List.rdropWhile, List.reverse_append,
      List.dropWhile_append_of_pos fun c hc => hquotes c (List.mem_reverse.mp hc)]
  rw [stripChars_eq, stripChars_eq, List.dropWhile_append_of_pos hquotes, List.dropWhile_append]
  split
  · rename_i hnil
    rw [List.isEmpty_iff.mp hnil, List.dropWhile_eq_nil_iff.mpr hquotes]
  · exact hrdrop _

/-- The parts have no dots left to strip. -/
theorem strippedParts_eq (path : List Char) :
    strippedParts path = (path.splitOn '.').filter (· ≠ []) := by
  have hstrip : (path.splitOn '.').map (stripChars ['.']) = path.splitOn '.' := by
    refine (List.map_congr_left fun q hq => stripChars_of_not_mem fun c hc => ?_).trans
      (List.map_id _)
    rw [List.mem_singleton.mp hc]
    exact not_mem_of_mem_splitOn hq
  rw [strippedParts, hstrip]

theorem strippedParts_dotted (hne : ∀ q ∈ segs, q ≠ []) (hsegs : ∀ q ∈ segs, '.' ∉ q) :
    strippedParts (dotted segs) = segs := by
  have hsplit := splitOn_dotted (p := []) List.not_mem_nil hsegs
  rw [List.nil_append] at hsplit
  rw [strippedParts_eq, hsplit, List.filter_cons_of_neg (by simp), List.filter_eq_self]
  exact fun q hq => decide_eq_true (hne q hq)

/-! ## Naming fields -/

theorem fieldPrefix_append (xs ys : List (List Char)) :
    fieldPrefix (xs ++ ys) = fieldPrefix xs ++ fieldPrefix ys := by
  rw [fieldPrefix, List.map_append, String.join_append]
  rfl

theorem toList_fieldPrefix_cons : (fieldPrefix (p :: parts)).toList =
    "Field '".toList ++ (p ++ '\'' :: (": ".toList ++ (fieldPrefix parts).toList)) := by
  rw [fieldPrefix, List.map_cons, String.join_cons]
  simp only [String.toList_append, String.toList_ofList, List.append_assoc]
  rfl

/-- **The first field of a text**, of which a plain segment is known and what ends it. -/
theorem fieldPrefix_eq_field (hparts : ∀ q ∈ parts, Unreserved q) (hs : s.head? ≠ some 'F')
    (hp : Unreserved p) (hc : c ∈ reserved)
    (h : (fieldPrefix parts).toList ++ s = "Field '".toList ++ (p ++ c :: w)) :
    ∃ parts', parts = p :: parts' ∧ c = '\'' ∧
      w = ": ".toList ++ ((fieldPrefix parts').toList ++ s) := by
  cases parts with
  | nil =>
    replace h : s = "Field '".toList ++ (p ++ c :: w) := h
    rw [h] at hs
    exact absurd rfl hs
  | cons q parts =>
    rw [toList_fieldPrefix_cons, List.append_assoc, List.append_cancel_left_eq,
      List.append_assoc, List.cons_append] at h
    obtain ⟨rfl, rfl, hw⟩ := List.cut_unique (p := (· ∈ reserved)) h
      (hparts q List.mem_cons_self) hp (by decide) hc
    exact ⟨parts, rfl, rfl, by rw [← hw, List.append_assoc]⟩

/-- **The text tells its fields and what is said of them.** -/
theorem fieldPrefix_inj (hparts : ∀ q ∈ parts, Unreserved q) (hsegs : ∀ q ∈ segs, Unreserved q)
    (hs : s.head? ≠ some 'F') (ht : t.head? ≠ some 'F')
    (h : (fieldPrefix parts).toList ++ s = (fieldPrefix segs).toList ++ t) :
    parts = segs ∧ s = t := by
  induction segs generalizing parts with
  | nil =>
    cases parts with
    | nil => exact ⟨rfl, h⟩
    | cons q parts =>
      rw [toList_fieldPrefix_cons] at h
      replace h : _ = t := h
      rw [← h] at ht
      exact absurd rfl ht
  | cons p segs ih =>
    rw [toList_fieldPrefix_cons, List.append_assoc, List.append_assoc, List.cons_append] at h
    obtain ⟨parts, rfl, -, hw⟩ := fieldPrefix_eq_field hparts hs (hsegs p List.mem_cons_self)
      (by decide) h
    rw [List.append_assoc, List.append_cancel_left_eq] at hw
    obtain ⟨rfl, hst⟩ := ih (fun q hq => hparts q (List.mem_cons_of_mem p hq))
      (fun q hq => hsegs q (List.mem_cons_of_mem p hq)) hw.symm
    exact ⟨rfl, hst⟩

/-- **No plain fields stand for a segment with a blank in it.** -/
theorem fieldPrefix_ne_stray (hparts : ∀ q ∈ parts, Unreserved q) (hs : s.head? ≠ some 'F')
    (hpre : ∀ q ∈ pre, Unreserved q) (hlast : Unreserved last) :
    (fieldPrefix parts).toList ++ s ≠
      (fieldPrefix (pre ++ (last ++ ' ' :: w) :: post)).toList ++ t := by
  induction pre generalizing parts with
  | nil =>
    intro h
    rw [List.nil_append, toList_fieldPrefix_cons, List.append_assoc, List.append_assoc,
      List.append_assoc, List.cons_append] at h
    obtain ⟨parts, -, hc, -⟩ := fieldPrefix_eq_field hparts hs hlast (by decide) h
    exact absurd hc (by decide)
  | cons p pre ih =>
    intro h
    rw [List.cons_append, toList_fieldPrefix_cons, List.append_assoc, List.append_assoc,
      List.cons_append] at h
    obtain ⟨parts, rfl, -, hw⟩ := fieldPrefix_eq_field hparts hs (hpre p List.mem_cons_self)
      (by decide) h
    rw [List.append_assoc, List.append_cancel_left_eq] at hw
    exact ih (fun q hq => hparts q (List.mem_cons_of_mem p hq))
      (fun q hq => hpre q (List.mem_cons_of_mem p hq)) hw.symm

/-- The marks stand in the text one behind the other. -/
def InOrder : List String → List Char → Prop
  | [], _ => True
  | mark :: marks, s => ∃ x y, s = x ++ (mark.toList ++ y) ∧ InOrder marks y

theorem InOrder.append_left {marks : List String} (h : InOrder marks s) (x : List Char) :
    InOrder marks (x ++ s) := by
  cases marks with
  | nil => trivial
  | cons mark marks =>
    obtain ⟨y, z, rfl, h⟩ := h
    exact ⟨x ++ y, z, (List.append_assoc x y _).symm, h⟩

/-- `Field '…'`. -/
def fieldMark (p : List Char) : String := "Field '" ++ String.ofList p ++ "'"

/-- The fields of a text are named in order. -/
theorem inOrder_fieldPrefix (h : segs.Sublist parts) (s : List Char) :
    InOrder (segs.map fieldMark) ((fieldPrefix parts).toList ++ s) := by
  induction h with
  | slnil => trivial
  | @cons segs parts p h ih =>
    rw [toList_fieldPrefix_cons, ← List.cons_append, ← List.append_assoc, ← List.append_assoc,
      List.append_assoc]
    exact ih.append_left _
  | @cons_cons segs parts p h ih =>
    refine ⟨[], ": ".toList ++ ((fieldPrefix parts).toList ++ s), ?_, ih.append_left _⟩
    rw [toList_fieldPrefix_cons, fieldMark]
    simp [String.toList_append]

/-- Only what is said of the fields can say `got null`. -/
theorem gotNull_infix_iff (hparts : ∀ q ∈ parts, Unreserved q) :
    "got null".toList <:+: (fieldPrefix parts).toList ++ s ↔ "got null".toList <:+: s := by
  induction parts with
  | nil => rfl
  | cons p parts ih =>
    obtain ⟨hp, hparts⟩ := List.forall_mem_cons.mp hparts
    constructor
    · intro h
      rw [toList_fieldPrefix_cons, List.append_assoc, List.append_assoc, List.cons_append] at h
      -- the quotes cut the text, and the segment has no blank
      rcases (List.infix_cut (x := "Field ".toList) (by decide)).mp h with h | h
      · exact absurd h (by decide)
      rcases (List.infix_cut (by decide)).mp h with h | h
      · exact absurd (h.subset (by decide)) (hp.not_mem (c := ' ') (by decide))
      · rw [List.append_assoc] at h
        exact (ih hparts).mp (List.infix_of_infix_cons (by decide)
          (List.infix_of_infix_cons (by decide) h))
    · exact fun h => h.trans (List.suffix_append _ s).isInfix

end
end Rxon
