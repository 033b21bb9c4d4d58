import Rxon.Complaints

/-! # The path of a complaint

The steps of a path are the segments that the translation reads (`rewriteIndices_message`),
and where they lead is where its walk ends (`leads_of_stepsTo`). -/

namespace Rxon

section
variable {py : PyText} {letters : Letters py} {step : PathStep letters}
  {steps : List (PathStep letters)} {data v : PyVal} {s : List Char} {c : Char} {k : String}
  {i : Nat}

/-! ## Segments -/

theorem of_mem_reserved (hc : c ∈ reserved) :
    c.toNat < 128 ∧ c.isAlpha = false ∧ c.isDigit = false ∧ c ≠ '_' := by
  simp only [reserved, List.mem_cons, List.not_mem_nil, or_false] at hc
  rcases hc with rfl | rfl | rfl | rfl | rfl
  all_goals exact ⟨by decide, by decide, by decide, by decide⟩

theorem Letters.IsName.unreserved (hk : letters.IsName k) : Unreserved k.toList := by
  obtain ⟨d, s, hds, hd, hs⟩ := hk
  intro c hc hreserved
  obtain ⟨hascii, halpha, hdigit, hne⟩ := of_mem_reserved hreserved
  have hletter : letters.isLetter c ≠ true := by
    rw [letters.isLetter_ascii c hascii, halpha]
    exact Bool.false_ne_true
  rw [hds] at hc
  rcases List.mem_cons.mp hc with rfl | hc
  · exact hd.elim hletter hne
  · rcases hs c hc with h | h | h
    · exact hletter h
    · rw [py.isDigit_ascii c hascii, hdigit] at h
      cases h
    · exact hne h

theorem isDigits_of_mem {p : List Char} (hc : c ∈ p) (h : py.isDigit c = false) :
    isDigits py p = false := by
  rw [isDigits, Bool.and_eq_false_iff]
  refine Or.inr (List.all_eq_false.mpr ⟨c, hc, ?_⟩)
  rw [h]
  exact Bool.false_ne_true

theorem Letters.IsName.not_isDigits (hk : letters.IsName k) : isDigits py k.toList = false := by
  obtain ⟨d, s, hds, hd, -⟩ := hk
  have hdigit : py.isDigit d = false := by
    rcases hd with hd | rfl
    · exact letters.not_isDigit d hd
    · exact py.isDigit_ascii '_' (by decide)
  exact isDigits_of_mem (hds ▸ List.mem_cons_self) hdigit

theorem toList_toString (i : Nat) : (toString i).toList = Nat.toDigits 10 i := Nat.toList_repr

/-- An index is printed in ASCII. -/
theorem of_mem_toString (hc : c ∈ (toString i).toList) : c.isDigit = true ∧ c.toNat < 128 := by
  rw [toList_toString] at hc
  have hdigit : c.isDigit = true := Nat.isDigit_of_mem_toDigits (by decide) (by decide) hc
  refine ⟨hdigit, ?_⟩
  have hle : c.val ≤ '9'.val := by
    rw [Char.isDigit, Bool.and_eq_true, decide_eq_true_eq, decide_eq_true_eq] at hdigit
    exact hdigit.2
  exact Nat.lt_of_le_of_lt (UInt32.le_iff_toNat_le.mp hle) (by decide)

theorem toString_ne_nil (i : Nat) : (toString i).toList ≠ [] := by
  rw [toList_toString]
  exact Nat.toDigits_ne_nil

theorem unreserved_toString (i : Nat) : Unreserved (toString i).toList := by
  intro c hc hreserved
  have hdigit := (of_mem_reserved hreserved).2.2.1
  rw [(of_mem_toString hc).1] at hdigit
  cases hdigit

theorem isSome_decimal_toString (hc : c ∈ (toString i).toList) :
    py.decimal c = some (c.toNat - 48) := by
  obtain ⟨hdigit, hascii⟩ := of_mem_toString hc
  rw [py.decimal_ascii c hascii, if_pos hdigit]

theorem isDigits_toString (i : Nat) : isDigits py (toString i).toList = true := by
  rw [isDigits, Bool.and_eq_true, List.all_eq_true]
  refine ⟨by simp, fun c hc => ?_⟩
  obtain ⟨hdigit, hascii⟩ := of_mem_toString hc
  rw [py.isDigit_ascii c hascii, hdigit]

/-- **The index that is printed is the one that is read**, if a list can have it. -/
theorem intOf_toString (hi : i < 10 ^ intMaxStrDigits) : intOf py (toString i).toList = .ok i := by
  have hdecimal : (toString i).toList.mapM py.decimal =
      some ((toString i).toList.map fun c => c.toNat - 48) := by
    have hall : ∀ p : List Char, (∀ c ∈ p, py.decimal c = some (c.toNat - 48)) →
        p.mapM py.decimal = some (p.map fun c => c.toNat - 48) := by
      intro p hp
      induction p with
      | nil => rfl
      | cons c p ih =>
        rw [List.mapM_cons, hp c List.mem_cons_self,
          ih fun d hd => hp d (List.mem_cons_of_mem c hd)]
        rfl
    exact hall _ fun c hc => isSome_decimal_toString hc
  have hlen : (toString i).toList.length ≤ intMaxStrDigits := by
    rw [toList_toString]
    exact (Nat.length_toDigits_le_iff (by decide) (by decide)).mpr hi
  have hvalue : ((toString i).toList.map fun c => c.toNat - 48).foldl
      (fun n d => 10 * n + d) 0 = i := by
    rw [List.foldl_map, toList_toString]
    exact Nat.ofDigitChars_ten_toDigits
  rw [intOf, hdecimal]
  dsimp only
  rw [List.length_map, if_pos hlen, hvalue]

theorem PathStep.unreserved_segment (step : PathStep letters) : Unreserved step.segment := by
  cases step with
  | key k hk => exact hk.unreserved
  | index _ i => exact unreserved_toString i

theorem PathStep.segment_ne_nil (step : PathStep letters) : step.segment ≠ [] := by
  cases step with
  | key k hk =>
    obtain ⟨d, s, hds, -⟩ := id hk
    show k.toList ≠ []
    rw [hds]
    exact List.cons_ne_nil d s
  | index _ i => exact toString_ne_nil i

theorem unreserved_segments (steps : List (PathStep letters)) :
    ∀ p ∈ steps.map PathStep.segment, Unreserved p := by
  intro p hp
  obtain ⟨step, -, rfl⟩ := List.mem_map.mp hp
  exact step.unreserved_segment

theorem segments_ne_nil (steps : List (PathStep letters)) :
    ∀ p ∈ steps.map PathStep.segment, p ≠ [] := by
  intro p hp
  obtain ⟨step, -, rfl⟩ := List.mem_map.mp hp
  exact step.segment_ne_nil

/-- A segment that names schemas is a key. -/
theorem anyOf_segments_iff (steps : List (PathStep letters)) :
    (∀ p ∈ steps.map PathStep.segment, ¬ "anyOf".toList <:+: p) ↔
      ∀ k ∈ pathKeys steps, containsStr k "anyOf" = false := by
  induction steps with
  | nil => exact iff_of_true nofun nofun
  | cons step steps ih =>
    rw [List.map_cons, List.forall_mem_cons, ih]
    cases step with
    | key k hk =>
      show _ ↔ ∀ j ∈ k :: pathKeys steps, _
      rw [List.forall_mem_cons, ← Bool.not_eq_true, containsStr_iff]
      rfl
    | index bracketed i =>
      refine and_iff_right fun h => ?_
      have hdigit := (of_mem_toString (h.subset (by decide : 'a' ∈ "anyOf".toList))).1
      exact absurd hdigit (by decide)

/-! ## The message -/

theorem rewriteIndices_text (step : PathStep letters) (s : List Char) :
    rewriteIndices py false (step.text.toList ++ s) =
      '.' :: (step.segment ++ rewriteIndices py false s) := by
  have hplain : ∀ p : List Char, Unreserved p →
      rewriteIndices py false ('.' :: p ++ s) = '.' :: (p ++ rewriteIndices py false s) := by
    intro p hp
    refine rewriteIndices_append fun hmem => ?_
    rcases List.mem_cons.mp hmem with h | h
    · exact absurd h (by decide)
    · exact hp.not_mem (by decide) h
  match step with
  | .key k hk =>
    rw [PathStep.text, String.toList_append]
    exact hplain k.toList hk.unreserved
  | .index false i =>
    rw [PathStep.text, String.toList_append]
    exact hplain _ (unreserved_toString i)
  | .index true i =>
    have htext : (PathStep.index true i : PathStep letters).text.toList ++ s =
        '[' :: ((toString i).toList ++ ']' :: s) := by
      simp [PathStep.text, String.toList_append]
    rw [htext]
    refine rewriteIndices_index (toString_ne_nil i) fun c hc => ?_
    rw [isSome_decimal_toString hc]
    rfl

theorem rewriteIndices_steps (steps : List (PathStep letters)) (s : List Char) :
    rewriteIndices py false ((String.join (steps.map PathStep.text)).toList ++ s) =
      dotted (steps.map PathStep.segment) ++ rewriteIndices py false s := by
  induction steps with
  | nil => rfl
  | cons step steps ih =>
    rw [List.map_cons, String.join_cons, String.toList_append, List.append_assoc,
      rewriteIndices_text, ih, List.map_cons, dotted_cons, List.cons_append, List.append_assoc]

/-- **The message, as the patterns read it.** -/
theorem rewriteIndices_message (steps : List (PathStep letters)) (c : Complaint) :
    rewriteIndices py false (c.message steps).toList =
      "data".toList ++ (dotted (steps.map PathStep.segment) ++
        rewriteIndices py false c.tail.toList) := by
  rw [Complaint.message, String.toList_append, String.toList_append, List.append_assoc,
    rewriteIndices_append (by decide), rewriteIndices_steps]

/-! ## The walk -/

theorem leads_of_stepsTo (h : StepsTo steps data v) :
    Leads py (steps.map PathStep.segment) data v := by
  induction h with
  | here => exact .nil
  | @key k hk steps kvs x v hx h ih =>
    refine .cons ?_ ih
    rw [PathStep.segment, stepInto, String.ofList_toList, hx]
  | @index bracketed i steps xs x v hsize hx h ih =>
    refine .cons ?_ ih
    have hi : i < 10 ^ intMaxStrDigits := by
      have hlt : i < xs.length := by
        by_contra hge
        rw [List.getElem?_eq_none (by omega)] at hx
        cases hx
      have hmax : sysMaxsize < 10 ^ 19 := by decide
      calc i < 10 ^ 19 := by omega
        _ ≤ 10 ^ intMaxStrDigits := Nat.pow_le_pow_right (by decide) (by decide)
    rw [PathStep.segment, stepInto, if_pos (isDigits_toString i), intOf_toString hi]
    show Except.ok xs[i]? = _
    rw [hx]

/-- A path without its first dot is split into its segments. -/
theorem splitOn_path {path : List Char} (h : '.' :: path = dotted (steps.map PathStep.segment)) :
    path.splitOn '.' = steps.map PathStep.segment := by
  cases steps with
  | nil => cases h
  | cons step steps =>
    rw [List.map_cons, dotted_cons] at h
    rw [(List.cons.inj h).2, List.map_cons]
    exact splitOn_dotted (step.unreserved_segment.not_mem (by decide)) fun q hq =>
      (unreserved_segments steps q hq).not_mem (by decide)

theorem segments_path {path : List Char} (h : '.' :: path = dotted (steps.map PathStep.segment)) :
    segments path = steps.map PathStep.segment := by
  have hne : path ≠ [] := by
    rintro rfl
    cases steps with
    | nil => cases h
    | cons step steps =>
      rw [List.map_cons, dotted_cons] at h
      exact step.segment_ne_nil (List.append_eq_nil_iff.mp (List.cons.inj h).2.symm).1
  rw [segments, if_neg hne, splitOn_path h]

/-- The value of the path is the one it leads to. -/
theorem getValByPath_eq {path : List Char} (h : '.' :: path = dotted (steps.map PathStep.segment))
    (hsteps : StepsTo steps data v) : getValByPath py data path = .ok v := by
  rw [getValByPath, segments_path h]
  exact walk_of_leads (leads_of_stepsTo hsteps)

end
end Rxon
