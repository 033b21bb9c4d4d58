import Rxon.FieldPatterns

/-! # Complaints about a field

The name of a field is kept iff it is one line, is no index, names no schemas, has no quotes
at its ends, and holds none of the words that the patterns look for
(`readable_of_keeps_missing`, `keeps_missing_of_readable`).  A field that is not expected is
also lost when its name reads like a message about one that is missing, since that pattern is
tried first (`readable_of_keeps_unexpected`). -/

namespace Rxon

section
variable {py : PyText} {letters : Letters py} {steps : List (PathStep letters)} {data v : PyVal}
  {quotes : Quotes} {name text : String} {b : List Char}

/-! ## Texts -/

theorem translate_missing (steps : List (PathStep letters)) (data : PyVal) (b : List Char) :
    (Reading.missing (dotted (steps.map PathStep.segment)) b).translate py data =
      .ok (fieldPrefix (steps.map PathStep.segment) ++
        ("Missing required field: '" ++ fieldName b ++ "'")) := by
  rw [Reading.translate, strippedParts_dotted (segments_ne_nil steps) fun q hq =>
    (unreserved_segments steps q hq).not_mem (by decide)]
  simp only [String.append_assoc]

theorem translate_unexpected (steps : List (PathStep letters)) (data : PyVal) (b : List Char) :
    (Reading.unexpected (dotted (steps.map PathStep.segment)) b).translate py data =
      .ok (fieldPrefix (steps.map PathStep.segment) ++
        ("Unexpected field: '" ++ fieldName b ++ "'")) := by
  rw [Reading.translate, strippedParts_dotted (segments_ne_nil steps) fun q hq =>
    (unreserved_segments steps q hq).not_mem (by decide)]
  simp only [String.append_assoc]

theorem labelled_inj {label name name' : String}
    (h : label ++ name ++ "'" = label ++ name' ++ "'") : name = name' := by
  replace h := congrArg String.toList h
  simp only [String.toList_append, List.append_assoc, List.append_cancel_left_eq,
    List.append_cancel_right_eq] at h
  exact String.toList_inj.mp h

theorem eq_none_of_gotNull_labelled {label : String} {l : List Char}
    (hlabel : label.toList = l ++ ['\'']) (hl : ¬ "got null".toList <:+: l)
    (hnull : v = .none ∨ containsStr name "got null" = false)
    (h : "got null".toList <:+: (label ++ name ++ "'").toList) : v = .none := by
  refine hnull.resolve_right ?_
  rw [← Bool.not_eq_true, containsStr_iff]
  intro hname
  have htext : (label ++ name ++ "'").toList = l ++ '\'' :: (name.toList ++ '\'' :: []) := by
    rw [String.toList_append, String.toList_append, hlabel]
    simp only [List.append_assoc]
    rfl
  rw [htext] at h
  rcases (List.infix_cut (by decide)).mp h with h | h
  · exact hl h
  rcases (List.infix_cut (by decide)).mp h with h | h
  · exact hname h
  · exact absurd h (by decide)

/-- Words that begin otherwise, with no separator beyond the path, are read as no enum. -/
theorem not_from_oneOf {path rest : List Char}
    (honeOf : ∀ y b t, Divides " must be one of " "" (' ' :: rest) y b t → y ≠ [] → steps = [])
    (hbe : ¬ " must be ".toList <+: ' ' :: rest) :
    ¬ (Reading.oneOf path b).From (steps.map PathStep.segment) (' ' :: rest) := by
  have hone : ∀ t, ¬ Divides " must be one of " "" (' ' :: rest) [] b t := fun t hdiv =>
    hbe (List.IsPrefix.trans ⟨"one of ".toList, rfl⟩ hdiv.prefix)
  rintro (⟨y, t, hy, hdiv⟩ | ⟨-, -, t, hdiv, -⟩)
  · by_cases hne : y = []
    · subst hne
      exact hone t hdiv.toDivides
    · obtain rfl := honeOf y b t hdiv.toDivides hne
      obtain ⟨z, rfl⟩ := hdiv.blank hne
      exact absurd (List.cons.inj hy).1 (by decide)
  · exact hone t hdiv

/-! ## A field that is missing -/

theorem tail_missing (quotes : Quotes) (name : String) :
    (Complaint.missing quotes name).tail.toList =
      ' ' :: FieldPattern.missing.around (quoted quotes name) := by
  show (" must contain [" ++ quotes.quote name ++ "] properties").toList = _
  rw [String.toList_append, String.toList_append, List.append_assoc]
  rfl

theorem toList_brackets (quotes : Quotes) (name : String) :
    ("[" ++ quotes.quote name ++ "]").toList =
      FieldPattern.missing.printed (quoted quotes name) := by
  simp only [String.toList_append, List.append_assoc]
  rfl

theorem not_mustBe_prefix_missing (s : List Char) :
    ¬ " must be ".toList <+: ' ' :: (FieldPattern.missing.words ++ s) :=
  List.not_prefix_append (x := " must contain ".toList) (by decide) (by decide)

/-- **A missing field that is kept can be read.** -/
theorem readable_of_keeps_missing
    (htext : translateError py ((Complaint.missing quotes name).message steps) data = .ok text)
    (hkeeps : Keeps steps (.missing quotes name) v text) :
    Readable steps (.missing quotes name) v := by
  have hsegs := unreserved_segments steps
  obtain ⟨rest, hrest⟩ := FieldPattern.missing.exists_rewritten py (quoted quotes name)
  rw [translateError_message, tail_missing] at htext
  have hplain := not_schematic_of_placed htext hkeeps.placed
  rw [hrest] at htext
  obtain ⟨hunread, ⟨b, t, hread, hdiv⟩ | ⟨b, t, -, -, hdiv⟩⟩ := field_reading_of_placed hsegs
    (readMessage_from hsegs _) htext hkeeps.placed (not_mustBe_prefix_missing _)
  · rw [hread, translate_missing] at htext
    cases htext
    have hstates := hkeeps.placed.states hsegs (by
      simp only [String.append_assoc]
      rw [String.toList_append]
      exact fun h => absurd (Option.some.inj h) (by decide))
    rw [← hrest] at hunread hdiv
    obtain ⟨hkeys, hfield⟩ := FieldPattern.missing.readable_of_divides
      (toList_brackets quotes name) hplain hunread hdiv (labelled_inj hstates)
      fun h => hkeeps.null (containsStr_trans hkeeps.contained h)
    exact ⟨hkeys, hfield⟩
  · exact absurd hdiv.prefix (List.not_prefix_append (x := " must contain ".toList) (by decide)
      (by decide))

/-- **A missing field that can be read is read as one.** -/
theorem read_missing (h : Readable steps (.missing quotes name) v) :
    readMessage (worded (steps.map PathStep.segment)
      (rewriteIndices py false (Complaint.missing quotes name).tail.toList)) =
        .missing (dotted (steps.map PathStep.segment)) (quoted quotes name) := by
  obtain ⟨hkeys, hfield⟩ := h
  obtain ⟨hkept, hplain, honeOf, honly, hline⟩ :=
    FieldPattern.missing.kept_of_readable (toList_brackets quotes name) hkeys hfield
  have hown := FieldPattern.missing.divides_around hline
  have hfrom := readMessage_from (unreserved_segments steps)
    (FieldPattern.missing.around (quoted quotes name))
  rw [tail_missing, hkept]
  generalize readMessage (worded (steps.map PathStep.segment)
    (' ' :: FieldPattern.missing.around (quoted quotes name))) = r at hfrom ⊢
  cases r with
  | anyOf => exact absurd hfrom hplain
  | oneOf path b => exact absurd hfrom (not_from_oneOf honeOf (not_mustBe_prefix_missing _))
  | missing path b =>
    obtain ⟨-, y, t, hy, hdiv⟩ := hfrom
    obtain rfl := honly y b t hdiv.toDivides
    rw [List.append_nil] at hy
    rw [hy, FieldPattern.eq_of_longest (p := .missing) hline hdiv.longest]
  | unexpected | typed | whole | other => exact absurd hown (hfrom.2.1 _ _ _)

/-- **A missing field that can be read is kept.** -/
theorem keeps_missing_of_readable (data : PyVal) (h : Readable steps (.missing quotes name) v) :
    ∃ text, translateError py ((Complaint.missing quotes name).message steps) data = .ok text ∧
      Keeps steps (.missing quotes name) v text := by
  have hfield : ReadableField _ _ _ _ _ := h.complaint
  rw [translateError_message, read_missing h, translate_missing, fieldName_quoted,
    hfield.stripped]
  exact ⟨_, rfl, keeps_of_states (pathKeys_sublist steps) (List.Sublist.refl _) rfl
    (eq_none_of_gotNull_labelled (l := "Missing required field: ".toList) rfl (by decide)
      hfield.null)⟩

/-! ## A field that is not expected -/

theorem tail_unexpected (quotes : Quotes) (name : String) :
    (Complaint.unexpected quotes name).tail.toList =
      ' ' :: FieldPattern.unexpected.around (quoted quotes name) := by
  show (" must not contain \x7b" ++ quotes.quote name ++ "\x7d properties").toList = _
  rw [String.toList_append, String.toList_append, List.append_assoc]
  rfl

theorem toList_braces (quotes : Quotes) (name : String) :
    ("\x7b" ++ quotes.quote name ++ "\x7d").toList =
      FieldPattern.unexpected.printed (quoted quotes name) := by
  simp only [String.toList_append, List.append_assoc]
  rfl

theorem not_mustBe_prefix_unexpected (s : List Char) :
    ¬ " must be ".toList <+: ' ' :: (FieldPattern.unexpected.words ++ s) :=
  List.not_prefix_append (x := " must not contain ".toList) (by decide) (by decide)

/-- **The pattern for a missing field finds its words in the name**, closed by a bracket. -/
theorem contains_missing_iff (hline : '\n' ∉ name.toList) :
    (∃ y b t, y ≠ [] ∧ Divides " must contain [" "]"
      (' ' :: FieldPattern.unexpected.around (quoted quotes name)) y b t) ↔
      ∃ s, containsStr name (" must contain [" ++ s ++ "]") = true := by
  constructor
  · rintro ⟨y, b, t, hy, hdiv⟩
    have hstarts : List.StartsNowhere " must contain [".toList "must not contain \x7b".toList := by
      unfold List.StartsNowhere
      decide
    obtain ⟨m, hm⟩ := FieldPattern.exists_behind (p := .unexpected) hstarts hy hdiv
    refine ⟨String.ofList b, containsStr_iff.mpr ?_⟩
    have htext : (" must contain [" ++ String.ofList b ++ "]").toList =
        ' ' :: ("must contain [".toList ++ b ++ [']']) := by
      have hb : (String.ofList b).toList = b := String.toList_ofList
      rw [String.toList_append, String.toList_append, hb]
      rfl
    have hinfix : ' ' :: ("must contain [".toList ++ b ++ [']']) <:+:
        quoted quotes name ++ '\x7d' :: " properties".toList := by
      refine ⟨m, t, Eq.trans ?_ hm.symm⟩
      simp only [List.append_assoc, List.cons_append]
      rfl
    rw [htext]
    exact infix_of_infix_quoted (by decide) (by decide)
      (List.infix_of_infix_append (w := ' ' :: ("must contain [".toList ++ b)) (by decide) hinfix)
  · rintro ⟨s, hs⟩
    have hname : " must contain [".toList ++ (s.toList ++ "]".toList) <:+: name.toList := by
      simpa only [String.toList_append, List.append_assoc] using containsStr_iff.mp hs
    obtain ⟨y, t, hy, hdiv⟩ := FieldPattern.exists_divides_inside .unexpected quotes
      " must contain [" "]" hline hname
    exact ⟨y, s.toList, t, hy, hdiv⟩

/-- **A field that is not expected and is kept can be read.** -/
theorem readable_of_keeps_unexpected
    (htext : translateError py ((Complaint.unexpected quotes name).message steps) data = .ok text)
    (hkeeps : Keeps steps (.unexpected quotes name) v text) :
    Readable steps (.unexpected quotes name) v := by
  have hsegs := unreserved_segments steps
  obtain ⟨rest, hrest⟩ := FieldPattern.unexpected.exists_rewritten py (quoted quotes name)
  rw [translateError_message, tail_unexpected] at htext
  have hplain := not_schematic_of_placed htext hkeeps.placed
  rw [hrest] at htext
  obtain ⟨hunread, ⟨b, t, -, hdiv⟩ | ⟨b, t, hread, hmissing, hdiv⟩⟩ := field_reading_of_placed hsegs
    (readMessage_from hsegs _) htext hkeeps.placed (not_mustBe_prefix_unexpected _)
  · exact absurd hdiv.prefix (List.not_prefix_append (x := " must not contain ".toList) (by decide)
      (by decide))
  · rw [hread, translate_unexpected] at htext
    cases htext
    have hstates := hkeeps.placed.states hsegs (by
      simp only [String.append_assoc]
      rw [String.toList_append]
      exact fun h => absurd (Option.some.inj h) (by decide))
    rw [← hrest] at hunread hdiv hmissing
    obtain ⟨hkeys, hfield⟩ := FieldPattern.unexpected.readable_of_divides
      (toList_braces quotes name) hplain hunread hdiv (labelled_inj hstates)
      fun h => hkeeps.null (containsStr_trans hkeeps.contained h)
    refine ⟨hkeys, hfield, fun s => ?_⟩
    rw [FieldPattern.rewriteIndices_eq_of_divides (p := .unexpected) hdiv.toDivides
      (labelled_inj hstates)] at hmissing
    rw [← Bool.not_eq_true]
    intro hcontains
    obtain ⟨y, b', t', -, hdiv'⟩ := (contains_missing_iff hfield.line).mpr ⟨s, hcontains⟩
    exact hmissing y b' t' hdiv'

/-- **A field that is not expected and can be read is read as one.** -/
theorem read_unexpected (h : Readable steps (.unexpected quotes name) v) :
    readMessage (worded (steps.map PathStep.segment)
      (rewriteIndices py false (Complaint.unexpected quotes name).tail.toList)) =
        .unexpected (dotted (steps.map PathStep.segment)) (quoted quotes name) := by
  obtain ⟨hkeys, hfield, hmissing⟩ := h
  obtain ⟨hkept, hplain, honeOf, honly, hline⟩ :=
    FieldPattern.unexpected.kept_of_readable (toList_braces quotes name) hkeys hfield
  have hown := FieldPattern.unexpected.divides_around hline
  have hfrom := readMessage_from (unreserved_segments steps)
    (FieldPattern.unexpected.around (quoted quotes name))
  rw [tail_unexpected, hkept]
  generalize readMessage (worded (steps.map PathStep.segment)
    (' ' :: FieldPattern.unexpected.around (quoted quotes name))) = r at hfrom ⊢
  cases r with
  | anyOf => exact absurd hfrom hplain
  | oneOf path b => exact absurd hfrom (not_from_oneOf honeOf (not_mustBe_prefix_unexpected _))
  | missing path b =>
    obtain ⟨-, y, t, -, hdiv⟩ := hfrom
    exfalso
    by_cases hne : y = []
    · subst hne
      exact List.not_prefix_append (x := " must not contain ".toList) (by decide) (by decide)
        hdiv.prefix
    · obtain ⟨s, hs⟩ := (contains_missing_iff hfield.line).mp ⟨y, b, t, hne, hdiv.toDivides⟩
      rw [hmissing s] at hs
      cases hs
  | unexpected path b =>
    obtain ⟨-, -, y, t, hy, hdiv⟩ := hfrom
    obtain rfl := honly y b t hdiv.toDivides
    rw [List.append_nil] at hy
    rw [hy, FieldPattern.eq_of_longest (p := .unexpected) hline hdiv.longest]
  | typed | whole | other => exact absurd hown (hfrom.2.2.1 _ _ _)

/-- **A field that is not expected and can be read is kept.** -/
theorem keeps_unexpected_of_readable (data : PyVal)
    (h : Readable steps (.unexpected quotes name) v) :
    ∃ text, translateError py ((Complaint.unexpected quotes name).message steps) data = .ok text ∧
      Keeps steps (.unexpected quotes name) v text := by
  have hfield : ReadableField _ _ _ _ _ := h.complaint.1
  rw [translateError_message, read_unexpected h, translate_unexpected, fieldName_quoted,
    hfield.stripped]
  exact ⟨_, rfl, keeps_of_states (pathKeys_sublist steps) (List.Sublist.refl _) rfl
    (eq_none_of_gotNull_labelled (l := "Unexpected field: ".toList) rfl (by decide)
      hfield.null)⟩

end
end Rxon
