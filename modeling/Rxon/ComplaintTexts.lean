import Rxon.ComplaintReadings

/-! # The texts of readings

What a translation makes of each reading, and which texts keep to the path.  A reading that
takes words for a part of the path has strayed, and its text is none that keeps to the path
(`Reading.Strays.not_placed`). -/

namespace Rxon

/-! ## Texts -/

/-- What a type message says of null. -/
def nullNote : PyVal → String
  | .none => ", got null"
  | _ => ""

section
variable {py : PyText} {data v : PyVal} {path b last expected y : List Char}
  {parts segs : List (List Char)} {p : List Char} {text : String} {r : Reading} {c : Complaint}

theorem translate_typed_item (hsplit : path.splitOn '.' = parts ++ [last])
    (hdigits : isDigits py last = true) : (Reading.typed path expected).translate py data =
      .ok (fieldPrefix parts ++ ("Item at index " ++ String.ofList last ++ ": " ++
        ("Expected " ++ String.ofList expected))) := by
  rw [Reading.translate, hsplit]
  simp only [List.getLastD_concat, hdigits, if_true, List.dropLast_concat]
  rcases List.eq_nil_or_concat parts with rfl | ⟨init, field, rfl⟩
  · rfl
  · simp only [List.concat_eq_append, List.getLast?_concat, List.dropLast_concat,
      fieldPrefix_append]

theorem translate_typed_field (hsplit : path.splitOn '.' = parts ++ [last])
    (hdigits : isDigits py last = false) :
    (Reading.typed path expected).translate py data = .ok text ↔
      ∃ v, getValByPath py data path = .ok v ∧ text =
        fieldPrefix (parts ++ [last]) ++ ("Expected " ++ String.ofList expected ++ nullNote v) := by
  rw [Reading.translate, hsplit]
  simp only [List.getLastD_concat, hdigits, List.dropLast_concat, ← fieldPrefix_append]
  cases getValByPath py data path with
  | error e =>
    refine iff_of_false (fun h => by cases h) ?_
    rintro ⟨v, hv, -⟩
    cases hv
  | ok v =>
    have htext : ∀ {t : String}, (Except.ok t : Except PyError String) = .ok text ↔ text = t :=
      fun {t} => ⟨fun h => (Except.ok.inj h).symm, fun h => congrArg Except.ok h.symm⟩
    simp only [Except.ok.injEq, exists_eq_left']
    cases v with
    | none => exact htext.trans (by rw [String.append_assoc]; rfl)
    | _ => exact htext.trans (by dsimp only [nullNote]; rw [String.append_empty])

theorem translate_whole (expected : List Char) : (Reading.whole expected).translate py data =
    .ok ("Expected " ++ String.ofList expected ++ nullNote data) := by
  cases data with
  | none => rfl
  | _ => exact congrArg Except.ok String.append_empty.symm

theorem translate_oneOf : (Reading.oneOf path b).translate py data = .ok text ↔
    ∃ v shown, getValByPath py data path = .ok v ∧ py.str v = .ok shown ∧
      text = fieldPrefix (segments path) ++
        ("Value '" ++ shown ++ "' is not allowed. Must be one of: " ++ String.ofList b) := by
  rw [Reading.translate]
  cases getValByPath py data path with
  | error e =>
    refine iff_of_false (fun h => by cases h) ?_
    rintro ⟨v, shown, hv, -⟩
    cases hv
  | ok v =>
    simp only [Except.ok.injEq, exists_and_left, exists_eq_left']
    show (py.str v).bind _ = _ ↔ _
    cases py.str v with
    | error e =>
      refine iff_of_false (fun h => by cases h) ?_
      rintro ⟨shown, hshown, -⟩
      cases hshown
    | ok shown =>
      simp only [Except.ok.injEq, exists_eq_left', Except.bind, String.append_assoc]
      exact ⟨fun h => (Except.ok.inj h).symm, fun h => congrArg Except.ok h.symm⟩

/-- A reading that takes words for a part of the path. -/
def Reading.Strays (segs : List (List Char)) : Reading → Prop
  | oneOf path _ => ∃ y, '.' :: path = dotted segs ++ ' ' :: y
  | missing path _ => ∃ y, path = dotted segs ++ ' ' :: y
  | unexpected path _ => ∃ y, path = dotted segs ++ ' ' :: y
  | typed path _ => ∃ y, '.' :: path = dotted segs ++ ' ' :: y
  | _ => False

/-- Behind plain parts, there is one with a blank. -/
def HasStray (parts : List (List Char)) : Prop :=
  ∃ pre last z post, parts = pre ++ (last ++ ' ' :: z) :: post ∧ (∀ q ∈ pre, Unreserved q) ∧
    Unreserved last

theorem hasStray_splitOn (hp : Unreserved p) (hsegs : ∀ q ∈ segs, Unreserved q) (y : List Char) :
    HasStray ((p ++ (dotted segs ++ ' ' :: y)).splitOn '.') := by
  obtain ⟨pre, last, z, post, hsplit, hpre⟩ := splitOn_stray (hp.not_mem (by decide))
    (fun q hq => (hsegs q hq).not_mem (by decide)) y
  have hall : ∀ q ∈ pre ++ [last], Unreserved q := by
    rw [← hpre]
    exact List.forall_mem_cons.mpr ⟨hp, hsegs⟩
  exact ⟨pre, last, z, post, hsplit, fun q hq => hall q (List.mem_append_left _ hq),
    hall last (List.mem_append_right _ (List.mem_singleton_self last))⟩

/-- A path that is read behind `data.` has a segment. -/
theorem hasStray_path (hsegs : ∀ q ∈ segs, Unreserved q)
    (h : '.' :: path = dotted segs ++ ' ' :: y) : path ≠ [] ∧ HasStray (path.splitOn '.') := by
  cases segs with
  | nil => exact absurd (List.cons.inj h).1 (by decide)
  | cons p segs =>
    obtain ⟨hp, hsegs⟩ := List.forall_mem_cons.mp hsegs
    rw [dotted_cons, List.cons_append, List.append_assoc] at h
    obtain rfl := (List.cons.inj h).2
    exact ⟨by simp, hasStray_splitOn hp hsegs y⟩

theorem hasStray_strippedParts (hsegs : ∀ q ∈ segs, Unreserved q) (y : List Char) :
    HasStray (strippedParts (dotted segs ++ ' ' :: y)) := by
  have hnil : Unreserved [] := fun c hc => absurd hc List.not_mem_nil
  obtain ⟨pre, last, z, post, hsplit, hpre, hlast⟩ := hasStray_splitOn hnil hsegs y
  rw [List.nil_append] at hsplit
  refine ⟨pre.filter (· ≠ []), last, z, post.filter (· ≠ []), ?_,
    fun q hq => hpre q (List.mem_of_mem_filter hq), hlast⟩
  rw [strippedParts_eq, hsplit, List.filter_append, List.filter_cons_of_pos (by simp)]

/-- A last part with a blank is no index; before an index, the part with a blank is left. -/
theorem exists_typed_text (hstray : HasStray (path.splitOn '.'))
    (htext : (Reading.typed path expected).translate py data = .ok text) :
    ∃ parts s, text = fieldPrefix parts ++ s ∧ HasStray parts := by
  obtain ⟨pre, last, z, post, hsplit, hpre, hlast⟩ := id hstray
  have hfield : ∀ {parts item : _}, path.splitOn '.' = parts ++ [item] →
      isDigits py item = false → ∃ parts s, text = fieldPrefix parts ++ s ∧ HasStray parts := by
    intro parts item hitem hdigits
    obtain ⟨v, -, rfl⟩ := (translate_typed_field hitem hdigits).mp htext
    exact ⟨_, _, rfl, hitem ▸ hstray⟩
  rcases List.eq_nil_or_concat post with rfl | ⟨init, item, rfl⟩
  · exact hfield hsplit (isDigits_of_mem (List.mem_append_right last List.mem_cons_self)
      (py.isDigit_ascii ' ' (by decide)))
  · rw [List.concat_eq_append, ← List.cons_append, ← List.append_assoc] at hsplit
    cases hdigits : isDigits py item with
    | false => exact hfield hsplit hdigits
    | true =>
      rw [translate_typed_item hsplit hdigits] at htext
      cases htext
      exact ⟨_, _, rfl, pre, last, z, init, rfl, hpre, hlast⟩

/-- **The text of a reading that has strayed has a field with a blank.** -/
theorem Reading.Strays.exists_text (h : r.Strays segs) (hsegs : ∀ q ∈ segs, Unreserved q)
    (htext : r.translate py data = .ok text) :
    ∃ parts s, text = fieldPrefix parts ++ s ∧ HasStray parts := by
  cases r with
  | oneOf path enumList =>
    obtain ⟨y, hy⟩ := h
    obtain ⟨hne, hstray⟩ := hasStray_path hsegs hy
    obtain ⟨v, shown, -, -, rfl⟩ := translate_oneOf.mp htext
    rw [segments, if_neg hne]
    exact ⟨_, _, rfl, hstray⟩
  | missing path field =>
    obtain ⟨y, rfl⟩ := h
    cases htext
    simp only [String.append_assoc]
    exact ⟨_, _, rfl, hasStray_strippedParts hsegs y⟩
  | unexpected path field =>
    obtain ⟨y, rfl⟩ := h
    cases htext
    simp only [String.append_assoc]
    exact ⟨_, _, rfl, hasStray_strippedParts hsegs y⟩
  | typed path expected =>
    obtain ⟨y, hy⟩ := h
    exact exists_typed_text (hasStray_path hsegs hy).2 htext
  | _ => exact absurd h id

/-! ## Texts that do not keep to the path -/

/-- What a complaint says begins like no field and like no message; what is said of a value
begins with a quote. -/
theorem Complaint.States.head {statement : String} (h : c.States py v statement) :
    ∃ d s, statement.toList = d :: s ∧ d ≠ 'F' ∧ d ≠ 'd' ∧ (d = 'V' → s[5]? = some '\'') := by
  have hexpected : ∀ s : String, ∃ d t, ("Expected " ++ s).toList = d :: t ∧ d ≠ 'F' ∧ d ≠ 'd' ∧
      (d = 'V' → t[5]? = some '\'') :=
    fun s => ⟨'E', _, String.toList_append, by decide, by decide, fun hd => absurd hd (by decide)⟩
  cases c with
  | typed types =>
    rcases h with rfl | rfl | ⟨i, rfl⟩
    · exact hexpected _
    · rw [String.append_assoc]
      exact hexpected _
    · simp only [String.append_assoc]
      exact ⟨'I', _, String.toList_append, by decide, by decide, fun hd => absurd hd (by decide)⟩
  | oneOf items =>
    obtain ⟨shown, -, rfl⟩ := h
    simp only [String.append_assoc]
    exact ⟨'V', _, String.toList_append, by decide, by decide, fun _ => rfl⟩
  | missing quotes name =>
    obtain rfl := h
    simp only [String.append_assoc]
    exact ⟨'M', _, String.toList_append, by decide, by decide, fun hd => absurd hd (by decide)⟩
  | unexpected quotes name =>
    obtain rfl := h
    simp only [String.append_assoc]
    exact ⟨'U', _, String.toList_append, by decide, by decide, fun hd => absurd hd (by decide)⟩

theorem Complaint.States.head_ne {statement : String} (h : c.States py v statement) :
    statement.toList.head? ≠ some 'F' := by
  obtain ⟨d, s, hs, hd, -⟩ := h.head
  rw [hs]
  exact fun heq => hd (Option.some.inj heq)

/-- Behind the fields of the path stands what the complaint says. -/
theorem Complaint.Placed.states {statement : String}
    (h : c.Placed py segs v (fieldPrefix segs ++ statement)) (hsegs : ∀ q ∈ segs, Unreserved q)
    (hhead : statement.toList.head? ≠ some 'F') : c.States py v statement := by
  obtain ⟨parts, statement', heq, hparts, hstates⟩ := h
  replace heq := congrArg String.toList heq
  rw [String.toList_append, String.toList_append] at heq
  obtain ⟨-, hstatement⟩ := fieldPrefix_inj hsegs (fun q hq => hsegs q (hparts.subset hq)) hhead
    hstates.head_ne heq
  rwa [String.toList_inj.mp hstatement]

/-- **A reading that has strayed does not keep to the path.** -/
theorem Reading.Strays.not_placed (h : r.Strays segs) (hsegs : ∀ q ∈ segs, Unreserved q)
    (htext : r.translate py data = .ok text) : ¬ c.Placed py segs v text := by
  rintro ⟨parts, statement, rfl, hparts, hstates⟩
  obtain ⟨_, s, heq, pre, last, z, post, rfl, hpre, hlast⟩ := h.exists_text hsegs htext
  replace heq := congrArg String.toList heq
  rw [String.toList_append, String.toList_append] at heq
  exact fieldPrefix_ne_stray (fun q hq => hsegs q (hparts.subset hq)) hstates.head_ne hpre hlast heq

/-- Nor does a message that is left as it is. -/
theorem not_placed_other (htext : text.toList.head? = some 'd') : ¬ c.Placed py segs v text := by
  rintro ⟨parts, statement, rfl, -, hstates⟩
  rw [String.toList_append] at htext
  cases parts with
  | nil =>
    obtain ⟨d, s, hs, -, hd, -⟩ := hstates.head
    replace htext : statement.toList.head? = some 'd' := htext
    rw [hs] at htext
    exact hd (Option.some.inj htext)
  | cons p parts =>
    rw [toList_fieldPrefix_cons] at htext
    exact absurd (Option.some.inj htext) (by decide)

/-- Nor does the text for alternatives. -/
theorem not_placed_anyOf : ¬ c.Placed py segs v "Value does not match any schemas" := by
  rintro ⟨parts, statement, heq, -, hstates⟩
  replace heq := congrArg String.toList heq
  rw [String.toList_append] at heq
  cases parts with
  | nil =>
    obtain ⟨d, s, hs, -, -, hquote⟩ := hstates.head
    replace heq : "Value does not match any schemas".toList = statement.toList := heq
    rw [hs] at heq
    obtain ⟨rfl, rfl⟩ := List.cons.inj heq
    exact absurd (hquote rfl) (by decide)
  | cons p parts =>
    rw [toList_fieldPrefix_cons] at heq
    exact absurd (List.cons.inj heq).1 (by decide)

/-- What keeps to the path is said of no message of schemas. -/
theorem not_schematic_of_placed {msg : List Char}
    (htext : (readMessage msg).translate py data = .ok text) (hplaced : c.Placed py segs v text) :
    ¬ Schematic msg := by
  intro h
  rw [readMessage_of_schematic h] at htext
  cases htext
  exact not_placed_anyOf hplaced

/-- **A text that keeps to the path, and is about no type and no enum, is about a field.** -/
theorem field_reading_of_placed {rest : List Char} (hsegs : ∀ q ∈ segs, Unreserved q)
    (hfrom : r.From segs (' ' :: rest)) (htext : r.translate py data = .ok text)
    (hplaced : c.Placed py segs v text) (hbe : ¬ " must be ".toList <+: ' ' :: rest) :
    Unread " must be one of " segs (' ' :: rest) ∧
      ((∃ b t, r = .missing (dotted segs) b ∧
        DividesFirst " must contain [" "]" (' ' :: rest) [] b t) ∨
      (∃ b t, r = .unexpected (dotted segs) b ∧ Undivided " must contain [" "]" (' ' :: rest) ∧
        DividesFirst " must not contain \x7b" "\x7d properties" (' ' :: rest) [] b t)) := by
  have hstrays : ¬ r.Strays segs := fun h => h.not_placed hsegs htext hplaced
  have hone : ¬ " must be one of ".toList <+: ' ' :: rest := fun h =>
    hbe (List.IsPrefix.trans ⟨"one of ".toList, rfl⟩ h)
  cases r with
  | anyOf =>
    cases htext
    exact absurd hplaced not_placed_anyOf
  | oneOf path b =>
    rcases hfrom with ⟨y, t, hy, hdiv⟩ | ⟨-, -, t, hdiv, -⟩
    · obtain rfl := hdiv.eq_nil hy hstrays
      exact absurd hdiv.prefix hone
    · exact absurd hdiv.prefix hone
  | missing path b =>
    obtain ⟨hunread, y, t, hy, hdiv⟩ := hfrom
    obtain rfl := hdiv.eq_nil hy hstrays
    rw [List.append_nil] at hy
    exact ⟨hunread, Or.inl ⟨b, t, by rw [hy], hdiv⟩⟩
  | unexpected path b =>
    obtain ⟨hunread, hmissing, y, t, hy, hdiv⟩ := hfrom
    obtain rfl := hdiv.eq_nil hy hstrays
    rw [List.append_nil] at hy
    exact ⟨hunread, Or.inr ⟨b, t, by rw [hy], hmissing, hdiv⟩⟩
  | typed path b =>
    obtain ⟨-, -, -, y, t, hy, hdiv⟩ := hfrom
    obtain rfl := hdiv.eq_nil hy hstrays
    exact absurd hdiv.prefix hbe
  | whole b =>
    obtain ⟨-, -, -, -, t, hdiv, -⟩ := hfrom
    exact absurd hdiv.prefix hbe
  | other msg =>
    obtain ⟨-, -, -, -, rfl⟩ := hfrom
    cases htext
    refine absurd hplaced (not_placed_other ?_)
    rw [String.toList_ofList]
    rfl

/-! ## Texts that keep everything -/

theorem Complaint.States.contained {statement : String} (h : c.States py v statement) :
    c.expectation.toList <:+: statement.toList := by
  cases c with
  | typed types =>
    rcases h with rfl | rfl | ⟨i, rfl⟩
    · exact ⟨"Expected ".toList, [], by simp [expectation]⟩
    · exact ⟨"Expected ".toList, ", got null".toList, by simp [expectation]⟩
    · exact ⟨("Item at index " ++ toString i ++ ": Expected ").toList, [], by simp [expectation]⟩
  | oneOf items =>
    obtain ⟨shown, -, rfl⟩ := h
    exact ⟨("Value '" ++ shown ++ "' is not allowed. Must be one of: ").toList, [], by
      simp [expectation]⟩
  | missing quotes name =>
    obtain rfl := h
    exact ⟨"Missing required field: '".toList, "'".toList, by simp [expectation]⟩
  | unexpected quotes name =>
    obtain rfl := h
    exact ⟨"Unexpected field: '".toList, "'".toList, by simp [expectation]⟩

variable {letters : Letters py} {steps : List (PathStep letters)}

theorem translateError_message (steps : List (PathStep letters)) (c : Complaint) (data : PyVal) :
    translateError py (c.message steps) data =
      (readMessage (worded (steps.map PathStep.segment)
        (rewriteIndices py false c.tail.toList))).translate py data := by
  rw [translateError, rewriteIndices_message]
  rfl

theorem pathKeys_sublist (steps : List (PathStep letters)) :
    ((pathKeys steps).map String.toList).Sublist (steps.map PathStep.segment) := by
  induction steps with
  | nil => exact .slnil
  | cons step steps ih =>
    cases step with
    | key k hk => exact ih.cons_cons k.toList
    | index _ i => exact ih.cons _

/-- **A statement of the complaint behind the fields of all keys keeps everything**, unless it
is wrong about null. -/
theorem keeps_of_states {statement : String}
    (hkeys : ((pathKeys steps).map String.toList).Sublist parts)
    (hparts : parts.Sublist (steps.map PathStep.segment)) (hstates : c.States py v statement)
    (hnull : "got null".toList <:+: statement.toList → v = .none) :
    Keeps steps c v (fieldPrefix parts ++ statement) where
  named := by
    have hmarks : ((pathKeys steps).map fun k => "Field '" ++ k ++ "'") =
        ((pathKeys steps).map String.toList).map fieldMark := by
      simp [fieldMark]
    rw [hmarks, String.toList_append]
    exact inOrder_fieldPrefix hkeys _
  contained := by
    rw [containsStr_iff, String.toList_append]
    exact hstates.contained.trans (List.suffix_append _ _).isInfix
  null := by
    intro h
    rw [containsStr_iff, String.toList_append, gotNull_infix_iff fun q hq =>
      unreserved_segments steps q (hparts.subset hq)] at h
    exact hnull h
  placed := ⟨parts, statement, rfl, hparts, hstates⟩

end
end Rxon
