import Rxon.ComplaintTexts

/-! # Complaints about an enum

The list of a message is kept iff it is one line, holds no index and names no schemas, and
no separator in it can be taken for the one behind the path (`readable_of_keeps_oneOf`,
`keeps_oneOf_of_readable`).  What the text says of null it also says with the value that is
shown. -/

namespace Rxon

/-- The words behind the path. -/
def listWords (l : List Char) : List Char := "must be one of ".toList ++ l

/-- A list, as it is printed. -/
def printedList (items : String) : List Char := '[' :: (items.toList ++ [']'])

section
variable {b l path : List Char} {segs : List (List Char)} {items : String}

theorem divides_listWords {t : List Char} (hb : '\n' ∉ b) (h : l = b ++ t) :
    Divides " must be one of " "" (' ' :: listWords l) [] b t :=
  ⟨congrArg (" must be one of ".toList ++ ·) h, List.not_mem_nil, hb⟩

/-- **A message with a list is read as one**, with a path that may have strayed. -/
theorem read_oneOf (hsegs : ∀ p ∈ segs, Unreserved p)
    (hplain : ¬ Schematic (worded segs (' ' :: listWords l))) :
    ∃ path b, readMessage (worded segs (' ' :: listWords l)) = .oneOf path b ∧
      (Reading.oneOf path b).From segs (' ' :: listWords l) := by
  have hfrom := readMessage_from hsegs (listWords l)
  have hdiv := divides_listWords (b := []) List.not_mem_nil (List.nil_append l).symm
  generalize readMessage (worded segs (' ' :: listWords l)) = r at hfrom ⊢
  cases r with
  | anyOf => exact absurd hfrom hplain
  | oneOf path b => exact ⟨path, b, rfl, hfrom⟩
  | missing | unexpected | typed | whole | other => exact absurd hdiv hfrom.1.not_divides

theorem schematic_listWords :
    Schematic (listWords (printedList items)) ↔ Schematic items.toList := by
  have hwords : ¬ Schematic "must be one of ".toList := by
    unfold Schematic
    decide
  have hnil : ¬ Schematic [] := by
    unfold Schematic
    decide
  calc Schematic (listWords (printedList items))
      ↔ Schematic "must be one of ".toList ∨ Schematic (items.toList ++ [']']) :=
        schematic_cut (c := '[') (by decide) (by decide)
    _ ↔ Schematic (items.toList ++ ']' :: []) := or_iff_right hwords
    _ ↔ Schematic items.toList ∨ Schematic [] := schematic_cut (by decide) (by decide)
    _ ↔ Schematic items.toList := or_iff_left hnil

theorem schematic_list (hsegs : ∀ p ∈ segs, Unreserved p) :
    Schematic (worded segs (' ' :: listWords (printedList items))) ↔
      (∃ p ∈ segs, "anyOf".toList <:+: p) ∨ Schematic items.toList := by
  rw [schematic_worded hsegs, schematic_listWords]
  intro h
  exact absurd (List.cons_prefix_cons.mp h).1 (by decide)

/-- The longest group holds the whole list, if that is one line. -/
theorem eq_of_longest_list (hline : '\n' ∉ l)
    (h : Longest " must be one of " "" (' ' :: listWords l) b) : b = l := by
  obtain ⟨t, hdiv, hlongest⟩ := h
  have hlen := hlongest _ _ (divides_listWords hline (List.append_nil l).symm)
  have heq : l = b ++ t := by
    have h : " must be one of ".toList ++ l = " must be one of ".toList ++ (b ++ t) := hdiv.eq
    exact List.append_cancel_left h
  rw [heq, List.length_append] at hlen
  rw [heq, List.eq_nil_of_length_eq_zero (by omega : t.length = 0), List.append_nil]

/-- A path strays only into a separator of the list. -/
theorem contains_of_divides {y t : List Char} (hy : y ≠ [])
    (h : Divides " must be one of " "" (' ' :: listWords (printedList items)) y b t) :
    containsStr items " must be one of " = true := by
  obtain ⟨c, y, rfl⟩ := List.exists_cons_of_ne_nil hy
  have hstarts : List.StartsNowhere " must be one of ".toList "must be one of [".toList := by
    unfold List.StartsNowhere
    decide
  have heq : "must be one of [".toList ++ (items.toList ++ [']']) =
      y ++ (" must be one of ".toList ++ (b ++ ("".toList ++ t))) :=
    (List.cons.inj h.eq).2
  obtain ⟨m, -, hm⟩ := hstarts.drop heq
  have hinfix : " must be one of ".toList <:+: items.toList ++ ']' :: [] := by
    rw [hm]
    exact (List.prefix_append _ _).isInfix.trans (List.suffix_append m _).isInfix
  rw [containsStr_iff]
  exact ((List.infix_cut (by decide)).mp hinfix).resolve_right (by decide)

theorem divides_of_contains (hline : '\n' ∉ items.toList)
    (h : containsStr items " must be one of " = true) : ∃ y t, y ≠ [] ∧
      Divides " must be one of " "" (' ' :: listWords (printedList items)) y [] t := by
  obtain ⟨x, y, hxy⟩ := containsStr_iff.mp h
  refine ⟨" must be one of [".toList ++ x, y ++ [']'], by simp, ⟨?_, ?_, List.not_mem_nil⟩⟩
  · have heq : printedList items = '[' :: (x ++ (" must be one of ".toList ++ (y ++ [']']))) := by
      rw [printedList, ← hxy]
      simp only [List.append_assoc]
    rw [heq]
    simp only [List.append_assoc]
    rfl
  · intro hmem
    rcases List.mem_append.mp hmem with hmem | hmem
    · exact absurd hmem (by decide)
    · rw [← hxy] at hline
      exact hline (List.mem_append_left _ (List.mem_append_left _ hmem))

end

section
variable {py : PyText} {letters : Letters py} {steps : List (PathStep letters)} {data v : PyVal}
  {path b : List Char} {items text shown : String}

theorem toList_printedList (items : String) : ("[" ++ items ++ "]").toList = printedList items := by
  simp [printedList, String.toList_append]

theorem tail_oneOf (items : String) : rewriteIndices py false (Complaint.oneOf items).tail.toList =
    ' ' :: listWords (rewriteIndices py false (printedList items)) := by
  have htail : (Complaint.oneOf items).tail.toList =
      " must be one of ".toList ++ printedList items := by
    show (" must be one of [" ++ items ++ "]").toList = _
    rw [String.toList_append, String.toList_append, List.append_assoc]
    rfl
  rw [htail, rewriteIndices_append (by decide)]
  rfl

/-- A path that has not strayed is the path of the value. -/
theorem value_of_clean (hsteps : StepsTo steps data v)
    (hclean : (path = [] ∧ steps.map PathStep.segment = []) ∨
      '.' :: path = dotted (steps.map PathStep.segment)) :
    getValByPath py data path = .ok v ∧ segments path = steps.map PathStep.segment := by
  rcases hclean with ⟨rfl, hnil⟩ | hpath
  · obtain rfl := List.map_eq_nil_iff.mp hnil
    cases hsteps
    exact ⟨rfl, rfl⟩
  · exact ⟨getValByPath_eq hpath hsteps, segments_path hpath⟩

/-- What is said of a value and a list. -/
theorem translate_clean_oneOf (hsteps : StepsTo steps data v)
    (hclean : (path = [] ∧ steps.map PathStep.segment = []) ∨
      '.' :: path = dotted (steps.map PathStep.segment)) :
    (Reading.oneOf path b).translate py data = .ok text ↔ ∃ shown, py.str v = .ok shown ∧
      text = fieldPrefix (steps.map PathStep.segment) ++
        ("Value '" ++ shown ++ "' is not allowed. Must be one of: " ++ String.ofList b) := by
  obtain ⟨hval, hparts⟩ := value_of_clean hsteps hclean
  rw [translate_oneOf, hval, hparts]
  simp only [Except.ok.injEq, exists_and_left, exists_eq_left']

/-- **A text in its place shows the list that was read.** -/
theorem eq_of_placed_oneOf (hshown : py.str v = .ok shown)
    (hplaced : (Complaint.oneOf items).Placed py (steps.map PathStep.segment) v
      (fieldPrefix (steps.map PathStep.segment) ++
        ("Value '" ++ shown ++ "' is not allowed. Must be one of: " ++ String.ofList b))) :
    b = printedList items := by
  have hhead : ("Value '" ++ shown ++ "' is not allowed. Must be one of: " ++
      String.ofList b).toList.head? ≠ some 'F' := by
    simp only [String.append_assoc]
    rw [String.toList_append]
    exact fun h => absurd (Option.some.inj h) (by decide)
  obtain ⟨shown', hshown', hstatement⟩ := hplaced.states (unreserved_segments steps) hhead
  obtain rfl : shown = shown' := Except.ok.inj (hshown.symm.trans hshown')
  have hwords : "' is not allowed. Must be one of: [".toList =
      "' is not allowed. Must be one of: ".toList ++ ['['] := rfl
  replace hstatement := congrArg String.toList hstatement
  simp only [String.toList_append, List.append_assoc, hwords, List.append_cancel_left_eq]
    at hstatement
  rw [← String.toList_ofList (l := b), hstatement]
  rfl

/-- **The path of a text in its place has not strayed**, and nothing else could be taken for
it. -/
theorem clean_of_placed {c : Complaint} {rest : List Char}
    (hfrom : (Reading.oneOf path b).From (steps.map PathStep.segment) (' ' :: rest))
    (htext : (Reading.oneOf path b).translate py data = .ok text)
    (hplaced : c.Placed py (steps.map PathStep.segment) v text) :
    ((path = [] ∧ steps.map PathStep.segment = []) ∨
      '.' :: path = dotted (steps.map PathStep.segment)) ∧
    Longest " must be one of " "" (' ' :: rest) b ∧
    (steps = [] ∨ ∀ y b t, Divides " must be one of " "" (' ' :: rest) y b t → y = []) := by
  rcases hfrom with ⟨y, t, hy, hdiv⟩ | ⟨hpath, hnil, hlongest⟩
  · have hstrays : ¬ (Reading.oneOf path b).Strays (steps.map PathStep.segment) := fun h =>
      h.not_placed (unreserved_segments steps) htext hplaced
    obtain rfl := hdiv.eq_nil hy hstrays
    rw [List.append_nil] at hy
    exact ⟨Or.inr hy, hdiv.longest, Or.inr fun _ _ _ => hdiv.only⟩
  · exact ⟨Or.inl ⟨hpath, hnil⟩, hlongest, Or.inl (List.map_eq_nil_iff.mp hnil)⟩

/-- What is read as the list is the list only if nothing in it was rewritten. -/
theorem rewriteIndices_eq_of_append {l t : List Char}
    (h : rewriteIndices py false l = l ++ t) : rewriteIndices py false l = l := by
  rcases count_rewriteIndices py l with heq | hlt
  · exact heq
  · rw [h, List.count_append] at hlt
    omega

/-- **An enum that is kept can be read.** -/
theorem readable_of_keeps_oneOf (hsteps : StepsTo steps data v)
    (htext : translateError py ((Complaint.oneOf items).message steps) data = .ok text)
    (hkeeps : Keeps steps (.oneOf items) v text) : Readable steps (.oneOf items) v := by
  have hsegs := unreserved_segments steps
  rw [translateError_message, tail_oneOf] at htext
  have hplain := not_schematic_of_placed htext hkeeps.placed
  obtain ⟨path, b, hread, hfrom⟩ := read_oneOf hsegs hplain
  rw [hread] at htext
  obtain ⟨hclean, ⟨t, hdiv, -⟩, honly⟩ := clean_of_placed hfrom htext hkeeps.placed
  obtain ⟨shown, hshown, rfl⟩ := (translate_clean_oneOf hsteps hclean).mp htext
  obtain rfl := eq_of_placed_oneOf hshown hkeeps.placed
  -- so the list is what was read
  have hlist : rewriteIndices py false (printedList items) = printedList items := by
    refine rewriteIndices_eq_of_append (t := t) ?_
    have h : " must be one of ".toList ++ rewriteIndices py false (printedList items) =
      " must be one of ".toList ++ (printedList items ++ t) := hdiv.eq
    exact List.append_cancel_left h
  rw [hlist] at hplain honly
  have hwords := fun h => hplain ((schematic_list hsegs).mpr h)
  have hline : '\n' ∉ items.toList := fun hmem =>
    hdiv.line' (List.mem_cons_of_mem '[' (List.mem_append_left _ hmem))
  refine ⟨(anyOf_segments_iff steps).mp fun p hp hany => hwords (Or.inl ⟨p, hp, hany⟩),
    fun h => hwords (Or.inr h), hline, ?_, ?_, shown, hshown, ?_⟩
  · rw [toList_printedList, ← rewriteIndices_eq_self_iff, hlist]
  · refine honly.imp_right fun honly => ?_
    rw [← Bool.not_eq_true]
    intro hcontains
    obtain ⟨y, t, hy, hdiv⟩ := divides_of_contains hline hcontains
    exact hy (honly y [] t hdiv)
  · by_cases hv : v = .none
    · exact Or.inl hv
    have hsilent : ∀ s : String, s.toList <:+: (fieldPrefix (steps.map PathStep.segment) ++
        ("Value '" ++ shown ++ "' is not allowed. Must be one of: " ++
          String.ofList (printedList items))).toList → containsStr s "got null" = false := by
      intro s hs
      rw [← Bool.not_eq_true, containsStr_iff]
      exact fun h => hv (hkeeps.null (containsStr_iff.mpr (h.trans hs)))
    refine Or.inr ⟨hsilent shown ⟨(fieldPrefix (steps.map PathStep.segment) ++ "Value '").toList,
      ("' is not allowed. Must be one of: " ++ String.ofList (printedList items)).toList, ?_⟩,
      hsilent items ⟨(fieldPrefix (steps.map PathStep.segment) ++ "Value '" ++ shown ++
        "' is not allowed. Must be one of: [").toList, [']'], ?_⟩⟩
    · simp [String.toList_append]
    · simp [String.toList_append, printedList]

theorem eq_none_of_gotNull_list (hnull : v = .none ∨
      containsStr shown "got null" = false ∧ containsStr items "got null" = false)
    (h : "got null".toList <:+: ("Value '" ++ shown ++ "' is not allowed. Must be one of: [" ++
      items ++ "]").toList) : v = .none := by
  refine hnull.resolve_right ?_
  rw [← Bool.not_eq_true, ← Bool.not_eq_true, containsStr_iff, containsStr_iff]
  rintro ⟨hshown, hitems⟩
  have htext : ("Value '" ++ shown ++ "' is not allowed. Must be one of: [" ++ items ++
      "]").toList = "Value ".toList ++ '\'' :: (shown.toList ++ '\'' ::
        (" is not allowed. Must be one of: ".toList ++ '[' :: (items.toList ++ ']' :: []))) := by
    simp only [String.toList_append, List.append_assoc]
    rfl
  rw [htext] at h
  rcases (List.infix_cut (by decide)).mp h with h | h
  · exact absurd h (by decide)
  rcases (List.infix_cut (by decide)).mp h with h | h
  · exact hshown h
  rcases (List.infix_cut (by decide)).mp h with h | h
  · exact absurd h (by decide)
  rcases (List.infix_cut (by decide)).mp h with h | h
  · exact hitems h
  · exact absurd h (by decide)

/-- **An enum that can be read is read as it is meant.** -/
theorem read_readable_list (h : Readable steps (.oneOf items) v) :
    ∃ path, readMessage (worded (steps.map PathStep.segment)
        (rewriteIndices py false (Complaint.oneOf items).tail.toList)) =
          .oneOf path (printedList items) ∧
      ((path = [] ∧ steps.map PathStep.segment = []) ∨
        '.' :: path = dotted (steps.map PathStep.segment)) := by
  have hsegs := unreserved_segments steps
  obtain ⟨hkeys, hitems, hline, hindex, hseparator, -⟩ := h
  have hlist : rewriteIndices py false (printedList items) = printedList items := by
    rw [rewriteIndices_eq_self_iff, ← toList_printedList]
    exact hindex
  rw [tail_oneOf, hlist]
  have hplain : ¬ Schematic (worded (steps.map PathStep.segment)
      (' ' :: listWords (printedList items))) := by
    rw [schematic_list hsegs]
    rintro (⟨p, hp, hany⟩ | hschematic)
    · exact (anyOf_segments_iff steps).mpr hkeys p hp hany
    · exact hitems hschematic
  obtain ⟨path, b, hread, hfrom⟩ := read_oneOf hsegs hplain
  obtain ⟨hclean, hlongest⟩ : ((path = [] ∧ steps.map PathStep.segment = []) ∨
      '.' :: path = dotted (steps.map PathStep.segment)) ∧
      Longest " must be one of " "" (' ' :: listWords (printedList items)) b := by
    rcases hfrom with ⟨y, t, hy, hdiv⟩ | ⟨hpath, hnil, hlongest⟩
    · by_cases hne : y = []
      · subst hne
        rw [List.append_nil] at hy
        exact ⟨Or.inr hy, hdiv.longest⟩
      · exfalso
        have hcontains := contains_of_divides hne hdiv.toDivides
        rcases hseparator with rfl | hseparator
        · obtain ⟨z, rfl⟩ := hdiv.blank hne
          exact absurd (List.cons.inj hy).1 (by decide)
        · rw [hcontains] at hseparator
          cases hseparator
    · exact ⟨Or.inl ⟨hpath, hnil⟩, hlongest⟩
  have hprinted : '\n' ∉ printedList items := by
    simp [printedList, hline]
  obtain rfl := eq_of_longest_list hprinted hlongest
  exact ⟨path, hread, hclean⟩

/-- **An enum that can be read is kept.** -/
theorem keeps_oneOf_of_readable (hsteps : StepsTo steps data v)
    (h : Readable steps (.oneOf items) v) :
    ∃ text, translateError py ((Complaint.oneOf items).message steps) data = .ok text ∧
      Keeps steps (.oneOf items) v text := by
  obtain ⟨path, hread, hclean⟩ := read_readable_list h
  obtain ⟨-, -, -, -, -, shown, hshown, hnull⟩ := h
  rw [translateError_message, hread]
  refine ⟨_, (translate_clean_oneOf hsteps hclean).mpr ⟨shown, hshown, rfl⟩, ?_⟩
  have hstatement : "Value '" ++ shown ++ "' is not allowed. Must be one of: " ++
      String.ofList (printedList items) =
      "Value '" ++ shown ++ "' is not allowed. Must be one of: [" ++ items ++ "]" := by
    have hopen : "' is not allowed. Must be one of: [" =
        "' is not allowed. Must be one of: " ++ "[" := rfl
    rw [← toList_printedList, String.ofList_toList, hopen]
    simp only [String.append_assoc]
  rw [hstatement]
  exact keeps_of_states (pathKeys_sublist steps) (List.Sublist.refl _) ⟨shown, hshown, rfl⟩
    (eq_none_of_gotNull_list hnull)

end
end Rxon
