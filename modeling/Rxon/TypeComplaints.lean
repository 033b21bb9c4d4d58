import Rxon.ComplaintTexts

/-! # Complaints about a type

A message with a list of types is read as it is meant, whatever its path is, unless a key
makes it one of schemas (`typed_keeps_iff`): no words of a pattern stand in a list of types. -/

namespace Rxon

section
variable {w b y t : List Char} {segs : List (List Char)}

/-- A word stands in a list of types only if it stands in one of them. -/
theorem not_infix_typeText (hw : w ≠ []) (hblank : ' ' ∉ w) (hor : ¬ w <:+: "or".toList)
    (hname : ∀ type : JsonType, ¬ w <:+: (typeName type).toList) (types : List JsonType) :
    ¬ w <:+: (typeText types).toList := by
  induction types with
  | nil => exact fun h => hw (List.infix_nil.mp h)
  | cons type types ih =>
    cases types with
    | nil => exact hname type
    | cons type' types =>
      have htext : (typeText (type :: type' :: types)).toList =
          (typeName type).toList ++
            ' ' :: ("or".toList ++ ' ' :: (typeText (type' :: types)).toList) := by
        rw [typeText, List.map_cons, List.map_cons, String.intercalate_cons_cons,
          String.toList_append, String.toList_append, List.append_assoc]
        rfl
      rw [htext, List.infix_cut hblank, List.infix_cut hblank]
      exact fun h => h.elim (hname type) fun h => h.elim hor ih

theorem not_mem_typeText {c : Char} (hblank : c ≠ ' ') (hor : c ∉ "or".toList)
    (hname : ∀ type : JsonType, c ∉ (typeName type).toList) (types : List JsonType) :
    c ∉ (typeText types).toList := by
  simp only [← List.singleton_infix_iff] at hor hname ⊢
  exact not_infix_typeText (List.cons_ne_nil c []) (by simpa using hblank.symm) hor hname types

/-- The words behind the path. -/
def typeWords (types : List JsonType) : List Char := "must be ".toList ++ (typeText types).toList

theorem not_mem_typeWords {c : Char} (hc : c ∉ "must be or".toList)
    (hname : ∀ type : JsonType, c ∉ (typeName type).toList) (types : List JsonType) :
    c ∉ ' ' :: typeWords types := by
  intro hmem
  rcases List.mem_cons.mp hmem with rfl | hmem
  · exact hc (by decide)
  rcases List.mem_append.mp hmem with hmem | hmem
  · exact hc (List.IsInfix.subset ⟨[], "or".toList, rfl⟩ hmem)
  · refine not_mem_typeText ?_ (fun h => hc (List.IsInfix.subset ⟨"must be ".toList, [], rfl⟩ h))
      hname types hmem
    rintro rfl
    exact hc (by decide)

/-- Only the words at the beginning are those of the pattern. -/
theorem eq_nil_of_divides {types : List JsonType}
    (h : Divides " must be " "" (' ' :: typeWords types) y b t) : y = [] := by
  cases y with
  | nil => rfl
  | cons c y =>
    have hstarts : List.StartsNowhere " must be ".toList "must be".toList := by
      unfold List.StartsNowhere
      decide
    have heq : "must be".toList ++ ' ' :: (typeText types).toList =
        y ++ (" must be ".toList ++ (b ++ ("".toList ++ t))) :=
      (List.cons.inj h.eq).2
    obtain ⟨m, -, hm⟩ := hstarts.drop heq
    have hmu : ['m', 'u'] <:+: ' ' :: (typeText types).toList := by
      rw [hm]
      exact ⟨m ++ [' '], _, by simp [List.append_assoc]; rfl⟩
    refine absurd (List.infix_of_infix_cons (by decide) hmu) ?_
    refine not_infix_typeText (by decide) (by decide) (by decide) (fun type => ?_) types
    cases type
    all_goals decide

theorem divides_typeWords (types : List JsonType) :
    Divides " must be " "" (' ' :: typeWords types) [] (typeText types).toList [] := by
  refine ⟨congrArg (" must be ".toList ++ ·) (List.append_nil _).symm, List.not_mem_nil, ?_⟩
  refine not_mem_typeText (by decide) (by decide) (fun type => ?_) types
  cases type
  all_goals decide

/-- The longest group holds all types. -/
theorem eq_typeText_of_longest {types : List JsonType}
    (h : Longest " must be " "" (' ' :: typeWords types) b) : b = (typeText types).toList := by
  obtain ⟨t, hdiv, hlongest⟩ := h
  have hlen := hlongest _ _ (divides_typeWords types)
  have heq : (typeText types).toList = b ++ t := by
    have h : " must be ".toList ++ (typeText types).toList = " must be ".toList ++ (b ++ t) :=
      hdiv.eq
    exact List.append_cancel_left h
  rw [heq, List.length_append] at hlen
  rw [heq, List.eq_nil_of_length_eq_zero (by omega : t.length = 0), List.append_nil]

/-- Each of these words has a character that stands in no list of types. -/
theorem words_not_mem (types : List JsonType) :
    'f' ∉ ' ' :: typeWords types ∧ '[' ∉ ' ' :: typeWords types ∧
      '\x7b' ∉ ' ' :: typeWords types := by
  refine ⟨not_mem_typeWords (by decide) (fun type => ?_) types,
    not_mem_typeWords (by decide) (fun type => ?_) types,
    not_mem_typeWords (by decide) (fun type => ?_) types⟩
  all_goals cases type <;> decide

theorem not_schematic_typed (types : List JsonType) (hsegs : ∀ p ∈ segs, Unreserved p)
    (hkeys : ∀ p ∈ segs, ¬ "anyOf".toList <:+: p) :
    ¬ Schematic (worded segs (' ' :: typeWords types)) := by
  have hf : 'f' ∉ typeWords types := fun h =>
    (words_not_mem types).1 (List.mem_cons_of_mem ' ' h)
  rw [schematic_worded hsegs fun h => hf (h.subset (by decide))]
  rintro (⟨p, hp, h⟩ | h | h)
  · exact hkeys p hp h
  · exact hf (h.subset (by decide))
  · exact hf (h.subset (by decide))

/-- **A list of types is read as it is meant.** -/
theorem read_typed (types : List JsonType) (hsegs : ∀ p ∈ segs, Unreserved p)
    (hkeys : ∀ p ∈ segs, ¬ "anyOf".toList <:+: p) :
    (segs = [] ∧ readMessage (worded segs (' ' :: typeWords types)) =
      .whole (typeText types).toList) ∨
    ∃ path, '.' :: path = dotted segs ∧ readMessage (worded segs (' ' :: typeWords types)) =
      .typed path (typeText types).toList := by
  obtain ⟨hf, hbracket, hbrace⟩ := words_not_mem types
  have hfrom := readMessage_from hsegs (typeWords types)
  generalize readMessage (worded segs (' ' :: typeWords types)) = r at hfrom ⊢
  cases r with
  | anyOf => exact absurd hfrom (not_schematic_typed types hsegs hkeys)
  | oneOf path b =>
    rcases hfrom with ⟨y, t, -, hdiv⟩ | ⟨-, -, t, hdiv, -⟩
    · exact absurd (hdiv.mem (by decide)) hf
    · exact absurd (hdiv.mem (by decide)) hf
  | missing path b =>
    obtain ⟨-, y, t, -, hdiv⟩ := hfrom
    exact absurd (hdiv.mem (by decide)) hbracket
  | unexpected path b =>
    obtain ⟨-, -, y, t, -, hdiv⟩ := hfrom
    exact absurd (hdiv.mem (by decide)) hbrace
  | typed path b =>
    obtain ⟨-, -, -, y, t, hy, hdiv⟩ := hfrom
    obtain rfl := eq_nil_of_divides hdiv.toDivides
    rw [List.append_nil] at hy
    rw [eq_typeText_of_longest hdiv.longest]
    exact Or.inr ⟨path, hy, rfl⟩
  | whole b =>
    obtain ⟨-, -, -, hnil, hlongest⟩ := hfrom
    rw [eq_typeText_of_longest hlongest]
    exact Or.inl ⟨hnil, rfl⟩
  | other msg =>
    obtain ⟨-, -, -, hunread, -⟩ := hfrom
    exact absurd (divides_typeWords types) hunread.not_divides

end

section
variable {py : PyText} {letters : Letters py} {steps : List (PathStep letters)} {data v : PyVal}

theorem tail_typed (types : List JsonType) :
    rewriteIndices py false (Complaint.typed types).tail.toList = ' ' :: typeWords types := by
  have htail : (Complaint.typed types).tail.toList = ' ' :: typeWords types := by
    show (" must be " ++ typeText types).toList = _
    rw [String.toList_append]
    rfl
  rw [htail, rewriteIndices_of_not_mem (words_not_mem types).2.1]

/-- What is said of a type says `got null` only of null. -/
theorem states_nullNote (types : List JsonType) (v : PyVal) :
    (Complaint.typed types).States py v ("Expected " ++ typeText types ++ nullNote v) := by
  cases v with
  | none => exact Or.inr (Or.inl rfl)
  | _ => exact Or.inl String.append_empty

theorem go_not_infix (types : List JsonType) :
    ¬ ['g', 'o'] <:+: "Expected".toList ++ ' ' :: (typeText types).toList := by
  rw [List.infix_cut (by decide)]
  refine fun h => h.elim (by decide) (not_infix_typeText (by decide) (by decide) (by decide)
    (fun type => ?_) types)
  cases type
  all_goals decide

theorem eq_none_of_gotNull {types : List JsonType}
    (h : "got null".toList <:+: ("Expected " ++ typeText types ++ nullNote v).toList) :
    v = .none := by
  by_contra hv
  have hnote : nullNote v = "" := by
    cases v with
    | none => exact absurd rfl hv
    | _ => rfl
  rw [hnote, String.append_empty, String.toList_append] at h
  exact go_not_infix types (List.IsInfix.trans ⟨[], "t null".toList, rfl⟩ h)

theorem not_gotNull_item (types : List JsonType) (i : Nat) : ¬ "got null".toList <:+:
    ("Item at index " ++ toString i ++ ": Expected " ++ typeText types).toList := by
  intro h
  have htext : ("Item at index " ++ toString i ++ ": Expected " ++ typeText types).toList =
      "Item at index".toList ++ ' ' :: ((toString i).toList ++ ':' ::
        ' ' :: ("Expected".toList ++ ' ' :: (typeText types).toList)) := by
    simp only [String.toList_append, List.append_assoc]
    rfl
  rw [htext] at h
  have hgo : ['g', 'o'] <:+: "got null".toList := ⟨[], "t null".toList, rfl⟩
  replace hgo := hgo.trans h
  rcases (List.infix_cut (by decide)).mp hgo with hgo | hgo
  · exact absurd hgo (by decide)
  rcases (List.infix_cut (by decide)).mp hgo with hgo | hgo
  · exact absurd (of_mem_toString (hgo.subset List.mem_cons_self)).1 (by decide)
  · exact go_not_infix types (List.infix_of_infix_cons (by decide) hgo)

/-- Behind a path, what is said of a type comes behind the fields of its keys. -/
theorem typed_path_keeps (types : List JsonType) (hsteps : StepsTo steps data v) {path : List Char}
    (hpath : '.' :: path = dotted (steps.map PathStep.segment)) :
    ∃ text, (Reading.typed path (typeText types).toList).translate py data = .ok text ∧
      Keeps steps (.typed types) v text := by
  have hval := getValByPath_eq hpath hsteps
  have hsplit := splitOn_path hpath
  rcases List.eq_nil_or_concat steps with rfl | ⟨init, step, rfl⟩
  · cases hpath
  rw [List.concat_eq_append] at hsplit ⊢
  rw [List.map_append, List.map_singleton] at hsplit
  cases step with
  | key k hk =>
    refine ⟨_, (translate_typed_field hsplit hk.not_isDigits).mpr ⟨v, hval, rfl⟩, ?_⟩
    rw [String.ofList_toList]
    have hparts : init.map PathStep.segment ++ [(PathStep.key k hk).segment] =
        (init ++ [PathStep.key k hk]).map PathStep.segment := by
      rw [List.map_append, List.map_singleton]
    rw [hparts]
    exact keeps_of_states (pathKeys_sublist _) (List.Sublist.refl _) (states_nullNote types v)
      eq_none_of_gotNull
  | index bracketed i =>
    replace hsplit : path.splitOn '.' =
        init.map PathStep.segment ++ [(toString i).toList] := hsplit
    have hkeys : pathKeys (init ++ [.index bracketed i]) = pathKeys init := by
      rw [pathKeys, List.filterMap_append]
      exact List.append_nil _
    have hparts : (init.map PathStep.segment).Sublist
        ((init ++ [PathStep.index bracketed i]).map PathStep.segment) := by
      rw [List.map_append]
      exact List.sublist_append_left _ _
    have hstatement : "Item at index " ++ toString i ++ ": " ++ ("Expected " ++ typeText types) =
        "Item at index " ++ toString i ++ ": Expected " ++ typeText types := by
      rw [← String.toList_inj]
      simp only [String.toList_append, List.append_assoc]
      rfl
    refine ⟨_, translate_typed_item hsplit (isDigits_toString i), ?_⟩
    rw [String.ofList_toList, String.ofList_toList, hstatement]
    exact keeps_of_states (hkeys ▸ pathKeys_sublist init) hparts (Or.inr (Or.inr ⟨i, rfl⟩))
      fun h => absurd h (not_gotNull_item types i)

/-- **A complaint about a type keeps everything iff no key makes it one of schemas.** -/
theorem typed_keeps_iff (types : List JsonType) (hsteps : StepsTo steps data v) :
    (∃ text, translateError py ((Complaint.typed types).message steps) data = .ok text ∧
      Keeps steps (.typed types) v text) ↔ ∀ k ∈ pathKeys steps, containsStr k "anyOf" = false := by
  rw [translateError_message, tail_typed, ← anyOf_segments_iff]
  have hsegs := unreserved_segments steps
  constructor
  · rintro ⟨text, htext, hkeeps⟩ p hp hany
    refine not_schematic_of_placed htext hkeeps.placed (Or.inl ?_)
    exact anyOf_infix_worded hp hany
  · intro hkeys
    rcases read_typed types hsegs hkeys with ⟨hnil, hread⟩ | ⟨path, hpath, hread⟩
    · obtain rfl := List.map_eq_nil_iff.mp hnil
      cases hsteps
      rw [hread, translate_whole, String.ofList_toList]
      have hkeeps : Keeps ([] : List (PathStep letters)) (.typed types) data
          (fieldPrefix [] ++ ("Expected " ++ typeText types ++ nullNote data)) :=
        keeps_of_states .slnil .slnil (states_nullNote types data) eq_none_of_gotNull
      have hempty : ∀ s : String, fieldPrefix [] ++ s = s := fun _ => String.empty_append
      rw [hempty] at hkeeps
      exact ⟨_, rfl, hkeeps⟩
    · rw [hread]
      exact typed_path_keeps types hsteps hpath

end
end Rxon
