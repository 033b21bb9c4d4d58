import Rxon.ComplaintTexts

/-! # The patterns for fields

A field that is missing and a field that is not expected are named between brackets, with
quotes around them, and read by two patterns that differ in their words and in their
brackets (`FieldPattern`).  A name that was read as it is can be read
(`FieldPattern.readable_of_divides`). -/

namespace Rxon

/-- The patterns for a field. -/
inductive FieldPattern
  | missing | unexpected

namespace FieldPattern

/-- What stands before the name in the pattern. -/
def between : FieldPattern → String
  | missing => " must contain ["
  | unexpected => " must not contain \x7b"

/-- What stands behind it. -/
def after : FieldPattern → String
  | missing => "]"
  | unexpected => "\x7d properties"

/-- What stands behind that in a message. -/
def rest : FieldPattern → List Char
  | missing => " properties".toList
  | unexpected => []

def words : FieldPattern → List Char
  | missing => "must contain ".toList
  | unexpected => "must not contain ".toList

def opening : FieldPattern → Char
  | missing => '['
  | unexpected => '\x7b'

def closing : FieldPattern → Char
  | missing => ']'
  | unexpected => '\x7d'

/-- The name between the brackets. -/
def printed (p : FieldPattern) (f : List Char) : List Char := p.opening :: (f ++ [p.closing])

/-- The words behind the path. -/
def around (p : FieldPattern) (f : List Char) : List Char :=
  p.words ++ p.opening :: (f ++ p.closing :: " properties".toList)

/-! ## The words of the patterns -/

variable (p : FieldPattern)

theorem between_eq : p.between.toList = ' ' :: (p.words ++ [p.opening]) := by
  cases p <;> rfl

theorem after_eq : p.after.toList ++ p.rest = p.closing :: " properties".toList := by
  cases p <;> rfl

theorem exists_after_eq : ∃ behind, p.after.toList = p.closing :: behind := by
  cases p
  · exact ⟨_, rfl⟩
  · exact ⟨_, rfl⟩

theorem words_eq : ∃ w, p.words = 'm' :: w := by
  cases p
  · exact ⟨_, rfl⟩
  · exact ⟨_, rfl⟩

theorem line : '\n' ∉ p.between.toList := by
  cases p <;> decide

theorem bracket_not_mem_words : '[' ∉ ' ' :: p.words := by
  cases p <;> decide

theorem bracket_not_mem_rest : ']' ∉ p.rest := by
  cases p <;> decide

theorem words_plain : ¬ Schematic p.words := by
  unfold Schematic
  cases p <;> decide

theorem opening_plain :
    p.opening ∉ "anyOf".toList ∧ p.opening ∉ "cannot be validated by any definition".toList := by
  cases p <;> decide

theorem closing_plain :
    p.closing ∉ "anyOf".toList ∧ p.closing ∉ "cannot be validated by any definition".toList := by
  cases p <;> decide

theorem closing_not_mem : p.closing ∉ " properties".toList := by
  cases p <;> decide

end FieldPattern

/-- The name, as it is printed. -/
def quoted (quotes : Quotes) (name : String) : List Char := (quotes.quote name).toList

section
variable {quotes : Quotes} {name : String} {w : List Char} {c d : Char}

theorem toList_quoted (quotes : Quotes) (name : String) :
    quoted quotes name = quotes.mark.toList ++ (name.toList ++ quotes.mark.toList) := by
  simp [quoted, Quotes.quote, String.toList_append]

theorem mark_subset (quotes : Quotes) : ∀ q ∈ quotes.mark.toList, q ∈ "'\"".toList := by
  cases quotes with
  | bare => exact fun q hq => absurd hq List.not_mem_nil
  | single => exact fun q hq => List.mem_singleton.mp hq ▸ List.mem_cons_self
  | double =>
    exact fun q hq => List.mem_singleton.mp hq ▸ List.mem_cons_of_mem _ List.mem_cons_self

theorem fieldName_quoted (quotes : Quotes) (name : String) :
    fieldName (quoted quotes name) = fieldName name.toList := by
  rw [fieldName, fieldName, toList_quoted, stripChars_quoted (mark_subset quotes)]

theorem mem_quoted (hc : c ∉ "'\"".toList) : c ∈ quoted quotes name ↔ c ∈ name.toList := by
  rw [toList_quoted, List.mem_append, List.mem_append]
  have hmark : c ∉ quotes.mark.toList := fun h => hc (mark_subset quotes c h)
  rw [or_iff_right hmark, or_iff_left hmark]

/-- Words without quotes at their ends stand in the name itself. -/
theorem infix_of_infix_quoted (hc : c ∉ "'\"".toList) (hd : d ∉ "'\"".toList)
    (h : c :: (w ++ [d]) <:+: quoted quotes name) : c :: (w ++ [d]) <:+: name.toList := by
  have hcut : ∀ q ∈ "'\"".toList, c :: (w ++ [d]) <:+: q :: (name.toList ++ [q]) →
      c :: (w ++ [d]) <:+: name.toList := by
    intro q hq h
    have hcq : c ≠ q := fun heq => hc (heq ▸ hq)
    have hdq : d ∉ [q] := fun hmem => hd (List.mem_singleton.mp hmem ▸ hq)
    exact List.infix_of_infix_append (w := c :: w) hdq (List.infix_of_infix_cons hcq h)
  rw [toList_quoted] at h
  cases quotes with
  | bare =>
    have hname : Quotes.bare.mark.toList ++ (name.toList ++ Quotes.bare.mark.toList) =
        name.toList := List.append_nil _
    rwa [hname] at h
  | single => exact hcut '\'' (by decide) h
  | double => exact hcut '"' (by decide) h

theorem schematic_quoted : Schematic (quoted quotes name) ↔ Schematic name.toList := by
  have hnil : ¬ Schematic [] := by
    unfold Schematic
    decide
  have hcut : ∀ q, q ∉ "anyOf".toList → q ∉ "cannot be validated by any definition".toList →
      (Schematic ([] ++ q :: (name.toList ++ q :: [])) ↔ Schematic name.toList) := by
    intro q hq hq'
    calc Schematic ([] ++ q :: (name.toList ++ q :: []))
        ↔ Schematic [] ∨ Schematic (name.toList ++ q :: []) := schematic_cut hq hq'
      _ ↔ Schematic (name.toList ++ q :: []) := or_iff_right hnil
      _ ↔ Schematic name.toList ∨ Schematic [] := schematic_cut hq hq'
      _ ↔ Schematic name.toList := or_iff_left hnil
  rw [toList_quoted]
  cases quotes with
  | bare =>
    have hname : Quotes.bare.mark.toList ++ (name.toList ++ Quotes.bare.mark.toList) =
        name.toList := List.append_nil _
    rw [hname]
  | single => exact hcut '\'' (by decide) (by decide)
  | double => exact hcut '"' (by decide) (by decide)

end

namespace FieldPattern
variable {p : FieldPattern} {py : PyText} {segs : List (List Char)} {b f t y l : List Char}
  {quotes : Quotes} {name : String}

/-! ## What the pattern finds -/

theorem around_eq (p : FieldPattern) (f : List Char) :
    ' ' :: p.around f = p.between.toList ++ (f ++ (p.after.toList ++ p.rest)) := by
  rw [around, p.between_eq, p.after_eq]
  simp

theorem divides_around (hf : '\n' ∉ f) :
    Divides p.between p.after (' ' :: p.around f) [] f p.rest :=
  ⟨p.around_eq f, List.not_mem_nil, hf⟩

/-- The longest group holds the whole name. -/
theorem eq_of_longest (hf : '\n' ∉ f) (h : Longest p.between p.after (' ' :: p.around f) b) :
    b = f := by
  obtain ⟨t, hdiv, hlongest⟩ := h
  have hlen := hlongest f p.rest (divides_around hf)
  obtain ⟨behind, hafter⟩ := p.exists_after_eq
  have heq : f ++ p.closing :: " properties".toList = b ++ p.closing :: (behind ++ t) := by
    have h := (p.around_eq f).symm.trans hdiv.eq
    rw [List.nil_append, List.append_cancel_left_eq, p.after_eq, hafter, List.cons_append] at h
    exact h
  rcases List.cut_cases heq with ⟨hfb, -⟩ | ⟨m, -, hbehind⟩ | ⟨m, hf, -⟩
  · exact hfb.symm
  · refine absurd ?_ p.closing_not_mem
    rw [hbehind]
    exact List.mem_append_right m List.mem_cons_self
  · rw [hf, List.length_append, List.length_cons] at hlen
    omega

/-- What is found beyond the path is found behind the first words of the pattern. -/
theorem exists_behind {between after : String}
    (hstarts : List.StartsNowhere between.toList (p.words ++ [p.opening])) (hy : y ≠ [])
    (h : Divides between after (' ' :: p.around f) y b t) :
    ∃ m, f ++ p.closing :: " properties".toList =
      m ++ (between.toList ++ (b ++ (after.toList ++ t))) := by
  obtain ⟨c, y, rfl⟩ := List.exists_cons_of_ne_nil hy
  have heq : (p.words ++ [p.opening]) ++ (f ++ p.closing :: " properties".toList) =
      y ++ (between.toList ++ (b ++ (after.toList ++ t))) := by
    rw [List.append_assoc]
    exact (List.cons.inj h.eq).2
  obtain ⟨m, -, hm⟩ := hstarts.drop heq
  exact ⟨m, hm⟩

/-- The words that would be looked for with the same name in them. -/
def Looked (p : FieldPattern) (between : String) : Prop :=
  between = " must be one of " ∨ between = p.between

theorem Looked.startsNowhere {between : String} (h : p.Looked between) :
    List.StartsNowhere between.toList (p.words ++ [p.opening]) := by
  unfold List.StartsNowhere
  rcases h with rfl | rfl
  all_goals cases p <;> decide

theorem Looked.not_infix {between : String} (h : p.Looked between) :
    ¬ between.toList <:+: " properties".toList := by
  rcases h with rfl | rfl
  all_goals cases p <;> decide

theorem Looked.closing_not_mem {between : String} (h : p.Looked between) :
    p.closing ∉ between.toList := by
  rcases h with rfl | rfl
  all_goals cases p <;> decide

theorem Looked.ends {between : String} (h : p.Looked between) :
    ∃ w d, between.toList = ' ' :: (w ++ [d]) ∧ d ∉ "'\"".toList := by
  rcases h with rfl | rfl
  · exact ⟨"must be one of".toList, ' ', rfl, by decide⟩
  · exact ⟨p.words, p.opening, p.between_eq, by cases p <;> decide⟩

/-- **What is found beyond the path stands in the name.** -/
theorem contains_of_divides {between after : String} (hlooked : p.Looked between) (hy : y ≠ [])
    (h : Divides between after (' ' :: p.around (quoted quotes name)) y b t) :
    containsStr name between = true := by
  obtain ⟨m, hm⟩ := exists_behind hlooked.startsNowhere hy h
  have hinfix : between.toList <:+: quoted quotes name ++ p.closing :: " properties".toList := by
    rw [hm]
    exact (List.prefix_append _ _).isInfix.trans (List.suffix_append m _).isInfix
  have hquoted := ((List.infix_cut hlooked.closing_not_mem).mp hinfix).resolve_right
    hlooked.not_infix
  obtain ⟨w, d, hends, hd⟩ := hlooked.ends
  rw [containsStr_iff]
  rw [hends] at hquoted ⊢
  exact infix_of_infix_quoted (by decide) hd hquoted

/-- What stands in the name stands in the words, behind those of the pattern. -/
theorem exists_around (p : FieldPattern) (quotes : Quotes) (hline : '\n' ∉ name.toList)
    (h : l <:+: name.toList) :
    ∃ y r, y ≠ [] ∧ '\n' ∉ y ∧ '\n' ∉ r ∧ ' ' :: p.around (quoted quotes name) =
      y ++ (l ++ (r ++ (p.after.toList ++ p.rest))) := by
  obtain ⟨x, r, hname⟩ := h
  rw [← hname, List.mem_append, List.mem_append, not_or, not_or] at hline
  have hquotes : '\n' ∉ quotes.mark.toList := fun hmem =>
    absurd (mark_subset quotes _ hmem) (by decide)
  refine ⟨p.between.toList ++ (quotes.mark.toList ++ x), r ++ quotes.mark.toList, ?_, ?_, ?_, ?_⟩
  · rw [p.between_eq]
    exact List.cons_ne_nil _ _
  · rw [List.mem_append, List.mem_append, not_or, not_or]
    exact ⟨p.line, hquotes, hline.1.1⟩
  · rw [List.mem_append, not_or]
    exact ⟨hline.2, hquotes⟩
  · rw [p.around_eq, toList_quoted, ← hname]
    simp only [List.append_assoc]

/-- Words of the pattern in the name are found behind the first ones. -/
theorem exists_divides (quotes : Quotes) (hline : '\n' ∉ name.toList)
    (h : p.between.toList <:+: name.toList) :
    ∃ y b t, y ≠ [] ∧ Divides p.between p.after (' ' :: p.around (quoted quotes name)) y b t := by
  obtain ⟨y, r, hy, hline, hline', heq⟩ := exists_around p quotes hline h
  exact ⟨y, r, p.rest, hy, heq, hline, hline'⟩

/-- So are words of another pattern that ends in the name. -/
theorem exists_divides_inside (p : FieldPattern) (quotes : Quotes) (between after : String)
    (hline : '\n' ∉ name.toList)
    (h : between.toList ++ (b ++ after.toList) <:+: name.toList) :
    ∃ y t, y ≠ [] ∧ Divides between after (' ' :: p.around (quoted quotes name)) y b t := by
  obtain ⟨y, r, hy, hline', -, heq⟩ := exists_around p quotes hline h
  refine ⟨y, r ++ (p.after.toList ++ p.rest), hy, ?_, hline', fun hmem => hline (h.subset ?_)⟩
  · rw [heq]
    simp only [List.append_assoc]
  · exact List.mem_append_right _ (List.mem_append_left _ hmem)

theorem schematic_around (hsegs : ∀ q ∈ segs, Unreserved q) :
    Schematic (worded segs (' ' :: p.around (quoted quotes name))) ↔
      (∃ q ∈ segs, "anyOf".toList <:+: q) ∨ Schematic name.toList := by
  have hproperties : ¬ Schematic " properties".toList := by
    unfold Schematic
    decide
  have hhead : ¬ "be validated by any definition".toList <+: p.around (quoted quotes name) := by
    obtain ⟨w, hw⟩ := p.words_eq
    rw [around, hw]
    exact fun h => absurd (List.cons_prefix_cons.mp h).1 (by decide)
  have hwords : Schematic (p.around (quoted quotes name)) ↔ Schematic name.toList := by
    calc Schematic (p.around (quoted quotes name))
        ↔ Schematic p.words ∨ Schematic (quoted quotes name ++ p.closing :: " properties".toList) :=
          schematic_cut p.opening_plain.1 p.opening_plain.2
      _ ↔ Schematic (quoted quotes name ++ p.closing :: " properties".toList) :=
          or_iff_right p.words_plain
      _ ↔ Schematic (quoted quotes name) ∨ Schematic " properties".toList :=
          schematic_cut p.closing_plain.1 p.closing_plain.2
      _ ↔ Schematic (quoted quotes name) := or_iff_left hproperties
      _ ↔ Schematic name.toList := schematic_quoted
  rw [schematic_worded hsegs hhead, hwords]

/-! ## What is rewritten -/

/-- **The name is read as it is only if nothing was rewritten.** -/
theorem rewriteIndices_eq_of_divides
    (h : Divides p.between p.after
      (rewriteIndices py false (' ' :: p.around (quoted quotes name))) [] b t)
    (hname : fieldName b = name) :
    rewriteIndices py false (' ' :: p.around (quoted quotes name)) =
      ' ' :: p.around (quoted quotes name) := by
  rcases count_rewriteIndices py (' ' :: p.around (quoted quotes name)) with heq | hlt
  · exact heq
  exfalso
  obtain ⟨u, w, huw⟩ := exists_strip "'\"".toList b
  have hstrip : stripChars "'\"".toList b = name.toList := by
    rw [← hname]
    exact String.toList_ofList.symm
  have hmark : quotes.mark.toList.count ']' = 0 :=
    List.count_eq_zero.mpr fun hmem => absurd (mark_subset quotes _ hmem) (by decide)
  have hrest : p.rest.count ']' = 0 := List.count_eq_zero.mpr p.bracket_not_mem_rest
  rw [h.eq, p.around_eq, toList_quoted, huw, hstrip] at hlt
  simp only [List.nil_append, List.count_append, hmark, hrest] at hlt
  omega

/-- The words at the beginning are left as they are. -/
theorem exists_rewritten (p : FieldPattern) (py : PyText) (f : List Char) :
    ∃ rest, rewriteIndices py false (' ' :: p.around f) = ' ' :: (p.words ++ rest) :=
  ⟨_, rewriteIndices_append p.bracket_not_mem_words⟩

/-- An index stands between the brackets, or with them. -/
theorem hasIndex_around : HasIndex py (' ' :: p.around f) ↔ HasIndex py (p.printed f) := by
  have heq : ' ' :: p.around f = (' ' :: p.words) ++ (p.printed f ++ " properties".toList) := by
    rw [around, printed]
    simp
  rw [heq, hasIndex_append_left p.bracket_not_mem_words, hasIndex_append_right (by decide)]

/-! ## Fields that can be read -/

variable {letters : Letters py} {steps : List (PathStep letters)} {data v : PyVal}
  {bracketed text : String}

/-- **A name that was read can be read.** -/
theorem readable_of_divides (hbracketed : bracketed.toList = p.printed (quoted quotes name))
    (hplain : ¬ Schematic (worded (steps.map PathStep.segment)
      (rewriteIndices py false (' ' :: p.around (quoted quotes name)))))
    (hunread : Unread " must be one of " (steps.map PathStep.segment)
      (rewriteIndices py false (' ' :: p.around (quoted quotes name))))
    (hdiv : DividesFirst p.between p.after
      (rewriteIndices py false (' ' :: p.around (quoted quotes name))) [] b t)
    (hname : fieldName b = name) (hnull : containsStr name "got null" = true → v = .none) :
    (∀ k ∈ pathKeys steps, containsStr k "anyOf" = false) ∧
      ReadableField steps v p.between bracketed name := by
  have hkept := rewriteIndices_eq_of_divides hdiv.toDivides hname
  rw [hkept] at hplain hunread hdiv
  have hwords := fun h => hplain ((schematic_around (unreserved_segments steps)).mpr h)
  have hline : '\n' ∉ name.toList := by
    obtain ⟨u, w, huw⟩ := exists_strip "'\"".toList b
    have hstrip : name.toList = stripChars "'\"".toList b := by
      rw [← hname]
      exact String.toList_ofList
    rw [hstrip]
    intro hmem
    refine hdiv.line' ?_
    rw [huw]
    exact List.mem_append_right u (List.mem_append_left w hmem)
  have hquoted : '\n' ∉ quoted quotes name := fun hmem => hline ((mem_quoted (by decide)).mp hmem)
  obtain rfl := eq_of_longest hquoted hdiv.longest
  rw [fieldName_quoted] at hname
  refine ⟨(anyOf_segments_iff steps).mp fun q hq hany => hwords (Or.inl ⟨q, hq, hany⟩),
    fun h => hwords (Or.inr h), hline, ?_, ?_, ?_, hname, ?_⟩
  · rw [hbracketed, ← hasIndex_around, ← rewriteIndices_eq_self_iff]
    exact hkept
  · by_cases hnil : steps = []
    · exact Or.inl hnil
    refine Or.inr ?_
    rw [← Bool.not_eq_true, containsStr_iff]
    intro h
    obtain ⟨y, t, -, hdiv'⟩ := exists_divides_inside p quotes " must be one of " "" (b := []) hline
      (by simpa using h)
    rw [Unread, if_neg (by simpa using hnil)] at hunread
    exact hunread y [] t hdiv'
  · rw [← Bool.not_eq_true, containsStr_iff]
    intro h
    obtain ⟨y, b', t', hy, hdiv'⟩ := exists_divides quotes hline h
    exact hy (hdiv.only hdiv')
  · by_cases hsays : containsStr name "got null" = true
    · exact Or.inl (hnull hsays)
    · exact Or.inr (Bool.not_eq_true _ ▸ hsays)

/-- **A name that can be read is read by its own pattern**, or by one that is tried before. -/
theorem kept_of_readable (hbracketed : bracketed.toList = p.printed (quoted quotes name))
    (hkeys : ∀ k ∈ pathKeys steps, containsStr k "anyOf" = false)
    (h : ReadableField steps v p.between bracketed name) :
    rewriteIndices py false (' ' :: p.around (quoted quotes name)) =
        ' ' :: p.around (quoted quotes name) ∧
      ¬ Schematic (worded (steps.map PathStep.segment) (' ' :: p.around (quoted quotes name))) ∧
      (∀ y b t, Divides " must be one of " "" (' ' :: p.around (quoted quotes name)) y b t →
        y ≠ [] → steps = []) ∧
      (∀ y b t, Divides p.between p.after (' ' :: p.around (quoted quotes name)) y b t → y = []) ∧
      '\n' ∉ quoted quotes name := by
  refine ⟨?_, ?_, fun y b t hdiv hy => ?_, fun y b t hdiv => ?_, fun hmem => ?_⟩
  · rw [rewriteIndices_eq_self_iff, hasIndex_around, ← hbracketed]
    exact h.noIndex
  · rw [schematic_around (unreserved_segments steps)]
    rintro (⟨q, hq, hany⟩ | hschematic)
    · exact (anyOf_segments_iff steps).mpr hkeys q hq hany
    · exact h.plain hschematic
  · refine h.separator.resolve_right fun hfalse => ?_
    rw [contains_of_divides (Or.inl rfl) hy hdiv] at hfalse
    cases hfalse
  · by_contra hy
    have hfalse := h.opening
    rw [contains_of_divides (Or.inr rfl) hy hdiv] at hfalse
    cases hfalse
  · exact h.line ((mem_quoted (by decide)).mp hmem)

end FieldPattern
end Rxon
