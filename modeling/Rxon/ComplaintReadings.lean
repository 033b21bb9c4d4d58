import Rxon.ComplaintPaths

/-! # How complaints are read

A message is `data`, a path and the words behind it.  A pattern that reads a path takes the
whole path, since its own words start with a blank and the path has none; what it takes
beyond the path it takes from the words (`exists_of_matchTwo_worded`).  It takes as much as
it can, for the path first and then for the other group.

The first pattern that matches is the one that counts: `readMessage_from` says for each
reading what stands in the words for it, and what does not for the patterns before. -/

namespace Rxon
open Regex

/-- `data`, a path and the words behind it. -/
def worded (segs : List (List Char)) (words : List Char) : List Char :=
  "data".toList ++ (dotted segs ++ words)

/-- A way to find the words of a pattern in other words: `y` is left for the path, `b` for
the other group. -/
structure Divides (between after : String) (words y b t : List Char) : Prop where
  eq : words = y ++ (between.toList ++ (b ++ (after.toList ++ t)))
  line : '\n' ∉ y
  line' : '\n' ∉ b

/-- The way that a match takes. -/
structure DividesFirst (between after : String) (words y b t : List Char) : Prop
    extends Divides between after words y b t where
  greedy {y' b' t' : List Char} : Divides between after words y' b' t' →
    y'.length < y.length ∨ y'.length = y.length ∧ b'.length ≤ b.length

section
variable {before between after : String} {reading : List Char → List Char → Reading}
  {msg words a b t y z s : List Char} {r : Reading} {segs : List (List Char)}

/-! ## Patterns -/

theorem reads_pieces (ha : '\n' ∉ a) (hb : '\n' ∉ b) :
    Reads [.text before.toList, .group, .text between.toList, .group, .text after.toList]
      (before.toList ++ (a ++ (between.toList ++ (b ++ (after.toList ++ t))))) [a, b] :=
  .text (.group ha (.text (.group hb (.text .nil))))

/-- What a pattern of two groups captures. -/
theorem exists_of_matchTwo (h : matchTwo before between after reading msg = some r) :
    ∃ a b t, r = reading a b ∧
      msg = before.toList ++ (a ++ (between.toList ++ (b ++ (after.toList ++ t)))) ∧
      '\n' ∉ a ∧ '\n' ∉ b ∧
      ∀ a' b' t', msg = before.toList ++ (a' ++ (between.toList ++ (b' ++ (after.toList ++ t')))) →
        '\n' ∉ a' → '\n' ∉ b' →
          a'.length < a.length ∨ a'.length = a.length ∧ b'.length ≤ b.length := by
  unfold matchTwo at h
  split at h
  · rename_i a b hgroups
    cases h
    have hread := reads_of_groups hgroups
    cases hread with | text hread =>
    cases hread with | group ha hread =>
    cases hread with | text hread =>
    cases hread with | group hb hread =>
    cases hread with | @text _ t _ _ hread =>
    refine ⟨a, b, t, rfl, rfl, ha, hb, fun a' b' t' heq ha' hb' => ?_⟩
    rw [heq] at hgroups
    cases noLonger_of_groups hgroups (reads_pieces ha' hb') with
    | shorter hlt => exact Or.inl hlt
    | same hlen hrest =>
      refine Or.inr ⟨hlen, ?_⟩
      cases hrest with
      | shorter hlt => exact Nat.le_of_lt hlt
      | same hlen _ => exact Nat.le_of_eq hlen
  · cases h

theorem matchTwo_isSome
    (heq : msg = before.toList ++ (a ++ (between.toList ++ (b ++ (after.toList ++ t)))))
    (ha : '\n' ∉ a) (hb : '\n' ∉ b) : (matchTwo before between after reading msg).isSome := by
  obtain ⟨gs, hgs⟩ := Option.isSome_iff_exists.mp (groups_isSome (heq ▸ reads_pieces ha hb))
  have hread := reads_of_groups hgs
  cases hread with | text hread =>
  cases hread with | group ha' hread =>
  cases hread with | text hread =>
  cases hread with | group hb' hread =>
  cases hread with | text hread =>
  cases hread with | nil =>
  rw [matchTwo, hgs]
  rfl

theorem reads_piece (hb : '\n' ∉ b) :
    Reads [.text before.toList, .group] (before.toList ++ (b ++ t)) [b] :=
  .text (.group hb .nil)

/-- What a pattern of one group captures. -/
theorem exists_of_matchOne' {reading : List Char → Reading}
    (h : matchOne before reading msg = some r) :
    ∃ b t, r = reading b ∧ msg = before.toList ++ (b ++ t) ∧ '\n' ∉ b ∧
      ∀ b' t', msg = before.toList ++ (b' ++ t') → '\n' ∉ b' → b'.length ≤ b.length := by
  unfold matchOne at h
  split at h
  · rename_i b hgroups
    cases h
    have hread := reads_of_groups hgroups
    cases hread with | text hread =>
    cases hread with | @group _ t _ _ hb hread =>
    refine ⟨b, t, rfl, rfl, hb, fun b' t' heq hb' => ?_⟩
    rw [heq] at hgroups
    cases noLonger_of_groups hgroups (reads_piece hb') with
    | shorter hlt => exact Nat.le_of_lt hlt
    | same hlen _ => exact Nat.le_of_eq hlen
  · cases h

theorem matchOne_isSome (reading : List Char → Reading) (heq : msg = before.toList ++ s) :
    (matchOne before reading msg).isSome := by
  obtain ⟨gs, hgs⟩ := Option.isSome_iff_exists.mp
    (groups_isSome (heq ▸ reads_piece (b := []) (t := s) List.not_mem_nil))
  have hread := reads_of_groups hgs
  cases hread with | text hread =>
  cases hread with | group hb hread =>
  cases hread with | nil =>
  rw [matchOne, hgs]
  rfl

/-! ## What a pattern takes beyond the path -/

theorem not_mem_dotted {c : Char} (hsegs : ∀ p ∈ segs, Unreserved p) (hc : c ∈ reserved)
    (hne : c ≠ '.') : c ∉ dotted segs := by
  intro hmem
  obtain ⟨p, hp, hmem⟩ := List.mem_flatMap.mp hmem
  rcases List.mem_cons.mp hmem with h | h
  · exact hne h
  · exact (hsegs p hp).not_mem hc h

section
variable {lead path rest inner : List Char}

/-- **The whole path is taken.** -/
theorem exists_beyond_path (hsegs : ∀ p ∈ segs, Unreserved p)
    (h : dotted segs ++ ' ' :: rest = a ++ ' ' :: inner) :
    ∃ y, a = dotted segs ++ y ∧ ' ' :: rest = y ++ ' ' :: inner := by
  rcases List.cut_cases h with ⟨ha, hrest⟩ | ⟨m, ha, hrest⟩ | ⟨m, hpath, -⟩
  · exact ⟨[], by rw [ha, List.append_nil], by rw [hrest, List.nil_append]⟩
  · exact ⟨' ' :: m, ha, by rw [hrest, List.cons_append]⟩
  · refine absurd ?_ (not_mem_dotted hsegs (by decide : ' ' ∈ reserved) (by decide))
    rw [hpath]
    exact List.mem_append_right a List.mem_cons_self

theorem Divides.line_behind (h : Divides between after words y b t)
    (hsegs : ∀ p ∈ segs, Unreserved p) (hpath : dotted segs = lead ++ path) :
    '\n' ∉ path ++ y := by
  intro hmem
  rcases List.mem_append.mp hmem with hmem | hmem
  · exact not_mem_dotted hsegs (by decide) (by decide) (hpath ▸ List.mem_append_right lead hmem)
  · exact h.line hmem

/-- What stands behind `data` or `data.` in the path. -/
theorem exists_behind_lead (hlead : lead = [] ∨ lead = ['.'])
    (hpath : lead ++ a = dotted segs ++ y) (h : ' ' :: rest = y ++ ' ' :: inner) :
    ∃ path, dotted segs = lead ++ path := by
  rcases hlead with rfl | rfl
  · exact ⟨_, rfl⟩
  · cases segs with
    | nil =>
      rw [dotted_nil, List.nil_append] at hpath
      rw [← hpath, List.singleton_append, List.cons_append] at h
      exact absurd (List.cons.inj h).1 (by decide)
    | cons p segs => exact ⟨_, rfl⟩

/-- **A pattern that reads a path divides the words behind it**, the first way there is. -/
theorem exists_of_matchTwo_worded (lead : List Char) (hsegs : ∀ p ∈ segs, Unreserved p)
    (hbefore : before.toList = "data".toList ++ lead) (hlead : lead = [] ∨ lead = ['.'])
    (hbetween : between.toList = ' ' :: inner)
    (h : matchTwo before between after reading (worded segs (' ' :: rest)) = some r) :
    ∃ a y b t, r = reading a b ∧ lead ++ a = dotted segs ++ y ∧
      DividesFirst between after (' ' :: rest) y b t := by
  obtain ⟨a, b, t, rfl, heq, ha, hb, hgreedy⟩ := exists_of_matchTwo h
  have hcancel : ∀ {a b t : List Char}, worded segs (' ' :: rest) =
      before.toList ++ (a ++ (between.toList ++ (b ++ (after.toList ++ t)))) ↔
      dotted segs ++ ' ' :: rest =
        (lead ++ a) ++ (between.toList ++ (b ++ (after.toList ++ t))) := by
    intro a b t
    rw [worded, hbefore, List.append_assoc, List.append_cancel_left_eq, List.append_assoc]
  have hcut := hcancel.mp heq
  rw [hbetween, List.cons_append] at hcut
  obtain ⟨y, hy, hrest⟩ := exists_beyond_path hsegs hcut
  have hline : '\n' ∉ lead ++ a := by
    intro hmem
    rcases List.mem_append.mp hmem with hmem | hmem
    · rcases hlead with rfl | rfl
      · cases hmem
      · exact absurd hmem (by decide)
    · exact ha hmem
  obtain ⟨path, hpath⟩ := exists_behind_lead hlead hy hrest
  refine ⟨a, y, b, t, rfl, hy, ⟨⟨?_, ?_, hb⟩, ?_⟩⟩
  · rw [hbetween, List.cons_append]
    exact hrest
  · exact fun hmem => hline (hy ▸ List.mem_append_right _ hmem)
  · intro y' b' t' hdiv
    have hlen := congrArg List.length hy
    rw [hpath, List.length_append, List.length_append, List.length_append] at hlen
    have hsplit := hgreedy (path ++ y') b' t'
      (hcancel.mpr (by rw [hdiv.eq, hpath]; simp only [List.append_assoc]))
      (hdiv.line_behind hsegs hpath) hdiv.line'
    rw [List.length_append] at hsplit
    omega

theorem matchTwo_worded_isSome (before : String) (reading : List Char → List Char → Reading)
    (lead : List Char) (hsegs : ∀ p ∈ segs, Unreserved p)
    (hbefore : before.toList = "data".toList ++ lead) (hpath : dotted segs = lead ++ path)
    (h : Divides between after words y b t) :
    (matchTwo before between after reading (worded segs words)).isSome := by
  refine matchTwo_isSome (a := path ++ y) (t := t) ?_ (h.line_behind hsegs hpath) h.line'
  rw [worded, hbefore, hpath, h.eq]
  simp only [List.append_assoc]

end

end

/-! ## Words of schemas -/

section
variable {segs : List (List Char)} {x y rest : List Char} {c : Char}

theorem schematic_cut (hc : c ∉ "anyOf".toList)
    (hc' : c ∉ "cannot be validated by any definition".toList) :
    Schematic (x ++ c :: y) ↔ Schematic x ∨ Schematic y := by
  rw [Schematic, List.infix_cut hc, List.infix_cut hc']
  exact or_or_or_comm

theorem anyOf_infix_dotted : "anyOf".toList <:+: x ++ dotted segs ↔
    "anyOf".toList <:+: x ∨ ∃ p ∈ segs, "anyOf".toList <:+: p := by
  induction segs generalizing x with
  | nil => simp
  | cons p segs ih =>
    rw [dotted_cons, List.infix_cut (by decide), ih, List.exists_mem_cons_iff]

theorem anyOf_infix_worded {p : List Char} (hp : p ∈ segs) (h : "anyOf".toList <:+: p) :
    "anyOf".toList <:+: worded segs y := by
  rw [worded, ← List.append_assoc]
  exact (anyOf_infix_dotted.mpr (Or.inr ⟨p, hp, h⟩)).trans (List.prefix_append _ y).isInfix

/-- **A message is taken for one of schemas** for a key or for its words. -/
theorem schematic_worded (hsegs : ∀ p ∈ segs, Unreserved p)
    (hrest : ¬ "be validated by any definition".toList <+: rest) :
    Schematic (worded segs (' ' :: rest)) ↔
      (∃ p ∈ segs, "anyOf".toList <:+: p) ∨ Schematic rest := by
  have hpath : ' ' ∉ "data".toList ++ dotted segs := by
    intro hmem
    rcases List.mem_append.mp hmem with hmem | hmem
    · exact absurd hmem (by decide)
    · exact not_mem_dotted hsegs (by decide) (by decide) hmem
  rw [worded, ← List.append_assoc, Schematic, List.infix_cut (by decide), anyOf_infix_dotted]
  constructor
  · rintro (((hdata | hkey) | hrest') | hcannot)
    · exact absurd hdata (by decide)
    · exact Or.inl hkey
    · exact Or.inr (Or.inl hrest')
    · rcases List.infix_behind (w := "cannot".toList) hpath (by decide) hcannot with h | h
      · exact absurd h hrest
      · exact Or.inr (Or.inr h)
  · rintro (hkey | hrest' | hcannot)
    · exact Or.inl (Or.inl (Or.inr hkey))
    · exact Or.inl (Or.inr hrest')
    · exact Or.inr (hcannot.trans ((List.suffix_cons ' ' rest).trans
        (List.suffix_append _ _)).isInfix)

end

/-! ## Which pattern is the first -/

/-- The words of a pattern are not there. -/
def Undivided (between after : String) (words : List Char) : Prop :=
  ∀ y b t, ¬ Divides between after words y b t

/-- The longest second group, if the first one is the path. -/
def Longest (between after : String) (words b : List Char) : Prop :=
  ∃ t, Divides between after words [] b t ∧
    ∀ b' t', Divides between after words [] b' t' → b'.length ≤ b.length

/-- A pattern that reads `data.` and a path, or `data` alone, does not match. -/
def Unread (between : String) (segs : List (List Char)) (words : List Char) : Prop :=
  if segs = [] then ¬ between.toList <+: words else Undivided between "" words

section
variable {between after : String} {segs : List (List Char)} {words y b t : List Char}

theorem Divides.mem {c : Char} (h : Divides between after words y b t) (hc : c ∈ between.toList) :
    c ∈ words := by
  rw [h.eq]
  exact List.mem_append_right y (List.mem_append_left _ hc)

theorem Divides.prefix (h : Divides between after words [] b t) : between.toList <+: words := by
  rw [h.eq]
  exact List.prefix_append _ _

theorem DividesFirst.longest (h : DividesFirst between after words [] b t) :
    Longest between after words b :=
  ⟨t, h.toDivides, fun _ _ h' => (h.greedy h').elim (fun hlt => absurd hlt (Nat.not_lt_zero _))
    fun hle => hle.2⟩

/-- If the path is all that the first group takes, there is no other way. -/
theorem DividesFirst.only {y' b' t' : List Char} (h : DividesFirst between after words [] b t)
    (h' : Divides between after words y' b' t') : y' = [] := by
  rcases h.greedy h' with hlt | ⟨hlen, -⟩
  · exact absurd hlt (Nat.not_lt_zero _)
  · exact List.eq_nil_of_length_eq_zero hlen

/-- What is taken beyond the path begins with a blank. -/
theorem Divides.blank {rest : List Char} (h : Divides between after (' ' :: rest) y b t)
    (hy : y ≠ []) : ∃ z, y = ' ' :: z := by
  obtain ⟨c, z, rfl⟩ := List.exists_cons_of_ne_nil hy
  exact ⟨z, by rw [(List.cons.inj h.eq).1]⟩

/-- What has not run into the words behind the path is the path. -/
theorem Divides.eq_nil {rest path : List Char} (h : Divides between after (' ' :: rest) y b t)
    (hpath : path = dotted segs ++ y) (hstray : ¬ ∃ z, path = dotted segs ++ ' ' :: z) :
    y = [] := by
  by_contra hy
  obtain ⟨z, rfl⟩ := h.blank hy
  exact hstray ⟨z, hpath⟩

theorem Unread.not_divides (h : Unread between segs words) : ¬ Divides between "" words [] b t := by
  intro hdiv
  unfold Unread at h
  split at h
  · exact h ⟨b ++ t, hdiv.eq.symm⟩
  · exact h [] b t hdiv

end

/-- Where a reading comes from: the pattern that it is of, and the ones that were tried in
vain. -/
def Reading.From (segs : List (List Char)) (words : List Char) : Reading → Prop
  | anyOf => Schematic (worded segs words)
  | oneOf path b =>
    (∃ y t, '.' :: path = dotted segs ++ y ∧ DividesFirst " must be one of " "" words y b t) ∨
      (path = [] ∧ segs = [] ∧ Longest " must be one of " "" words b)
  | missing path b => Unread " must be one of " segs words ∧
    ∃ y t, path = dotted segs ++ y ∧ DividesFirst " must contain [" "]" words y b t
  | unexpected path b => Unread " must be one of " segs words ∧
    Undivided " must contain [" "]" words ∧ ∃ y t, path = dotted segs ++ y ∧
      DividesFirst " must not contain \x7b" "\x7d properties" words y b t
  | typed path b => Unread " must be one of " segs words ∧ Undivided " must contain [" "]" words ∧
    Undivided " must not contain \x7b" "\x7d properties" words ∧
    ∃ y t, '.' :: path = dotted segs ++ y ∧ DividesFirst " must be " "" words y b t
  | whole b => Unread " must be one of " segs words ∧ Undivided " must contain [" "]" words ∧
    Undivided " must not contain \x7b" "\x7d properties" words ∧
    segs = [] ∧ Longest " must be " "" words b
  | other msg => Unread " must be one of " segs words ∧ Undivided " must contain [" "]" words ∧
    Undivided " must not contain \x7b" "\x7d properties" words ∧ Unread " must be " segs words ∧
    msg = worded segs words

section
variable {between after before : String} {reading : List Char → List Char → Reading}
  {reading' : List Char → Reading} {segs : List (List Char)} {rest inner : List Char} {r : Reading}

theorem worded_eq_append_iff {s : List Char} (hbetween : between.toList = ' ' :: inner)
    (hbefore : before.toList = "data".toList ++ between.toList) :
    worded segs (' ' :: rest) = before.toList ++ s ↔
      segs = [] ∧ ' ' :: rest = between.toList ++ s := by
  rw [worded, hbefore, List.append_assoc, List.append_cancel_left_eq]
  cases segs with
  | nil => exact (and_iff_right rfl).symm
  | cons p segs =>
    refine iff_of_false (fun h => ?_) fun h => nomatch h.1
    rw [hbetween, dotted_cons, List.cons_append, List.cons_append] at h
    exact absurd (List.cons.inj h).1 (by decide)

theorem longest_of_matchOne (between : String) (hbetween : between.toList = ' ' :: inner)
    (hbefore : before.toList = "data".toList ++ between.toList)
    (h : matchOne before reading' (worded segs (' ' :: rest)) = some r) :
    ∃ b, r = reading' b ∧ segs = [] ∧ Longest between "" (' ' :: rest) b := by
  obtain ⟨b, t, hr, heq, hb, hgreedy⟩ := exists_of_matchOne' h
  obtain ⟨hnil, heq⟩ := (worded_eq_append_iff hbetween hbefore).mp heq
  refine ⟨b, hr, hnil, t, ⟨heq, List.not_mem_nil, hb⟩, fun b' t' hdiv => ?_⟩
  exact hgreedy b' t' ((worded_eq_append_iff hbetween hbefore).mpr ⟨hnil, hdiv.eq⟩) hdiv.line'

theorem unread_of_none (hsegs : ∀ p ∈ segs, Unreserved p) (hbetween : between.toList = ' ' :: inner)
    (hbefore : before.toList = "data".toList ++ between.toList)
    (h : matchTwo "data." between "" reading (worded segs (' ' :: rest)) = none)
    (h' : matchOne before reading' (worded segs (' ' :: rest)) = none) :
    Unread between segs (' ' :: rest) := by
  unfold Unread
  split
  · rename_i hnil
    rintro ⟨s, hs⟩
    have hsome := matchOne_isSome reading'
      ((worded_eq_append_iff hbetween hbefore).mpr ⟨hnil, hs.symm⟩)
    rw [h'] at hsome
    cases hsome
  · rename_i hne
    intro y b t hdiv
    obtain ⟨p, ps, rfl⟩ := List.exists_cons_of_ne_nil hne
    have hsome := matchTwo_worded_isSome "data." reading ['.'] hsegs rfl rfl hdiv
    rw [h] at hsome
    cases hsome

theorem undivided_of_none (hsegs : ∀ p ∈ segs, Unreserved p)
    (h : matchTwo "data" between after reading (worded segs (' ' :: rest)) = none) :
    Undivided between after (' ' :: rest) := by
  intro y b t hdiv
  have hsome := matchTwo_worded_isSome "data" reading [] hsegs rfl rfl hdiv
  rw [h] at hsome
  cases hsome

theorem schematic_iff {msg : List Char} : Schematic msg ↔
    (containsStr (String.ofList msg) "cannot be validated by any definition" ||
      containsStr (String.ofList msg) "anyOf") = true := by
  have hlist : (String.ofList msg).toList = msg := String.toList_ofList
  rw [Bool.or_eq_true, containsStr_iff, containsStr_iff, hlist]
  exact or_comm

theorem readMessage_of_schematic {msg : List Char} (h : Schematic msg) :
    readMessage msg = .anyOf := by
  rw [readMessage, if_pos (schematic_iff.mp h)]

/-- **Where the reading of a message comes from.** -/
theorem readMessage_from (hsegs : ∀ p ∈ segs, Unreserved p) (rest : List Char) :
    (readMessage (worded segs (' ' :: rest))).From segs (' ' :: rest) := by
  unfold readMessage
  split
  · rename_i h
    exact schematic_iff.mpr h
  simp only [patterns, List.findSome?_cons, List.findSome?_nil]
  cases h₁ : matchTwo "data." " must be one of " "" .oneOf (worded segs (' ' :: rest)) with
  | some r =>
    obtain ⟨path, y, b, t, rfl, hy, hdiv⟩ := exists_of_matchTwo_worded ['.'] hsegs rfl
      (Or.inr rfl) rfl h₁
    exact Or.inl ⟨y, t, hy, hdiv⟩
  | none =>
  cases h₂ : matchOne "data must be one of " (.oneOf []) (worded segs (' ' :: rest)) with
  | some r =>
    obtain ⟨b, rfl, h⟩ := longest_of_matchOne " must be one of " rfl rfl h₂
    exact Or.inr ⟨rfl, h⟩
  | none =>
  have honeOf : Unread " must be one of " segs (' ' :: rest) :=
    unread_of_none hsegs rfl rfl h₁ h₂
  cases h₃ : matchTwo "data" " must contain [" "]" .missing (worded segs (' ' :: rest)) with
  | some r =>
    obtain ⟨path, y, b, t, rfl, hy, hdiv⟩ := exists_of_matchTwo_worded [] hsegs rfl
      (Or.inl rfl) rfl h₃
    exact ⟨honeOf, y, t, hy, hdiv⟩
  | none =>
  have hmissing := undivided_of_none hsegs h₃
  cases h₄ : matchTwo "data" " must not contain \x7b" "\x7d properties" .unexpected
      (worded segs (' ' :: rest)) with
  | some r =>
    obtain ⟨path, y, b, t, rfl, hy, hdiv⟩ := exists_of_matchTwo_worded [] hsegs rfl
      (Or.inl rfl) rfl h₄
    exact ⟨honeOf, hmissing, y, t, hy, hdiv⟩
  | none =>
  have hunexpected := undivided_of_none hsegs h₄
  cases h₅ : matchTwo "data." " must be " "" .typed (worded segs (' ' :: rest)) with
  | some r =>
    obtain ⟨path, y, b, t, rfl, hy, hdiv⟩ := exists_of_matchTwo_worded ['.'] hsegs rfl
      (Or.inr rfl) rfl h₅
    exact ⟨honeOf, hmissing, hunexpected, y, t, hy, hdiv⟩
  | none =>
  cases h₆ : matchOne "data must be " .whole (worded segs (' ' :: rest)) with
  | some r =>
    obtain ⟨b, rfl, h⟩ := longest_of_matchOne " must be " rfl rfl h₆
    exact ⟨honeOf, hmissing, hunexpected, h⟩
  | none => exact ⟨honeOf, hmissing, hunexpected, unread_of_none hsegs rfl rfl h₅ h₆, rfl⟩

end

end Rxon
