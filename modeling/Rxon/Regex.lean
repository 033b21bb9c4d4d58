import Mathlib.Data.List.Basic
import Mathlib.Data.List.TakeWhile

/-! # Regular expressions with anchors

The part of Python's `re` that matches from the start of a string: one character of a
class, sequences, `+` and the two anchors.  `ends` lists the positions a match can
end at, the greedy one first; a position is the number of characters read and the
characters left.

`$` stands at the end of the string and also before a newline that ends it.

A pattern that captures is a list of pieces, literal text and groups `(.*)`; `groups` is
what a match captures. -/

inductive Regex where
  | chr (p : Char → Bool)
  | bos
  | eos
  | seq (a b : Regex)
  | plus (a : Regex)

namespace Regex

/-- The characters read so far, counted, and the rest of the string. -/
abbrev Position := Nat × List Char

/-- One to `k` repetitions, the longest first. -/
def repeats (f : Position → List Position) : Nat → Position → List Position
  | 0, _ => []
  | k + 1, q => (f q).flatMap fun q => repeats f k q ++ [q]

/-- Where a match that starts at a position can end. -/
def ends : Regex → Position → List Position
  | chr _, (_, []) => []
  | chr p, (n, c :: s) => if p c then [(n + 1, s)] else []
  | bos, q => if q.1 = 0 then [q] else []
  | eos, q => if q.2 = [] ∨ q.2 = ['\n'] then [q] else []
  | seq a b, q => (ends a q).flatMap (ends b)
  | plus a, q => repeats (ends a) (q.2.length + 1) q

/-- `bool(re.match(r, s))`. -/
def accepts (r : Regex) (s : String) : Bool := !(r.ends (0, s.toList)).isEmpty

variable {p : Char → Bool} {q q' : Position} {a b : Regex}

theorem accepts_iff {s : String} : a.accepts s = true ↔ ∃ q, q ∈ a.ends (0, s.toList) := by
  rw [accepts, Bool.not_eq_true', List.isEmpty_eq_false_iff_exists_mem]

theorem mem_ends_chr :
    q' ∈ (chr p).ends q ↔ ∃ c, p c = true ∧ q.2 = c :: q'.2 ∧ q'.1 = q.1 + 1 := by
  obtain ⟨n, s⟩ := q
  rcases s with _ | ⟨c, s⟩
  · simp [ends]
  · by_cases h : p c = true
    · rw [ends, if_pos h, List.mem_singleton]
      constructor
      · rintro rfl
        exact ⟨c, h, rfl, rfl⟩
      · rintro ⟨d, -, hs, hn⟩
        exact Prod.ext hn (List.cons.inj hs).2.symm
    · rw [ends, if_neg h]
      refine ⟨fun hq => absurd hq List.not_mem_nil, ?_⟩
      rintro ⟨d, hd, hs, -⟩
      exact absurd ((List.cons.inj hs).1 ▸ hd) h

@[simp] theorem mem_ends_bos : q' ∈ bos.ends q ↔ q.1 = 0 ∧ q' = q := by
  by_cases h : q.1 = 0 <;> simp [ends, h]

@[simp] theorem mem_ends_eos : q' ∈ eos.ends q ↔ (q.2 = [] ∨ q.2 = ['\n']) ∧ q' = q := by
  rw [ends]
  by_cases h : q.2 = [] ∨ q.2 = ['\n']
  · rw [if_pos h, List.mem_singleton]
    exact ⟨fun he => ⟨h, he⟩, fun he => he.2⟩
  · rw [if_neg h]
    exact ⟨fun he => absurd he List.not_mem_nil, fun he => absurd he.1 h⟩

@[simp] theorem mem_ends_seq : q' ∈ (seq a b).ends q ↔ ∃ m, m ∈ a.ends q ∧ q' ∈ b.ends m := by
  rw [ends, List.mem_flatMap]

/-- Repeating a character class reads a word of the class. -/
theorem mem_repeats_chr {k : Nat} : q' ∈ repeats (chr p).ends k q ↔
    ∃ w, w ≠ [] ∧ w.length ≤ k ∧ (∀ c ∈ w, p c = true) ∧ q.2 = w ++ q'.2 ∧
      q'.1 = q.1 + w.length := by
  induction k generalizing q with
  | zero =>
    rw [repeats]
    refine ⟨fun h => absurd h List.not_mem_nil, ?_⟩
    rintro ⟨w, hne, hlen, -⟩
    exact absurd (List.length_eq_zero_iff.mp (Nat.le_zero.mp hlen)) hne
  | succ k ih =>
    rw [repeats, List.mem_flatMap]
    constructor
    · rintro ⟨m, hm, hq⟩
      obtain ⟨c, hc, hs, hn⟩ := mem_ends_chr.mp hm
      rcases List.mem_append.mp hq with hq | hq
      · obtain ⟨w, -, hlen, hw, hs', hn'⟩ := ih.mp hq
        refine ⟨c :: w, List.cons_ne_nil c w, ?_, List.forall_mem_cons.mpr ⟨hc, hw⟩, ?_, ?_⟩
        · rw [List.length_cons]; omega
        · rw [hs, hs', List.cons_append]
        · rw [List.length_cons]; omega
      · obtain rfl := List.mem_singleton.mp hq
        exact ⟨[c], List.cons_ne_nil c [], by simp, by simpa using hc, hs, hn⟩
    · rintro ⟨w, hne, hlen, hw, hs, hn⟩
      obtain ⟨c, w, rfl⟩ := List.exists_cons_of_ne_nil hne
      obtain ⟨hc, hw⟩ := List.forall_mem_cons.mp hw
      rw [List.length_cons] at hlen hn
      refine ⟨(q.1 + 1, w ++ q'.2), mem_ends_chr.mpr ⟨c, hc, hs, rfl⟩, ?_⟩
      rcases eq_or_ne w [] with rfl | hw'
      · refine List.mem_append_right _ (List.mem_singleton.mpr (Prod.ext ?_ rfl))
        simpa using hn
      · refine List.mem_append_left _ (ih.mpr ⟨w, hw', ?_, hw, rfl, ?_⟩)
        · omega
        · rw [hn]; omega

theorem mem_ends_plus_chr : q' ∈ (plus (chr p)).ends q ↔
    ∃ w, w ≠ [] ∧ (∀ c ∈ w, p c = true) ∧ q.2 = w ++ q'.2 ∧ q'.1 = q.1 + w.length := by
  rw [ends, mem_repeats_chr]
  constructor
  · rintro ⟨w, hne, -, h⟩
    exact ⟨w, hne, h⟩
  · rintro ⟨w, hne, hw, hs, hn⟩
    refine ⟨w, hne, ?_, hw, hs, hn⟩
    rw [hs, List.length_append]
    omega

/-- **`^[…]+$` accepts the non-empty words of the class, also when one newline
follows them.** -/
theorem accepts_anchored_iff {s : String} :
    (seq bos (seq (plus (chr p)) eos)).accepts s = true ↔
      ∃ w, w ≠ [] ∧ (∀ c ∈ w, p c = true) ∧ (s.toList = w ∨ s.toList = w ++ ['\n']) := by
  rw [accepts_iff]
  constructor
  · rintro ⟨q, hq⟩
    obtain ⟨m, hm, hq⟩ := mem_ends_seq.mp hq
    obtain ⟨-, rfl⟩ := mem_ends_bos.mp hm
    obtain ⟨m, hm, hq⟩ := mem_ends_seq.mp hq
    obtain ⟨w, hne, hw, hs, -⟩ := mem_ends_plus_chr.mp hm
    replace hs : s.toList = w ++ m.2 := hs
    rcases (mem_ends_eos.mp hq).1 with hend | hend
    · exact ⟨w, hne, hw, Or.inl (by rw [hs, hend, List.append_nil])⟩
    · exact ⟨w, hne, hw, Or.inr (by rw [hs, hend])⟩
  · rintro ⟨w, hne, hw, hs⟩
    -- the match ends where the word does, the newline is left
    obtain ⟨r, hr, hs⟩ : ∃ r, (r = [] ∨ r = ['\n']) ∧ s.toList = w ++ r := by
      rcases hs with hs | hs
      · exact ⟨[], Or.inl rfl, by rw [hs, List.append_nil]⟩
      · exact ⟨['\n'], Or.inr rfl, hs⟩
    refine ⟨(w.length, r), mem_ends_seq.mpr ⟨_, mem_ends_bos.mpr ⟨rfl, rfl⟩, ?_⟩⟩
    refine mem_ends_seq.mpr ⟨(w.length, r), ?_, mem_ends_eos.mpr ⟨hr, rfl⟩⟩
    exact mem_ends_plus_chr.mpr ⟨w, hne, hw, hs, (Nat.zero_add _).symm⟩

/-! ## Groups -/

inductive Piece where
  | text (s : List Char)
  | group

/-- The first success of `f` behind a group of at most `n` characters, the longest group
first. -/
def firstGroup (f : List Char → Option (List (List Char))) (s : List Char) :
    Nat → Option (List (List Char))
  | 0 => (f s).map ([] :: ·)
  | n + 1 => ((f (s.drop (n + 1))).map (s.take (n + 1) :: ·)).or (firstGroup f s n)

/-- `re.match(pattern, s).groups()`, if it matches.  A group stays on its line. -/
def groups : List Piece → List Char → Option (List (List Char))
  | [], _ => some []
  | .text t :: pattern, s => if t.isPrefixOf s then groups pattern (s.drop t.length) else none
  | .group :: pattern, s => firstGroup (groups pattern) s (s.takeWhile (· ≠ '\n')).length

theorem exists_of_firstGroup {f : List Char → Option (List (List Char))} {s : List Char} {n : Nat}
    {gs : List (List Char)} (h : firstGroup f s n = some gs) :
    ∃ k ≤ n, ∃ rest, gs = s.take k :: rest ∧ f (s.drop k) = some rest ∧
      ∀ j, k < j → j ≤ n → f (s.drop j) = none := by
  induction n with
  | zero =>
    obtain ⟨rest, hrest, rfl⟩ := Option.map_eq_some_iff.mp h
    exact ⟨0, Nat.le_refl 0, rest, rfl, hrest, fun j hj hj' => absurd hj (by omega)⟩
  | succ n ih =>
    rcases Option.or_eq_some_iff.mp h with h | ⟨hnone, h⟩
    · obtain ⟨rest, hrest, rfl⟩ := Option.map_eq_some_iff.mp h
      exact ⟨n + 1, Nat.le_refl _, rest, rfl, hrest, fun j hj hj' => absurd hj (by omega)⟩
    · obtain ⟨k, hk, rest, hgs, hrest, hlonger⟩ := ih h
      refine ⟨k, by omega, rest, hgs, hrest, fun j hj hj' => ?_⟩
      rcases Nat.lt_or_eq_of_le hj' with hlt | rfl
      · exact hlonger j hj (by omega)
      · exact Option.map_eq_none_iff.mp hnone

theorem firstGroup_isSome {f : List Char → Option (List (List Char))} {s : List Char} {n k : Nat}
    (hk : k ≤ n) (h : (f (s.drop k)).isSome) : (firstGroup f s n).isSome := by
  induction n with
  | zero =>
    obtain rfl : k = 0 := by omega
    rwa [firstGroup, Option.isSome_map]
  | succ n ih =>
    rw [firstGroup, Option.isSome_or, Bool.or_eq_true]
    rcases Nat.lt_or_eq_of_le hk with hlt | rfl
    · exact Or.inr (ih (by omega))
    · exact Or.inl (by rwa [Option.isSome_map])

/-- What a match captures stands in the string. -/
theorem sublist_of_groups {pattern : List Piece} {s g : List Char} {gs : List (List Char)}
    (h : groups pattern s = some gs) (hg : g ∈ gs) : g.Sublist s := by
  induction pattern generalizing s gs with
  | nil =>
    cases h
    cases hg
  | cons piece pattern ih =>
    cases piece with
    | text t =>
      rw [groups] at h
      split at h
      · exact (ih h hg).trans (List.drop_sublist _ s)
      · cases h
    | group =>
      obtain ⟨k, -, rest, rfl, hrest, -⟩ := exists_of_firstGroup h
      rcases List.mem_cons.mp hg with rfl | hg
      · exact List.take_sublist k s
      · exact (ih hrest hg).trans (List.drop_sublist k s)

/-- The ways to read the beginning of a string with a pattern, and what the groups hold. -/
inductive Reads : List Piece → List Char → List (List Char) → Prop
  | nil {s : List Char} : Reads [] s []
  | text {t s : List Char} {pattern : List Piece} {gs : List (List Char)}
      (h : Reads pattern s gs) : Reads (.text t :: pattern) (t ++ s) gs
  | group {g s : List Char} {pattern : List Piece} {gs : List (List Char)}
      (hg : '\n' ∉ g) (h : Reads pattern s gs) : Reads (.group :: pattern) (g ++ s) (g :: gs)

/-- The first group decides, and then the next one. -/
inductive NoLonger : List (List Char) → List (List Char) → Prop
  | nil : NoLonger [] []
  | shorter {g g' : List Char} {gs gs' : List (List Char)} (h : g.length < g'.length) :
      NoLonger (g :: gs) (g' :: gs')
  | same {g g' : List Char} {gs gs' : List (List Char)} (h : g.length = g'.length)
      (hgs : NoLonger gs gs') : NoLonger (g :: gs) (g' :: gs')

section
variable {pattern : List Piece} {s g : List Char} {k : Nat} {gs gs' : List (List Char)}

theorem newline_not_mem_take (h : k ≤ (s.takeWhile (· ≠ '\n')).length) : '\n' ∉ s.take k := by
  intro hmem
  obtain ⟨t, ht⟩ := List.takeWhile_prefix (l := s) (· ≠ '\n')
  rw [← ht, List.take_append_of_le_length h] at hmem
  simpa using List.mem_takeWhile_imp (List.mem_of_mem_take hmem)

theorem length_le_line (hg : '\n' ∉ g) :
    g.length ≤ ((g ++ s).takeWhile (· ≠ '\n')).length := by
  rw [List.takeWhile_append_of_pos fun c hc => by
    simpa using fun h : c = '\n' => hg (h ▸ hc)]
  rw [List.length_append]
  omega

/-- A match is a reading. -/
theorem reads_of_groups (h : groups pattern s = some gs) : Reads pattern s gs := by
  induction pattern generalizing s gs with
  | nil =>
    cases h
    exact .nil
  | cons piece pattern ih =>
    cases piece with
    | text t =>
      rw [groups] at h
      split at h
      · rename_i hprefix
        obtain ⟨rest, rfl⟩ := List.isPrefixOf_iff_prefix.mp hprefix
        rw [List.drop_left] at h
        exact .text (ih h)
      · cases h
    | group =>
      obtain ⟨k, hk, rest, rfl, hrest, -⟩ := exists_of_firstGroup h
      have hread := Reads.group (newline_not_mem_take hk) (ih hrest)
      rwa [List.take_append_drop] at hread

/-- A string with a reading has a match. -/
theorem groups_isSome (h : Reads pattern s gs) : (groups pattern s).isSome := by
  induction h with
  | nil => rfl
  | text h ih =>
    rw [groups, if_pos (List.isPrefixOf_iff_prefix.mpr (List.prefix_append _ _)), List.drop_left]
    exact ih
  | group hg h ih =>
    refine firstGroup_isSome (length_le_line hg) ?_
    rwa [List.drop_left]

/-- **A match is the greedy reading.** -/
theorem noLonger_of_groups (h : groups pattern s = some gs) (h' : Reads pattern s gs') :
    NoLonger gs' gs := by
  induction h' generalizing gs with
  | nil =>
    cases h
    exact .nil
  | text h' ih =>
    rw [groups, if_pos (List.isPrefixOf_iff_prefix.mpr (List.prefix_append _ _)),
      List.drop_left] at h
    exact ih h
  | @group g s pattern gs' hg h' ih =>
    obtain ⟨k, hk, rest, rfl, hrest, hlonger⟩ := exists_of_firstGroup h
    -- what is tried before the match has no reading behind it
    have hgk : g.length ≤ k := by
      by_contra hlt
      have hnone := hlonger g.length (by omega) (length_le_line hg)
      rw [List.drop_left] at hnone
      have hsome := groups_isSome h'
      rw [hnone] at hsome
      cases hsome
    have hlen : ((g ++ s).take k).length = k := by
      rw [List.length_take]
      have := (List.takeWhile_prefix (l := g ++ s) (· ≠ '\n')).length_le
      omega
    rcases Nat.lt_or_eq_of_le hgk with hlt | rfl
    · exact .shorter (by rw [hlen]; exact hlt)
    · rw [List.drop_left] at hrest
      exact .same hlen.symm (ih hrest)

end

end Regex
