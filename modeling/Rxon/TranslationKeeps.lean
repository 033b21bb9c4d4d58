import Rxon.FieldComplaints
import Rxon.ListComplaints
import Rxon.TypeComplaints

/-! # What translation keeps

The text of a complaint keeps the keys of the path and what was expected iff the message can
be read (`translation_keeps_iff`).  Indices are looked for in the whole message, the words
for alternatives too, and the groups take as much as they can, so words of a list or of a
name are taken for the path or for words of a pattern. -/

namespace Rxon

/-- **A translation keeps the path and the expectation iff the message can be read.** -/
theorem translation_keeps_iff {py : PyText} {letters : Letters py}
    (steps : List (PathStep letters)) (c : Complaint) {data v : PyVal}
    (hsteps : StepsTo steps data v) :
    (∃ text, translateError py (c.message steps) data = .ok text ∧ Keeps steps c v text) ↔
      Readable steps c v := by
  cases c with
  | typed types =>
    rw [typed_keeps_iff types hsteps]
    exact ⟨fun h => ⟨h, trivial⟩, fun h => h.keys⟩
  | oneOf items =>
    constructor
    · rintro ⟨text, htext, hkeeps⟩
      exact readable_of_keeps_oneOf hsteps htext hkeeps
    · exact keeps_oneOf_of_readable hsteps
  | missing quotes name =>
    constructor
    · rintro ⟨text, htext, hkeeps⟩
      exact readable_of_keeps_missing htext hkeeps
    · exact keeps_missing_of_readable data
  | unexpected quotes name =>
    constructor
    · rintro ⟨text, htext, hkeeps⟩
      exact readable_of_keeps_unexpected htext hkeeps
    · exact keeps_unexpected_of_readable data

/-! ## A list of one number -/

theorem isDigit_of_isAlpha {c : Char} (h : c.isAlpha = true) : c.isDigit = false := by
  rw [← Bool.not_eq_true]
  intro hdigit
  have hle : c.val ≤ '9'.val := of_decide_eq_true (Bool.and_eq_true_iff.mp hdigit).2
  rcases Bool.or_eq_true_iff.mp h with hupper | hlower
  · have hge : 'A'.val ≤ c.val := (of_decide_eq_true hupper).1
    exact absurd (UInt32.le_trans hge hle) (by decide)
  · have hge : 'a'.val ≤ c.val := of_decide_eq_true (Bool.and_eq_true_iff.mp hlower).1
    exact absurd (UInt32.le_trans hge hle) (by decide)

/-- The letters of ASCII. -/
def Letters.ascii : Letters .latin where
  isLetter := Char.isAlpha
  isLetter_ascii _ _ := rfl
  not_isDigit c h := by
    have hne : ∀ d : Char, d.isAlpha = false → c ≠ d := by
      rintro d hd rfl
      rw [h] at hd
      cases hd
    simp [PyText.latin, isDigit_of_isAlpha h, hne '²' (by decide), hne '³' (by decide),
      hne '¹' (by decide)]

theorem isName_level : Letters.ascii.IsName "level" :=
  ⟨'l', "evel".toList, rfl, Or.inl rfl, fun d hd =>
    Or.inl (List.all_eq_true.mp (rfl : "evel".toList.all Char.isAlpha = true) d hd)⟩

/-- `.level`. -/
def levelPath : List (PathStep .ascii) := [.key "level" isName_level]

/-- `{"level": 2}`. -/
def levelData : PyVal := .dict [("level", .int 2)]

theorem stepsTo_level : StepsTo levelPath levelData (.int 2) := .key rfl .here

/-- A list of names is kept. -/
theorem level_names_kept : ∃ text,
    translateError .latin ((Complaint.oneOf "'low', 'high'").message levelPath) levelData =
      .ok text ∧ Keeps levelPath (.oneOf "'low', 'high'") (.int 2) text :=
  (translation_keeps_iff levelPath (.oneOf "'low', 'high'") stepsTo_level).mpr {
    keys := by decide
    complaint := {
      plain := by unfold Schematic; decide
      line := by decide
      noIndex := rewriteIndices_eq_self_iff.mp rfl
      separator := Or.inr rfl
      shown := ⟨"2", rfl, Or.inr ⟨rfl, rfl⟩⟩ } }

/-- **A list of one number is taken for an index**, and loses its brackets. -/
theorem level_number_lost :
    (Complaint.oneOf "1").message levelPath = "data.level must be one of [1]" ∧
    StepsTo levelPath levelData (.int 2) ∧
    translateError .latin "data.level must be one of [1]" levelData =
      .ok "Field 'level': Value '2' is not allowed. Must be one of: .1" ∧
    containsStr "Field 'level': Value '2' is not allowed. Must be one of: .1" "[1]" = false :=
  ⟨rfl, stepsTo_level, rfl, rfl⟩

end Rxon
