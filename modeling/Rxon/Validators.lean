import Rxon.PyVal
import Rxon.Regex

/-! # Identifiers

`is_valid_identifier` and `validate_identifier` of `validators.py`.  Identifiers are
meant to be 1 to 128 letters, digits, underscores and hyphens (`IsIdentifier`); since
`$` also stands before a final newline, an identifier followed by one passes too. -/

namespace Rxon

/-- `[a-zA-Z0-9_-]`. -/
def isIdentifierChar (c : Char) : Bool :=
  ('a' ≤ c && c ≤ 'z') || ('A' ≤ c && c ≤ 'Z') || ('0' ≤ c && c ≤ '9') || c = '_' || c = '-'

/-- `^[a-zA-Z0-9_-]+$`. -/
def idPattern : Regex := .seq .bos (.seq (.plus (.chr isIdentifierChar)) .eos)

def isValidIdentifier (value : PyVal) : Bool :=
  match value with
  | .str s => if s = "" ∨ 128 < s.length then false else idPattern.accepts s
  | _ => false

/-- `pyStr` is `str(o)`. -/
def validateIdentifier (pyStr : PyVal → String) (value : PyVal) (name : String) :
    Except PyError Unit :=
  if isValidIdentifier value then .ok ()
  else .error (.valueError (s!"Invalid {name}: '{pyStr value}'. " ++
    "Must be alphanumeric, underscores, or hyphens only (max 128 characters)."))

/-- The identifiers of the protocol. -/
def IsIdentifier (s : String) : Prop :=
  1 ≤ s.length ∧ s.length ≤ 128 ∧ ∀ c ∈ s.toList, isIdentifierChar c = true

variable {s : String}

/-- The words of the class, with or without a newline behind them. -/
theorem isValidIdentifier_iff_word : isValidIdentifier (.str s) = true ↔ s.length ≤ 128 ∧
    ∃ w, w ≠ [] ∧ (∀ c ∈ w, isIdentifierChar c = true) ∧
      (s.toList = w ∨ s.toList = w ++ ['\n']) := by
  rw [isValidIdentifier]
  constructor
  · intro h
    split at h
    · cases h
    · rename_i hguard
      exact ⟨by omega, Regex.accepts_anchored_iff.mp h⟩
  · rintro ⟨hlen, w, hne, hw, hs⟩
    have hne' : s ≠ "" := by
      rintro rfl
      rcases hs with hs | hs
      · exact hne hs.symm
      · exact absurd hs.symm (List.append_ne_nil_of_right_ne_nil w (List.cons_ne_nil _ _))
    rw [if_neg (by rintro (h | h) <;> [exact hne' h; omega])]
    exact Regex.accepts_anchored_iff.mpr ⟨w, hne, hw, hs⟩

theorem isIdentifier_iff_word : IsIdentifier s ↔ s.length ≤ 128 ∧
    ∃ w, w ≠ [] ∧ (∀ c ∈ w, isIdentifierChar c = true) ∧ s.toList = w := by
  rw [IsIdentifier, ← String.length_toList]
  constructor
  · rintro ⟨hpos, hlen, hchars⟩
    exact ⟨hlen, s.toList, List.ne_nil_of_length_pos hpos, hchars, rfl⟩
  · rintro ⟨hlen, w, hne, hw, hs⟩
    exact ⟨hs ▸ List.length_pos_of_ne_nil hne, hlen, hs ▸ hw⟩

/-- What passes without being an identifier: an identifier with a newline behind it. -/
theorem isValidIdentifier_iff : isValidIdentifier (.str s) = true ↔
    IsIdentifier s ∨ ∃ w, IsIdentifier w ∧ s = w ++ "\n" ∧ s.length ≤ 128 := by
  rw [isValidIdentifier_iff_word, isIdentifier_iff_word]
  constructor
  · rintro ⟨hlen, w, hne, hw, hs | hs⟩
    · exact Or.inl ⟨hlen, w, hne, hw, hs⟩
    · refine Or.inr ⟨String.ofList w, isIdentifier_iff_word.mpr ⟨?_, w, hne, hw, ?_⟩, ?_, hlen⟩
      · rw [← String.length_toList, hs, List.length_append] at hlen
        rw [String.length_ofList]
        omega
      · exact String.toList_ofList
      · apply String.toList_injective
        rw [hs, String.toList_append, String.toList_ofList]
        rfl
  · rintro (⟨hlen, w, hne, hw, hs⟩ | ⟨v, hv, rfl, hlen⟩)
    · exact ⟨hlen, w, hne, hw, Or.inl hs⟩
    · obtain ⟨-, w, hne, hw, hs⟩ := isIdentifier_iff_word.mp hv
      refine ⟨hlen, w, hne, hw, Or.inr ?_⟩
      rw [String.toList_append, hs]
      rfl

/-- No identifier ends with a newline. -/
theorem not_isIdentifier_newline (w : String) : ¬ IsIdentifier (w ++ "\n") := by
  rintro ⟨-, -, hchars⟩
  have hnl : '\n' ∈ (w ++ "\n").toList := by
    rw [String.toList_append]
    exact List.mem_append_right _ (List.mem_singleton_self _)
  exact absurd (hchars _ hnl) (by decide)

/-- **The check accepts exactly the identifiers, and `validate_identifier` raises a
`ValueError` on exactly the other strings, unless the string is an identifier of at
most 127 characters with a newline behind it**, which both let through. -/
theorem identifiers_checked_iff (pyStr : PyVal → String) (name s : String) :
    ((isValidIdentifier (.str s) = true ↔ IsIdentifier s) ∧
      ((∃ msg, validateIdentifier pyStr (.str s) name = .error (.valueError msg)) ↔
        ¬ IsIdentifier s)) ↔
      ¬ ∃ w, IsIdentifier w ∧ w.length ≤ 127 ∧ s = w ++ "\n" := by
  have hraises : (∃ msg, validateIdentifier pyStr (.str s) name = .error (.valueError msg)) ↔
      ¬ isValidIdentifier (.str s) = true := by
    rw [validateIdentifier]
    by_cases h : isValidIdentifier (.str s) = true <;> simp [h]
  rw [hraises, isValidIdentifier_iff]
  constructor
  · rintro ⟨h, -⟩ ⟨w, hw, hlen, rfl⟩
    refine not_isIdentifier_newline w (h.mp (Or.inr ⟨w, hw, rfl, ?_⟩))
    rw [String.length_append]
    change w.length + 1 ≤ 128
    omega
  · intro h
    have hno : ¬ ∃ w, IsIdentifier w ∧ s = w ++ "\n" ∧ s.length ≤ 128 := by
      rintro ⟨w, hw, rfl, hlen⟩
      rw [String.length_append] at hlen
      change w.length + 1 ≤ 128 at hlen
      exact h ⟨w, hw, by omega, rfl⟩
    simp [hno]

/-- `"worker\n"` is taken for an identifier. -/
theorem identifier_with_newline :
    isValidIdentifier (.str "worker\n") = true ∧ ¬ IsIdentifier "worker\n" ∧
      ∀ pyStr, validateIdentifier pyStr (.str "worker\n") "worker_id" = .ok () := by
  have hvalid : isValidIdentifier (.str "worker\n") = true := by decide +kernel
  refine ⟨hvalid, not_isIdentifier_newline "worker", fun pyStr => ?_⟩
  rw [validateIdentifier, if_pos hvalid]

end Rxon
