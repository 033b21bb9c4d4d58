import Rxon.Regex
import Rxon.Validation

/-! # Translating validation errors

`translate_error` makes a text for the user from the message of a
`JsonSchemaValueException`.  It reads the message with five patterns in turn, takes the
path of the offending value from it, and walks that path through the data to say what
stands there.

The path is made of the data's own keys.  A step into a list is taken when the segment is
all digits by `str.isdigit`, which is more than `int` accepts; the walk then raises inside
an `except` clause, and so does `validate_data` (`translation_returns_iff`).  A message in
ASCII does not come to that (`translatable_of_ascii`). -/

namespace Rxon
open Memo
open Regex (groups)

/-! ## Python's texts -/

/-- The tables of digits, and `str`. -/
structure PyText where
  /-- `unicodedata.decimal(c)`; the characters that have one are those of `\d`. -/
  decimal : Char → Option Nat
  /-- `c.isdigit()`. -/
  isDigit : Char → Bool
  str : PyVal → Except PyError String
  decimal_ascii (c : Char) :
    c.toNat < 128 → decimal c = if c.isDigit then some (c.toNat - 48) else none
  isDigit_ascii (c : Char) : c.toNat < 128 → isDigit c = c.isDigit
  str_none : str .none = .ok "None"

/-- The longest literal that `int` reads. -/
def intMaxStrDigits : Nat := 4300

section
variable (py : PyText)

/-- `p.isdigit()`. -/
def isDigits (p : List Char) : Bool := !p.isEmpty && p.all py.isDigit

/-- `int(p)`, for a `p` with `p.isdigit()`. -/
def intOf (p : List Char) : Except PyError Nat :=
  match p.mapM py.decimal with
  | some ds =>
    if ds.length ≤ intMaxStrDigits then .ok (ds.foldl (fun n d => 10 * n + d) 0)
    else .error (.valueError "Exceeds the limit (4300 digits) for integer string conversion")
  | none =>
    .error (.valueError ("invalid literal for int() with base 10: '" ++ String.ofList p ++ "'"))

/-! ## Walking a path -/

/-- One turn of the loop in `_get_val_by_path`: where the part leads, if anywhere. -/
def stepInto (p : List Char) : PyVal → Except PyError (Option PyVal)
  | .dict kvs => .ok (kvs.lookup (String.ofList p))
  -- `int` is asked only here, and may raise
  | .list xs => if isDigits py p then (intOf py p).map (xs[·]?) else .ok none
  | _ => .ok none

/-- The loop. -/
def walk : List (List Char) → PyVal → Except PyError PyVal
  | [], curr => .ok curr
  | p :: parts, curr => do
    match ← stepInto py p curr with
    | some x => walk parts x
    | none => return .none

/-- The segments of a path; an empty path has none. -/
def segments (path : List Char) : List (List Char) :=
  if path = [] then [] else path.splitOn '.'

/-- `_get_val_by_path`. -/
def getValByPath (data : PyVal) (path : List Char) : Except PyError PyVal :=
  walk py (segments path) data

/-! ## Reading a message -/

/-- The characters up to a `]` that closes an index make one. -/
def opensIndex (s : List Char) : Bool :=
  match s.dropWhile fun c => (py.decimal c).isSome with
  | ']' :: _ => (s.head?.bind py.decimal).isSome
  | _ => false

/-- `re.sub(r"\[(\d+)\]", r".\1", msg)`; `inside` says that the `]` of an index is yet to
come. -/
def rewriteIndices (inside : Bool) : List Char → List Char
  | [] => []
  | c :: s =>
    if inside then if c = ']' then rewriteIndices false s else c :: rewriteIndices true s
    else if c = '[' ∧ opensIndex py s then '.' :: rewriteIndices true s
    else c :: rewriteIndices false s

end

/-- What `translate_error` takes a message for, with the groups of its pattern. -/
inductive Reading where
  | anyOf
  | oneOf (path enumList : List Char)
  | missing (path field : List Char)
  | unexpected (path field : List Char)
  | typed (path expected : List Char)
  | whole (expected : List Char)
  | other (msg : List Char)

/-- `re.match` with a pattern of two groups. -/
def matchTwo (before between after : String) (reading : List Char → List Char → Reading)
    (msg : List Char) : Option Reading :=
  match groups [.text before.toList, .group, .text between.toList, .group, .text after.toList]
    msg with
  | some [a, b] => some (reading a b)
  | _ => none

/-- `re.match` with a pattern that ends in its only group. -/
def matchOne (before : String) (reading : List Char → Reading) (msg : List Char) :
    Option Reading :=
  match groups [.text before.toList, .group] msg with
  | some [a] => some (reading a)
  | _ => none

/-- The patterns, in the order in which they are tried.  The first one of the source has an
alternative without a path, which is taken last. -/
def patterns : List (List Char → Option Reading) :=
  [matchTwo "data." " must be one of " "" .oneOf,
   matchOne "data must be one of " (.oneOf []),
   matchTwo "data" " must contain [" "]" .missing,
   matchTwo "data" " must not contain \x7b" "\x7d properties" .unexpected,
   matchTwo "data." " must be " "" .typed,
   matchOne "data must be " .whole]

def readMessage (msg : List Char) : Reading :=
  if containsStr (String.ofList msg) "cannot be validated by any definition" ||
      containsStr (String.ofList msg) "anyOf" then .anyOf
  else (patterns.findSome? (· msg)).getD (.other msg)

/-! ## The text -/

/-- `"".join(f"Field '{p}': " for p in parts)`. -/
def fieldPrefix (parts : List (List Char)) : String :=
  String.join (parts.map fun p => "Field '" ++ String.ofList p ++ "': ")

/-- `s.strip(chars)`. -/
def stripChars (chars : List Char) (s : List Char) : List Char :=
  ((s.dropWhile (· ∈ chars)).reverse.dropWhile (· ∈ chars)).reverse

/-- `[p.strip(".") for p in path.split(".") if p.strip(".")]`. -/
def strippedParts (path : List Char) : List (List Char) :=
  ((path.splitOn '.').map (stripChars ['.'])).filter (· ≠ [])

/-- `field.strip("'\"")`. -/
def fieldName (field : List Char) : String := String.ofList (stripChars "'\"".toList field)

section
variable (py : PyText)

def Reading.translate (data : PyVal) : Reading → Except PyError String
  | .anyOf => .ok "Value does not match any schemas"
  | .oneOf path enumList => do
    let val ← getValByPath py data path
    let text ← py.str val
    return fieldPrefix (segments path) ++ "Value '" ++ text ++
      "' is not allowed. Must be one of: " ++ String.ofList enumList
  | .missing path field =>
    .ok (fieldPrefix (strippedParts path) ++ "Missing required field: '" ++ fieldName field ++ "'")
  | .unexpected path field =>
    .ok (fieldPrefix (strippedParts path) ++ "Unexpected field: '" ++ fieldName field ++ "'")
  | .typed path expected =>
    let parts := path.splitOn '.'
    let lastField := parts.getLastD []
    let expectation := "Expected " ++ String.ofList expected
    if isDigits py lastField then
      let item := "Item at index " ++ String.ofList lastField ++ ": " ++ expectation
      match parts.dropLast.getLast? with
      | some arrayField =>
        .ok (fieldPrefix parts.dropLast.dropLast ++ fieldPrefix [arrayField] ++ item)
      | none => .ok item
    else do
      let field := fieldPrefix parts.dropLast ++ fieldPrefix [lastField] ++ expectation
      match ← getValByPath py data path with
      | .none => return field ++ ", got null"
      | _ => return field
  | .whole expected =>
    match data with
    | .none => .ok ("Expected " ++ String.ofList expected ++ ", got null")
    | _ => .ok ("Expected " ++ String.ofList expected)
  | .other msg => .ok (String.ofList msg)

/-- `translate_error`. -/
def translateError (msg : String) (data : PyVal) : Except PyError String :=
  (readMessage (rewriteIndices py false msg.toList)).translate py data

end

/-! ## What a walk meets -/

section
variable (py : PyText)

/-- The parts of a path lead from one value to another. -/
inductive Leads : List (List Char) → PyVal → PyVal → Prop
  | nil {v : PyVal} : Leads [] v v
  | cons {p : List Char} {parts : List (List Char)} {v x w : PyVal}
      (hx : stepInto py p v = .ok (some x)) (h : Leads parts x w) : Leads (p :: parts) v w

/-- Wherever the path meets a list with a part that is all digits, the part is a number. -/
def Walkable (data : PyVal) (parts : List (List Char)) : Prop :=
  ∀ before p after xs, parts = before ++ p :: after → Leads py before data (.list xs) →
    isDigits py p = true → ∃ i, intOf py p = .ok i

variable {py} {data v x : PyVal} {p : List Char} {parts : List (List Char)} {e : PyError}

theorem stepInto_isOk_iff : (∃ x, stepInto py p v = .ok x) ↔
    ∀ xs, v = .list xs → isDigits py p = true → ∃ i, intOf py p = .ok i := by
  by_cases hlist : ∃ xs, v = .list xs
  · obtain ⟨xs, rfl⟩ := hlist
    by_cases hp : isDigits py p = true
    · rw [stepInto, if_pos hp]
      cases hi : intOf py p with
      | ok i => exact iff_of_true ⟨_, rfl⟩ fun _ _ _ => ⟨i, rfl⟩
      | error e =>
        refine iff_of_false nofun fun h => ?_
        obtain ⟨i, hi'⟩ := h xs rfl hp
        cases hi'
    · rw [stepInto, if_neg hp]
      exact iff_of_true ⟨_, rfl⟩ fun _ _ h => absurd h hp
  · refine iff_of_true ?_ fun xs hv => absurd ⟨xs, hv⟩ hlist
    cases v with
    | list xs => exact absurd ⟨xs, rfl⟩ hlist
    | _ => exact ⟨_, rfl⟩

theorem walk_cons_of_error (h : stepInto py p data = .error e) :
    walk py (p :: parts) data = .error e := by
  rw [walk, h]
  rfl

theorem walk_cons_of_none (h : stepInto py p data = .ok none) :
    walk py (p :: parts) data = .ok .none := by
  rw [walk, h]
  rfl

theorem walk_cons_of_some (h : stepInto py p data = .ok (some x)) :
    walk py (p :: parts) data = walk py parts x := by
  rw [walk, h]
  rfl

theorem walk_of_leads (h : Leads py parts data v) : walk py parts data = .ok v := by
  induction h with
  | nil => rfl
  | cons hx _ ih => rw [walk_cons_of_some hx, ih]

/-- A walk that returns was led to what it returns, or nowhere. -/
theorem leads_of_walk (h : walk py parts data = .ok v) : Leads py parts data v ∨ v = .none := by
  induction parts generalizing data with
  | nil =>
    cases h
    exact Or.inl .nil
  | cons p parts ih =>
    match hstep : stepInto py p data with
    | .error e =>
      rw [walk_cons_of_error hstep] at h
      cases h
    | .ok none =>
      rw [walk_cons_of_none hstep] at h
      cases h
      exact Or.inr rfl
    | .ok (some x) =>
      rw [walk_cons_of_some hstep] at h
      exact (ih h).imp_left (.cons hstep)

/-- The first step can be taken, and then the others. -/
theorem walkable_cons : Walkable py data (p :: parts) ↔
    (∃ x, stepInto py p data = .ok x) ∧
      ∀ x, stepInto py p data = .ok (some x) → Walkable py x parts := by
  rw [stepInto_isOk_iff]
  constructor
  · intro h
    refine ⟨fun xs hdata hp => ?_, fun x hx before q after xs hparts hleads => ?_⟩
    · exact h [] p parts xs rfl (hdata ▸ .nil) hp
    · exact h (p :: before) q after xs (by rw [hparts]; rfl) (.cons hx hleads)
  · rintro ⟨hfirst, hrest⟩ before q after xs hparts hleads hq
    cases hleads with
    | nil =>
      obtain ⟨rfl, rfl⟩ := List.cons.inj hparts
      exact hfirst xs rfl hq
    | cons hx h =>
      obtain ⟨rfl, rfl⟩ := List.cons.inj hparts
      exact hrest _ hx _ q after xs rfl h hq

/-- **A walk returns iff no digits that are no number meet a list on its way.** -/
theorem walk_isOk_iff : (∃ v, walk py parts data = .ok v) ↔ Walkable py data parts := by
  induction parts generalizing data with
  | nil =>
    refine iff_of_true ⟨data, rfl⟩ fun before p after xs h => ?_
    simp at h
  | cons p parts ih =>
    rw [walkable_cons]
    match hstep : stepInto py p data with
    | .error e =>
      rw [walk_cons_of_error hstep]
      exact iff_of_false nofun fun h => nomatch h.1
    | .ok none =>
      rw [walk_cons_of_none hstep]
      exact iff_of_true ⟨_, rfl⟩ ⟨⟨_, rfl⟩, nofun⟩
    | .ok (some x) =>
      rw [walk_cons_of_some hstep, ih]
      constructor
      · intro h
        refine ⟨⟨_, rfl⟩, fun y hy => ?_⟩
        cases hy
        exact h
      · exact fun h => h.2 x rfl

theorem exists_digits (h : ∀ c ∈ p, (py.decimal c).isSome) :
    ∃ ds, p.mapM py.decimal = some ds ∧ ds.length = p.length := by
  induction p with
  | nil => exact ⟨[], rfl, rfl⟩
  | cons c p ih =>
    obtain ⟨d, hd⟩ := Option.isSome_iff_exists.mp (h c List.mem_cons_self)
    obtain ⟨ds, hds, hlen⟩ := ih fun c hc => h c (List.mem_cons_of_mem _ hc)
    exact ⟨d :: ds, by simp [List.mapM_cons, hd, hds], by simp [hlen]⟩

/-- Digits in ASCII are a number, if it is not too long. -/
theorem intOf_ascii (hp : isDigits py p = true) (hascii : ∀ c ∈ p, c.toNat < 128)
    (hlen : p.length ≤ intMaxStrDigits) : ∃ i, intOf py p = .ok i := by
  have hdigits : ∀ c ∈ p, py.isDigit c = true := by
    rw [isDigits, Bool.and_eq_true, List.all_eq_true] at hp
    exact hp.2
  have hdecimal : ∀ c ∈ p, (py.decimal c).isSome := by
    intro c hc
    rw [py.decimal_ascii c (hascii c hc), ← py.isDigit_ascii c (hascii c hc), hdigits c hc]
    rfl
  obtain ⟨ds, hds, hlength⟩ := exists_digits hdecimal
  rw [intOf, hds]
  exact ⟨_, if_pos (by rwa [hlength])⟩

end

/-! ## When a message is translated -/

/-- The path whose value the text depends on. -/
def Reading.path? (py : PyText) : Reading → Option (List Char)
  | .oneOf path _ => some path
  | .typed path _ => if isDigits py ((path.splitOn '.').getLastD []) then none else some path
  | _ => none

/-- The walk for the text can be made, and a value that is shown has a text. -/
structure Translatable (py : PyText) (msg : String) (data : PyVal) : Prop where
  walkable (path : List Char) :
    (readMessage (rewriteIndices py false msg.toList)).path? py = some path →
      Walkable py data (segments path)
  shown (path enumList : List Char) (v : PyVal) :
    readMessage (rewriteIndices py false msg.toList) = .oneOf path enumList →
      Leads py (segments path) data v → ∃ text, py.str v = .ok text

section
variable {py : PyText} {data : PyVal}

theorem getValByPath_isOk_iff {path : List Char} :
    (∃ v, getValByPath py data path = .ok v) ↔ Walkable py data (segments path) :=
  walk_isOk_iff

theorem translate_oneOf_isOk_iff {path enumList : List Char} :
    (∃ text, (Reading.oneOf path enumList).translate py data = .ok text) ↔
      Walkable py data (segments path) ∧
        ∀ v, Leads py (segments path) data v → ∃ text, py.str v = .ok text := by
  rw [← getValByPath_isOk_iff]
  cases hval : getValByPath py data path with
  | error e =>
    rw [Reading.translate, hval]
    exact iff_of_false nofun fun h => nomatch h.1
  | ok val =>
    have htext : (∃ text, (Reading.oneOf path enumList).translate py data = .ok text) ↔
        ∃ text, py.str val = .ok text := by
      rw [Reading.translate, hval]
      show (∃ text, (py.str val).bind _ = _) ↔ _
      cases py.str val with
      | error e => exact iff_of_false nofun nofun
      | ok text => exact iff_of_true ⟨_, rfl⟩ ⟨text, rfl⟩
    rw [htext]
    constructor
    · intro h
      refine ⟨⟨val, rfl⟩, fun v hv => ?_⟩
      -- the path leads to one value at most, the one the walk returned
      obtain rfl : val = v := Except.ok.inj (hval.symm.trans (walk_of_leads hv))
      exact h
    · rintro ⟨-, h⟩
      -- a walk that was led nowhere returns `None`, which has a text
      rcases leads_of_walk hval with hleads | rfl
      · exact h val hleads
      · exact ⟨_, py.str_none⟩

theorem translate_typed_isOk_iff {path expected : List Char} :
    (∃ text, (Reading.typed path expected).translate py data = .ok text) ↔
      (isDigits py ((path.splitOn '.').getLastD []) = false →
        Walkable py data (segments path)) := by
  by_cases hlast : isDigits py ((path.splitOn '.').getLastD []) = true
  · refine iff_of_true ?_ fun h => absurd (hlast.symm.trans h) (by decide)
    rw [Reading.translate]
    dsimp only
    rw [if_pos hlast]
    split
    · exact ⟨_, rfl⟩
    · exact ⟨_, rfl⟩
  · rw [Bool.not_eq_true] at hlast
    rw [← getValByPath_isOk_iff, Reading.translate]
    dsimp only
    rw [hlast, if_neg Bool.false_ne_true]
    cases hval : getValByPath py data path with
    | error e => exact iff_of_false nofun fun h => nomatch h rfl
    | ok val =>
      refine iff_of_true ?_ fun _ => ⟨val, rfl⟩
      cases val <;> exact ⟨_, rfl⟩

/-- A reading is translated iff its walk returns and what it shows has a text. -/
theorem Reading.translate_isOk_iff (reading : Reading) :
    (∃ text, reading.translate py data = .ok text) ↔
      (∀ path, reading.path? py = some path → Walkable py data (segments path)) ∧
      ∀ path enumList v, reading = .oneOf path enumList → Leads py (segments path) data v →
        ∃ text, py.str v = .ok text := by
  cases reading with
  | oneOf path enumList =>
    rw [translate_oneOf_isOk_iff]
    constructor
    · rintro ⟨hwalk, hshown⟩
      refine ⟨fun path' h => ?_, fun path' list' v h => ?_⟩
      · cases h
        exact hwalk
      · cases h
        exact hshown v
    · exact fun h => ⟨h.1 path rfl, fun v => h.2 path enumList v rfl⟩
  | typed path expected =>
    rw [translate_typed_isOk_iff]
    simp [Reading.path?]
  | whole expected =>
    refine iff_of_true ?_ ⟨nofun, nofun⟩
    cases data <;> exact ⟨_, rfl⟩
  | anyOf | missing path field | unexpected path field | other msg =>
    exact iff_of_true ⟨_, rfl⟩ ⟨nofun, nofun⟩

theorem translateError_isOk_iff (py : PyText) (msg : String) (data : PyVal) :
    (∃ text, translateError py msg data = .ok text) ↔ Translatable py msg data := by
  rw [translateError, Reading.translate_isOk_iff]
  exact ⟨fun h => ⟨h.1, h.2⟩, fun h => ⟨h.walkable, h.shown⟩⟩

end

/-! ## Messages in ASCII -/

theorem sublist_of_mem_splitOn {d : Char} {p s : List Char} (h : p ∈ s.splitOn d) :
    p.Sublist s := by
  induction s generalizing p with
  | nil =>
    rw [List.splitOn_nil, List.mem_singleton] at h
    rw [h]
  | cons c s ih =>
    rw [List.splitOn, List.splitOnP_cons_eq_if_modifyHead] at h
    split at h
    · rcases List.mem_cons.mp h with rfl | h
      · exact List.nil_sublist _
      · exact (ih h).cons c
    · obtain ⟨q, qs, hsplit⟩ := List.exists_cons_of_ne_nil (List.splitOnP_ne_nil (· == d) s)
      rw [hsplit, List.modifyHead_cons] at h
      have hmem : ∀ r ∈ q :: qs, r.Sublist s := by
        rw [← hsplit]
        exact fun r hr => ih hr
      rcases List.mem_cons.mp h with rfl | h
      · exact (hmem q List.mem_cons_self).cons_cons c
      · exact (hmem p (List.mem_cons_of_mem q h)).cons c

theorem sublist_of_matchTwo {before between after : String}
    {reading : List Char → List Char → Reading} {msg : List Char} {r : Reading}
    (h : matchTwo before between after reading msg = some r) :
    ∃ a b, r = reading a b ∧ a.Sublist msg := by
  unfold matchTwo at h
  split at h
  · rename_i a b hgroups
    cases h
    exact ⟨a, b, rfl, Regex.sublist_of_groups hgroups (by simp)⟩
  · cases h

theorem exists_of_matchOne {before : String} {reading : List Char → Reading} {msg : List Char}
    {r : Reading} (h : matchOne before reading msg = some r) : ∃ a, r = reading a := by
  unfold matchOne at h
  split at h
  · cases h
    exact ⟨_, rfl⟩
  · cases h

section
variable {py : PyText}

/-- A path that is walked stands in the message. -/
theorem path?_sublist {msg path : List Char} (h : (readMessage msg).path? py = some path) :
    path.Sublist msg := by
  unfold readMessage at h
  split at h
  · cases h
  · cases hread : patterns.findSome? (· msg) with
    | none =>
      rw [hread] at h
      cases h
    -- the two patterns whose reading has a path that is walked take it from the message
    | some r =>
      rw [hread] at h
      obtain ⟨pattern, hpattern, hr⟩ := List.exists_of_findSome?_eq_some hread
      simp only [patterns, List.mem_cons, List.not_mem_nil, or_false] at hpattern
      rcases hpattern with rfl | rfl | rfl | rfl | rfl | rfl
      · obtain ⟨a, b, rfl, ha⟩ := sublist_of_matchTwo hr
        cases h
        exact ha
      · obtain ⟨a, rfl⟩ := exists_of_matchOne hr
        cases h
        exact List.nil_sublist msg
      · obtain ⟨a, b, rfl, -⟩ := sublist_of_matchTwo hr
        cases h
      · obtain ⟨a, b, rfl, -⟩ := sublist_of_matchTwo hr
        cases h
      · obtain ⟨a, b, rfl, ha⟩ := sublist_of_matchTwo hr
        simp only [Option.getD_some, Reading.path?, Option.ite_none_left_eq_some,
          Option.some.injEq] at h
        exact h.2 ▸ ha
      · obtain ⟨a, rfl⟩ := exists_of_matchOne hr
        cases h

theorem mem_rewriteIndices {inside : Bool} {s : List Char} {c : Char}
    (h : c ∈ rewriteIndices py inside s) : c = '.' ∨ c ∈ s := by
  induction s generalizing inside with
  | nil => cases h
  | cons d s ih =>
    unfold rewriteIndices at h
    repeat' split at h
    · exact (ih h).imp_right (List.mem_cons_of_mem d)
    · rcases List.mem_cons.mp h with rfl | h
      · exact Or.inr List.mem_cons_self
      · exact (ih h).imp_right (List.mem_cons_of_mem d)
    · rcases List.mem_cons.mp h with rfl | h
      · exact Or.inl rfl
      · exact (ih h).imp_right (List.mem_cons_of_mem d)
    · rcases List.mem_cons.mp h with rfl | h
      · exact Or.inr List.mem_cons_self
      · exact (ih h).imp_right (List.mem_cons_of_mem d)

theorem length_rewriteIndices_le (inside : Bool) (s : List Char) :
    (rewriteIndices py inside s).length ≤ s.length := by
  induction s generalizing inside with
  | nil => exact Nat.le_refl 0
  | cons d s ih =>
    have h := ih true
    have h' := ih false
    unfold rewriteIndices
    repeat' split
    all_goals simp only [List.length_cons]; omega

/-- **A message in ASCII that is not too long is translated**, whatever keys are in its
path, if every value has a text. -/
theorem translatable_of_ascii {msg : String} {data : PyVal}
    (hascii : ∀ c ∈ msg.toList, c.toNat < 128) (hlen : msg.length ≤ intMaxStrDigits)
    (hstr : ∀ v, ∃ text, py.str v = .ok text) : Translatable py msg data := by
  refine ⟨fun path hpath before p after xs hparts _ hp => ?_, fun _ _ v _ _ => hstr v⟩
  have hsub : p.Sublist (rewriteIndices py false msg.toList) := by
    refine List.Sublist.trans ?_ (path?_sublist hpath)
    have hmem : p ∈ segments path := by
      rw [hparts]
      exact List.mem_append_right _ List.mem_cons_self
    unfold segments at hmem
    split at hmem
    · cases hmem
    · exact sublist_of_mem_splitOn hmem
  refine intOf_ascii hp (fun c hc => ?_) ?_
  · rcases mem_rewriteIndices (hsub.subset hc) with rfl | hmem
    · decide
    · exact hascii c hmem
  · refine (hsub.length_le.trans (length_rewriteIndices_le false _)).trans ?_
    rwa [String.length_toList]

end

/-! ## When validation answers -/

section
variable (translate : String → PyVal → Except PyError String)

/-- What `validate_data` makes of a verdict and of what the data has become. -/
def Verdict.answer (data : PyVal) : Verdict → Except PyError (Bool × Option String)
  | .accepted => .ok (true, none)
  | .rejected message => do return (false, some (← translate message data))
  | .failed text => .ok (false, some text)

/-- What it answers once it has got a validator or none. -/
def answerOf (data : PyVal) (schema : Option (List (String × PyVal))) :
    Option Validator → Except PyError (Bool × Option String)
  | some validator =>
    let (verdict, data) := validator.run fills data
    verdict.answer translate data
  | none =>
    match schema with
    | none | some [] => .ok (true, none)
    | some _ => .ok (false, some "Failed to compile schema")

variable (oj : Orjson) (fj : SchemaCompiler oj.Bytes Validator) [DecidableEq oj.Bytes]
  {schema : Option (List (String × PyVal))}
  {validators : Cache oj.Bytes Validator maxValidatorCacheSize} {data : PyVal}

/-- **The answer is up to the validator that answers for the schema.** -/
theorem validateData_answer : (validateData oj fj translate data schema validators).answer =
    answerOf translate data schema (answering oj fj schema validators) := by
  match schema with
  | none | some [] => rfl
  | some (e :: es) =>
    rw [← getCompiledValidator_fst]
    unfold validateData
    dsimp only
    generalize getCompiledValidator oj fj (some (e :: es)) validators = got
    obtain ⟨result, validators'⟩ := got
    cases result with
    | none => rfl
    | some validator =>
      dsimp only [answerOf]
      generalize validator.run fills data = ran
      obtain ⟨verdict, data'⟩ := ran
      cases verdict <;> rfl

theorem Verdict.answer_isOk_iff {verdict : Verdict} :
    (∃ answer, verdict.answer translate data = .ok answer) ↔
      ∀ message, verdict = .rejected message → ∃ text, translate message data = .ok text := by
  cases verdict with
  | accepted | failed => exact iff_of_true ⟨_, rfl⟩ nofun
  | rejected message =>
    simp only [Verdict.rejected.injEq, forall_eq']
    show (∃ answer, (translate message data).bind _ = _) ↔ _
    cases translate message data with
    | error e => exact iff_of_false nofun nofun
    | ok text => exact iff_of_true ⟨_, rfl⟩ ⟨text, rfl⟩

/-- `validate_data` answers as soon as the message of a rejection can be translated. -/
theorem validateData_isOk_iff :
    (∃ answer, (validateData oj fj translate data schema validators).answer = .ok answer) ↔
      ∀ validator message data', answering oj fj schema validators = some validator →
        validator.run fills data = (.rejected message, data') →
          ∃ text, translate message data' = .ok text := by
  rw [validateData_answer]
  cases answering oj fj schema validators with
  | none =>
    refine iff_of_true ?_ nofun
    match schema with
    | none | some [] => exact ⟨_, rfl⟩
    | some (_ :: _) => exact ⟨_, rfl⟩
  | some validator =>
    rw [answerOf, Verdict.answer_isOk_iff]
    constructor
    · intro h v message data' hv hrun
      cases hv
      rw [hrun] at h
      exact h message rfl
    · intro h message hmessage
      exact h validator message _ rfl (Prod.ext hmessage rfl)

/-- What `validate_params` makes of a verdict: any exception is translated. -/
def Verdict.paramsAnswer (data : PyVal) : Verdict → Except PyError (Bool × Option String)
  | .accepted => .ok (true, none)
  | .rejected message | .failed message => do return (false, some (← translate message data))

/-- `validate_params` is `validate_data` of the params, but for its answer to a verdict. -/
theorem validateParams_eq {self skill params : PyVal} (h : self.getAttr "params" = .ok params) :
    validateParams oj fj translate self skill validators =
      let result := validateData oj fj translate params (inputSchema skill) validators
      { result with
        answer := match answering oj fj (inputSchema skill) validators with
          | some validator =>
            let (verdict, params) := validator.run fills params
            verdict.paramsAnswer translate params
          | none => result.answer
        data := withParams result.data self } := by
  unfold validateParams
  rw [h, ← getCompiledValidator_fst]
  dsimp only
  cases hgot : getCompiledValidator oj fj (inputSchema skill) validators with
  | mk validator validators' =>
    cases validator with
    | none =>
      -- nothing was compiled, so nothing was kept
      have hnone : answering oj fj (inputSchema skill) validators = none := by
        rw [← getCompiledValidator_fst, hgot]
      have hsame := getCompiledValidator_of_none oj fj hnone
      rw [hgot] at hsame
      cases hsame
      rfl
    | some validator =>
      obtain ⟨e, es, hs⟩ : ∃ e es, inputSchema skill = some (e :: es) := by
        match hs : inputSchema skill with
        | none | some [] =>
          rw [hs] at hgot
          cases hgot
        | some (e :: es) => exact ⟨e, es, rfl⟩
      rw [hs] at hgot
      simp only [hs, validateData, hgot]
      generalize validator.run fills params = ran
      obtain ⟨verdict, params'⟩ := ran
      cases verdict <;> rfl

theorem Verdict.paramsAnswer_eq_iff {verdict : Verdict} :
    verdict.paramsAnswer translate data = verdict.answer translate data ↔
      ∀ text, verdict = .failed text → translate text data = .ok text := by
  cases verdict with
  | accepted | rejected => exact iff_of_true rfl nofun
  | failed text =>
    simp only [Verdict.failed.injEq, forall_eq']
    show (translate text data).bind _ = _ ↔ _
    cases translate text data with
    | error e => exact iff_of_false nofun nofun
    | ok text' =>
      show Except.ok (false, some text') = Except.ok (false, some text) ↔ _
      simp

/-- **`validate_params` agrees with `validate_data`**, in what it leaves of the params and of the
cache always, and in its answer iff the validator raises nothing but rejections, or what it
raises reads the same in translation. -/
theorem params_validation_agrees_iff {self skill params : PyVal}
    (h : self.getAttr "params" = .ok params) :
    (validateParams oj fj translate self skill validators).validators =
        (validateData oj fj translate params (inputSchema skill) validators).validators ∧
      (validateParams oj fj translate self skill validators).data =
        withParams (validateData oj fj translate params (inputSchema skill) validators).data self ∧
      ((validateParams oj fj translate self skill validators).answer =
          (validateData oj fj translate params (inputSchema skill) validators).answer ↔
        ∀ validator text params', answering oj fj (inputSchema skill) validators = some validator →
          validator.run fills params = (.failed text, params') →
            translate text params' = .ok text) := by
  rw [validateParams_eq translate oj fj h]
  refine ⟨rfl, rfl, ?_⟩
  dsimp only
  rw [validateData_answer]
  cases answering oj fj (inputSchema skill) validators with
  | none => exact iff_of_true rfl fun _ _ _ hv => by cases hv
  | some validator =>
    dsimp only [answerOf]
    rw [Verdict.paramsAnswer_eq_iff]
    constructor
    · intro hsame v text params' hv hrun
      cases hv
      rw [hrun] at hsame
      exact hsame text rfl
    · intro hsame text htext
      exact hsame validator text _ rfl (Prod.ext htext rfl)

end

/-- The validator of `defaultSkill` raises nothing. -/
theorem params_validation_agrees_iff_default :
    (validated (.dict [])).answer =
      (validateData Orjson.reference .defaults (fun msg _ => .ok msg) (.dict [])
        (inputSchema defaultSkill) .empty).answer := by
  have hparams : (paramsTask (.dict [])).getAttr "params" = .ok (.dict []) := rfl
  refine (params_validation_agrees_iff (fun msg _ => .ok msg) Orjson.reference .defaults
    hparams).2.2.mpr fun validator text params' hvalidator hrun => ?_
  cases hvalidator
  cases hrun

/-- **Translation returns iff the message is translatable**, and so validation answers iff
every rejection is.  What is in the way are parts of a key that are digits to
`str.isdigit` and no number to `int`, where the path they are part of has led to a list,
and an enum value that has no text. -/
theorem translation_returns_iff (py : PyText) (oj : Orjson)
    (fj : SchemaCompiler oj.Bytes Validator) [DecidableEq oj.Bytes] :
    (∀ msg data, (∃ text, translateError py msg data = .ok text) ↔ Translatable py msg data) ∧
    ∀ data schema validators,
      (∃ answer, (validateData oj fj (translateError py) data schema validators).answer =
        .ok answer) ↔
      ∀ validator message data', answering oj fj schema validators = some validator →
        validator.run fills data = (.rejected message, data') → Translatable py message data' := by
  refine ⟨translateError_isOk_iff py, fun data schema validators => ?_⟩
  simp only [validateData_isOk_iff, translateError_isOk_iff]

/-! ## A key that raises -/

/-- The digits of Latin-1, and the texts of scalars. -/
def PyText.latin : PyText where
  decimal c := if c.isDigit then some (c.toNat - 48) else none
  isDigit c := c.isDigit || c = '²' || c = '³' || c = '¹'
  str
    | .none => .ok "None"
    | .bool b => .ok (if b then "True" else "False")
    | .int i => .ok (toString i)
    | .str s => .ok s
    | _ => .ok "[...]"
  decimal_ascii _ _ := rfl
  isDigit_ascii c h := by
    have hne : ∀ d : Char, 128 ≤ d.toNat → c ≠ d := by
      rintro d hd rfl
      omega
    simp [hne '²' (by decide), hne '³' (by decide), hne '¹' (by decide)]
  str_none := rfl

/-- `{"type": "string"}`, among other keywords. -/
def wantsString : PyVal → Bool
  | .dict definition =>
    match definition.lookup "type" with
    | some (.str type) => type = "string"
    | _ => false
  | _ => false

/-- A compiler of the properties of an object that have to be strings: they are checked in
the order of the schema, and the first failure is reported. -/
def SchemaCompiler.strings : SchemaCompiler Json Validator where
  compile schema :=
    match schema.lookup "properties" with
    | some (.dict properties) =>
      .ok (.look fun data => .done (match data with
        | .dict kvs =>
          match (properties.filter fun property => wantsString property.2).find? fun property =>
            match kvs.lookup property.1 with
            | none | some (.str _) => false
            | some _ => true with
          | some property => .rejected s!"data.{property.1} must be string"
          | none => .accepted
        | _ => .accepted))
    | _ => .ok (.done .accepted)
  encodeItems _ := .null

/-- `{"properties": {"a.².x": {"type": "string"}}}`. -/
def superscriptSchema : List (String × PyVal) :=
  [("properties", .dict [("a.².x", .dict [("type", .str "string")])])]

/-- `{"a": [], "a.².x": 1}`. -/
def superscriptData : PyVal := .dict [("a", .list []), ("a.².x", .int 1)]

/-- A key with a superscript two in it, and an exception from the `except` clause. -/
theorem superscript_key_raises :
    (¬ ∃ text, translateError .latin "data.a.².x must be string" superscriptData = .ok text) ∧
    ¬ ∃ answer, (validateData Orjson.reference .strings (translateError .latin) superscriptData
      (some superscriptSchema) .empty).answer = .ok answer := by
  have hraises : translateError .latin "data.a.².x must be string" superscriptData =
      .error (.valueError "invalid literal for int() with base 10: '²'") := by
    rfl
  have hanswer : (validateData Orjson.reference .strings (translateError .latin) superscriptData
      (some superscriptSchema) .empty).answer =
      .error (.valueError "invalid literal for int() with base 10: '²'") := by
    rfl
  rw [hraises, hanswer]
  exact ⟨nofun, nofun⟩

end Rxon
