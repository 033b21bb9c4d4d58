import Rxon.Contents
import Rxon.Models
import Rxon.Reference

/-! # A Struct and the dict of its fields

A Struct is handed to msgspec as a whole, and the dict of its public fields is walked by
orjson, which hands on the Structs that it meets.  So the same value inside is encoded by
msgspec on the one path and by orjson on the other.  They agree, and show no private
field, iff msgspec knows everything, no set, no UTC datetime and no bytes or timedelta with
two texts stands outside the nested Structs, and the private fields of these are null
(`paths_agree_iff`). -/

namespace PyVal

/-- Whether the value is written as null. -/
def isNullish : PyVal → Bool
  | .none => true
  | .float (.finite _) => false
  | .float _ => true
  | .enum _ _ v => isNullish v
  | _ => false

section
variable (D : Decls)

mutual

/-- Whether all private fields of Structs in the value are null. -/
def isDiscreet : PyVal → Bool
  | .list xs | .set _ xs => areDiscreet xs
  | .dict kvs | .dataclass _ kvs => entriesDiscreet kvs
  | .struct c fs => fieldsDiscreet c fs
  | .enum _ _ v => isDiscreet v
  | _ => true

def areDiscreet : List PyVal → Bool
  | [] => true
  | x :: xs => isDiscreet x && areDiscreet xs

def entriesDiscreet : List (String × PyVal) → Bool
  | [] => true
  | (_, x) :: kvs => isDiscreet x && entriesDiscreet kvs

def fieldsDiscreet (c : StructHead) : List (String × PyVal) → Bool
  | [] => true
  | (k, x) :: fs =>
    (D.omits c k x || (if isPrivate k then isNullish x else isDiscreet x)) &&
      fieldsDiscreet c fs

end

end

mutual

/-- Whether no set, no UTC datetime and no leaf that `str` writes otherwise than msgspec
stands in the value outside its Structs. -/
def isNeutral : PyVal → Bool
  | .set _ _ => false
  | .datetime _ offset => decide (offset ≠ "+00:00")
  | .coded _ code text => decide (code = text)
  | .list xs => areNeutral xs
  | .dict kvs => entriesNeutral kvs
  | .enum _ _ v => isNeutral v
  | _ => true

def areNeutral : List PyVal → Bool
  | [] => true
  | x :: xs => isNeutral x && areNeutral xs

def entriesNeutral : List (String × PyVal) → Bool
  | [] => true
  | (_, x) :: kvs => isNeutral x && entriesNeutral kvs

end

section
variable {D : Decls} {pyStr : PyVal → String} {v : PyVal} {c : StructHead} {xs : List PyVal}
  {kvs fs : List (String × PyVal)}

theorem areDiscreet_iff : areDiscreet D xs = true ↔ ∀ x ∈ xs, isDiscreet D x = true :=
  List.forall_iff_of_cons rfl (fun _ _ => rfl) xs

theorem entriesDiscreet_iff :
    entriesDiscreet D kvs = true ↔ ∀ e ∈ kvs, isDiscreet D e.2 = true :=
  List.forall_iff_of_cons rfl (fun _ _ => rfl) kvs

theorem fieldsDiscreet_iff : fieldsDiscreet D c fs = true ↔ ∀ e ∈ D.kept c fs,
    ((!isPrivate e.1) = true → isDiscreet D e.2 = true) ∧
      ((!isPrivate e.1) = false → e.2.isNullish = true) := by
  induction fs with
  | nil => simp [fieldsDiscreet, Decls.kept]
  | cons e fs ih =>
    rw [fieldsDiscreet, Bool.and_eq_true, ih, Decls.kept, Decls.kept, List.filter_cons]
    cases D.omits c e.1 e.2 <;> cases hp : isPrivate e.1 <;> simp [hp]

theorem areNeutral_iff : areNeutral xs = true ↔ ∀ x ∈ xs, isNeutral x = true :=
  List.forall_iff_of_cons rfl (fun _ _ => rfl) xs

theorem entriesNeutral_iff : entriesNeutral kvs = true ↔ ∀ e ∈ kvs, isNeutral e.2 = true :=
  List.forall_iff_of_cons rfl (fun _ _ => rfl) kvs

theorem isNull_built (h : known D v = true) (keep : Bool) :
    (built D keep v).isNull = v.isNullish := by
  induction v with
  | none | bool | int | str | uuid | datetime | coded => rfl
  | list | set | dict | dataclass | struct => rfl
  | float x => cases x <;> rfl
  | object => cases h
  | enum c m v ih => exact ih h

/-- **The private fields are shown iff one of them is not null.** -/
theorem canon_built_iff (h : Encodable v) (hknown : known D v = true) :
    Json.canon (built D true v) = Json.canon (built D false v) ↔ isDiscreet D v = true := by
  induction h with
  | none | bool | int | str | uuid | datetime | coded => exact iff_of_true rfl rfl
  | float x => cases x <;> exact iff_of_true rfl rfl
  | object => cases hknown
  | enum c m _ ih => exact ih hknown
  | list _ ih =>
    rw [built_list, built_list, Json.canon_map_iff, isDiscreet, areDiscreet_iff]
    exact forall₂_congr fun x hx => ih x hx (knownList_iff.mp hknown x hx)
  | set frozen _ ih =>
    rw [built_set, built_set, Json.canon_map_iff, isDiscreet, areDiscreet_iff]
    exact forall₂_congr fun x hx => ih x hx (knownList_iff.mp hknown x hx)
  | dict hunique _ ih =>
    rw [built_dict, built_dict, Json.canon_mapVal_iff hunique, isDiscreet, entriesDiscreet_iff]
    exact forall₂_congr fun e he => ih e he (knownEntries_iff.mp hknown e he)
  | @struct fs c hunique _ ih =>
    have hkept : Assoc.Unique (D.kept c fs) := hunique.sublist List.filter_sublist
    have hfields := Json.canon_mapVal_filter_iff hkept (built D true) (built D false)
      fun e => !isPrivate e.1
    rw [built_struct_true, built_struct, isDiscreet, fieldsDiscreet_iff]
    refine hfields.trans (forall₂_congr fun e he => ?_)
    have hknown' : known D e.2 = true := knownFields_iff.mp hknown e he
    rw [ih e (List.mem_of_mem_filter he) hknown', isNull_built hknown']

/-- **orjson writes what msgspec does iff the value is neutral**, if its private fields
are null. -/
theorem canon_content_iff (h : Encodable v) (hknown : known D v = true)
    (hdiscreet : isDiscreet D v = true) :
    Json.canon (built D true v) = Json.canon (content D pyStr v) ↔ isNeutral v = true := by
  induction h with
  | none | bool | int | str | uuid => exact iff_of_true rfl rfl
  | float x => cases x <;> exact iff_of_true rfl rfl
  | object => cases hknown
  | datetime clock offset =>
    rw [built, content, Json.canon_str, Json.canon_str, Json.str.injEq, isNeutral,
      decide_eq_true_iff, String.append_right_inj]
    by_cases hutc : offset = "+00:00"
    · subst hutc
      decide
    · rw [if_neg hutc]
      exact iff_of_true rfl hutc
  | coded kind code text =>
    rw [built, content, Json.canon_str, Json.canon_str, Json.str.injEq, isNeutral,
      decide_eq_true_iff]
  | enum c m _ ih => exact ih hknown hdiscreet
  | list _ ih =>
    rw [built_list, content_list, Json.canon_map_iff, isNeutral, areNeutral_iff]
    exact forall₂_congr fun x hx => ih x hx (knownList_iff.mp hknown x hx)
      (areDiscreet_iff.mp hdiscreet x hx)
  | set frozen _ _ =>
    rw [built_set, Json.canon_arr]
    exact iff_of_false (fun heq => by cases heq) (fun heq => by cases heq)
  | dict hunique _ ih =>
    rw [built_dict, content_dict, Json.canon_mapVal_iff hunique, isNeutral,
      entriesNeutral_iff]
    exact forall₂_congr fun e he => ih e he (knownEntries_iff.mp hknown e he)
      (entriesDiscreet_iff.mp hdiscreet e he)
  | @struct fs c hunique _ ih =>
    have hkept : Assoc.Unique (D.kept c fs) := hunique.sublist List.filter_sublist
    rw [built_struct_true, content_struct pyStr hknown]
    refine iff_of_true ((Json.canon_mapVal_filter_iff hkept _ _ _).mpr fun e he => ?_) rfl
    refine ⟨fun _ => rfl, fun hprivate => ?_⟩
    rw [isNull_built (knownFields_iff.mp hknown e he)]
    exact (fieldsDiscreet_iff.mp hdiscreet e he).2 hprivate

theorem intsFit_mapVal {f : PyVal → Json} :
    (Json.obj (Assoc.mapVal f kvs)).IntsFit ↔ ∀ e ∈ kvs, (f e.2).IntsFit := by
  rw [Json.intsFit_obj, Assoc.mapVal, List.forall_mem_map]

/-- orjson can write what msgspec makes iff it can write the value itself. -/
theorem intsFit_built_iff (h : Encodable v) (hknown : known D v = true)
    (hdiscreet : isDiscreet D v = true) (hneutral : isNeutral v = true) :
    (built D true v).IntsFit ↔ (content D pyStr v).IntsFit := by
  induction h with
  | none | bool | int | str | uuid => rfl
  | float x => cases x <;> rfl
  | object => cases hknown
  | datetime | coded => simp [built, content, Json.IntsFit, Json.All, Json.nodes]
  | enum c m _ ih => exact ih hknown hdiscreet hneutral
  | list _ ih =>
    rw [content_list, built_list, Json.intsFit_arr, Json.intsFit_arr,
      List.forall_mem_map, List.forall_mem_map]
    exact forall₂_congr fun x hx => ih x hx (knownList_iff.mp hknown x hx)
      (areDiscreet_iff.mp hdiscreet x hx) (areNeutral_iff.mp hneutral x hx)
  | set => cases hneutral
  | dict hunique _ ih =>
    rw [content_dict, built_dict, intsFit_mapVal, intsFit_mapVal]
    exact forall₂_congr fun e he => ih e he (knownEntries_iff.mp hknown e he)
      (entriesDiscreet_iff.mp hdiscreet e he) (entriesNeutral_iff.mp hneutral e he)
  | @struct fs c hunique _ ih =>
    rw [content_struct pyStr hknown, built_struct_true, intsFit_mapVal, intsFit_mapVal]
    refine ⟨fun hfit e he => hfit e (List.mem_of_mem_filter he), fun hfit e he => ?_⟩
    by_cases hprivate : isPrivate e.1 = true
    · apply Json.intsFit_of_isNull
      rw [isNull_built (knownFields_iff.mp hknown e he)]
      exact (fieldsDiscreet_iff.mp hdiscreet e he).2 (by rw [hprivate]; rfl)
    · exact hfit e (List.mem_filter.mpr ⟨he, by simpa using hprivate⟩)

end
end PyVal

section
open PyVal (known built content publicKept isDiscreet isNeutral)

namespace Rxon

section
variable {D : Decls} {c : StructHead} {fs : List (String × PyVal)}

theorem encodable_publicKept (h : PyVal.Encodable (.struct c fs)) :
    Assoc.Unique (publicKept D c fs) ∧ ∀ e ∈ publicKept D c fs, PyVal.Encodable e.2 := by
  cases h with
  | struct _ hunique h =>
    exact ⟨hunique.sublist (PyVal.publicKept_sublist D),
      fun e he => h e ((PyVal.publicKept_sublist D).subset he)⟩

theorem known_publicKept (hknown : known D (.struct c fs) = true) :
    ∀ e ∈ publicKept D c fs, known D e.2 = true :=
  fun e he => PyVal.knownFields_iff.mp hknown e (List.mem_of_mem_filter he)

/-- The document without private fields, of a Struct. -/
theorem built_struct_false (c : StructHead) (fs : List (String × PyVal)) :
    built D false (.struct c fs) = .obj (Assoc.mapVal (built D false) (publicKept D c fs)) := by
  rw [PyVal.built_struct]
  rfl

/-- The Struct path shows no private field iff those of the nested Structs are null. -/
theorem canon_struct_clean (pyStr : PyVal → String) (h : PyVal.Encodable (.struct c fs))
    (hknown : known D (.struct c fs) = true) :
    Json.canon (content D pyStr (.struct c fs)) = Json.canon (built D false (.struct c fs)) ↔
      ∀ e ∈ publicKept D c fs, isDiscreet D e.2 = true := by
  obtain ⟨hunique, hfields⟩ := encodable_publicKept (D := D) h
  rw [PyVal.content_struct pyStr hknown, built_struct_false, Json.canon_mapVal_iff hunique]
  exact forall₂_congr fun e he =>
    PyVal.canon_built_iff (hfields e he) (known_publicKept hknown e he)

/-- The two paths write the same iff what they encode differently is missing. -/
theorem canon_struct_dict (pyStr : PyVal → String) (h : PyVal.Encodable (.struct c fs))
    (hknown : known D (.struct c fs) = true)
    (hdiscreet : ∀ e ∈ publicKept D c fs, isDiscreet D e.2 = true) :
    Json.canon (content D pyStr (.struct c fs)) =
        Json.canon (content D pyStr (.dict (publicKept D c fs))) ↔
      ∀ e ∈ publicKept D c fs, isNeutral e.2 = true := by
  obtain ⟨hunique, hfields⟩ := encodable_publicKept (D := D) h
  rw [PyVal.content_struct pyStr hknown, PyVal.content_dict, Json.canon_mapVal_iff hunique]
  exact forall₂_congr fun e he =>
    PyVal.canon_content_iff (hfields e he) (known_publicKept hknown e he) (hdiscreet e he)

theorem intsFit_struct_dict (pyStr : PyVal → String) (h : PyVal.Encodable (.struct c fs))
    (hknown : known D (.struct c fs) = true)
    (hdiscreet : ∀ e ∈ publicKept D c fs, isDiscreet D e.2 = true)
    (hneutral : ∀ e ∈ publicKept D c fs, isNeutral e.2 = true) :
    (content D pyStr (.struct c fs)).IntsFit ↔
      (content D pyStr (.dict (publicKept D c fs))).IntsFit := by
  obtain ⟨hunique, hfields⟩ := encodable_publicKept (D := D) h
  rw [PyVal.content_struct pyStr hknown, PyVal.content_dict, PyVal.intsFit_mapVal,
    PyVal.intsFit_mapVal]
  exact forall₂_congr fun e he => PyVal.intsFit_built_iff (hfields e he)
    (known_publicKept hknown e he) (hdiscreet e he) (hneutral e he)

/-- A Struct with a leaf that msgspec does not know is a text, and the dict is an object. -/
theorem known_of_canon_eq (pyStr : PyVal → String)
    (heq : Json.canon (content D pyStr (.struct c fs)) =
      Json.canon (content D pyStr (.dict (publicKept D c fs)))) :
    known D (.struct c fs) = true := by
  by_contra hunknown
  rw [PyVal.content_struct_unknown pyStr hunknown, PyVal.content_dict, Json.canon_str,
    Json.canon_obj] at heq
  cases heq

end

/-- Resources with one property. -/
def resourcesWith (value : PyVal) : List (String × PyVal) :=
  [("devices", .none), ("properties", .dict [("tags", value)])]

theorem encodable_resourcesWith {value : PyVal} (h : PyVal.Encodable value) :
    PyVal.Encodable (.struct ⟨"Resources", []⟩ (resourcesWith value)) := by
  refine .struct _ (by simp [Assoc.Unique, resourcesWith]) (List.forall_mem_cons.mpr ⟨.none, ?_⟩)
  refine List.forall_mem_singleton.mpr (.dict (by simp [Assoc.Unique]) ?_)
  exact List.forall_mem_singleton.mpr h

/-- Bytes are base64 on the Struct path and their `repr` on the other. -/
example :
    let rt := Runtime.reference rxonDecls fun _ => ""
    let fs := resourcesWith (.coded (.bytes false) "aGk=" "b'hi'")
    toDict rt (.struct ⟨"Resources", []⟩ fs) 0 =
        .ok (.obj [("properties", .obj [("tags", .str "aGk=")])]) ∧
      toDict rt (.dict (publicKept rxonDecls ⟨"Resources", []⟩ fs)) 0 =
        .ok (.obj [("properties", .obj [("tags", .str "b'hi'")])]) := by
  decide +kernel

end Rxon

end
