import Rxon.Contents
import Rxon.Models
import Rxon.Signing

/-! # The order of sets

A set has no order of its own, but msgspec lists it in the order of its iteration, and
`str` prints it so.  Two representations of one value, which differ in the iteration of
sets and in the insertion order of dicts, therefore have the same digest and the same
signatures iff the sets that are written are iterated alike (`digest_stable_iff`). -/

namespace Json

theorem units?_canon (j : Json) : (canon j).units? = j.units? := by
  cases j with
  | float f =>
    by_cases hf : f.IsInteger
    · have hholds : f.units = f.toInt * Binary64.one := Binary64.holds_toInt hf
      rw [canon_float_of_holds (Binary64.holds_toInt hf), units?, units?, hholds]
    · rw [canon_float_of_not hf]
  | null | bool | int | str => rfl
  | arr | obj => simp [units?]

end Json

namespace PyVal

/-- Whether the value is a scalar of JSON. -/
def isScalar : PyVal → Bool
  | .none | .bool _ | .int _ | .float (.finite _) | .str _ => true
  | _ => false

/-- Values made of JSON scalars, lists, dicts, Structs and sets that are alike: the sets
are related by `R`, dicts and Structs have the same keys, and the fields that `skips`
names are not compared. -/
inductive Alike (R : List PyVal → List PyVal → Prop)
    (skips : StructHead → String → PyVal → Bool) : PyVal → PyVal → Prop
  | scalar {v : PyVal} (h : isScalar v = true) : Alike R skips v v
  | list {xs ys : List PyVal} (hlen : xs.length = ys.length)
      (h : ∀ p ∈ xs.zip ys, Alike R skips p.1 p.2) : Alike R skips (.list xs) (.list ys)
  | dict {kvs kvs' : List (String × PyVal)} (hkeys : Assoc.SameKeys kvs kvs')
      (h : ∀ e ∈ kvs, ∀ e' ∈ kvs', e.1 = e'.1 → Alike R skips e.2 e'.2) :
      Alike R skips (.dict kvs) (.dict kvs')
  | struct {fs fs' : List (String × PyVal)} (c : StructHead) (hkeys : Assoc.SameKeys fs fs')
      (hpublic : ∀ k ∈ Assoc.keys fs, isPrivate k = false)
      (h : ∀ e ∈ fs, ∀ e' ∈ fs', e.1 = e'.1 → skips c e.1 e.2 = false →
        Alike R skips e.2 e'.2) :
      Alike R skips (.struct c fs) (.struct c fs')
  | set {xs ys : List PyVal} (frozen : Bool) (h : R xs ys) :
      Alike R skips (.set frozen xs) (.set frozen ys)

/-- The elements of one set of scalars, in two orders. -/
structure Shuffled (xs ys : List PyVal) : Prop where
  scalars : ∀ x ∈ xs, isScalar x = true
  distinct : ∀ x ∈ xs, ∀ y ∈ xs, same x y = true → x = y
  perm : xs.Perm ys

/-- Two representations of one value: sets are iterated, and dicts filled, in any order. -/
def Reordered : PyVal → PyVal → Prop := Alike Shuffled fun _ _ _ => false

/-- The sets in the values, but for those in fields that are not written, are iterated in
the same order. -/
def SameOrder (D : Decls) : PyVal → PyVal → Prop := Alike Eq D.omits

/-- The sets in a value that orjson meets, those outside Structs. -/
inductive Printed : PyVal → PyVal → Prop
  | set (frozen : Bool) (xs : List PyVal) : Printed (.set frozen xs) (.set frozen xs)
  | list {xs : List PyVal} {x s : PyVal} (hx : x ∈ xs) (h : Printed s x) : Printed s (.list xs)
  | dict {kvs : List (String × PyVal)} {e : String × PyVal} {s : PyVal} (he : e ∈ kvs)
      (h : Printed s e.2) : Printed s (.dict kvs)

section
variable {R : List PyVal → List PyVal → Prop} {skips : StructHead → String → PyVal → Bool}
  {xs ys : List PyVal} {kvs kvs' fs fs' : List (String × PyVal)} {v w : PyVal}

theorem alike_list (hlen : xs.length = ys.length) : Alike R skips (.list xs) (.list ys) ↔
    ∀ p ∈ xs.zip ys, Alike R skips p.1 p.2 := by
  refine ⟨fun h => ?_, .list hlen⟩
  cases h with
  | scalar h => cases h
  | list _ h => exact h

theorem alike_dict (hkeys : Assoc.SameKeys kvs kvs') :
    Alike R skips (.dict kvs) (.dict kvs') ↔
      ∀ e ∈ kvs, ∀ e' ∈ kvs', e.1 = e'.1 → Alike R skips e.2 e'.2 := by
  refine ⟨fun h => ?_, .dict hkeys⟩
  cases h with
  | scalar h => cases h
  | dict _ h => exact h

theorem alike_struct {c : StructHead} (hkeys : Assoc.SameKeys fs fs')
    (hpublic : ∀ k ∈ Assoc.keys fs, isPrivate k = false) :
    Alike R skips (.struct c fs) (.struct c fs') ↔ ∀ e ∈ fs, ∀ e' ∈ fs', e.1 = e'.1 →
      skips c e.1 e.2 = false → Alike R skips e.2 e'.2 := by
  refine ⟨fun h => ?_, .struct c hkeys hpublic⟩
  cases h with
  | scalar h => cases h
  | struct _ _ _ h => exact h

theorem alike_set {frozen : Bool} : Alike R skips (.set frozen xs) (.set frozen ys) ↔ R xs ys := by
  refine ⟨fun h => ?_, .set frozen⟩
  cases h with
  | scalar h => cases h
  | set _ h => exact h

end

/-! ## Scalars -/

section
variable {D : Decls} {v w : PyVal}

theorem encodable_scalar (h : isScalar v = true) : Encodable v := by
  cases v with
  | none => exact .none
  | bool b => exact .bool b
  | int i => exact .int i
  | float x => exact .float x
  | str s => exact .str s
  | list | dict | set | struct | dataclass | enum | uuid | datetime | coded | object => cases h

theorem known_scalar (h : isScalar v = true) : known D v = true := by
  cases v with
  | none | bool | int | float | str => rfl
  | list | dict | set | struct | dataclass | enum | uuid | datetime | coded | object => cases h

theorem same_self_scalar (h : isScalar v = true) : same v v = true := by
  cases v with
  | none => simp [same]
  | str s => simp [same]
  | bool b => simp [same, sameNumber, numeric?, Numeric.eq]
  | int i => simp [same, sameNumber, numeric?, Numeric.eq]
  | float x =>
    cases x with
    | finite f => simp [same, sameNumber, numeric?, Numeric.eq]
    | inf | nan => cases h
  | list | dict | set | struct | dataclass | enum | uuid | datetime | coded | object => cases h

theorem numeric?_of_units {n : Int} (h : isScalar v = true)
    (hn : (built D true v).units? = some n) : v.numeric? = some (.finite n) := by
  cases v with
  | int i => exact congrArg some (congrArg Numeric.finite (Option.some.inj hn))
  | float x =>
    cases x with
    | finite f => exact congrArg some (congrArg Numeric.finite (Option.some.inj hn))
    | inf | nan => cases h
  | none | bool | str => cases hn
  | list | dict | set | struct | dataclass | enum | uuid | datetime | coded | object => cases h

/-- Scalars that are written alike are equal, whether they are spelled as an integer or
as a float. -/
theorem same_of_canon_built (hv : isScalar v = true) (hw : isScalar w = true)
    (h : Json.canon (built D true v) = Json.canon (built D true w)) : same v w = true := by
  have hunits : (built D true v).units? = (built D true w).units? := by
    rw [← Json.units?_canon, h, Json.units?_canon]
  cases hn : (built D true v).units? with
  | some n =>
    have hnv := numeric?_of_units hv hn
    have hnw := numeric?_of_units hw (hunits.symm.trans hn)
    have hnumber : sameNumber v w = true :=
      sameNumber_iff.mpr (.inr ⟨.finite n, nofun, hnv, hnw⟩)
    rwa [same_of_numeric (by rw [hnv]; exact Option.some_ne_none _)]
  | none =>
    -- what is no number is read back from its document
    have hread {u : PyVal} (hu : isScalar u = true) (hnone : (built D true u).units? = .none) :
        (Json.canon (built D true u)).toPy = u := by
      cases u with
      | none | bool | str => rfl
      | int => cases hnone
      | float x =>
        cases x with
        | finite => cases hnone
        | inf | nan => cases hu
      | list | dict | set | struct | dataclass | enum | uuid | datetime | coded | object => cases hu
    have hvw : v = w := by
      rw [← hread hv hn, h, hread hw (hunits.symm.trans hn)]
    rw [hvw]
    exact same_self_scalar hw

/-- The order of a set is seen in its document. -/
theorem Shuffled.eq_of_canon {xs ys : List PyVal} (h : Shuffled xs ys)
    (hcanon : ∀ p ∈ xs.zip ys,
      Json.canon (built D true p.1) = Json.canon (built D true p.2)) : xs = ys := by
  have helements : ∀ p ∈ xs.zip ys, p.1 = p.2 := by
    intro p hp
    obtain ⟨hx, hy⟩ := List.of_mem_zip hp
    have hy' := h.perm.mem_iff.mpr hy
    exact h.distinct _ hx _ hy'
      (same_of_canon_built (h.scalars _ hx) (h.scalars _ hy') (hcanon p hp))
  have hlen := h.perm.length_eq
  calc xs = (xs.zip ys).map Prod.fst := (List.map_fst_zip hlen.le).symm
    _ = (xs.zip ys).map Prod.snd := List.map_congr_left helements
    _ = ys := List.map_snd_zip hlen.ge

end

/-! ## Reordered values -/

namespace Reordered
variable {D : Decls} {v w : PyVal}

theorem symm (h : Reordered v w) : Reordered w v := by
  induction h with
  | scalar h => exact .scalar h
  | @list xs ys hlen _ ih =>
    refine .list hlen.symm fun p hp => ?_
    rw [← List.zip_swap] at hp
    obtain ⟨q, hq, rfl⟩ := List.mem_map.mp hp
    exact ih q hq
  | dict hkeys _ ih =>
    exact .dict hkeys.symm fun e he e' he' heq => ih e' he' e he heq.symm
  | struct c hkeys hpublic _ ih =>
    refine .struct c hkeys.symm (fun k hk => hpublic k ((hkeys.keys k).mpr hk)) ?_
    exact fun e he e' he' heq _ => ih e' he' e he heq.symm rfl
  | set frozen h =>
    refine .set frozen ⟨fun x hx => h.scalars x (h.perm.mem_iff.mpr hx), ?_, h.perm.symm⟩
    exact fun x hx y hy =>
      h.distinct x (h.perm.mem_iff.mpr hx) y (h.perm.mem_iff.mpr hy)

theorem encodable (h : Reordered v w) : Encodable v := by
  induction h with
  | scalar h => exact encodable_scalar h
  | list hlen _ ih =>
    refine .list fun x hx => ?_
    obtain ⟨y, hp⟩ := List.exists_mem_zip_left hlen hx
    exact ih _ hp
  | dict hkeys _ ih =>
    refine .dict hkeys.left fun e he => ?_
    obtain ⟨y, hy⟩ := hkeys.exists_right he
    exact ih e he _ hy rfl
  | struct c hkeys _ _ ih =>
    refine .struct c hkeys.left fun e he => ?_
    obtain ⟨y, hy⟩ := hkeys.exists_right he
    exact ih e he _ hy rfl rfl
  | set frozen h => exact .set frozen fun x hx => encodable_scalar (h.scalars x hx)

theorem known (h : Reordered v w) : known D v = true := by
  induction h with
  | scalar h => exact known_scalar h
  | list hlen _ ih =>
    refine knownList_iff.mpr fun x hx => ?_
    obtain ⟨y, hp⟩ := List.exists_mem_zip_left hlen hx
    exact ih _ hp
  | dict hkeys _ ih =>
    refine knownEntries_iff.mpr fun e he => ?_
    obtain ⟨y, hy⟩ := hkeys.exists_right he
    exact ih e he _ hy rfl
  | struct c hkeys _ _ ih =>
    refine knownFields_iff.mpr fun e he => ?_
    obtain ⟨y, hy⟩ := hkeys.exists_right (List.mem_of_mem_filter he)
    exact ih e (List.mem_of_mem_filter he) _ hy rfl rfl
  | set frozen h => exact knownList_iff.mpr fun x hx => known_scalar (h.scalars x hx)

theorem sameList_of_zip {xs ys : List PyVal} (hlen : xs.length = ys.length)
    (h : ∀ p ∈ xs.zip ys, PyVal.same p.1 p.2 = true) : sameList xs ys = true := by
  induction xs generalizing ys with
  | nil =>
    rw [List.eq_nil_of_length_eq_zero hlen.symm, sameList]
  | cons x xs ih =>
    cases ys with
    | nil => cases hlen
    | cons y ys =>
      rw [List.zip_cons_cons, List.forall_mem_cons] at h
      rw [sameList, h.1, ih (Nat.succ.inj hlen) h.2]
      rfl

theorem sameEntries_of_keys {kvs kvs' : List (String × PyVal)} (hkeys : Assoc.SameKeys kvs kvs')
    (h : ∀ e ∈ kvs, ∀ e' ∈ kvs', e.1 = e'.1 → PyVal.same e.2 e'.2 = true) :
    (kvs.length == kvs'.length) = true ∧ sameEntries kvs kvs' = true := by
  refine ⟨beq_iff_eq.mpr hkeys.length_eq, sameEntries_iff.mpr fun e he => ?_⟩
  obtain ⟨y, hy⟩ := hkeys.exists_right he
  exact ⟨y, Assoc.lookup_of_mem hkeys.right hy, h e he _ hy rfl⟩

/-- **Python takes the representations for one value.** -/
theorem same (h : Reordered v w) : PyVal.same v w = true := by
  induction h with
  | scalar h => exact same_self_scalar h
  | list hlen _ ih =>
    rw [PyVal.same]
    exact sameList_of_zip hlen ih
  | dict hkeys _ ih =>
    rw [PyVal.same, Bool.and_eq_true]
    exact sameEntries_of_keys hkeys ih
  | struct c hkeys _ _ ih =>
    have hfields := sameEntries_of_keys hkeys fun e he e' he' heq => ih e he e' he' heq rfl
    rw [PyVal.same, hfields.1, hfields.2, beq_self_eq_true]
    rfl
  | set frozen h =>
    rw [PyVal.same, Bool.and_eq_true]
    refine ⟨beq_iff_eq.mpr h.perm.length_eq, sameElements_iff.mpr fun x hx => ?_⟩
    exact ⟨x, h.perm.mem_iff.mp hx, same_self_scalar (h.scalars x hx)⟩

theorem isOne_eq (h : Reordered v w) (u : PyVal) : v.isOne u = w.isOne u := by
  cases h with
  | scalar => rfl
  | list | dict | struct | set => cases u <;> rfl

theorem defaultOmits_eq (h : Reordered v w) (held : Bool) (default : Default) :
    default.omits held v = default.omits held w := by
  cases default with
  | required => rfl
  | value u =>
    have hsame : PyVal.same v u = PyVal.same w u := by
      rw [Bool.eq_iff_iff]
      exact ⟨same_trans h.symm.same, same_trans h.same⟩
    rw [Default.omits, Default.omits, hsame, h.isOne_eq]
  | factory u =>
    -- both are empty, or neither is what an encoding leaves out
    cases h with
    | scalar => rfl
    | struct => simp [Default.omits]
    | @list xs ys hlen => cases xs <;> cases ys <;> simp [Default.omits] at hlen ⊢
    | @dict kvs kvs' hkeys =>
      have hlen := hkeys.length_eq
      cases kvs <;> cases kvs' <;> simp [Default.omits] at hlen ⊢
    | @set xs ys frozen h =>
      have hlen := h.perm.length_eq
      cases xs <;> cases ys <;> simp [Default.omits] at hlen ⊢

/-- So a field is left out in both or in none. -/
theorem omits (h : Reordered v w) (c : StructHead) (k : String) :
    D.omits c k v = D.omits c k w := by
  unfold Decls.omits
  cases D.lookup c.cls with
  | none => rfl
  | some d =>
    rw [Option.any_some, Option.any_some, ClassDecl.omits, ClassDecl.omits]
    split
    · exact h.defaultOmits_eq ..
    · rfl

/-- The fields that are written are the same. -/
theorem sameKeys_kept {fs fs' : List (String × PyVal)} {c : StructHead}
    (hkeys : Assoc.SameKeys fs fs')
    (h : ∀ e ∈ fs, ∀ e' ∈ fs', e.1 = e'.1 → Reordered e.2 e'.2) :
    Assoc.SameKeys (D.kept c fs) (D.kept c fs') := by
  refine hkeys.filter fun e he e' he' heq => ?_
  rw [(h e he e' he' heq).omits c e.1, heq]

/-- msgspec writes the same iff the sets are iterated alike. -/
theorem canon_built_iff (h : Reordered v w) :
    Json.canon (built D true v) = Json.canon (built D true w) ↔ SameOrder D v w := by
  induction h with
  | scalar h => exact iff_of_true rfl (.scalar h)
  | list hlen _ ih =>
    rw [built_list, built_list, Json.canon_map_zip_iff hlen, SameOrder, alike_list hlen]
    exact forall₂_congr ih
  | dict hkeys _ ih =>
    rw [built_dict, built_dict, Json.canon_mapVal_sameKeys_iff hkeys, SameOrder, alike_dict hkeys]
    exact forall₂_congr fun e he => forall₂_congr fun e' he' => forall_congr' (ih e he e' he')
  | @struct fs fs' c hkeys hpublic h ih =>
    have hfields : ∀ e ∈ fs, ∀ e' ∈ fs', e.1 = e'.1 → Reordered e.2 e'.2 :=
      fun e he e' he' heq => h e he e' he' heq rfl
    rw [built_struct_true, built_struct_true,
      Json.canon_mapVal_sameKeys_iff (sameKeys_kept hkeys hfields), SameOrder,
      alike_struct hkeys hpublic]
    constructor
    · intro hcanon e he e' he' heq hkept
      have hkept' : D.omits c e'.1 e'.2 = false := by
        rw [← heq, ← (hfields e he e' he' heq).omits, hkept]
      refine (ih e he e' he' heq rfl).mp (hcanon e ?_ e' ?_ heq)
      · exact List.mem_filter.mpr ⟨he, by rw [hkept]; rfl⟩
      · exact List.mem_filter.mpr ⟨he', by rw [hkept']; rfl⟩
    · intro horder e he e' he' heq
      obtain ⟨hmem, hkept⟩ := List.mem_filter.mp he
      have hmem' := List.mem_of_mem_filter he'
      refine (ih e hmem e' hmem' heq rfl).mpr (horder e hmem e' hmem' heq ?_)
      simpa using hkept
  | @set xs ys frozen h =>
    -- a reordering whose elements are written alike one by one is none
    rw [built_set, built_set, SameOrder, alike_set]
    refine ⟨fun hcanon => ?_, fun heq => by rw [heq]⟩
    exact h.eq_of_canon ((Json.canon_map_zip_iff h.perm.length_eq (built D true)).mp hcanon)

/-- A Struct without private fields is written as msgspec encodes it. -/
theorem content_public {pyStr : PyVal → String} {c : StructHead} {fs : List (String × PyVal)}
    (hknown : PyVal.known D (.struct c fs) = true)
    (hpublic : ∀ k ∈ Assoc.keys fs, isPrivate k = false) :
    content D pyStr (.struct c fs) = built D true (.struct c fs) := by
  have hall : publicKept D c fs = D.kept c fs := by
    refine List.filter_eq_self.mpr fun e he => ?_
    rw [hpublic e.1 (Assoc.mem_keys_of_mem (List.mem_of_mem_filter he))]
    rfl
  rw [content_struct pyStr hknown, hall, built_struct_true]

/-- **orjson writes the same iff the sets are iterated alike**, where texts show the order
of the sets that it hands to `str`. -/
theorem canon_content_iff {pyStr : PyVal → String} (h : Reordered v w)
    (hstr : ∀ s t, Printed s v → Printed t w → Reordered s t → pyStr s = pyStr t → s = t) :
    Json.canon (content D pyStr v) = Json.canon (content D pyStr w) ↔ SameOrder D v w := by
  induction h with
  | scalar h => exact iff_of_true rfl (.scalar h)
  | list hlen _ ih =>
    rw [content_list, content_list, Json.canon_map_zip_iff hlen, SameOrder,
      alike_list hlen]
    refine forall₂_congr fun p hp => ih p hp fun s t hs ht => ?_
    obtain ⟨hx, hy⟩ := List.of_mem_zip hp
    exact hstr s t (.list hx hs) (.list hy ht)
  | dict hkeys _ ih =>
    rw [content_dict, content_dict,
      Json.canon_mapVal_sameKeys_iff hkeys, SameOrder, alike_dict hkeys]
    refine forall₂_congr fun e he => forall₂_congr fun e' he' => forall_congr' fun heq => ?_
    exact ih e he e' he' heq fun s t hs ht => hstr s t (.dict he hs) (.dict he' ht)
  | @struct fs fs' c hkeys hpublic h _ =>
    have hstruct : Reordered (.struct c fs) (.struct c fs') := .struct c hkeys hpublic h
    have hpublic' : ∀ k ∈ Assoc.keys fs', isPrivate k = false :=
      fun k hk => hpublic k ((hkeys.keys k).mpr hk)
    rw [content_public hstruct.known hpublic, content_public hstruct.symm.known hpublic']
    exact hstruct.canon_built_iff
  | @set xs ys frozen h =>
    have hset : Reordered (.set frozen xs) (.set frozen ys) := .set frozen h
    rw [content, content, Json.canon_str, Json.canon_str, Json.str.injEq, SameOrder, alike_set]
    refine ⟨fun htext => ?_, fun heq => by rw [heq]⟩
    cases hstr _ _ (.set frozen xs) (.set frozen ys) hset htext
    rfl

end Reordered
end PyVal

section
open PyVal (Reordered SameOrder Printed built content)

namespace Rxon
open Json (canon)

section
variable {D : Decls} (rt : Runtime D) (crypto : Crypto rt.orjson.Bytes) {v w : PyVal}

/-- The message of a digest. -/
def hashedMessage (obj : PyVal) : Except PyError rt.orjson.Bytes := do
  rt.orjson.dumps true Orjson.noDefault (← toDict rt obj 0).toPy

theorem calculateDictHash_eq : calculateDictHash rt v = (hashedMessage rt v).map rt.sha256 := by
  unfold calculateDictHash hashedMessage
  cases toDict rt v 0 <;> rfl

theorem hashedMessage_of_digest {digest : String} (h : calculateDictHash rt v = .ok digest) :
    ∃ m, hashedMessage rt v = .ok m ∧ rt.sha256 m = digest := by
  rw [calculateDictHash_eq] at h
  cases hm : hashedMessage rt v with
  | error e =>
    rw [hm] at h
    cases h
  | ok m =>
    rw [hm] at h
    exact ⟨m, rfl, Except.ok.inj h⟩

/-- A message spells the normal form of the content. -/
theorem hashedMessage_content (h : PyVal.Encodable v) {m : rt.orjson.Bytes}
    (hm : hashedMessage rt v = .ok m) :
    toDict rt v 0 = .ok (canon (content D rt.pyStr v)) ∧
      rt.orjson.encode (canon (content D rt.pyStr v)) = .ok m := by
  unfold hashedMessage at hm
  cases hx : toDict rt v 0 with
  | error e =>
    rw [hx] at hm
    cases hm
  | ok x =>
    have hdumps : rt.orjson.dumps true Orjson.noDefault x.toPy = .ok m := by
      rw [hx] at hm
      exact hm
    have hcontent := ((toDict_content rt h).mp hx).2.2
    rw [Orjson.dumps_toPy, if_pos rfl, hcontent, Json.sortKeys_canon (wf_content h _)] at hdumps
    exact ⟨by rw [hcontent], hdumps⟩

/-- A value whose content has the same normal form is normalized alike. -/
theorem toDict_of_canon_eq (h : PyVal.Encodable v) (h' : PyVal.Encodable w) {m : rt.orjson.Bytes}
    (hm : hashedMessage rt v = .ok m)
    (heq : canon (content D rt.pyStr v) = canon (content D rt.pyStr w)) :
    toDict rt w 0 = toDict rt v 0 := by
  obtain ⟨hx, hencode⟩ := hashedMessage_content rt h hm
  obtain ⟨-, hdepth, -⟩ := (toDict_content rt h).mp hx
  rw [← Json.keptDepth_canon] at hdepth
  have hfit := (encode_isOk_iff rt hdepth).mp ⟨m, hencode⟩
  rw [heq] at hdepth hfit
  rw [hx, heq]
  refine (toDict_content rt h').mpr ⟨(Json.intsFit_canon.mp hfit).1, ?_, rfl⟩
  rwa [← Json.keptDepth_canon]

/-- What `to_dict` returns decides the digest and the signatures. -/
theorem digests_of_toDict (h : toDict rt w 0 = toDict rt v 0) :
    calculateDictHash rt w = calculateDictHash rt v ∧
      ∀ secret ig, signPayload rt crypto w secret ig = signPayload rt crypto v secret ig := by
  refine ⟨by rw [calculateDictHash, calculateDictHash, h], fun secret ig => ?_⟩
  rw [signPayload, signPayload, payloadMessage, payloadMessage, h]

/-- **A digest and the signatures are independent of the representation iff the sets that
are written are iterated in one order**, if there is a digest, sets that `str` prints
alike are iterated alike, and the messages do not collide. -/
theorem digest_stable_iff (h : Reordered v w) {digest : String}
    (hdigest : calculateDictHash rt v = .ok digest)
    (hstr : ∀ s t, Printed s v → Printed t w → Reordered s t → rt.pyStr s = rt.pyStr t → s = t)
    (hsha : ∀ m m', hashedMessage rt v = .ok m → hashedMessage rt w = .ok m' →
      rt.sha256 m = rt.sha256 m' → m = m') :
    (calculateDictHash rt w = calculateDictHash rt v ∧
        ∀ secret ig, signPayload rt crypto w secret ig = signPayload rt crypto v secret ig) ↔
      SameOrder D v w := by
  have hv := h.encodable
  have hw := h.symm.encodable
  obtain ⟨m, hm, hsum⟩ := hashedMessage_of_digest rt hdigest
  rw [← h.canon_content_iff hstr]
  constructor
  · rintro ⟨hsame, -⟩
    obtain ⟨m', hm', hsum'⟩ := hashedMessage_of_digest rt (hsame.trans hdigest)
    have hmessages : m = m' := hsha m m' hm hm' (hsum.trans hsum'.symm)
    subst hmessages
    exact rt.orjson.encode_inj (hashedMessage_content rt hv hm).2
      (hashedMessage_content rt hw hm').2
  · intro heq
    exact digests_of_toDict rt crypto (toDict_of_canon_eq rt hv hw hm heq)

end

/-- The tags of two characters, in the order given. -/
def tagged (a b : String) : PyVal := .set false [.str a, .str b]

theorem shuffled_tags : PyVal.Shuffled [.str "a", .str "b"] [.str "b", .str "a"] where
  scalars := by simp [PyVal.isScalar]
  distinct := by simp [PyVal.same]
  perm := .swap _ _ _

/-- A runtime with the digest of a count of 1 and the printed tags. -/
def Runtime.printing : Runtime rxonDecls :=
  { Runtime.reference rxonDecls fun _ =>
      "9ce09a3681214849ca3b44816e4b3b7146e9b26a409b9fc182573c6052016cbb" with
    pyStr := fun _ => "\x7b'a', 'b'\x7d" }

/-- A count and two tags, in either order. -/
def countFirst : List (String × PyVal) := [("n", .int 1), ("tags", tagged "a" "b")]

def tagsFirst : List (String × PyVal) := [("tags", tagged "a" "b"), ("n", .int 1)]

theorem alike_tags {R : List PyVal → List PyVal → Prop} {skips : StructHead → String → PyVal → Bool}
    (hR : R [.str "a", .str "b"] [.str "a", .str "b"]) :
    PyVal.Alike R skips (.dict countFirst) (.dict tagsFirst) := by
  refine .dict ⟨by decide, by decide, fun k => by simp [countFirst, tagsFirst, or_comm]⟩ ?_
  intro e he e' he' heq
  simp only [countFirst, tagsFirst, List.mem_cons, List.not_mem_nil, or_false] at he he'
  rcases he with rfl | rfl <;> rcases he' with rfl | rfl
  · exact absurd heq (by decide)
  · exact .scalar rfl
  · exact .set false hR
  · exact absurd heq (by decide)

theorem printed_tags {kvs : List (String × PyVal)} {s : PyVal}
    (hkvs : ∀ e ∈ kvs, e.2 = .int 1 ∨ e.2 = tagged "a" "b") (h : Printed s (.dict kvs)) :
    s = tagged "a" "b" := by
  cases h with
  | dict he h =>
    rcases hkvs _ he with hint | htags
    · rw [hint] at h
      cases h
    · rw [htags] at h
      cases h
      rfl

theorem digest_stable_iff_tags :
    calculateDictHash Runtime.printing (.dict tagsFirst) =
        calculateDictHash Runtime.printing (.dict countFirst) ∧
      ∀ secret ig, signPayload Runtime.printing Crypto.tight (.dict tagsFirst) secret ig =
        signPayload Runtime.printing Crypto.tight (.dict countFirst) secret ig := by
  have hset : PyVal.Shuffled [.str "a", .str "b"] [.str "a", .str "b"] :=
    ⟨shuffled_tags.scalars, shuffled_tags.distinct, .refl _⟩
  have hdigest : calculateDictHash Runtime.printing (.dict countFirst) =
      .ok "9ce09a3681214849ca3b44816e4b3b7146e9b26a409b9fc182573c6052016cbb" := by
    decide +kernel
  have hdict : toDict Runtime.printing (.dict tagsFirst) 0 =
      toDict Runtime.printing (.dict countFirst) 0 := by
    decide +kernel
  refine (digest_stable_iff Runtime.printing Crypto.tight (alike_tags hset) hdigest ?_ ?_).mpr
    (alike_tags rfl)
  · intro s t hs ht _ _
    rw [printed_tags (by simp [countFirst]) hs, printed_tags (by simp [tagsFirst]) ht]
  · intro m m' hm hm' _
    rw [hashedMessage, hdict] at hm'
    exact Except.ok.inj (hm.symm.trans hm')

/-- A runtime with the digests of the properties with tags a and b, and with the tags the
other way round. -/
def Runtime.listing : Runtime rxonDecls :=
  Runtime.reference rxonDecls fun message =>
    if message = .obj [("properties", .obj [("tags", .arr [.str "a", .str "b"])])] then
      "651b6dce711b7a0b07b7c77a08bc3b111aac97ecaf953c9ca13fc544bf88f433"
    else "d86b492abc4d14238d10efc57b4d75e849e76eb38aee7db2228feaf10a0ab8ca"

def taggedResources (a b : String) : PyVal :=
  .struct ⟨"Resources", []⟩ [("devices", .none), ("properties", .dict [("tags", tagged a b)])]

/-- The digest of Resources with two tags depends on which is iterated first. -/
theorem tags_change_digest :
    Reordered (taggedResources "a" "b") (taggedResources "b" "a") ∧
      calculateDictHash Runtime.listing (taggedResources "a" "b") =
        .ok "651b6dce711b7a0b07b7c77a08bc3b111aac97ecaf953c9ca13fc544bf88f433" ∧
      calculateDictHash Runtime.listing (taggedResources "b" "a") =
        .ok "d86b492abc4d14238d10efc57b4d75e849e76eb38aee7db2228feaf10a0ab8ca" ∧
      calculateDictHash Runtime.listing (taggedResources "a" "b") ≠
        calculateDictHash Runtime.listing (taggedResources "b" "a") := by
  have hab : calculateDictHash Runtime.listing (taggedResources "a" "b") =
      .ok "651b6dce711b7a0b07b7c77a08bc3b111aac97ecaf953c9ca13fc544bf88f433" := by
    decide +kernel
  have hba : calculateDictHash Runtime.listing (taggedResources "b" "a") =
      .ok "d86b492abc4d14238d10efc57b4d75e849e76eb38aee7db2228feaf10a0ab8ca" := by
    decide +kernel
  refine ⟨?_, hab, hba, by rw [hab, hba]; decide⟩
  refine .struct _ ⟨by decide, by decide, fun k => Iff.rfl⟩ (by decide) ?_
  intro e he e' he' heq _
  simp only [List.mem_cons, List.not_mem_nil, or_false] at he he'
  rcases he with rfl | rfl <;> rcases he' with rfl | rfl
  · exact .scalar rfl
  · exact absurd heq (by decide)
  · exact absurd heq (by decide)
  · refine .dict ⟨by decide, by decide, fun k => Iff.rfl⟩ fun e he e' he' _ => ?_
    rw [List.mem_singleton.mp he, List.mem_singleton.mp he']
    exact .set false shuffled_tags

end Rxon

end
