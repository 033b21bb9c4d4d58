import Rxon.Security

/-! # The assumptions are consistent

An orjson whose bytes are the documents they spell, and a msgspec computed from the
declarations, satisfy every law the model asks of them; concrete runs below use
them. -/

namespace Json

/-- Bytes that spell a document, written by an encoder with orjson's limits. -/
def write (j : Json) : Except PyError Json :=
  if 254 < height j then .error (.typeError "Recursion limit reached")
  else if IntsFit j then .ok j
  else .error (.typeError "Integer exceeds 64-bit range")

end Json

def Orjson.reference : Orjson where
  Bytes := Json
  encode := Json.write
  loads := .ok
  nesting := 254
  nesting_gt := by decide
  encode_ok j hi hh := ⟨j, by rw [Json.write, if_neg (Nat.not_lt.mpr hh), if_pos hi]⟩
  encode_range j hi hh := by rw [Json.write, if_neg (Nat.not_lt.mpr hh), if_neg hi]
  encode_deep j hh := ⟨"Recursion limit reached", by rw [Json.write, if_pos hh], fun _ => by decide⟩
  loads_encode j b h := by
    unfold Json.write at h
    split at h
    · cases h
    · split at h
      · exact h.symm
      · cases h

/-! ## to_builtins -/

namespace PyVal

mutual

/-- `to_builtins`, for the classes of `D`. -/
def builtins (D : Decls) : PyVal → Except String PyVal
  | .list xs | .set _ xs => (builtinsList D xs).map .list
  | .dict kvs => (builtinsEntries D kvs).map .dict
  | .struct c fs => (builtinsFields D c fs).map .dict
  | .dataclass _ fs => (builtinsEntries D fs).map .dict
  | .enum _ _ v => builtins D v
  | .uuid s => .ok (.str s)
  | .datetime clock offset =>
    .ok (.str (clock ++ if offset = "+00:00" then "Z" else offset))
  | .coded _ code _ => .ok (.str code)
  | .object _ => .error "Encoding objects of this type is unsupported"
  | v => .ok v

def builtinsList (D : Decls) : List PyVal → Except String (List PyVal)
  | [] => .ok []
  | x :: xs => do return (← builtins D x) :: (← builtinsList D xs)

def builtinsEntries (D : Decls) : List (String × PyVal) → Except String (List (String × PyVal))
  | [] => .ok []
  | (k, x) :: kvs => do return (k, ← builtins D x) :: (← builtinsEntries D kvs)

def builtinsFields (D : Decls) (c : StructHead) :
    List (String × PyVal) → Except String (List (String × PyVal))
  | [] => .ok []
  | (k, x) :: fs =>
    if D.omits c k x then builtinsFields D c fs
    else do return (k, ← builtins D x) :: (← builtinsFields D c fs)

end

theorem builtinsList_eq (D : Decls) (xs : List PyVal) :
    builtinsList D xs = xs.mapM (builtins D) := by
  induction xs with
  | nil => rfl
  | cons x xs ih => rw [builtinsList, ih, List.mapM_cons]

theorem builtinsEntries_eq (D : Decls) (kvs : List (String × PyVal)) :
    builtinsEntries D kvs = Assoc.mapValM (builtins D) kvs := by
  induction kvs with
  | nil => rfl
  | cons e kvs ih => rw [builtinsEntries, ih, Assoc.mapValM]

theorem builtinsFields_eq (D : Decls) (c : StructHead) (fs : List (String × PyVal)) :
    builtinsFields D c fs = Assoc.mapValM (builtins D) (D.kept c fs) := by
  induction fs with
  | nil => rfl
  | cons e fs ih =>
    rw [builtinsFields, ih, Decls.kept, Decls.kept, List.filter_cons]
    cases D.omits c e.1 e.2 with
    | true => rfl
    | false => rfl

mutual

/-- The document of plain data. -/
def toJson? : PyVal → Option Json
  | .none => some .null
  | .bool b => some (.bool b)
  | .int i => some (.int i)
  | .float (.finite f) => some (.float f)
  | .str s => some (.str s)
  | .list xs => (toJsonList? xs).map .arr
  | .dict kvs => (toJsonEntries? kvs).map .obj
  | _ => Option.none

def toJsonList? : List PyVal → Option (List Json)
  | [] => some []
  | x :: xs => do return (← toJson? x) :: (← toJsonList? xs)

def toJsonEntries? : List (String × PyVal) → Option (List (String × Json))
  | [] => some []
  | (k, x) :: kvs => do return (k, ← toJson? x) :: (← toJsonEntries? kvs)

end

theorem toJson?_toPy (j : Json) : toJson? j.toPy = some j := by
  induction j with
  | null | bool | int | float | str => rfl
  | arr xs ih =>
    have h : toJsonList? (xs.map Json.toPy) = some xs := by
      induction xs with
      | nil => rfl
      | cons x xs ihx =>
        obtain ⟨hx, hxs⟩ := List.forall_mem_cons.mp ih
        rw [List.map_cons, toJsonList?, hx, ihx hxs]; rfl
    rw [Json.toPy_arr, toJson?, h]; rfl
  | obj kvs ih =>
    have h : toJsonEntries? (Assoc.mapVal Json.toPy kvs) = some kvs := by
      induction kvs with
      | nil => rfl
      | cons e kvs ihe =>
        obtain ⟨he, hkvs⟩ := List.forall_mem_cons.mp ih
        rw [Assoc.mapVal_cons, toJsonEntries?, he, ihe hkvs]; rfl
    rw [Json.toPy_obj, toJson?, h]; rfl

end PyVal

/-! ## convert -/

namespace Json

/-- Read a field that is given, fill in one that is not. -/
def readField (readers : List (String × (Ty → Option PyVal))) (f : FieldDecl) : Option PyVal :=
  match readers.lookup f.name with
  | some read => read f.type
  | none => f.default.make?

def readFields (readers : List (String × (Ty → Option PyVal))) :
    List FieldDecl → Option (List (String × PyVal))
  | [] => some []
  | f :: fs => do return (f.name, ← readField readers f) :: (← readFields readers fs)

mutual

/-- Read a document at an annotation that is no union. -/
def readOne (D : Decls) : Sharing → Json → Ty → Option PyVal
  | _, d, .any => some d.toPy
  | _, .null, .none => some .none
  | _, .bool b, .bool => some (.bool b)
  | _, .int i, .int => some (.int i)
  | _, .int i, .float =>
    if Binary64.InRange i then some (.float (.finite (Binary64.ofInt i))) else none
  | _, .float f, .float => some (.float (.finite f))
  | _, .str s, .str => some (.str s)
  | S, .arr xs, .list t => (readElems D S 0 xs t).map .list
  | S, .obj kvs, .dict t => (readValues D S kvs t).map .dict
  | S, .obj kvs, .cls c =>
    match D.lookup c with
    | some ⟨.struct _, fields⟩ =>
      (readFields (readers D S kvs) fields).map (.struct (.restored S c fields kvs))
    | _ => none
  | _, _, _ => none

/-- The items from position `i` on. -/
def readElems (D : Decls) (S : Sharing) (i : Nat) : List Json → Ty → Option (List PyVal)
  | [], _ => some []
  | x :: xs, t => do
    return (← t.alternatives.findSome? fun a => readOne D (S.under (.item i)) x a) ::
      (← readElems D S (i + 1) xs t)

def readValues (D : Decls) (S : Sharing) :
    List (String × Json) → Ty → Option (List (String × PyVal))
  | [], _ => some []
  | (k, x) :: kvs, t => do
    return (k, ← t.alternatives.findSome? fun a => readOne D (S.under (.key k)) x a) ::
      (← readValues D S kvs t)

/-- The values of an object, still to be read at the types of the fields. -/
def readers (D : Decls) (S : Sharing) : List (String × Json) → List (String × (Ty → Option PyVal))
  | [] => []
  | (k, x) :: kvs =>
    (k, fun t => t.alternatives.findSome? fun a => readOne D (S.under (.key k)) x a) ::
      readers D S kvs

end

/-- `convert`, on documents: the first alternative the document can be read at. -/
def readAt (D : Decls) (S : Sharing) (d : Json) (t : Ty) : Option PyVal :=
  t.alternatives.findSome? fun a => readOne D S d a

variable {D : Decls} {S : Sharing}

theorem lookup_readers (kvs : List (String × Json)) (k : String) :
    (readers D S kvs).lookup k = (kvs.lookup k).map (readAt D (S.under (.key k))) := by
  induction kvs with
  | nil => rfl
  | cons e kvs ih =>
    obtain ⟨k', x⟩ := e
    rw [readers]
    by_cases hk : k = k'
    · rw [hk, Assoc.lookup_cons_self, Assoc.lookup_cons_self]
      rfl
    · rw [Assoc.lookup_cons_ne hk, Assoc.lookup_cons_ne hk, ih]

theorem readElems_eq_some {xs : List Json} {t : Ty} {rs : List PyVal} {n : Nat} :
    readElems D S n xs t = some rs ↔ xs.length = rs.length ∧
      ∀ i x, xs[i]? = some x → ∀ r, rs[i]? = some r →
        readAt D (S.under (.item (n + i))) x t = some r := by
  induction xs generalizing rs n with
  | nil => cases rs <;> simp [readElems]
  | cons x xs ih =>
    rw [readElems]
    change (readAt D (S.under (.item n)) x t >>= fun r =>
      readElems D S (n + 1) xs t >>= fun rs' => some (r :: rs')) = some rs ↔ _
    cases rs with
    | nil => simp [Option.bind_eq_some_iff]
    | cons r rs =>
      simp only [bind, Option.bind_eq_some_iff, Option.some.injEq, List.cons.injEq, ih,
        List.length_cons, Nat.add_right_cancel_iff]
      constructor
      · rintro ⟨r', hr, rs', ⟨hl, hrs⟩, rfl, rfl⟩
        refine ⟨hl, List.forall_getElem?_cons.mpr ⟨fun s hs => ?_, fun i y hy s hs => ?_⟩⟩
        · cases hs
          exact hr
        · rw [← hrs i y hy s hs, Nat.add_right_comm, Nat.add_assoc]
      · rintro ⟨hl, h⟩
        obtain ⟨hr, hrs⟩ := List.forall_getElem?_cons.mp h
        refine ⟨r, hr r rfl, rs, ⟨hl, fun i y hy s hs => ?_⟩, rfl, rfl⟩
        rw [← hrs i y hy s hs, Nat.add_right_comm, Nat.add_assoc]

theorem readValues_eq_some {kvs : List (String × Json)} {t : Ty} {rs : List (String × PyVal)} :
    readValues D S kvs t = some rs ↔ Assoc.keys kvs = Assoc.keys rs ∧
      ∀ p ∈ kvs.zip rs, readAt D (S.under (.key p.1.1)) p.1.2 t = some p.2.2 := by
  induction kvs generalizing rs with
  | nil => cases rs <;> simp [readValues]
  | cons e kvs ih =>
    rw [readValues]
    change (readAt D (S.under (.key e.1)) e.2 t >>= fun r =>
      readValues D S kvs t >>= fun rs' => some ((e.1, r) :: rs')) = some rs ↔ _
    cases rs with
    | nil => simp [Option.bind_eq_some_iff]
    | cons r rs =>
      simp only [bind, Option.bind_eq_some_iff, Option.some.injEq, List.cons.injEq, ih,
        Assoc.keys_cons, List.zip_cons_cons, List.forall_mem_cons]
      constructor
      · rintro ⟨v, hv, rs', ⟨hks, hrs⟩, hk, rfl⟩; cases hk; exact ⟨⟨rfl, hks⟩, hv, hrs⟩
      · rintro ⟨⟨hk, hks⟩, hv, hrs⟩; exact ⟨r.2, hv, rs, ⟨hks, hrs⟩, by rw [hk], rfl⟩

theorem readField_eq_some {kvs : List (String × Json)} {f : FieldDecl} {r : PyVal} :
    readField (readers D S kvs) f = some r ↔
      (∀ v, kvs.lookup f.name = some v →
        readAt D (S.under (.key f.name)) v f.type = some r) ∧
      (kvs.lookup f.name = none → f.default.make? = some r) := by
  rw [readField, lookup_readers]
  cases kvs.lookup f.name with
  | none => exact ⟨fun h => ⟨nofun, fun _ => h⟩, fun h => h.2 rfl⟩
  | some d => exact ⟨fun h => ⟨fun v hv => Option.some.inj hv ▸ h, nofun⟩, fun h => h.1 d rfl⟩

theorem readFields_eq_some {kvs : List (String × Json)} {fields : List FieldDecl}
    {rs : List (String × PyVal)} :
    readFields (readers D S kvs) fields = some rs ↔
      fields.map FieldDecl.name = Assoc.keys rs ∧
      ∀ p ∈ fields.zip rs, readField (readers D S kvs) p.1 = some p.2.2 := by
  induction fields generalizing rs with
  | nil => cases rs <;> simp [readFields]
  | cons f fs ih =>
    rw [readFields]
    cases rs with
    | nil => simp [Option.bind_eq_some_iff]
    | cons r rs =>
      simp only [bind, Option.bind_eq_some_iff, pure, Option.some.injEq, List.cons.injEq, ih,
        Assoc.keys_cons, List.map_cons, List.zip_cons_cons, List.forall_mem_cons]
      constructor
      · rintro ⟨v, hv, rs', ⟨hn, hrs⟩, rfl, rfl⟩; exact ⟨⟨rfl, hn⟩, hv, hrs⟩
      · rintro ⟨⟨hn, hns⟩, hv, hrs⟩; exact ⟨r.2, hv, rs, ⟨hns, hrs⟩, by rw [hn], rfl⟩

theorem readAt_sound_of {d : Json} (h : ∀ a r, readOne D S d a = some r → Reads D S a d r) {t : Ty}
    {r : PyVal} (hr : readAt D S d t = some r) : Reads D S t d r := by
  obtain ⟨a, ha, har⟩ := List.exists_of_findSome?_eq_some hr
  exact .of_alternative ha (h a r har)

/-- What is read is a reading. -/
theorem readOne_sound {d : Json} {a : Ty} {r : PyVal} (h : readOne D S d a = some r) :
    Reads D S a d r := by
  induction d generalizing S a r with
  | null => cases a <;> first | cases h; constructor | cases h
  | bool b => cases a <;> first | cases h; constructor | cases h
  | str s => cases a <;> first | cases h; constructor | cases h
  | float f => cases a <;> first | cases h; constructor | cases h
  | int i =>
    cases a with
    | any => cases h; exact .any (.int i)
    | int => cases h; exact .int i
    | float =>
      rw [readOne] at h
      split at h
      · rename_i hi
        rw [← Option.some.inj h]
        exact .floatOfInt i _ hi fun f hf => Binary64.ofInt_holds hf hi
      · cases h
    | _ => cases h
  | arr xs ih =>
    cases a with
    | any => cases h; exact .any (.arr xs)
    | list t =>
      obtain ⟨rs, hrs, rfl⟩ := Option.map_eq_some_iff.mp h
      obtain ⟨hlen, hrs⟩ := readElems_eq_some.mp hrs
      refine .list t xs rs hlen fun i x r hx hr => ?_
      rw [← Nat.zero_add i]
      exact readAt_sound_of (fun a r => ih x (List.mem_of_getElem? hx)) (hrs i x hx r hr)
    | _ => cases h
  | obj kvs ih =>
    cases a with
    | any => cases h; exact .any (.obj kvs)
    | dict t =>
      obtain ⟨rs, hrs, rfl⟩ := Option.map_eq_some_iff.mp h
      obtain ⟨hkeys, hrs⟩ := readValues_eq_some.mp hrs
      refine .dict t kvs rs hkeys fun p hp => ?_
      exact readAt_sound_of (fun a r => ih p.1 (List.of_mem_zip hp).1) (hrs p hp)
    | cls c =>
      rw [readOne] at h
      split at h
      · rename_i b fields hdecl
        obtain ⟨rs, hrs, rfl⟩ := Option.map_eq_some_iff.mp h
        obtain ⟨hnames, hrs⟩ := readFields_eq_some.mp hrs
        refine .struct c b fields kvs rs hdecl hnames (fun p hp v hv => ?_) fun p hp hnone => ?_
        · exact readAt_sound_of (fun a r => ih _ (Assoc.mem_of_lookup hv))
            ((readField_eq_some.mp (hrs p hp)).1 v hv)
        · exact (readField_eq_some.mp (hrs p hp)).2 hnone
      · cases h
    | _ => cases h

theorem readAt_complete_of {d : Json} {t a : Ty} {r : PyVal} (ha : a ∈ t.alternatives)
    (h : readOne D S d a = some r) : ∃ r', readAt D S d t = some r' := by
  rw [← Option.isSome_iff_exists, readAt, List.isSome_findSome?, List.any_eq_true]
  exact ⟨a, ha, by rw [h]; rfl⟩

theorem readElems_total {xs : List Json} {t : Ty} {n : Nat} (h : ∀ i x, xs[i]? = some x →
    ∃ r, readAt D (S.under (.item (n + i))) x t = some r) :
    ∃ rs, readElems D S n xs t = some rs := by
  induction xs generalizing n with
  | nil => exact ⟨[], rfl⟩
  | cons x xs ih =>
    obtain ⟨⟨r, hr⟩, hxs⟩ := List.forall_getElem?_cons.mp h
    obtain ⟨rs, hrs⟩ := ih (n := n + 1) fun i y hy => by
      rw [Nat.add_right_comm]
      exact hxs i y hy
    rw [Nat.add_zero] at hr
    exact ⟨r :: rs, by rw [readElems, ← readAt, hr, hrs]; rfl⟩

theorem readValues_total {kvs : List (String × Json)} {t : Ty}
    (h : ∀ e ∈ kvs, ∃ r, readAt D (S.under (.key e.1)) e.2 t = some r) :
    ∃ rs, readValues D S kvs t = some rs := by
  induction kvs with
  | nil => exact ⟨[], rfl⟩
  | cons e kvs ih =>
    obtain ⟨⟨r, hr⟩, hkvs⟩ := List.forall_mem_cons.mp h
    obtain ⟨rs, hrs⟩ := ih hkvs
    exact ⟨(e.1, r) :: rs, by rw [readValues, ← readAt, hr, hrs]; rfl⟩

theorem readFields_total {readers : List (String × (Ty → Option PyVal))} {fields : List FieldDecl}
    (h : ∀ f ∈ fields, ∃ r, readField readers f = some r) :
    ∃ rs, readFields readers fields = some rs := by
  induction fields with
  | nil => exact ⟨[], rfl⟩
  | cons f fs ih =>
    obtain ⟨⟨r, hr⟩, hfs⟩ := List.forall_mem_cons.mp h
    obtain ⟨rs, hrs⟩ := ih hfs
    exact ⟨(f.name, r) :: rs, by rw [readFields, hr, hrs]; rfl⟩

/-- Whatever has a reading is read. -/
theorem readAt_complete {t : Ty} {d : Json} {r : PyVal} (h : Reads D S t d r) :
    ∃ r', readAt D S d t = some r' := by
  induction h with
  | any d => exact readAt_complete_of (List.mem_singleton_self _) (by cases d <;> rfl)
  | none => exact ⟨_, rfl⟩
  | bool b => exact ⟨_, rfl⟩
  | int i => exact ⟨_, rfl⟩
  | str s => exact ⟨_, rfl⟩
  | float f => exact ⟨_, rfl⟩
  | floatOfInt i g hi hg =>
    exact readAt_complete_of (List.mem_singleton_self _) (by rw [readOne, if_pos hi])
  | @list S t xs rs hlen h ih =>
    have hxs : ∀ i x, xs[i]? = some x →
        ∃ r, readAt D (S.under (.item (0 + i))) x t = some r := fun i x hx => by
      rw [Nat.zero_add]
      exact ih i x _ hx (List.getElem?_eq_getElem (hlen ▸ (List.getElem?_eq_some_iff.mp hx).1))
    obtain ⟨rs', hrs⟩ := readElems_total hxs
    exact readAt_complete_of (List.mem_singleton_self _) (by rw [readOne, hrs]; rfl)
  | @dict S t kvs rs hkeys h ih =>
    have hkvs : ∀ e ∈ kvs, ∃ r, readAt D (S.under (.key e.1)) e.2 t = some r := fun e he => by
      obtain ⟨r, hr⟩ := List.exists_mem_zip_left (Assoc.length_eq_of_keys hkeys) he
      exact ih _ hr
    obtain ⟨rs', hrs⟩ := readValues_total hkvs
    exact readAt_complete_of (List.mem_singleton_self _) (by rw [readOne, hrs]; rfl)
  | @struct S c b fields kvs rs hdecl hnames hgiven habsent ih =>
    have hfields : ∀ f ∈ fields, ∃ r, readField (readers D S kvs) f = some r := fun f hf => by
      obtain ⟨r, hr⟩ := FieldDecl.exists_mem_zip hnames hf
      rw [readField, lookup_readers]
      cases hv : kvs.lookup f.name with
      | none => exact ⟨_, habsent _ hr hv⟩
      | some v => exact ih _ hr v hv
    obtain ⟨rs', hrs⟩ := readFields_total hfields
    exact readAt_complete_of (a := .cls c) (r := .struct (.restored S c fields kvs) rs')
      (List.mem_singleton_self _) (by simp only [readOne, hdecl, hrs, Option.map_some])
  | union t ts d r ht _ ih =>
    obtain ⟨r', hr⟩ := ih
    obtain ⟨a, ha, har⟩ := List.exists_of_findSome?_eq_some hr
    exact readAt_complete_of (Ty.mem_alternativesList.mpr ⟨t, ht, ha⟩) har
  | annotated t d r _ ih => exact ih

end Json

/-! A document can be read as soon as its parts can. -/

namespace Reads
variable {D : Decls} {S : Sharing} {t : Ty}

theorem exists_iff {d : Json} : (∃ r, Reads D S t d r) ↔ ∃ r, Json.readAt D S d t = some r :=
  ⟨fun ⟨_, h⟩ => Json.readAt_complete h,
    fun ⟨r, h⟩ => ⟨r, Json.readAt_sound_of (fun _ _ => Json.readOne_sound) h⟩⟩

theorem exists_list {xs : List Json}
    (h : ∀ i x, xs[i]? = some x → ∃ r, Reads D (S.under (.item i)) t x r) :
    ∃ r, Reads D S (.list t) (.arr xs) r := by
  obtain ⟨rs, hrs⟩ := Json.readElems_total (n := 0) fun i x hx => by
    rw [Nat.zero_add]
    exact exists_iff.mp (h i x hx)
  exact ⟨.list rs, Json.readOne_sound (by rw [Json.readOne, hrs]; rfl)⟩

theorem exists_dict {kvs : List (String × Json)} 
    (h : ∀ e ∈ kvs, ∃ r, Reads D (S.under (.key e.1)) t e.2 r) :
    ∃ r, Reads D S (.dict t) (.obj kvs) r := by
  obtain ⟨rs, hrs⟩ := Json.readValues_total fun e he => exists_iff.mp (h e he)
  exact ⟨.dict rs, Json.readOne_sound (by rw [Json.readOne, hrs]; rfl)⟩

theorem exists_struct {c : String} {b : Bool} {fields : List FieldDecl}
    {kvs : List (String × Json)} (hdecl : D.lookup c = some ⟨.struct b, fields⟩)
    (hgiven : ∀ f ∈ fields, ∀ v, kvs.lookup f.name = some v →
      ∃ r, Reads D (S.under (.key f.name)) f.type v r)
    (habsent : ∀ f ∈ fields, kvs.lookup f.name = Option.none → ∃ r, f.default.make? = some r) :
    ∃ r, Reads D S (.cls c) (.obj kvs) r := by
  have hfields : ∀ f ∈ fields, ∃ r, Json.readField (Json.readers D S kvs) f = some r :=
    fun f hf => by
      rw [Json.readField, Json.lookup_readers]
      cases hv : kvs.lookup f.name with
      | none => exact habsent f hf hv
      | some v => exact exists_iff.mp (hgiven f hf v hv)
  obtain ⟨rs, hrs⟩ := Json.readFields_total hfields
  have hread : Json.readOne D S (.obj kvs) (.cls c) =
      some (.struct (.restored S c fields kvs) rs) := by
    simp only [Json.readOne, hdecl, hrs, Option.map_some]
  exact ⟨_, Json.readOne_sound hread⟩

end Reads

def Msgspec.reference (D : Decls) : Msgspec D where
  toBuiltins := PyVal.builtins D
  convert S t v := match v.toJson?.bind fun d => d.readAt D S t with
    | some r => .ok r
    | none => .error "Expected another type"
  toBuiltins_none := rfl
  toBuiltins_bool _ := rfl
  toBuiltins_int _ := rfl
  toBuiltins_float _ := rfl
  toBuiltins_str _ := rfl
  toBuiltins_list xs := by rw [PyVal.builtins, PyVal.builtinsList_eq]
  toBuiltins_set _ xs := by rw [PyVal.builtins, PyVal.builtinsList_eq]
  toBuiltins_dict kvs := by rw [PyVal.builtins, PyVal.builtinsEntries_eq]
  toBuiltins_struct c fs := by rw [PyVal.builtins, PyVal.builtinsFields_eq]
  toBuiltins_dataclass _ fs := by rw [PyVal.builtins, PyVal.builtinsEntries_eq]
  toBuiltins_enum _ _ _ := by rw [PyVal.builtins]
  toBuiltins_uuid _ := rfl
  toBuiltins_datetime _ _ := rfl
  toBuiltins_coded _ _ _ := rfl
  toBuiltins_object _ := ⟨_, rfl⟩
  convert_sound S t d r h := by
    rw [PyVal.toJson?_toPy, Option.bind_some] at h
    split at h
    · rename_i r' hr
      cases h
      exact Json.readAt_sound_of (fun a r => Json.readOne_sound) hr
    · cases h
  convert_complete S t d r h := by
    obtain ⟨r', hr⟩ := Json.readAt_complete h
    exact ⟨r', by rw [PyVal.toJson?_toPy, Option.bind_some, hr]⟩

namespace Rxon

/-- A runtime made of the two, with the given digest. -/
def Runtime.reference (D : Decls) (sha256 : Json → String) : Runtime D where
  orjson := Orjson.reference
  msgspec := Msgspec.reference D
  pyStr _ := "<object>"
  sha256 := sha256

/-- An HMAC of fixed hexadecimal text, and no usable Ed25519 key. -/
def Crypto.reference (Bytes : Type) (hmac : String → Bytes → String)
    (hne : ∀ k m, hmac k m ≠ "") (hascii : ∀ k m, isAscii (hmac k m) = true) : Crypto Bytes where
  hmac := hmac
  hmac_ne := hne
  hmac_ascii := hascii
  PrivateKey := Unit
  PublicKey := Unit
  loadPrivateKey _ := .error (.valueError "Unable to load PEM file")
  loadPublicKey _ := .error (.valueError "Unable to load PEM file")
  sign _ _ := ""
  verify _ _ _ := false

end Rxon
