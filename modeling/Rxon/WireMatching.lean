import Rxon.Capacity
import Rxon.Models
import Rxon.Reference

/-! # Matching what was received

`Resources` and `InstalledArtifact` values restored from JSON carry any JSON as
property values.  Matching them fails exactly when it comes to compare two values of
which one is an array and one, or an element of an array, is an object or an array
again (`matching_isOk_iff`). -/

/-! ## Restored instances -/

namespace PyVal

def text? : PyVal → Option String
  | .str s => some s
  | _ => Option.none

def elements? : PyVal → Option (List PyVal)
  | .list xs => some xs
  | _ => Option.none

def entries? : PyVal → Option (List (String × PyVal))
  | .dict kvs => some kvs
  | _ => Option.none

/-- A field of a `T | None` type, read by the reader of `T`. -/
def optional? {α : Type} (read : PyVal → Option α) : PyVal → Option (Option α)
  | .none => some Option.none
  | v => (read v).map some

end PyVal

namespace Rxon

/-- The instance as a record. -/
def HardwareDevice.ofPy : PyVal → Option HardwareDevice
  | .struct head fs =>
    if head.cls = "HardwareDevice" then do
      return {
        type := ← (← fs.lookup "type").text?
        model := ← (← fs.lookup "model").optional? PyVal.text?
        id := ← (← fs.lookup "id").optional? PyVal.text?
        properties := ← (← fs.lookup "properties").optional? PyVal.entries?
        metrics := ← (← fs.lookup "metrics").optional? PyVal.entries? }
    else none
  | _ => none

def Resources.ofPy : PyVal → Option Resources
  | .struct head fs =>
    if head.cls = "Resources" then do
      let devices ← (← fs.lookup "devices").optional? PyVal.elements?
      return {
        devices := ← devices.mapM (·.mapM HardwareDevice.ofPy)
        properties := ← (← fs.lookup "properties").optional? PyVal.entries? }
    else none
  | _ => none

def InstalledArtifact.ofPy : PyVal → Option InstalledArtifact
  | .struct head fs =>
    if head.cls = "InstalledArtifact" then do
      return {
        name := ← (← fs.lookup "name").text?
        version := ← (← fs.lookup "version").text?
        type := ← (← fs.lookup "type").optional? PyVal.text?
        properties := ← (← fs.lookup "properties").optional? PyVal.entries? }
    else none
  | _ => none

/-- The values of a dict are JSON data. -/
def JsonValues (kvs : List (String × PyVal)) : Prop := ∀ e ∈ kvs, ∃ j : Json, e.2 = j.toPy

section
variable {S : Sharing} {d : Json} {v x : PyVal}

theorem optional?_text (h : x = .none ∨ ∃ S d', Reads rxonDecls S .str d' x) :
    ∃ o, x.optional? PyVal.text? = some o := by
  rcases h with rfl | ⟨S, d', h⟩
  · exact ⟨_, rfl⟩
  · obtain ⟨s, rfl⟩ := h.text
    exact ⟨_, rfl⟩

theorem optional?_entries (h : x = .none ∨ ∃ S d', Reads rxonDecls S (.dict .any) d' x) :
    ∃ o, x.optional? PyVal.entries? = some o ∧ JsonValues (o.getD []) := by
  rcases h with rfl | ⟨S, d', h⟩
  · exact ⟨none, rfl, List.forall_mem_nil _⟩
  · obtain ⟨kvs, rfl, hkvs⟩ := h.entries
    exact ⟨some kvs, rfl, hkvs⟩

theorem HardwareDevice.exists_ofPy (h : Reads rxonDecls S (.cls "HardwareDevice") d v) :
    ∃ dev, HardwareDevice.ofPy v = some dev ∧ JsonValues (dev.properties.getD []) := by
  have hdecl : rxonDecls.lookup "HardwareDevice" = some hardwareDevice := rfl
  have hu : (hardwareDevice.fields.map FieldDecl.name).Nodup := by decide
  obtain ⟨_, fs, -, -, rfl, -⟩ := h.lookup_field hdecl List.mem_cons_self hu
  obtain ⟨type, htype⟩ := h.text_field hdecl (f := ⟨"type", .str, .required⟩) (by simp) hu rfl
    fun w hw => by cases hw
  obtain ⟨m, hm, hmodel⟩ := h.optional_field hdecl (f := ⟨"model", .optional .str, .value .none⟩)
    (by simp) hu rfl rfl
  obtain ⟨i, hi, hid⟩ := h.optional_field hdecl (f := ⟨"id", .optional .str, .value .none⟩)
    (by simp) hu rfl rfl
  obtain ⟨p, hp, hprops⟩ := h.optional_field hdecl
    (f := ⟨"properties", .optional (.dict .any), .value .none⟩) (by simp) hu rfl rfl
  obtain ⟨n, hn, hmetrics⟩ := h.optional_field hdecl
    (f := ⟨"metrics", .optional (.dict .any), .value .none⟩) (by simp) hu rfl rfl
  obtain ⟨m', hm'⟩ := optional?_text hmodel
  obtain ⟨i', hi'⟩ := optional?_text hid
  obtain ⟨p', hp', hjson⟩ := optional?_entries hprops
  obtain ⟨n', hn', -⟩ := optional?_entries hmetrics
  refine ⟨⟨type, m', i', p', n'⟩, ?_, hjson⟩
  simp only [HardwareDevice.ofPy, htype, hm, hi, hp, hn, hm', hi', hp', hn', PyVal.text?,
    StructHead.restored_cls, if_true, Option.bind_eq_bind, Option.bind_some, Option.pure_def]

/-- Every property value is JSON data. -/
structure Resources.IsJson (r : Resources) : Prop where
  devices : ∀ dev ∈ r.deviceList, JsonValues (dev.properties.getD [])
  properties : JsonValues (r.properties.getD [])

theorem mapM_ofPy {xs : List PyVal}
    (h : ∀ x ∈ xs, ∃ S d', Reads rxonDecls S (.cls "HardwareDevice") d' x) :
    ∃ devs, xs.mapM HardwareDevice.ofPy = some devs ∧
      ∀ dev ∈ devs, JsonValues (dev.properties.getD []) := by
  induction xs with
  | nil => exact ⟨[], rfl, List.forall_mem_nil _⟩
  | cons x xs ih =>
    obtain ⟨⟨S, d', hd'⟩, hxs⟩ := List.forall_mem_cons.mp h
    obtain ⟨dev, hdev, hjson⟩ := HardwareDevice.exists_ofPy hd'
    obtain ⟨devs, hdevs, hall⟩ := ih hxs
    refine ⟨dev :: devs, ?_, List.forall_mem_cons.mpr ⟨hjson, hall⟩⟩
    rw [List.mapM_cons, hdev, hdevs]
    rfl

theorem Resources.exists_ofPy (h : Reads rxonDecls S (.cls "Resources") d v) :
    ∃ r, Resources.ofPy v = some r ∧ r.IsJson := by
  have hdecl : rxonDecls.lookup "Resources" = some resources := rfl
  have hu : (resources.fields.map FieldDecl.name).Nodup := by decide
  obtain ⟨_, fs, -, -, rfl, -⟩ := h.lookup_field hdecl List.mem_cons_self hu
  obtain ⟨x, hx, hdevices⟩ := h.optional_field hdecl
    (f := ⟨"devices", .optional (.list (.cls "HardwareDevice")), .value .none⟩) (by simp) hu rfl rfl
  obtain ⟨p, hp, hprops⟩ := h.optional_field hdecl
    (f := ⟨"properties", .optional (.dict .any), .value .none⟩) (by simp) hu rfl rfl
  obtain ⟨p', hp', hjson⟩ := optional?_entries hprops
  obtain ⟨o, devs, ho, hdevs, hall⟩ : ∃ o devs, x.optional? PyVal.elements? = some o ∧
      o.mapM (·.mapM HardwareDevice.ofPy) = some devs ∧
      ∀ dev ∈ devs.getD [], JsonValues (dev.properties.getD []) := by
    rcases hdevices with rfl | ⟨S', d', hd'⟩
    · exact ⟨none, none, rfl, rfl, List.forall_mem_nil _⟩
    · obtain ⟨xs, rfl, hxs⟩ := hd'.elements
      obtain ⟨devs, hdevs, hall⟩ := mapM_ofPy hxs
      refine ⟨some xs, some devs, rfl, ?_, hall⟩
      rw [Option.mapM_some, hdevs]
      rfl
  refine ⟨⟨devs, p'⟩, ?_, hall, hjson⟩
  simp only [Resources.ofPy, hx, hp, ho, hp', hdevs, StructHead.restored_cls, if_true,
    Option.bind_eq_bind, Option.bind_some, Option.pure_def]

theorem InstalledArtifact.exists_ofPy (h : Reads rxonDecls S (.cls "InstalledArtifact") d v) :
    ∃ a, InstalledArtifact.ofPy v = some a ∧ JsonValues (a.properties.getD []) := by
  have hdecl : rxonDecls.lookup "InstalledArtifact" = some installedArtifact := rfl
  have hu : (installedArtifact.fields.map FieldDecl.name).Nodup := by decide
  obtain ⟨_, fs, -, -, rfl, -⟩ := h.lookup_field hdecl List.mem_cons_self hu
  obtain ⟨name, hname⟩ := h.text_field hdecl (f := ⟨"name", .str, .required⟩) (by simp) hu rfl
    fun w hw => by cases hw
  obtain ⟨version, hversion⟩ := h.text_field hdecl
    (f := ⟨"version", .str, .value (.str "unknown")⟩) (by simp) hu rfl
    fun w hw => ⟨_, (Option.some.inj hw).symm⟩
  obtain ⟨t, ht, htype⟩ := h.optional_field hdecl (f := ⟨"type", .optional .str, .value .none⟩)
    (by simp) hu rfl rfl
  obtain ⟨p, hp, hprops⟩ := h.optional_field hdecl
    (f := ⟨"properties", .optional (.dict .any), .value .none⟩) (by simp) hu rfl rfl
  obtain ⟨t', ht'⟩ := optional?_text htype
  obtain ⟨p', hp', hjson⟩ := optional?_entries hprops
  refine ⟨⟨name, version, t', p'⟩, ?_, hjson⟩
  simp only [InstalledArtifact.ofPy, hname, hversion, ht, hp, ht', hp', PyVal.text?,
    StructHead.restored_cls, if_true, Option.bind_eq_bind, Option.bind_some, Option.pure_def]

end

/-! ## The comparisons that are made -/

section
variable {lower : String → String} {my req : List (String × PyVal)}

/-- `PropertiesCompare my req x y`: the property loop comes to compare the offered `x`
with the required `y`, every property before them having matched. -/
inductive PropertiesCompare (my : List (String × PyVal)) :
    List (String × PyVal) → PyVal → PyVal → Prop
  | here {k : String} {x y : PyVal} {req : List (String × PyVal)} (hx : my.lookup k = some x)
      (hne : x ≠ .none) : PropertiesCompare my ((k, y) :: req) x y
  | later {k : String} {v w x y : PyVal} {req : List (String × PyVal)}
      (hv : my.lookup k = some v) (hne : v ≠ .none) (hm : valueMatches v w = .ok true)
      (h : PropertiesCompare my req x y) : PropertiesCompare my ((k, w) :: req) x y

theorem PropertiesCompare.mem {x y : PyVal} (h : PropertiesCompare my req x y) :
    (∃ k, my.lookup k = some x) ∧ ∃ k, (k, y) ∈ req := by
  induction h with
  | here hx hne => exact ⟨⟨_, hx⟩, _, List.mem_cons_self⟩
  | later hv hne hm h ih =>
    obtain ⟨hx, k, hk⟩ := ih
    exact ⟨hx, k, List.mem_cons_of_mem _ hk⟩

/-- The property loop raises when it comes to a pair that cannot be compared. -/
theorem propertiesMatch_isOk_iff : (∃ b, propertiesMatch my req = .ok b) ↔
    ∀ x y, PropertiesCompare my req x y → clash x y = false := by
  induction req with
  | nil => exact ⟨fun _ x y h => (by cases h), fun _ => ⟨true, rfl⟩⟩
  | cons e req ih =>
    rw [propertiesMatch]
    split
    · rename_i hnone
      refine ⟨fun _ x y h => ?_, fun _ => ⟨false, rfl⟩⟩
      rcases h with ⟨hx, -⟩ | ⟨hv, -, -, -⟩
      · rw [hnone] at hx; cases hx
      · rw [hnone] at hv; cases hv
    -- a null ends the loop as a key that is missing does
    · rename_i hnone
      refine ⟨fun _ x y h => ?_, fun _ => ⟨false, rfl⟩⟩
      rcases h with ⟨hx, hne⟩ | ⟨hv, hne, -, -⟩
      · rw [hnone] at hx; cases hx; exact absurd rfl hne
      · rw [hnone] at hv; cases hv; exact absurd rfl hne
    · rename_i myV hne hlookup
      constructor
      · rintro ⟨b, hb⟩ x y h
        rcases h with ⟨hx, -⟩ | ⟨hv, -, hm, h⟩
        · rw [hlookup] at hx
          cases hx
          refine valueMatches_isOk_iff.mp ?_
          rcases hvm : valueMatches myV y with err | t
          · rw [hvm] at hb; cases hb
          · exact ⟨t, rfl⟩
        · rw [hlookup] at hv
          cases hv
          rw [hm] at hb
          exact ih.mp ⟨b, hb⟩ x y h
      · intro h
        obtain ⟨t, ht⟩ := valueMatches_isOk_iff.mpr (h myV e.2 (.here hlookup hne))
        rw [ht]
        cases t with
        | false => exact ⟨false, rfl⟩
        | true => exact ih.mpr fun x y hxy => h x y (.later hlookup hne ht hxy)

namespace HardwareDevice
variable {self req : HardwareDevice}

theorem matches_isOk_iff : (∃ b, self.matches lower req = .ok b) ↔
    ∀ x y, Admits lower self req →
      PropertiesCompare (self.properties.getD []) (req.properties.getD []) x y →
      clash x y = false := by
  by_cases h : Admits lower self req
  · rw [matches_of_admits h, propertiesMatch_isOk_iff]
    exact ⟨fun hall x y _ => hall x y, fun hall x y => hall x y h⟩
  · rw [matches_of_not_admits h]
    exact ⟨fun _ x y h' => absurd h' h, fun _ => ⟨false, rfl⟩⟩

end HardwareDevice

namespace Resources
variable {a r : Resources}

/-- `a.Compares lower r x y`: matching `a` with the requirement `r` comes to compare the
property value `x` with `y`, of two devices or of the resources themselves. -/
def Compares (lower : String → String) (a r : Resources) (x y : PyVal) : Prop :=
  (∃ d q, FirstFit.Compares (HardwareDevice.matches lower) a.deviceList r.deviceList d q ∧
    HardwareDevice.Admits lower d q ∧
    PropertiesCompare (d.properties.getD []) (q.properties.getD []) x y) ∨
  devicesMatch lower a r = .ok true ∧
    PropertiesCompare (a.properties.getD []) (r.properties.getD []) x y

/-- **Matching resources comes to an answer exactly when no pair of values it comes to
compare clashes.** -/
theorem matches_isOk_iff : (∃ b, a.matches lower r = .ok b) ↔
    ∀ x y, a.Compares lower r x y → clash x y = false := by
  have hdevices : (∃ b, devicesMatch lower a r = .ok b) ↔ ∀ x y, (∃ d q,
      FirstFit.Compares (HardwareDevice.matches lower) a.deviceList r.deviceList d q ∧
      HardwareDevice.Admits lower d q ∧
      PropertiesCompare (d.properties.getD []) (q.properties.getD []) x y) →
      clash x y = false := by
    refine FirstFit.serve_isOk_iff.trans ⟨fun h x y ⟨d, q, hdq, hadmits, hxy⟩ => ?_,
      fun h d q hdq => HardwareDevice.matches_isOk_iff.mpr fun x y hadmits hxy => ?_⟩
    · exact HardwareDevice.matches_isOk_iff.mp (h d q hdq) x y hadmits hxy
    · exact h x y ⟨d, q, hdq, hadmits, hxy⟩
  rw [«matches»]
  constructor
  · rintro ⟨b, hb⟩ x y (hxy | ⟨hserved, hxy⟩)
    · refine hdevices.mp ?_ x y hxy
      rcases hd : devicesMatch lower a r with e | t
      · rw [hd] at hb; cases hb
      · exact ⟨t, rfl⟩
    · rw [hserved] at hb
      exact propertiesMatch_isOk_iff.mp ⟨b, hb⟩ x y hxy
  · intro h
    obtain ⟨t, ht⟩ := hdevices.mpr fun x y hxy => h x y (Or.inl hxy)
    rw [ht]
    cases t with
    | false => exact ⟨false, rfl⟩
    | true => exact propertiesMatch_isOk_iff.mpr fun x y hxy => h x y (Or.inr ⟨ht, hxy⟩)

/-- Matching JSON values compares JSON values. -/
theorem Compares.exists_toPy {x y : PyVal} (ha : a.IsJson) (hr : r.IsJson)
    (h : a.Compares lower r x y) : ∃ i j : Json, x = i.toPy ∧ y = j.toPy := by
  have hjson : ∀ {my req : List (String × PyVal)}, JsonValues my → JsonValues req →
      PropertiesCompare my req x y → ∃ i j : Json, x = i.toPy ∧ y = j.toPy := by
    intro my req hmy hreq hxy
    obtain ⟨⟨k, hx⟩, k', hy⟩ := hxy.mem
    obtain ⟨i, hi⟩ := hmy _ (Assoc.mem_of_lookup hx)
    obtain ⟨j, hj⟩ := hreq _ hy
    exact ⟨i, j, hi, hj⟩
  rcases h with ⟨d, q, hdq, -, hxy⟩ | ⟨-, hxy⟩
  · obtain ⟨hd, hq⟩ := hdq.mem
    exact hjson (ha.devices d hd) (hr.devices q hq) hxy
  · exact hjson ha.properties hr.properties hxy

end Resources

namespace InstalledArtifact
variable {self req : InstalledArtifact}

/-- Matching artifacts comes to compare the property values `x` and `y`. -/
def Compares (self req : InstalledArtifact) (x y : PyVal) : Prop :=
  self.name = req.name ∧ ¬ (req.version ≠ "unknown" ∧ req.version ≠ self.version) ∧
    PropertiesCompare (self.properties.getD []) (req.properties.getD []) x y

theorem matches_isOk_iff : (∃ b, self.matches req = .ok b) ↔
    ∀ x y, self.Compares req x y → clash x y = false := by
  unfold «matches»
  split
  · rename_i hname
    exact ⟨fun _ x y h => absurd h.1 hname, fun _ => ⟨false, rfl⟩⟩
  · rename_i hname
    split
    · rename_i hversion
      exact ⟨fun _ x y h => absurd hversion h.2.1, fun _ => ⟨false, rfl⟩⟩
    · rename_i hversion
      rw [propertiesMatch_isOk_iff]
      exact ⟨fun h x y hxy => h x y hxy.2.2,
        fun h x y hxy => h x y ⟨not_not.mp hname, hversion, hxy⟩⟩

end InstalledArtifact
end

end Rxon

/-! ## Documents that cannot be compared -/

namespace Json

def isArr : Json → Bool
  | .arr _ => true
  | _ => false

def isObj : Json → Bool
  | .obj _ => true
  | _ => false

/-- An array that holds an array or an object. -/
def nests : Json → Bool
  | .arr xs => xs.any fun x => x.isArr || x.isObj
  | _ => false

/-- One of the two is an array, and one is an object or an array that holds an array or
an object. -/
def clashes (x y : Json) : Bool :=
  (x.isArr || y.isArr) && (x.isObj || y.isObj || x.nests || y.nests)

@[simp] theorem isArr_arr (xs : List Json) : (arr xs).isArr = true := rfl
@[simp] theorem isObj_arr (xs : List Json) : (arr xs).isObj = false := rfl

theorem hashable_toPy (j : Json) : j.toPy.hashable = !(j.isArr || j.isObj) := by
  cases j <;> rfl

theorem settable_arr (xs : List Json) :
    Rxon.settable (false, xs.map toPy) = !(Json.arr xs).nests := by
  rw [Rxon.settable, Bool.false_or, List.all_map, nests, List.not_any_eq_all_not]
  exact congrArg _ (funext fun x => hashable_toPy x)

theorem nests_of_not_arr {j : Json} (h : j.isArr = false) : j.nests = false := by
  cases j <;> simp_all [nests, isArr]

theorem collection?_toPy (j : Json) : (j.isArr = false ∧ Rxon.collection? j.toPy = none) ∨
    ∃ xs, j = .arr xs ∧ Rxon.collection? j.toPy = some (false, xs.map toPy) := by
  rcases j with _ | _ | _ | _ | _ | xs | _
  case arr => exact Or.inr ⟨xs, rfl, by rw [toPy_arr]; rfl⟩
  all_goals exact Or.inl ⟨rfl, rfl⟩

/-- **On documents, the comparison raises on the pairs that clash.** -/
theorem clash_toPy (x y : Json) : Rxon.clash x.toPy y.toPy = x.clashes y := by
  have hnum : ∀ xs : List Json, (Json.arr xs).toPy.numeric? = none := fun xs => by
    rw [toPy_arr]; rfl
  unfold Rxon.clash clashes
  rcases collection?_toPy x with ⟨hx, hxc⟩ | ⟨xs, rfl, hxc⟩ <;>
    rcases collection?_toPy y with ⟨hy, hyc⟩ | ⟨ys, rfl, hyc⟩
  · rw [hxc, hyc, hx, hy]
    split <;> rfl
  · rw [hnum, hxc, hyc]
    simp [hx, settable_arr, hashable_toPy, nests_of_not_arr hx, Bool.or_comm]
  · rw [hnum, hxc, hyc]
    simp [hy, settable_arr, hashable_toPy, nests_of_not_arr hy, Bool.or_comm]
  · rw [hnum, hxc, hyc]
    simp [settable_arr, Bool.or_comm]

end Json

/-! ## Restored resources and artifacts -/

namespace Rxon
variable (rt : Runtime rxonDecls) (lower : String → String)

/-- What a restored instance was read from. -/
theorem reads_of_fromDict {c : String} {kvs : List (String × Json)} {v : PyVal}
    (h : fromDict rt c (Json.obj kvs).toPy = .ok v) : Reads rxonDecls .none (.cls c) (.obj kvs) v :=
  rt.msgspec.convert_sound _ _ _ _ ((fromDict_obj rt).mp h)

variable {kvs kvs' ds ds' : List (String × Json)} {v w v' w' : PyVal}

/-- Two restored `Resources` can be matched unless the comparison comes to two property
values that clash. -/
theorem resources_isOk_iff (hv : fromDict rt "Resources" (Json.obj kvs).toPy = .ok v)
    (hw : fromDict rt "Resources" (Json.obj kvs').toPy = .ok w) :
    ∃ offered required, Resources.ofPy v = some offered ∧ Resources.ofPy w = some required ∧
      ((∃ b, offered.matches lower required = .ok b) ↔ ¬ ∃ x y : Json,
        offered.Compares lower required x.toPy y.toPy ∧ x.clashes y = true) := by
  obtain ⟨a, ha, haj⟩ := Resources.exists_ofPy (reads_of_fromDict rt hv)
  obtain ⟨r, hr, hrj⟩ := Resources.exists_ofPy (reads_of_fromDict rt hw)
  refine ⟨a, r, ha, hr, Resources.matches_isOk_iff.trans ⟨?_, fun h x y hxy => ?_⟩⟩
  · rintro h ⟨x, y, hxy, hclash⟩
    rw [← Json.clash_toPy, h _ _ hxy] at hclash
    cases hclash
  · obtain ⟨i, j, rfl, rfl⟩ := hxy.exists_toPy haj hrj
    rw [Json.clash_toPy, ← Bool.not_eq_true]
    exact fun hclash => h ⟨i, j, hxy, hclash⟩

theorem artifacts_isOk_iff (hv : fromDict rt "InstalledArtifact" (Json.obj ds).toPy = .ok v')
    (hw : fromDict rt "InstalledArtifact" (Json.obj ds').toPy = .ok w') :
    ∃ offered required, InstalledArtifact.ofPy v' = some offered ∧
      InstalledArtifact.ofPy w' = some required ∧
      ((∃ b, offered.matches required = .ok b) ↔ ¬ ∃ x y : Json,
        offered.Compares required x.toPy y.toPy ∧ x.clashes y = true) := by
  obtain ⟨a, ha, haj⟩ := InstalledArtifact.exists_ofPy (reads_of_fromDict rt hv)
  obtain ⟨r, hr, hrj⟩ := InstalledArtifact.exists_ofPy (reads_of_fromDict rt hw)
  refine ⟨a, r, ha, hr, InstalledArtifact.matches_isOk_iff.trans ⟨?_, fun h x y hxy => ?_⟩⟩
  · rintro h ⟨x, y, hxy, hclash⟩
    rw [← Json.clash_toPy, h _ _ hxy] at hclash
    cases hclash
  · obtain ⟨⟨k, hx⟩, k', hy⟩ := hxy.2.2.mem
    obtain ⟨i, rfl⟩ := haj _ (Assoc.mem_of_lookup hx)
    obtain ⟨j, hj⟩ := hrj _ hy
    cases hj
    rw [Json.clash_toPy, ← Bool.not_eq_true]
    exact fun hclash => h ⟨i, j, hxy, hclash⟩

/-- **Matching restored values comes to an answer exactly when it does not come to
compare two property values that clash**, for `Resources` and for artifacts. -/
theorem matching_isOk_iff (hv : fromDict rt "Resources" (Json.obj kvs).toPy = .ok v)
    (hw : fromDict rt "Resources" (Json.obj kvs').toPy = .ok w)
    (hv' : fromDict rt "InstalledArtifact" (Json.obj ds).toPy = .ok v')
    (hw' : fromDict rt "InstalledArtifact" (Json.obj ds').toPy = .ok w') :
    (∃ offered required, Resources.ofPy v = some offered ∧ Resources.ofPy w = some required ∧
      ((∃ b, offered.matches lower required = .ok b) ↔ ¬ ∃ x y : Json,
        offered.Compares lower required x.toPy y.toPy ∧ x.clashes y = true)) ∧
    ∃ offered required, InstalledArtifact.ofPy v' = some offered ∧
      InstalledArtifact.ofPy w' = some required ∧
      ((∃ b, offered.matches required = .ok b) ↔ ¬ ∃ x y : Json,
        offered.Compares required x.toPy y.toPy ∧ x.clashes y = true) :=
  ⟨resources_isOk_iff rt lower hv hw, artifacts_isOk_iff rt hv' hw'⟩

/-- An offer that describes its system with an object. -/
def describedOffer : List (String × Json) :=
  [("properties", .obj [("os", .obj [("name", .str "linux")])])]

/-- A requirement of one of two systems. -/
def listedRequirement : List (String × Json) :=
  [("properties", .obj [("os", .arr [.str "linux", .str "darwin"])])]

def wireRuntime : Runtime rxonDecls := Runtime.reference rxonDecls fun _ => ""

/-- The object cannot be looked up in the set of systems. -/
theorem object_against_list_raises :
    ∃ v w offered required,
      fromDict wireRuntime "Resources" (Json.obj describedOffer).toPy = .ok v ∧
      fromDict wireRuntime "Resources" (Json.obj listedRequirement).toPy = .ok w ∧
      Resources.ofPy v = some offered ∧ Resources.ofPy w = some required ∧
      offered.matches String.toLower required = .error (.typeError "unhashable type") :=
  ⟨_, _, { properties := some [("os", .dict [("name", .str "linux")])] },
    { properties := some [("os", .list [.str "linux", .str "darwin"])] },
    rfl, rfl, rfl, rfl, by decide +kernel⟩

/-- A list against a text, and an artifact against its name. -/
theorem matching_isOk_iff_listed :
    ∃ offered required : Resources,
      offered.properties = some [("os", .list [.str "linux", .str "darwin"])] ∧
      offered.matches String.toLower required = .ok true ∧ ¬ ∃ x y : Json,
        offered.Compares String.toLower required x.toPy y.toPy ∧ x.clashes y = true := by
  have hv : fromDict wireRuntime "Resources" (Json.obj listedRequirement).toPy =
      .ok (.struct ⟨"Resources", ["devices"]⟩ [("devices", .none), ("properties",
        .dict [("os", .list [.str "linux", .str "darwin"])])]) := rfl
  have hw : fromDict wireRuntime "Resources"
      (Json.obj [("properties", .obj [("os", .str "linux")])]).toPy =
      .ok (.struct ⟨"Resources", ["devices"]⟩ [("devices", .none), ("properties",
        .dict [("os", .str "linux")])]) := rfl
  have ha : fromDict wireRuntime "InstalledArtifact" (Json.obj [("name", .str "cuda")]).toPy =
      .ok (.struct ⟨"InstalledArtifact", ["version", "type", "properties"]⟩
        [("name", .str "cuda"), ("version", .str "unknown"), ("type", .none),
          ("properties", .none)]) := rfl
  obtain ⟨⟨offered, required, ho, hr, hiff⟩, -⟩ :=
    matching_isOk_iff wireRuntime String.toLower hv hw ha ha
  cases ho
  cases hr
  have hmatch : Resources.matches String.toLower
      { devices := none, properties := some [("os", .list [.str "linux", .str "darwin"])] }
      { devices := none, properties := some [("os", .str "linux")] } = .ok true := by
    decide +kernel
  exact ⟨_, _, rfl, hmatch, hiff.mp ⟨true, hmatch⟩⟩

end Rxon
