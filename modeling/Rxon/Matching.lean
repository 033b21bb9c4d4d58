import Rxon.FirstFit
import Rxon.PyVal

/-! # Resource matching

`HardwareDevice.matches`, `Resources.matches` and `InstalledArtifact.matches` of
`models.py`.  The three repeat one comparison of property dictionaries, which is
`propertiesMatch` here.  A comparison fails with a `TypeError` when an unhashable
value is put into a set or looked up in one.

`str.lower` is a parameter: it is only compared through the substring test. -/

namespace Rxon

structure HardwareDevice where
  type : String
  model : Option String := none
  id : Option String := none
  properties : Option (List (String × PyVal)) := none
  metrics : Option (List (String × PyVal)) := none

structure Resources where
  devices : Option (List HardwareDevice) := none
  properties : Option (List (String × PyVal)) := none

structure InstalledArtifact where
  name : String
  version : String := "unknown"
  type : Option String := none
  properties : Option (List (String × PyVal)) := none

/-! ## Property values -/

/-- The elements of a value for `isinstance(v, (frozenset, set, list))`, and
whether it already is a set. -/
def collection? : PyVal → Option (Bool × List PyVal)
  | .list xs => some (false, xs)
  | .set _ xs => some (true, xs)
  | _ => none

/-- `v if isinstance(v, (frozenset, set)) else set(v)`: building a set hashes
every element. -/
def toSet : Bool × List PyVal → Except PyError (List PyVal)
  | (true, xs) => .ok xs
  | (false, xs) => if xs.all PyVal.hashable then .ok xs else .error (.typeError "unhashable type")

/-- `v in s`, which hashes `v`. -/
def setContains (s : List PyVal) (v : PyVal) : Except PyError Bool :=
  if v.hashable then .ok (s.any v.same) else .error (.typeError "unhashable type")

/-- One required value against the offered one. -/
def valueMatches (myV reqV : PyVal) : Except PyError Bool :=
  match reqV.numeric?, myV.numeric? with
  | some req, some my => .ok (!my.lt req)
  | _, _ =>
    match collection? reqV, collection? myV with
    | some req, some my => do
      let reqSet ← toSet req
      let mySet ← toSet my
      return mySet.any fun v => reqSet.any v.same
    | some req, none => do setContains (← toSet req) myV
    | none, some my => do setContains (← toSet my) reqV
    | none, none => .ok (myV.eq reqV)

/-- The loop over `req.properties.items()`: an offered value that is missing or
`None` fails. -/
def propertiesMatch (myProps : List (String × PyVal)) :
    List (String × PyVal) → Except PyError Bool
  | [] => .ok true
  | (k, reqV) :: req =>
    match myProps.lookup k with
    | none | some .none => .ok false
    | some myV => do
      if ← valueMatches myV reqV then propertiesMatch myProps req else return false

/-- Truth of an optional string: `None` and `""` are false. -/
def given (s : Option String) : Option String := s.filter (· ≠ "")

/-! ## The three classes -/

section Matches
variable (lower : String → String)

namespace HardwareDevice

def «matches» (self req : HardwareDevice) : Except PyError Bool :=
  if req.type ≠ "" ∧ self.type ≠ req.type then .ok false
  else if (given req.model).any fun m =>
      !(given self.model).any fun my => containsStr (lower my) (lower m) then .ok false
  else if (given req.id).any fun i => self.id ≠ some i then .ok false
  else propertiesMatch (self.properties.getD []) (req.properties.getD [])

end HardwareDevice

namespace Resources

/-- The device part: each required device takes the first remaining device that
matches it. -/
def devicesMatch (self req : Resources) : Except PyError Bool :=
  FirstFit.serve (HardwareDevice.matches lower) (self.devices.getD []) (req.devices.getD [])

def «matches» (self req : Resources) : Except PyError Bool := do
  if ← devicesMatch lower self req then
    propertiesMatch (self.properties.getD []) (req.properties.getD [])
  else return false

end Resources

namespace InstalledArtifact

def «matches» (self req : InstalledArtifact) : Except PyError Bool :=
  if self.name ≠ req.name then .ok false
  else if req.version ≠ "unknown" ∧ req.version ≠ self.version then .ok false
  else propertiesMatch (self.properties.getD []) (req.properties.getD [])

end InstalledArtifact
end Matches

/-! ## The device part is a first-fit assignment -/

namespace Resources
variable {lower : String → String} {offered required : Resources}

/-- The devices a side lists. -/
def deviceList (r : Resources) : List HardwareDevice := r.devices.getD []

/-- Every required device sits at a position of its own holding a device that
matches it. -/
structure IsAssignment (lower : String → String) (offered required : Resources)
    (f : Fin required.deviceList.length → Fin offered.deviceList.length) : Prop where
  injective : Function.Injective f
  satisfied : ∀ i,
    (offered.deviceList.get (f i)).matches lower (required.deviceList.get i) = .ok true

/-- With no property requirements the device part decides. -/
theorem matches_of_no_properties (h : required.properties.getD [] = []) :
    offered.matches lower required = devicesMatch lower offered required := by
  unfold «matches»
  rw [h]
  cases hd : devicesMatch lower offered required with
  | error e => rfl
  | ok b => cases b <;> rfl

/-- **With no property requirements, `matches` answers `True` exactly when the
first-fit assignment of the required devices exists**: distinct positions holding
matching devices, where every earlier position that the earlier requirements left
free was compared with the requirement and answered `False`. -/
theorem matches_iff_firstFit (h : required.properties.getD [] = []) :
    offered.matches lower required = .ok true ↔
      ∃ f, IsAssignment lower offered required f ∧
        ∀ i j, j < f i → (∀ i' < i, f i' ≠ j) →
          (offered.deviceList.get j).matches lower (required.deviceList.get i) = .ok false := by
  rw [matches_of_no_properties h]
  refine FirstFit.serve_eq_true_iff.trans ?_
  constructor
  · rintro ⟨f, hf⟩
    exact ⟨f, ⟨hf.injective, hf.served⟩, hf.first⟩
  · rintro ⟨f, hf, hfirst⟩
    exact ⟨f, hf.injective, hf.satisfied, hfirst⟩

/-- Graphics cards with the given memory. -/
def gpus (vram : List Int) : Resources :=
  { devices := some (vram.map fun v =>
      { type := "gpu", properties := some [("vram", .int v)] }) }

theorem matches_iff_firstFit_gpus :
    (gpus [24, 12]).matches String.toLower (gpus [20, 10]) = .ok true ↔
      ∃ f, IsAssignment String.toLower (gpus [24, 12]) (gpus [20, 10]) f ∧
        ∀ i j, j < f i → (∀ i' < i, f i' ≠ j) →
          ((gpus [24, 12]).deviceList.get j).matches String.toLower
            ((gpus [20, 10]).deviceList.get i) = .ok false :=
  matches_iff_firstFit rfl

/-- First fit misses an assignment when the weaker requirement comes first: it
takes the only device the stronger one could have used.  The same requirements in the other
order are met, and so they are by the same devices in the other order. -/
theorem matches_misses_assignment :
    (gpus [24, 12]).matches String.toLower (gpus [10, 20]) = .ok false ∧
      (gpus [24, 12]).matches String.toLower (gpus [20, 10]) = .ok true ∧
      (gpus [12, 24]).matches String.toLower (gpus [10, 20]) = .ok true ∧
      ∃ f, IsAssignment String.toLower (gpus [24, 12]) (gpus [10, 20]) f := by
  refine ⟨by decide +kernel, by decide +kernel, by decide +kernel,
    fun i => ⟨1 - i.val, Nat.lt_succ_of_le (Nat.sub_le 1 _)⟩, ?_, by decide +kernel⟩
  intro i j h
  have hi : i.val < 2 := i.isLt
  have hj : j.val < 2 := j.isLt
  have hij : 1 - i.val = 1 - j.val := congrArg Fin.val h
  exact Fin.ext (by omega)

end Resources
end Rxon
