import Rxon.Matching

/-! # Matching and capacity

What happens to a match when the offer grows or the requirements shrink.  With
property values that can be compared (`PyVal.matchable`) no comparison fails, and more
devices and properties, or fewer requirements, never lose a match (`matches_mono`).

Raising a numeric property of one device keeps every single comparison, but the first
fit may now give this device to an earlier requirement, and the one it served is left
without (`upgrade_loses_match`); `matches_withDeviceProperty` says what remains. -/

/-- A value that the comparison can put into a set or look up in one: it is hashable,
or a collection of hashable values. -/
def PyVal.matchable (v : PyVal) : Bool :=
  v.hashable || (Rxon.collection? v).any fun c => c.2.all PyVal.hashable

namespace Rxon
variable {v w myV reqV : PyVal} {myProps req : List (String × PyVal)} {lower : String → String}

/-! ## Comparisons that do not fail -/

/-- Whether `toSet` succeeds. -/
def settable (c : Bool × List PyVal) : Bool := c.1 || c.2.all PyVal.hashable

theorem toSet_of_settable {c : Bool × List PyVal} (h : settable c = true) :
    toSet c = .ok c.2 := by
  obtain ⟨isSet, xs⟩ := c
  cases isSet with
  | true => rfl
  | false => exact if_pos h

theorem toSet_of_not_settable {c : Bool × List PyVal} (h : settable c = false) :
    toSet c = .error (.typeError "unhashable type") := by
  obtain ⟨isSet, xs⟩ := c
  cases isSet with
  | true => cases h
  | false => exact if_neg (by rw [Bool.not_eq_true]; exact h)

theorem setContains_isOk_iff {s : List PyVal} :
    (∃ b, setContains s v = .ok b) ↔ v.hashable = true := by
  unfold setContains
  split <;> simp_all

/-- The pairs of values whose comparison raises. -/
def clash (myV reqV : PyVal) : Bool :=
  match reqV.numeric?, myV.numeric? with
  | some _, some _ => false
  | _, _ =>
    match collection? reqV, collection? myV with
    | some req, some my => !(settable req && settable my)
    | some req, none => !(settable req && myV.hashable)
    | none, some my => !(settable my && reqV.hashable)
    | none, none => false

/-- Looking up one value fails for the set or for the value. -/
theorem lookup_isOk_iff {c : Bool × List PyVal} :
    (∃ b, (do setContains (← toSet c) v) = .ok b) ↔ (settable c && v.hashable) = true := by
  cases h : settable c with
  | false => simp [toSet_of_not_settable h, bind, Except.bind]
  | true =>
    rw [toSet_of_settable h, Bool.true_and]
    exact setContains_isOk_iff

/-- Comparing two collections fails for one of the sets. -/
theorem meet_isOk_iff {c c' : Bool × List PyVal} :
    (∃ b, (do
      let s ← toSet c
      let t ← toSet c'
      return t.any fun v => s.any v.same) = .ok b) ↔ (settable c && settable c') = true := by
  cases h : settable c with
  | false => simp [toSet_of_not_settable h, bind, Except.bind]
  | true =>
    cases h' : settable c' with
    | false => simp [toSet_of_settable h, toSet_of_not_settable h', bind, Except.bind]
    | true =>
      simp [toSet_of_settable h, toSet_of_settable h', bind, Except.bind, pure, Except.pure]

theorem valueMatches_isOk_iff : (∃ b, valueMatches myV reqV = .ok b) ↔ clash myV reqV = false := by
  rcases hreq : reqV.numeric? with _ | r <;> rcases hmy : myV.numeric? with _ | m
  case some.some => simp only [valueMatches, clash, hreq, hmy, Except.ok.injEq, exists_eq']
  -- one of them is no number, so the collections decide
  all_goals
    rcases hr : collection? reqV with _ | cr <;> rcases hm : collection? myV with _ | cm
    all_goals simp only [valueMatches, clash, hreq, hmy, hr, hm, Bool.not_eq_false']
    · simp only [Except.ok.injEq, exists_eq']
    · exact lookup_isOk_iff
    · exact lookup_isOk_iff
    · exact meet_isOk_iff

theorem settable_of_matchable {c : Bool × List PyVal} (hc : collection? v = some c)
    (h : v.matchable = true) : settable c = true := by
  unfold collection? at hc
  split at hc
  · cases hc
    simpa [PyVal.matchable, PyVal.hashable, collection?, settable] using h
  · cases hc
    rfl
  · cases hc

theorem hashable_of_matchable (hc : collection? v = none) (h : v.matchable = true) :
    v.hashable = true := by
  simpa [PyVal.matchable, hc] using h

theorem clash_of_matchable (hmy : myV.matchable = true) (hreq : reqV.matchable = true) :
    clash myV reqV = false := by
  unfold clash
  split
  · rfl
  · split
    · rename_i hr hm
      simp [settable_of_matchable hr hreq, settable_of_matchable hm hmy]
    · rename_i hr hm
      simp [settable_of_matchable hr hreq, hashable_of_matchable hm hmy]
    · rename_i hr hm
      simp [settable_of_matchable hm hmy, hashable_of_matchable hr hreq]
    · rfl

theorem propertiesMatch_isOk (hmy : ∀ e ∈ myProps, e.2.matchable = true)
    (hreq : ∀ e ∈ req, e.2.matchable = true) : ∃ b, propertiesMatch myProps req = .ok b := by
  induction req with
  | nil => exact ⟨true, rfl⟩
  | cons e req ih =>
    obtain ⟨he, hreq⟩ := List.forall_mem_cons.mp hreq
    rw [propertiesMatch]
    split
    · exact ⟨false, rfl⟩
    · exact ⟨false, rfl⟩
    · rename_i myV hlookup
      obtain ⟨b, hb⟩ := valueMatches_isOk_iff.mpr
        (clash_of_matchable (hmy _ (Assoc.mem_of_lookup hlookup)) he)
      rw [hb]
      cases b with
      | true => exact ih hreq
      | false => exact ⟨false, rfl⟩

/-- **Properties match exactly when every required one is offered with a value that
does.** -/
theorem propertiesMatch_eq_true : propertiesMatch myProps req = .ok true ↔
    ∀ e ∈ req, ∃ v, myProps.lookup e.1 = some v ∧ v ≠ .none ∧ valueMatches v e.2 = .ok true := by
  induction req with
  | nil => simp [propertiesMatch]
  | cons e req ih =>
    rw [propertiesMatch, List.forall_mem_cons, ← ih]
    split
    · rename_i h
      simp [h]
    · rename_i h
      simp [h]
    · rename_i myV hnone h
      rw [h]
      constructor
      · intro hm
        rcases hv : valueMatches myV e.2 with err | b
        · rw [hv] at hm
          cases hm
        · rw [hv] at hm
          cases b with
          | true => exact ⟨⟨myV, rfl, hnone, hv⟩, hm⟩
          | false => cases hm
      · rintro ⟨⟨w, hw, -, hv⟩, hm⟩
        cases hw
        rw [hv]
        exact hm

namespace HardwareDevice
variable {self req : HardwareDevice}

/-- The property values of a device can be compared. -/
def Matchable (d : HardwareDevice) : Prop := ∀ e ∈ d.properties.getD [], e.2.matchable = true

instance instDecidableMatchable (d : HardwareDevice) : Decidable d.Matchable :=
  inferInstanceAs (Decidable (∀ e ∈ d.properties.getD [], e.2.matchable = true))

theorem matches_isOk (hself : self.Matchable) (hreq : req.Matchable) :
    ∃ b, self.matches lower req = .ok b := by
  unfold «matches»
  repeat' split
  · exact ⟨_, rfl⟩
  · exact ⟨_, rfl⟩
  · exact ⟨_, rfl⟩
  · exact propertiesMatch_isOk hself hreq

/-- Everything but the properties fits the requirement. -/
def Admits (lower : String → String) (self req : HardwareDevice) : Prop :=
  ¬ (req.type ≠ "" ∧ self.type ≠ req.type) ∧
  ¬ ((given req.model).any fun m =>
      !(given self.model).any fun my => containsStr (lower my) (lower m)) ∧
  ¬ (given req.id).any fun i => self.id ≠ some i

theorem matches_of_admits (h : Admits lower self req) : self.matches lower req =
    propertiesMatch (self.properties.getD []) (req.properties.getD []) := by
  obtain ⟨h₁, h₂, h₃⟩ := h
  rw [«matches», if_neg h₁, if_neg h₂, if_neg h₃]

theorem matches_of_not_admits (h : ¬ Admits lower self req) :
    self.matches lower req = .ok false := by
  unfold «matches»
  split
  · rfl
  · rename_i h₁
    split
    · rfl
    · rename_i h₂
      split
      · rfl
      · rename_i h₃
        exact absurd ⟨h₁, h₂, h₃⟩ h

theorem matches_eq_true : self.matches lower req = .ok true ↔ Admits lower self req ∧
    propertiesMatch (self.properties.getD []) (req.properties.getD []) = .ok true := by
  by_cases h : Admits lower self req
  · rw [matches_of_admits h]
    exact (and_iff_right h).symm
  · rw [matches_of_not_admits h]
    exact ⟨fun he => (by cases he), fun he => absurd he.1 h⟩

end HardwareDevice

namespace Resources
variable {a a' r r' : Resources}

/-- The property values of the devices and of the resources can be compared. -/
structure Matchable (r : Resources) : Prop where
  devices : ∀ d ∈ r.deviceList, d.Matchable
  properties : ∀ e ∈ r.properties.getD [], e.2.matchable = true

instance instDecidableMatchable (r : Resources) : Decidable r.Matchable :=
  decidable_of_iff ((∀ d ∈ r.deviceList, d.Matchable) ∧
    ∀ e ∈ r.properties.getD [], e.2.matchable = true) ⟨fun h => ⟨h.1, h.2⟩, fun h => ⟨h.1, h.2⟩⟩

theorem matches_eq_true : a.matches lower r = .ok true ↔
    FirstFit.serve (HardwareDevice.matches lower) a.deviceList r.deviceList = .ok true ∧
      propertiesMatch (a.properties.getD []) (r.properties.getD []) = .ok true := by
  change (devicesMatch lower a r >>= _) = _ ↔ devicesMatch lower a r = _ ∧ _
  rcases devicesMatch lower a r with e | b
  · exact ⟨fun h => (by cases h), fun h => (by cases h.1)⟩
  · cases b with
    | true => exact ⟨fun h => ⟨rfl, h⟩, fun h => h.2⟩
    | false => exact ⟨fun h => (by cases h), fun h => (by cases h.1)⟩

/-! ## More capacity, fewer requirements -/

/-- **More capacity and fewer requirements never lose a match**: devices may be inserted
anywhere and properties added on the offering side, devices and properties dropped on
the requiring side. -/
theorem matches_mono (ha' : a'.Matchable) (hr' : r'.Matchable)
    (hdevices : a.deviceList.Sublist a'.deviceList)
    (hproperties : ∀ k ∈ Assoc.keys (a.properties.getD []),
      (a'.properties.getD []).lookup k = (a.properties.getD []).lookup k)
    (hreqs : r'.deviceList.Sublist r.deviceList)
    (hreqProps : ∀ e ∈ r'.properties.getD [], e ∈ r.properties.getD [])
    (h : a.matches lower r = .ok true) : a'.matches lower r' = .ok true := by
  obtain ⟨hserve, hprops⟩ := matches_eq_true.mp h
  refine matches_eq_true.mpr ⟨?_, propertiesMatch_eq_true.mpr fun e he => ?_⟩
  · refine FirstFit.serve_mono hdevices hreqs (fun d hd q hq => ?_) hserve
    exact HardwareDevice.matches_isOk (ha'.devices d hd) (hr'.devices q hq)
  · obtain ⟨v, hlookup, hv⟩ := propertiesMatch_eq_true.mp hprops e (hreqProps e he)
    refine ⟨v, ?_, hv⟩
    rw [hproperties _ (Assoc.mem_keys_of_mem (Assoc.mem_of_lookup hlookup)), hlookup]

theorem matches_mono_gpus :
    (gpus [8, 24, 12]).matches String.toLower (gpus [10]) = .ok true := by
  refine matches_mono (a := gpus [24, 12]) (r := gpus [20, 10]) (by decide) (by decide) ?_
    (List.forall_mem_nil _) ?_ (List.forall_mem_nil _) (by decide +kernel)
  · exact List.sublist_cons_self _ _
  · exact List.sublist_cons_self _ _

end Resources

/-! ## Raising a property -/

theorem PyVal.Numeric.lt_trans {a b c : PyVal.Numeric} (h : a.lt b = true) (h' : b.lt c = true) :
    a.lt c = true := by
  cases a <;> cases b <;> cases c <;> simp_all [PyVal.Numeric.lt]
  omega

/-- A number that is at least the required one still is once it is raised. -/
theorem valueMatches_raise {m m' n : PyVal.Numeric} (hold : v.numeric? = some m)
    (hnew : w.numeric? = some m') (hlt : m.lt m' = true) (hreq : reqV.numeric? = some n)
    (h : valueMatches v reqV = .ok true) : valueMatches w reqV = .ok true := by
  simp only [valueMatches, hreq, hold, Except.ok.injEq, Bool.not_eq_true'] at h
  simp only [valueMatches, hreq, hnew, Except.ok.injEq, Bool.not_eq_true']
  rcases hn : m'.lt n with _ | _
  · rfl
  · rw [PyVal.Numeric.lt_trans hlt hn] at h
    cases h

theorem matchable_of_numeric {n : PyVal.Numeric} (h : v.numeric? = some n) :
    v.matchable = true := by
  cases v <;> simp_all [PyVal.numeric?, PyVal.matchable, PyVal.hashable]

/-- `new` is a greater number than `old`. -/
def Raises (old new : PyVal) : Prop :=
  ∃ m m', old.numeric? = some m ∧ new.numeric? = some m' ∧ m.lt m' = true

namespace HardwareDevice
variable {self req : HardwareDevice} {k : String}

/-- The device with another value of one property. -/
def withProperty (d : HardwareDevice) (k : String) (v : PyVal) : HardwareDevice :=
  { d with properties := some (Assoc.set k v (d.properties.getD [])) }

theorem matchable_withProperty (h : self.Matchable) (hv : v.matchable = true) :
    (self.withProperty k v).Matchable := by
  intro e he
  rcases Assoc.mem_set he with rfl | he
  · exact hv
  · exact h e he

/-- **A raised property satisfies what it satisfied**, as long as it is compared with
numbers. -/
theorem matches_withProperty (hold : (self.properties.getD []).lookup k = some v)
    (hraise : Raises v w) (hasks : ∀ r, (k, r) ∈ req.properties.getD [] → r.numeric?.isSome)
    (h : self.matches lower req = .ok true) :
    (self.withProperty k w).matches lower req = .ok true := by
  obtain ⟨m, m', hm, hm', hlt⟩ := hraise
  obtain ⟨hadmits, hprops⟩ := matches_eq_true.mp h
  refine matches_eq_true.mpr ⟨hadmits, propertiesMatch_eq_true.mpr fun e he => ?_⟩
  obtain ⟨x, hlookup, hx, hmatch⟩ := propertiesMatch_eq_true.mp hprops e he
  change ∃ y, List.lookup e.1 (Assoc.set k w (self.properties.getD [])) = some y ∧ _
  by_cases hk : e.1 = k
  · subst hk
    rw [hold] at hlookup
    cases hlookup
    obtain ⟨n, hn⟩ := Option.isSome_iff_exists.mp (hasks e.2 he)
    refine ⟨w, Assoc.lookup_set_self _ _ _, ?_, valueMatches_raise hm hm' hlt hn hmatch⟩
    rintro rfl
    cases hm'
  · exact ⟨x, by rw [Assoc.lookup_set_ne hk, hlookup], hx, hmatch⟩

end HardwareDevice

namespace Resources
variable {a r : Resources} {k : String}

/-- The resources with another value of one property of one device. -/
def withDeviceProperty (a : Resources) (j : Fin a.deviceList.length) (k : String) (v : PyVal) :
    Resources :=
  { a with devices := some (a.deviceList.set j ((a.deviceList.get j).withProperty k v)) }

theorem length_withDeviceProperty (j : Fin a.deviceList.length) :
    (a.withDeviceProperty j k v).deviceList.length = a.deviceList.length :=
  List.length_set

theorem get_withDeviceProperty {j : Fin a.deviceList.length}
    (i : Fin (a.withDeviceProperty j k v).deviceList.length) :
    (a.withDeviceProperty j k v).deviceList.get i =
      if j.val = i.val then (a.deviceList.get j).withProperty k v
      else a.deviceList.get (i.cast (length_withDeviceProperty j)) :=
  List.getElem_set _

/-- **Raising a numeric property of one device keeps every assignment, and the match
itself unless the device now meets a requirement listed before the one it served.** -/
theorem matches_withDeviceProperty {j : Fin a.deviceList.length} (ha : a.Matchable)
    (hr : r.Matchable) (hold : ((a.deviceList.get j).properties.getD []).lookup k = some v)
    (hraise : Raises v w)
    (hasks : ∀ q ∈ r.deviceList, ∀ x, (k, x) ∈ q.properties.getD [] → x.numeric?.isSome)
    (h : a.matches lower r = .ok true) :
    ∃ f : Fin r.deviceList.length → Fin a.deviceList.length,
      FirstFit.IsFirstFit (HardwareDevice.matches lower) a.deviceList r.deviceList f ∧
      IsAssignment lower (a.withDeviceProperty j k w) r
        (fun i => (f i).cast (length_withDeviceProperty j).symm) ∧
      ((∀ i i₀, f i₀ = j → i < i₀ →
          ((a.deviceList.get j).withProperty k w).matches lower (r.deviceList.get i) = .ok true →
          (a.deviceList.get j).matches lower (r.deviceList.get i) = .ok true) →
        (a.withDeviceProperty j k w).matches lower r = .ok true) := by
  obtain ⟨hserve, hprops⟩ := matches_eq_true.mp h
  obtain ⟨f, hf⟩ := FirstFit.serve_eq_true_iff.mp hserve
  -- a device that offers more meets what it met
  have hmono : ∀ q ∈ r.deviceList, (a.deviceList.get j).matches lower q = .ok true →
      ((a.deviceList.get j).withProperty k w).matches lower q = .ok true := fun q hq hmatch =>
    HardwareDevice.matches_withProperty hold hraise (hasks q hq) hmatch
  refine ⟨f, hf, ⟨fun i i' hi => ?_, fun i => ?_⟩, fun hkeep => ?_⟩
  · exact hf.injective (Fin.cast_injective _ hi)
  · rw [get_withDeviceProperty]
    split
    · rename_i hj
      have hfi : f i = j := Fin.ext hj.symm
      exact hmono _ (List.get_mem _ _) (hfi ▸ hf.served i)
    · exact hf.served i
  · refine matches_eq_true.mpr ⟨FirstFit.serve_set hmono ?_ hf hkeep, hprops⟩
    intro d hd q hq
    refine HardwareDevice.matches_isOk ?_ (hr.devices q hq)
    rcases List.mem_or_eq_of_mem_set hd with hd | rfl
    · exact ha.devices d hd
    · obtain ⟨-, m', -, hm', -⟩ := hraise
      exact HardwareDevice.matchable_withProperty (ha.devices _ (List.get_mem _ _))
        (matchable_of_numeric hm')

theorem matches_withDeviceProperty_gpus :
    ((gpus [24, 12]).withDeviceProperty ⟨0, by decide⟩ "vram" (.int 32)).matches String.toLower
      (gpus [20, 10]) = .ok true := by
  have hmatch : (gpus [24, 12]).matches String.toLower (gpus [20, 10]) = .ok true := by
    decide +kernel
  have hasks : ∀ q ∈ (gpus [20, 10]).deviceList, ∀ x, ("vram", x) ∈ q.properties.getD [] →
      x.numeric?.isSome := by
    intro q hq x hx
    obtain ⟨n, -, rfl⟩ := List.mem_map.mp hq
    cases List.mem_singleton.mp hx
    rfl
  obtain ⟨f, -, -, hkeeps⟩ := matches_withDeviceProperty (j := ⟨0, by decide⟩) (v := .int 24)
    (w := .int 32) (by decide) (by decide) rfl ⟨_, _, rfl, rfl, by decide +kernel⟩ hasks hmatch
  -- the raised card met both requirements before
  have hmet : ∀ i, HardwareDevice.matches String.toLower ((gpus [24, 12]).deviceList.get
      ⟨0, by decide⟩) ((gpus [20, 10]).deviceList.get i) = .ok true := by
    decide +kernel
  exact hkeeps fun i _ _ _ _ => hmet i

/-- A card with little memory and a large one. -/
def mixedCards : Resources :=
  { devices := some
      [{ type := "gpu", properties := some [("vram", .int 8), ("cuda", .int 1)] },
       { type := "gpu", properties := some [("vram", .int 16)] }] }

/-- Asks for one card with memory and one with CUDA. -/
def twoCards : Resources :=
  { devices := some
      [{ type := "gpu", properties := some [("vram", .int 10)] },
       { type := "gpu", properties := some [("cuda", .int 1)] }] }

/-- With more memory the CUDA card is given to the first requirement, and nothing is left
for the second. -/
theorem upgrade_loses_match :
    mixedCards.Matchable ∧ twoCards.Matchable ∧
      ((mixedCards.deviceList.get ⟨0, by decide⟩).properties.getD []).lookup "vram" =
        some (.int 8) ∧
      Raises (.int 8) (.int 16) ∧
      (∀ q ∈ twoCards.deviceList, ∀ x, ("vram", x) ∈ q.properties.getD [] →
        x.numeric?.isSome) ∧
      mixedCards.matches String.toLower twoCards = .ok true ∧
      (mixedCards.withDeviceProperty ⟨0, by decide⟩ "vram" (.int 16)).matches String.toLower
        twoCards = .ok false := by
  refine ⟨by decide, by decide, rfl, ⟨_, _, rfl, rfl, by decide +kernel⟩, ?_, by decide +kernel,
    by decide +kernel⟩
  intro q hq x hx
  simp only [deviceList, twoCards, Option.getD_some, List.mem_cons, List.not_mem_nil,
    or_false] at hq
  rcases hq with rfl | rfl
  · cases List.mem_singleton.mp hx
    rfl
  · simp at hx

end Resources

end Rxon
