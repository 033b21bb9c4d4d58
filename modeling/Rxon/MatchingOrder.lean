import Rxon.Capacity

/-! # Matching as an order

First fit finds an assignment of the required devices whenever one exists, as long as
the requirements are listed strictest first (`matches_iff_isAssignment`).

On devices and artifacts described by scalars `matches` is a preorder, and resources
with such descriptions match themselves (`matches_preorder`). -/

namespace Rxon
variable {lower : String → String}

/-! ## Strictest first -/

namespace Resources
variable {a r : Resources}

/-- Of two required devices the first is at least as strict on the offered ones as a
later one, or no offered device satisfies both. -/
def StrictestFirst (lower : String → String) (a r : Resources) : Prop :=
  ∀ i j : Fin r.deviceList.length, i < j →
    (∀ d ∈ a.deviceList, d.matches lower (r.deviceList.get i) = .ok true →
      d.matches lower (r.deviceList.get j) = .ok true) ∨
    ¬ ∃ d ∈ a.deviceList, d.matches lower (r.deviceList.get i) = .ok true ∧
      d.matches lower (r.deviceList.get j) = .ok true

/-- **First fit is exact on requirements listed strictest first.** -/
theorem matches_iff_isAssignment (hprops : r.properties.getD [] = [])
    (ha : ∀ d ∈ a.deviceList, d.Matchable) (hr : ∀ q ∈ r.deviceList, q.Matchable)
    (hstrict : StrictestFirst lower a r) :
    a.matches lower r = .ok true ↔ ∃ f, IsAssignment lower a r f := by
  rw [matches_of_no_properties hprops]
  have htotal : ∀ d ∈ a.deviceList, ∀ q ∈ r.deviceList, ∃ t, d.matches lower q = .ok t :=
    fun d hd q hq => HardwareDevice.matches_isOk (ha d hd) (hr q hq)
  refine (FirstFit.serve_eq_true_iff_of_nested htotal (List.pairwise_iff_get.mpr hstrict)).trans ?_
  constructor
  · rintro ⟨f, hinj, hserved⟩
    exact ⟨f, hinj, hserved⟩
  · rintro ⟨f, hf⟩
    exact ⟨f, hf.injective, hf.satisfied⟩

theorem matches_iff_isAssignment_gpus :
    (gpus [24, 12]).matches String.toLower (gpus [20, 10]) = .ok true ↔
      ∃ f, IsAssignment String.toLower (gpus [24, 12]) (gpus [20, 10]) f :=
  matches_iff_isAssignment rfl (by decide) (by decide) fun i j h => by
    -- every card large enough for the first requirement is for the second
    have hnested : ∀ i j : Fin (gpus [20, 10]).deviceList.length, i < j →
        ∀ d ∈ (gpus [24, 12]).deviceList,
          d.matches String.toLower ((gpus [20, 10]).deviceList.get i) = .ok true →
          d.matches String.toLower ((gpus [20, 10]).deviceList.get j) = .ok true := by
      decide +kernel
    exact Or.inl (hnested i j h)

end Resources

/-! ## Scalar descriptions -/

end Rxon

/-- A scalar other than null: a boolean, a finite number or a string. -/
def PyVal.isAtom : PyVal → Bool
  | .bool _ | .int _ | .float (.finite _) | .str _ => true
  | _ => false

theorem PyVal.isAtom_cases {v : PyVal} (h : v.isAtom = true) :
    (∃ n, v.numeric? = some (.finite n)) ∨ ∃ s, v = .str s := by
  unfold isAtom at h
  split at h
  · exact Or.inl ⟨_, rfl⟩
  · exact Or.inl ⟨_, rfl⟩
  · exact Or.inl ⟨_, rfl⟩
  · exact Or.inr ⟨_, rfl⟩
  · cases h

namespace Rxon
variable {lower : String → String} {x y z : PyVal}

theorem collection?_of_isAtom (h : x.isAtom = true) : collection? x = none := by
  unfold PyVal.isAtom at h
  split at h
  · rfl
  · rfl
  · rfl
  · rfl
  · cases h

/-- Scalars of which one is a string are compared for equality. -/
theorem valueMatches_eq {s : String} (hx : x.isAtom = true) (hy : y.isAtom = true)
    (h : x = .str s ∨ y = .str s) : valueMatches x y = .ok (x.eq y) := by
  have hnum : ∀ m n, x.numeric? = some m → y.numeric? = some n → False := by
    intro m n hm hn
    rcases h with rfl | rfl
    · cases hm
    · cases hn
  unfold valueMatches
  split
  · rename_i hn hm
    exact absurd (hnum _ _ hm hn) id
  · rw [collection?_of_isAtom hx, collection?_of_isAtom hy]

/-- **One scalar satisfies another** when both are numbers and it is at least as large,
or when both are the same string. -/
theorem valueMatches_scalars (hx : x.isAtom = true) (hy : y.isAtom = true) :
    valueMatches x y = .ok true ↔
      (∃ m n, x.numeric? = some (.finite m) ∧ y.numeric? = some (.finite n) ∧ n ≤ m) ∨
        ∃ s, x = .str s ∧ y = .str s := by
  rcases PyVal.isAtom_cases hy with ⟨n, hn⟩ | ⟨t, rfl⟩
  · rcases PyVal.isAtom_cases hx with ⟨m, hm⟩ | ⟨s, rfl⟩
    · have hle : valueMatches x y = .ok (!decide (m < n)) := by
        simp only [valueMatches, hm, hn, PyVal.Numeric.lt]
      rw [hle]
      constructor
      · intro h
        exact Or.inl ⟨m, n, hm, hn, by simpa using h⟩
      · rintro (⟨m', n', hm', hn', hle⟩ | ⟨s, rfl, -⟩)
        · rw [hm] at hm'
          rw [hn] at hn'
          cases hm'
          cases hn'
          simpa using hle
        · cases hm
    · rw [valueMatches_eq hx hy (Or.inl rfl)]
      refine iff_of_false (fun h => ?_) ?_
      · rw [PyVal.eq_str_of_same_str (PyVal.same_of_eq (Except.ok.inj h))] at hn
        cases hn
      · rintro (⟨m, n', hm, -, -⟩ | ⟨t, -, rfl⟩)
        · cases hm
        · cases hn
  · rw [valueMatches_eq hx hy (Or.inr rfl)]
    constructor
    · intro h
      exact Or.inr ⟨t, PyVal.eq_str_of_same (PyVal.same_of_eq (Except.ok.inj h)), rfl⟩
    · rintro (⟨m, n, -, hn, -⟩ | ⟨s, rfl, h⟩)
      · cases hn
      · cases h
        simp [PyVal.eq, PyVal.same]

theorem valueMatches_self (hx : x.isAtom = true) : valueMatches x x = .ok true := by
  rw [valueMatches_scalars hx hx]
  rcases PyVal.isAtom_cases hx with ⟨m, hm⟩ | ⟨s, hs⟩
  · exact Or.inl ⟨m, m, hm, hm, Int.le_refl m⟩
  · exact Or.inr ⟨s, hs, hs⟩

theorem valueMatches_trans (hx : x.isAtom = true) (hy : y.isAtom = true)
    (hz : z.isAtom = true) (h : valueMatches x y = .ok true)
    (h' : valueMatches y z = .ok true) : valueMatches x z = .ok true := by
  rw [valueMatches_scalars hx hy] at h
  rw [valueMatches_scalars hy hz] at h'
  rw [valueMatches_scalars hx hz]
  rcases h with ⟨l, m, hl, hm, hle⟩ | ⟨s, rfl, rfl⟩
  · rcases h' with ⟨m', n, hm', hn, hle'⟩ | ⟨t, rfl, -⟩
    · rw [hm] at hm'
      cases hm'
      exact Or.inl ⟨l, n, hl, hn, Int.le_trans hle' hle⟩
    · cases hm
  · rcases h' with ⟨m, n, hm, -, -⟩ | ⟨t, ht, rfl⟩
    · cases hm
    · exact Or.inr ⟨t, ht, rfl⟩

/-- A dict of non-null scalars. -/
structure Scalars (props : List (String × PyVal)) : Prop where
  unique : Assoc.Unique props
  scalar : ∀ e ∈ props, e.2.isAtom = true

section Properties
variable {p q r : List (String × PyVal)}

instance : Decidable (Scalars p) :=
  decidable_of_iff (Assoc.Unique p ∧ ∀ e ∈ p, e.2.isAtom = true)
    ⟨fun h => ⟨h.1, h.2⟩, fun h => ⟨h.1, h.2⟩⟩

theorem propertiesMatch_self (h : Scalars p) : propertiesMatch p p = .ok true := by
  refine propertiesMatch_eq_true.mpr fun e he => ?_
  refine ⟨e.2, Assoc.lookup_of_mem h.unique he, ?_, valueMatches_self (h.scalar e he)⟩
  intro hnone
  have hscalar := h.scalar e he
  rw [hnone] at hscalar
  cases hscalar

theorem propertiesMatch_trans (hp : Scalars p) (hq : Scalars q) (hr : Scalars r)
    (h : propertiesMatch p q = .ok true) (h' : propertiesMatch q r = .ok true) :
    propertiesMatch p r = .ok true := by
  rw [propertiesMatch_eq_true] at h h' ⊢
  intro e he
  obtain ⟨y, hlookup, -, hy⟩ := h' e he
  have hmem := Assoc.mem_of_lookup hlookup
  obtain ⟨x, hlookup', hne, hx⟩ := h _ hmem
  refine ⟨x, hlookup', hne, valueMatches_trans ?_ (hq.scalar _ hmem) (hr.scalar e he) hx hy⟩
  exact hp.scalar _ (Assoc.mem_of_lookup hlookup')

end Properties

/-! ## Devices -/

namespace HardwareDevice
variable {a b c : HardwareDevice}

/-- The properties are non-null scalars. -/
def IsScalar (d : HardwareDevice) : Prop := Scalars (d.properties.getD [])

instance (d : HardwareDevice) : Decidable d.IsScalar :=
  inferInstanceAs (Decidable (Scalars _))

/-- What the wildcards leave to compare. -/
theorem admits_iff : Admits lower a b ↔ (b.type = "" ∨ a.type = b.type) ∧
    (∀ m, given b.model = some m →
      ∃ my, given a.model = some my ∧ containsStr (lower my) (lower m) = true) ∧
    ∀ i, given b.id = some i → a.id = some i := by
  refine and_congr ?_ (and_congr ?_ ?_)
  · by_cases h : b.type = "" <;> simp [h]
  · cases given b.model with
    | none => simp
    | some m => cases given a.model <;> simp
  · cases given b.id <;> simp

theorem admits_self (d : HardwareDevice) : Admits lower d d := by
  refine admits_iff.mpr ⟨Or.inr rfl, fun m hm => ⟨m, hm, containsStr_refl _⟩, fun i hi => ?_⟩
  exact (Option.filter_eq_some_iff.mp hi).1

theorem Admits.trans (h : Admits lower a b) (h' : Admits lower b c) : Admits lower a c := by
  rw [admits_iff] at h h' ⊢
  obtain ⟨htype, hmodel, hid⟩ := h
  obtain ⟨htype', hmodel', hid'⟩ := h'
  refine ⟨?_, fun m hm => ?_, fun i hi => hid i ?_⟩
  · rcases htype' with hc | hbc
    · exact Or.inl hc
    · rcases htype with hb | hab
      · exact Or.inl (hbc.symm.trans hb)
      · exact Or.inr (hab.trans hbc)
  · obtain ⟨m', hm', hcontains'⟩ := hmodel' m hm
    obtain ⟨my, hmy, hcontains⟩ := hmodel m' hm'
    exact ⟨my, hmy, containsStr_trans hcontains hcontains'⟩
  · obtain ⟨-, hne⟩ := Option.filter_eq_some_iff.mp hi
    exact Option.filter_eq_some_iff.mpr ⟨hid' i hi, hne⟩

theorem matches_self (h : a.IsScalar) : a.matches lower a = .ok true :=
  matches_eq_true.mpr ⟨admits_self a, propertiesMatch_self h⟩

theorem matches_trans (ha : a.IsScalar) (hb : b.IsScalar) (hc : c.IsScalar)
    (h : a.matches lower b = .ok true) (h' : b.matches lower c = .ok true) :
    a.matches lower c = .ok true := by
  obtain ⟨hadmits, hprops⟩ := matches_eq_true.mp h
  obtain ⟨hadmits', hprops'⟩ := matches_eq_true.mp h'
  exact matches_eq_true.mpr
    ⟨hadmits.trans hadmits', propertiesMatch_trans ha hb hc hprops hprops'⟩

end HardwareDevice

/-! ## Artifacts -/

namespace InstalledArtifact
variable {a b c : InstalledArtifact}

def IsScalar (x : InstalledArtifact) : Prop := Scalars (x.properties.getD [])

instance (x : InstalledArtifact) : Decidable x.IsScalar :=
  inferInstanceAs (Decidable (Scalars _))

/-- The name, and the version unless any will do. -/
def Admits (self req : InstalledArtifact) : Prop :=
  self.name = req.name ∧ (req.version = "unknown" ∨ req.version = self.version)

theorem matches_eq_true : a.matches b = .ok true ↔ Admits a b ∧
    propertiesMatch (a.properties.getD []) (b.properties.getD []) = .ok true := by
  unfold «matches» Admits
  split
  · rename_i hname
    exact iff_of_false nofun fun h => hname h.1.1
  · rename_i hname
    split
    · rename_i hversion
      exact iff_of_false nofun fun h => h.1.2.elim hversion.1 hversion.2
    · rename_i hversion
      refine (and_iff_right ⟨not_not.mp hname, ?_⟩).symm
      by_cases h : b.version = "unknown"
      · exact Or.inl h
      · exact Or.inr (not_not.mp fun h' => hversion ⟨h, h'⟩)

theorem Admits.trans (h : Admits a b) (h' : Admits b c) : Admits a c := by
  refine ⟨h.1.trans h'.1, ?_⟩
  rcases h'.2 with hc | hbc
  · exact Or.inl hc
  · rcases h.2 with hb | hab
    · exact Or.inl (hbc.trans hb)
    · exact Or.inr (hbc.trans hab)

theorem matches_self (h : a.IsScalar) : a.matches a = .ok true :=
  matches_eq_true.mpr ⟨⟨rfl, Or.inr rfl⟩, propertiesMatch_self h⟩

theorem matches_trans (ha : a.IsScalar) (hb : b.IsScalar) (hc : c.IsScalar)
    (h : a.matches b = .ok true) (h' : b.matches c = .ok true) : a.matches c = .ok true := by
  obtain ⟨hadmits, hprops⟩ := matches_eq_true.mp h
  obtain ⟨hadmits', hprops'⟩ := matches_eq_true.mp h'
  exact matches_eq_true.mpr
    ⟨hadmits.trans hadmits', propertiesMatch_trans ha hb hc hprops hprops'⟩

end InstalledArtifact

/-! ## Resources -/

namespace Resources

/-- The devices and the resources themselves have scalar properties. -/
structure IsScalar (r : Resources) : Prop where
  devices : ∀ d ∈ r.deviceList, d.IsScalar
  properties : Scalars (r.properties.getD [])

theorem matches_self {r : Resources} (h : r.IsScalar) : r.matches lower r = .ok true := by
  refine matches_eq_true.mpr ⟨FirstFit.serve_self fun d hd => ?_, propertiesMatch_self h.properties⟩
  exact HardwareDevice.matches_self (h.devices d hd)

end Resources

/-- **Matching is a preorder on scalar descriptions**, and resources match themselves. -/
theorem matches_preorder (lower : String → String) :
    ((∀ d : HardwareDevice, d.IsScalar → d.matches lower d = .ok true) ∧
      ∀ a b c : HardwareDevice, a.IsScalar → b.IsScalar → c.IsScalar →
        a.matches lower b = .ok true → b.matches lower c = .ok true →
        a.matches lower c = .ok true) ∧
    ((∀ x : InstalledArtifact, x.IsScalar → x.matches x = .ok true) ∧
      ∀ x y z : InstalledArtifact, x.IsScalar → y.IsScalar → z.IsScalar →
        x.matches y = .ok true → y.matches z = .ok true → x.matches z = .ok true) ∧
    ∀ r : Resources, r.IsScalar → r.matches lower r = .ok true :=
  ⟨⟨fun _ => HardwareDevice.matches_self, fun _ _ _ => HardwareDevice.matches_trans⟩,
    ⟨fun _ => InstalledArtifact.matches_self, fun _ _ _ => InstalledArtifact.matches_trans⟩,
    fun _ => Resources.matches_self⟩

/-- A card of a known model meets the description of its family, which meets that of any
card. -/
theorem matches_preorder_cards :
    HardwareDevice.matches String.toLower
      { type := "gpu", model := some "NVIDIA A100", properties := some [("vram", .int 80)] }
      { type := "", properties := some [("vram", .int 16)] } = .ok true := by
  refine (matches_preorder String.toLower).1.2 _
    { type := "gpu", model := some "a100", properties := some [("vram", .int 40)] } _ ?_ ?_ ?_
    (by decide +kernel) (by decide +kernel)
  · decide
  · decide
  · decide

end Rxon
