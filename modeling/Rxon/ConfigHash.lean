import Rxon.Cuts
import Rxon.Matching

/-! # Configuration hashes

`calculate_config_hash` of `blob.py`, by which a worker and the orchestrator find out
whether they talk to the same storage.

The three settings are joined by `|`, and nothing marks a `|` that a setting has of its
own.  A storage shares its hash with another one exactly when one of its bars can be taken
for a separator and leaves no setting empty (`configHash_distinguishes_iff`). -/

namespace Rxon

/-- `f"{endpoint}|{access_key}|{bucket}"`. -/
def configStr (endpoint accessKey bucket : String) : String :=
  endpoint ++ "|" ++ accessKey ++ "|" ++ bucket

/-- `sha256(text.encode()).hexdigest()[:16]`. -/
def shortHash (sha256 : ByteArray → String) (text : String) : String :=
  String.ofList ((sha256 text.toUTF8).toList.take 16)

/-- `calculate_config_hash`. -/
def calculateConfigHash (sha256 : ByteArray → String) (endpoint accessKey bucket : Option String) :
    Option String :=
  match given endpoint, given accessKey, given bucket with
  | some endpoint, some accessKey, some bucket =>
    some (shortHash sha256 (configStr endpoint accessKey bucket))
  | _, _, _ => none

/-- The settings of a storage, none of which is empty. -/
@[ext] structure Storage where
  endpoint : String
  accessKey : String
  bucket : String
  endpoint_ne : endpoint ≠ ""
  accessKey_ne : accessKey ≠ ""
  bucket_ne : bucket ≠ ""

namespace Storage

/-- The text that is hashed. -/
def configStr (s : Storage) : String := Rxon.configStr s.endpoint s.accessKey s.bucket

/-- No bar in a setting can be taken for a separator: a first one would leave the endpoint
empty, a last one the bucket, and an access key that is one bar has nothing beside it. -/
structure Unshiftable (s : Storage) : Prop where
  endpoint : '|' ∉ s.endpoint.toList.tail
  accessKey : s.accessKey = "|" ∨ '|' ∉ s.accessKey.toList
  bucket : '|' ∉ s.bucket.toList.dropLast

variable {s other : Storage}

theorem toList_configStr (s : Storage) : s.configStr.toList =
    s.endpoint.toList ++ '|' :: (s.accessKey.toList ++ '|' :: s.bucket.toList) := by
  simp [configStr, Rxon.configStr, String.toList_append]

theorem calculateConfigHash_eq (sha256 : ByteArray → String) (s : Storage) :
    calculateConfigHash sha256 (some s.endpoint) (some s.accessKey) (some s.bucket) =
      some (shortHash sha256 s.configStr) := by
  have hendpoint : given (some s.endpoint) = some s.endpoint := by simp [given, s.endpoint_ne]
  have haccess : given (some s.accessKey) = some s.accessKey := by simp [given, s.accessKey_ne]
  have hbucket : given (some s.bucket) = some s.bucket := by simp [given, s.bucket_ne]
  rw [calculateConfigHash, hendpoint, haccess, hbucket]
  rfl

theorem toList_ne_nil {text : String} (h : text ≠ "") : text.toList ≠ [] :=
  fun hnil => h (String.toList_eq_nil_iff.mp hnil)

/-- Two cuts of the text of a storage at bars, elsewhere than between its settings, give
another one. -/
theorem exists_ne_of_cuts {endpoint accessKey bucket : List Char}
    (htext : s.configStr.toList = endpoint ++ '|' :: (accessKey ++ '|' :: bucket))
    (he : endpoint ≠ []) (ha : accessKey ≠ []) (hb : bucket ≠ [])
    (hne : s.endpoint.toList ≠ endpoint ∨ s.bucket.toList ≠ bucket) :
    ∃ other : Storage, s.configStr = other.configStr ∧ s ≠ other := by
  refine ⟨⟨String.ofList endpoint, String.ofList accessKey, String.ofList bucket,
    fun h => he (String.ofList_eq_empty_iff.mp h), fun h => ha (String.ofList_eq_empty_iff.mp h),
    fun h => hb (String.ofList_eq_empty_iff.mp h)⟩, String.toList_inj.mp ?_, ?_⟩
  · simp only [htext, toList_configStr, String.toList_ofList]
  · intro hs
    rw [hs] at hne
    exact hne.elim (fun h => h String.toList_ofList) fun h => h String.toList_ofList

/-- **The text tells all three settings**, if no bar in them can be taken for a
separator. -/
theorem Unshiftable.eq_of_configStr (h : s.Unshiftable) (heq : s.configStr = other.configStr) :
    s = other := by
  have hlist := congrArg String.toList heq
  rw [toList_configStr, toList_configStr] at hlist
  have hkey : ∀ x y, s.accessKey.toList = x ++ '|' :: y → x = [] ∧ y = [] := by
    intro x y hxy
    rcases h.accessKey with hbar | hnot
    · rw [hbar] at hxy
      rcases List.append_eq_singleton_iff.mp hxy.symm with ⟨rfl, hy⟩ | ⟨-, hy⟩
      · exact ⟨rfl, (List.cons.inj hy).2⟩
      · cases hy
    · exact absurd (by rw [hxy]; simp) hnot
  have hbucket : ∀ x y, s.bucket.toList = x ++ '|' :: y → y = [] := by
    intro x y hxy
    by_contra hy
    exact h.bucket (List.mem_dropLast_iff.mpr ⟨x, y, hy, hxy⟩)
  rcases List.cut_cases hlist with ⟨he, hrest⟩ | ⟨m, -, hrest⟩ | ⟨m, he, -⟩
  · -- the first separator is the same
    rcases List.cut_cases hrest with ⟨ha, hb⟩ | ⟨m, -, hb⟩ | ⟨m, ha, -⟩
    · exact Storage.ext (String.toList_inj.mp he) (String.toList_inj.mp ha)
        (String.toList_inj.mp hb)
    · exact absurd (hbucket m _ hb) (toList_ne_nil other.bucket_ne)
    · exact absurd (hkey _ m ha).1 (toList_ne_nil other.accessKey_ne)
  · -- the other's stands in what is the access key and the bucket here
    rcases List.cut_cases hrest with ⟨-, hb⟩ | ⟨m', -, hb⟩ | ⟨m', ha, hb⟩
    · exact absurd (hbucket _ _ hb) (toList_ne_nil other.bucket_ne)
    · exact absurd (hbucket _ _ hb) (by simp)
    · -- so the access key is a bar, and the bucket would have one that is not its last
      obtain ⟨rfl, rfl⟩ := hkey m m' ha
      obtain ⟨c, key, hother⟩ := List.exists_cons_of_ne_nil (toList_ne_nil other.accessKey_ne)
      rw [hother, List.cons_append, List.nil_append] at hb
      exact absurd (hbucket key _ (List.cons.inj hb).2.symm) (toList_ne_nil other.bucket_ne)
  · exact absurd (List.mem_tail_iff.mpr ⟨_, m, toList_ne_nil other.endpoint_ne, he⟩) h.endpoint

/-- **A bar that can be taken for a separator gives another storage the same text.** -/
theorem exists_ne_of_not_unshiftable (h : ¬ s.Unshiftable) :
    ∃ other : Storage, s.configStr = other.configStr ∧ s ≠ other := by
  by_cases hendpoint : '|' ∈ s.endpoint.toList.tail
  · obtain ⟨x, y, hx, hxy⟩ := List.mem_tail_iff.mp hendpoint
    have htext : s.configStr.toList =
        x ++ '|' :: ((y ++ '|' :: s.accessKey.toList) ++ '|' :: s.bucket.toList) := by
      simp [toList_configStr, hxy]
    exact exists_ne_of_cuts htext hx (by simp) (toList_ne_nil s.bucket_ne)
      (Or.inl (by simp [hxy]))
  by_cases hbucket : '|' ∈ s.bucket.toList.dropLast
  · obtain ⟨x, y, hy, hxy⟩ := List.mem_dropLast_iff.mp hbucket
    have htext : s.configStr.toList =
        s.endpoint.toList ++ '|' :: ((s.accessKey.toList ++ '|' :: x) ++ '|' :: y) := by
      simp [toList_configStr, hxy]
    refine exists_ne_of_cuts htext (toList_ne_nil s.endpoint_ne) (by simp) hy (Or.inr ?_)
    intro hy'
    have hlen := congrArg List.length (hxy.symm.trans hy')
    simp only [List.length_append, List.length_cons] at hlen
    omega
  -- what is left is a bar in the access key, with something beside it
  have haccess : s.accessKey ≠ "|" ∧ '|' ∈ s.accessKey.toList := by
    by_contra hnot
    refine h ⟨hendpoint, ?_, hbucket⟩
    by_contra hor
    rw [not_or, not_not] at hor
    exact hnot hor
  obtain ⟨x, y, hxy⟩ := List.append_of_mem haccess.2
  by_cases hy : y = []
  · subst hy
    have hx : x ≠ [] := by
      rintro rfl
      exact haccess.1 (String.toList_inj.mp hxy)
    have htext : s.configStr.toList =
        s.endpoint.toList ++ '|' :: (x ++ '|' :: '|' :: s.bucket.toList) := by
      simp [toList_configStr, hxy]
    exact exists_ne_of_cuts htext (toList_ne_nil s.endpoint_ne) hx (by simp) (Or.inr (by simp))
  · have htext : s.configStr.toList =
        (s.endpoint.toList ++ '|' :: x) ++ '|' :: (y ++ '|' :: s.bucket.toList) := by
      simp [toList_configStr, hxy]
    exact exists_ne_of_cuts htext (by simp) hy (toList_ne_nil s.bucket_ne) (Or.inl (by simp))

end Storage

/-- **A storage shares its hash with no other one iff no bar in its settings can be taken
for a separator**, where texts of the same hash are the same. -/
theorem configHash_distinguishes_iff (sha256 : ByteArray → String) (s : Storage) :
    (∀ other : Storage,
      (shortHash sha256 s.configStr = shortHash sha256 other.configStr →
        s.configStr = other.configStr) →
      calculateConfigHash sha256 (some s.endpoint) (some s.accessKey) (some s.bucket) =
        calculateConfigHash sha256 (some other.endpoint) (some other.accessKey)
          (some other.bucket) → s = other) ↔ s.Unshiftable := by
  simp only [Storage.calculateConfigHash_eq, Option.some.injEq]
  constructor
  · intro h
    by_contra hshift
    obtain ⟨other, htext, hne⟩ := Storage.exists_ne_of_not_unshiftable hshift
    exact hne (h other (fun _ => htext) (congrArg (shortHash sha256) htext))
  · intro h other hcollisionFree heq
    exact h.eq_of_configStr (hcollisionFree heq)

/-- Two storages at one host, and one hash, whatever the hash function. -/
theorem bar_in_endpoint_collides :
    configStr "http://s3.local" "key|1" "data" = configStr "http://s3.local|key" "1" "data" ∧
    (∀ sha256, calculateConfigHash sha256 (some "http://s3.local") (some "key|1") (some "data") =
      calculateConfigHash sha256 (some "http://s3.local|key") (some "1") (some "data")) ∧
    ("http://s3.local", "key|1", "data") ≠ ("http://s3.local|key", "1", "data") :=
  ⟨rfl, fun _ => rfl, by decide⟩

end Rxon
