import Rxon.Matching
import Mathlib.Data.Bool.AllAny
import Mathlib.Data.List.TakeWhile

/-! # Blob addresses

`parse_uri` of `blob.py` and the part of `urllib.parse` it rests on.

A URI is taken apart by `urlparse`, which gives everything behind the first `#` to the
fragment and everything behind the first `?` to the query, while a relative path is
taken as it is.  The two forms address the same object exactly when the key has neither
(`parseUri_forms_agree_iff`).  The bucket is asked for in the relative form only, so a
URI without an authority yields the empty bucket (`parseUri_bucket_iff`). -/

/-- What `urllib.parse` takes from `unicodedata` and `ipaddress`, and Unicode's letters
and digits. -/
structure Urllib where
  /-- `unicodedata.normalize("NFKC", s)`. -/
  nfkc : List Char → List Char
  /-- What `_check_bracketed_host` objects to. -/
  bracketedHostError : List Char → Option String
  /-- Letters and digits. -/
  isAlnum : Char → Bool
  alnum_ascii (c : Char) : c.toNat < 128 → isAlnum c = true → c.isAlphanum = true
  /-- No letter or digit is normalized to a delimiter. -/
  nfkc_alnum (s : List Char) : (∀ c ∈ s, isAlnum c = true ∨ c = '.' ∨ c = '-') →
    ∀ c ∈ ['/', '?', '#', '@', ':'], c ∉ nfkc s

namespace Urllib

/-- `_WHATWG_C0_CONTROL_OR_SPACE`. -/
def isC0OrSpace (c : Char) : Bool := c.toNat ≤ 32

/-- `_UNSAFE_URL_BYTES_TO_REMOVE`. -/
def isUnsafe (c : Char) : Bool := c = '\t' || c = '\r' || c = '\n'

/-- `scheme_chars`. -/
def isSchemeChar (c : Char) : Bool := c.isAlphanum || c = '+' || c = '-' || c = '.'

/-- The delimiters behind an authority. -/
def isDelim (c : Char) : Bool := c = '/' || c = '?' || c = '#'

structure SplitResult where
  scheme : List Char
  netloc : List Char
  path : List Char
  query : List Char
  fragment : List Char

/-- `s.split(c, 1)`, with nothing behind a `c` that does not occur. -/
def cut (c : Char) (s : List Char) : List Char × List Char :=
  (s.takeWhile (· ≠ c), (s.dropWhile (· ≠ c)).tail)

/-- The scheme before the first colon, and the rest. -/
def splitScheme (url : List Char) : List Char × List Char :=
  if ':' ∈ url ∧ ((cut ':' url).1.head?.any Char.isAlpha) ∧ (cut ':' url).1.all isSchemeChar then
    ((cut ':' url).1.map Char.toLower, (cut ':' url).2)
  else ([], url)

variable (u : Urllib)

/-- The brackets of an IPv6 address. -/
def checkBrackets (netloc : List Char) : Except PyError Unit :=
  if decide ('[' ∈ netloc) ≠ decide (']' ∈ netloc) then .error (.valueError "Invalid IPv6 URL")
  else if '[' ∈ netloc then
    match u.bracketedHostError (cut ']' (cut '[' netloc).2).1 with
    | some msg => .error (.valueError msg)
    | none => .ok ()
  else .ok ()

/-- `_checknetloc`. -/
def checkNetloc (netloc : List Char) : Except PyError Unit :=
  if netloc.all fun c => c.toNat < 128 then .ok ()
  else
    let n := netloc.filter fun c => c ∉ ['@', ':', '#', '?']
    if n = u.nfkc n then .ok ()
    else if ['/', '?', '#', '@', ':'].any fun c => c ∈ u.nfkc n then
      .error (.valueError ("netloc '" ++ String.ofList netloc ++
        "' contains invalid characters under NFKC normalization"))
    else .ok ()

/-- What stands behind the authority. -/
def splitRest (scheme netloc rest : List Char) : SplitResult where
  scheme := scheme
  netloc := netloc
  path := (cut '?' (cut '#' rest).1).1
  query := (cut '?' (cut '#' rest).1).2
  fragment := (cut '#' rest).2

/-- The authority, up to the first delimiter. -/
def splitNetloc (scheme rest : List Char) : Except PyError SplitResult := do
  let netloc := rest.takeWhile (!isDelim ·)
  u.checkBrackets netloc
  u.checkNetloc netloc
  return splitRest scheme netloc (rest.dropWhile (!isDelim ·))

/-- `urlsplit(url)`, which is `urlparse(url)` but for schemes that take parameters. -/
def urlsplit (url : List Char) : Except PyError SplitResult :=
  match splitScheme ((url.dropWhile isC0OrSpace).filter (!isUnsafe ·)) with
  | (scheme, '/' :: '/' :: rest) => u.splitNetloc scheme rest
  | (scheme, rest) => .ok (splitRest scheme [] rest)

section
variable {u : Urllib} {netloc : List Char} {c : Char}

/-- A letter or digit, a dot or a hyphen. -/
def IsBucketChar (u : Urllib) (c : Char) : Prop := u.isAlnum c = true ∨ c = '.' ∨ c = '-'

instance (u : Urllib) : DecidablePred u.IsBucketChar := fun c =>
  inferInstanceAs (Decidable (u.isAlnum c = true ∨ c = '.' ∨ c = '-'))

theorem IsBucketChar.not_mem_delims (h : u.IsBucketChar c) :
    c ∉ ['/', '?', '#', '[', ']', '\t', '\r', '\n'] := by
  intro hc
  rcases h with h | rfl | rfl
  · have hall : ∀ d ∈ ['/', '?', '#', '[', ']', '\t', '\r', '\n'],
        d.toNat < 128 ∧ d.isAlphanum = false := List.all_iff_forall_prop.mp (by decide)
    obtain ⟨hlt, hnot⟩ := hall c hc
    rw [u.alnum_ascii c hlt h] at hnot
    cases hnot
  · exact absurd hc (by decide)
  · exact absurd hc (by decide)

theorem IsBucketChar.isDelim (h : u.IsBucketChar c) : isDelim c = false := by
  have := h.not_mem_delims
  simp_all [Urllib.isDelim]

theorem IsBucketChar.isUnsafe (h : u.IsBucketChar c) : isUnsafe c = false := by
  have := h.not_mem_delims
  simp_all [Urllib.isUnsafe]

theorem checkBrackets_bucket (h : ∀ c ∈ netloc, u.IsBucketChar c) :
    u.checkBrackets netloc = .ok () := by
  have hopen : '[' ∉ netloc := fun hmem => (h _ hmem).not_mem_delims (by decide)
  have hclose : ']' ∉ netloc := fun hmem => (h _ hmem).not_mem_delims (by decide)
  simp [checkBrackets, hopen, hclose]

theorem checkNetloc_bucket (h : ∀ c ∈ netloc, u.IsBucketChar c) :
    u.checkNetloc netloc = .ok () := by
  have hn : ∀ c ∈ netloc.filter fun c => c ∉ ['@', ':', '#', '?'], u.IsBucketChar c :=
    fun c hc => h c (List.mem_of_mem_filter hc)
  have hany : (['/', '?', '#', '@', ':'].any fun c =>
      decide (c ∈ u.nfkc (netloc.filter fun c => c ∉ ['@', ':', '#', '?']))) = false :=
    List.any_eq_false.mpr fun c hc => by simpa using u.nfkc_alnum _ hn c hc
  unfold checkNetloc
  split
  · rfl
  · dsimp only
    rw [hany]
    split <;> rfl

theorem checkBrackets_cases (u : Urllib) (netloc : List Char) :
    u.checkBrackets netloc = .ok () ∨
      netloc ≠ [] ∧ ∃ msg, u.checkBrackets netloc = .error (.valueError msg) := by
  by_cases h : netloc = []
  · left
    rw [h]
    rfl
  · unfold checkBrackets
    split
    · exact Or.inr ⟨h, _, rfl⟩
    · split
      · split
        · exact Or.inr ⟨h, _, rfl⟩
        · exact Or.inl rfl
      · exact Or.inl rfl

theorem checkNetloc_cases (u : Urllib) (netloc : List Char) :
    u.checkNetloc netloc = .ok () ∨
      netloc ≠ [] ∧ ∃ msg, u.checkNetloc netloc = .error (.valueError msg) := by
  by_cases h : netloc = []
  · left
    rw [h]
    rfl
  · unfold checkNetloc
    dsimp only
    repeat' split
    · exact Or.inl rfl
    · exact Or.inl rfl
    · exact Or.inr ⟨h, _, rfl⟩
    · exact Or.inl rfl

/-- **A URI is taken apart at its first delimiter, unless its authority, which is then not
empty, is objected to.** -/
theorem splitNetloc_cases (u : Urllib) (scheme rest : List Char) :
    u.splitNetloc scheme rest =
        .ok (splitRest scheme (rest.takeWhile (!isDelim ·)) (rest.dropWhile (!isDelim ·))) ∨
      rest.takeWhile (!isDelim ·) ≠ [] ∧
        ∃ msg, u.splitNetloc scheme rest = .error (.valueError msg) := by
  rw [splitNetloc]
  rcases u.checkBrackets_cases (rest.takeWhile (!isDelim ·)) with h | ⟨hne, msg, h⟩
  · rw [h]
    rcases u.checkNetloc_cases (rest.takeWhile (!isDelim ·)) with h | ⟨hne, msg, h⟩
    · rw [h]
      exact Or.inl rfl
    · rw [h]
      exact Or.inr ⟨hne, msg, rfl⟩
  · rw [h]
    exact Or.inr ⟨hne, msg, rfl⟩

end

/-- Text of ASCII characters, which NFKC leaves alone. -/
def ascii : Urllib where
  nfkc := id
  bracketedHostError _ := none
  isAlnum := Char.isAlphanum
  alnum_ascii _ _ h := h
  nfkc_alnum s hs c hc hmem := by
    have hdelims : ∀ c ∈ ['/', '?', '#', '@', ':'],
        c.isAlphanum = false ∧ c ≠ '.' ∧ c ≠ '-' := List.all_iff_forall_prop.mp (by decide)
    obtain ⟨halnum, hdot, hhyphen⟩ := hdelims c hc
    rcases hs c hmem with h | h | h
    · rw [halnum] at h
      cases h
    · exact hdot h
    · exact hhyphen h

end Urllib

namespace Rxon
open Urllib (isUnsafe isDelim)

def rxonBlobScheme : String := "s3"

/-- `uri.startswith("s3://")`. -/
def isBlobUri (uri : String) : Bool := (rxonBlobScheme ++ "://").toList.isPrefixOf uri.toList

/-- `s.lstrip("/")`. -/
def lstripSlash (s : List Char) : List Char := s.dropWhile (· = '/')

/-- `parse_uri(uri, default_bucket, prefix)`. -/
def parseUri (u : Urllib) (uri : String) (defaultBucket : Option String) (keyPrefix : String) :
    Except PyError (String × String × Bool) :=
  let isDir := decide (uri.toList.getLast? = some '/')
  if isBlobUri uri then do
    let parsed ← u.urlsplit uri.toList
    return (String.ofList parsed.netloc, String.ofList (lstripSlash parsed.path), isDir)
  else
    match given defaultBucket with
    | none => .error (.valueError s!"Cannot parse relative path '{uri}' without a default bucket.")
    | some bucket =>
      let cleanPath := String.ofList (lstripSlash uri.toList)
      .ok (bucket, if keyPrefix ≠ "" then keyPrefix ++ cleanPath else cleanPath, isDir)

/-! ## A URI with the blob scheme -/

variable {u : Urllib} {uri bucket key : String} {rest : List Char}

theorem isBlobUri_iff : isBlobUri uri = true ↔
    ∃ rest, uri.toList = 's' :: '3' :: ':' :: '/' :: '/' :: rest := by
  have hscheme : (rxonBlobScheme ++ "://").toList = ['s', '3', ':', '/', '/'] := by decide
  rw [isBlobUri, hscheme, List.isPrefixOf_iff_prefix]
  constructor
  · rintro ⟨rest, h⟩
    exact ⟨rest, h.symm⟩
  · rintro ⟨rest, h⟩
    exact ⟨rest, h.symm⟩

/-- What follows the scheme, without the characters `urlsplit` removes. -/
theorem urlsplit_blob (u : Urllib) (rest : List Char) :
    u.urlsplit ('s' :: '3' :: ':' :: '/' :: '/' :: rest) =
      u.splitNetloc ['s', '3'] (rest.filter (!isUnsafe ·)) := by
  rfl

/-- `parse_uri` of a URI. -/
theorem parseUri_blob {defaultBucket : Option String} {keyPrefix : String}
    (h : uri.toList = 's' :: '3' :: ':' :: '/' :: '/' :: rest) :
    parseUri u uri defaultBucket keyPrefix = do
      let parsed ← u.splitNetloc ['s', '3'] (rest.filter (!isUnsafe ·))
      return (String.ofList parsed.netloc, String.ofList (lstripSlash parsed.path),
        decide (uri.toList.getLast? = some '/')) := by
  rw [parseUri, if_pos (isBlobUri_iff.mpr ⟨rest, h⟩), h, urlsplit_blob]

/-! ## The two forms of an address -/

/-- Letters, digits, dots and hyphens. -/
structure IsBucketName (u : Urllib) (bucket : String) : Prop where
  nonempty : bucket ≠ ""
  chars : ∀ c ∈ bucket.toList, u.IsBucketChar c

/-- Whether a key names a directory. -/
def isDirectory (key : String) : Bool := key = "" || key.toList.getLast? = some '/'

/-- The key that `urlparse` leaves of `key`. -/
theorem lstripSlash_path {scheme netloc : List Char} {cs : List Char} (h : cs.head? ≠ some '/') :
    lstripSlash (Urllib.splitRest scheme netloc ('/' :: cs)).path =
      cs.takeWhile fun c => c ≠ '#' && c ≠ '?' := by
  have hpath : (Urllib.splitRest scheme netloc ('/' :: cs)).path =
      '/' :: cs.takeWhile fun c => c ≠ '#' && c ≠ '?' := by
    simp [Urllib.splitRest, Urllib.cut, List.takeWhile_takeWhile, and_comm]
  rw [hpath, lstripSlash, List.dropWhile_cons_of_pos (by simp)]
  cases cs with
  | nil => rfl
  | cons c cs =>
    have hc : c ≠ '/' := fun hc => h (by rw [hc]; rfl)
    rw [List.takeWhile_cons]
    split
    · exact List.dropWhile_cons_of_neg (by simpa using hc)
    · rfl

/-- `parse_uri("s3://" + bucket + "/" + key)`. -/
theorem parseUri_full (hb : IsBucketName u bucket) (hkey : ∀ c ∈ key.toList, isUnsafe c = false)
    (hslash : key.toList.head? ≠ some '/') :
    parseUri u ("s3://" ++ bucket ++ "/" ++ key) none "" =
      .ok (bucket, String.ofList (key.toList.takeWhile fun c => c ≠ '#' && c ≠ '?'),
        isDirectory key) := by
  have huri : ("s3://" ++ bucket ++ "/" ++ key).toList =
      's' :: '3' :: ':' :: '/' :: '/' :: (bucket.toList ++ '/' :: key.toList) := by
    simp [String.toList_append]
  -- `urlsplit` removes tabs and line breaks, of which there are none
  have hclean : (bucket.toList ++ '/' :: key.toList).filter (!isUnsafe ·) =
      bucket.toList ++ '/' :: key.toList := by
    refine List.filter_eq_self.mpr fun c hc => ?_
    rw [Bool.not_eq_true']
    rcases List.mem_append.mp hc with hc | hc
    · exact (hb.chars c hc).isUnsafe
    · rcases List.mem_cons.mp hc with rfl | hc
      · decide
      · exact hkey c hc
  -- the authority ends at the slash behind the bucket
  have htake : (bucket.toList ++ '/' :: key.toList).takeWhile (!isDelim ·) = bucket.toList := by
    rw [List.takeWhile_append_of_pos fun c hc => by rw [(hb.chars c hc).isDelim, Bool.not_false],
      List.takeWhile_cons_of_neg (by decide), List.append_nil]
  have hdrop : (bucket.toList ++ '/' :: key.toList).dropWhile (!isDelim ·) =
      '/' :: key.toList := by
    rw [List.dropWhile_append_of_pos fun c hc => by rw [(hb.chars c hc).isDelim, Bool.not_false],
      List.dropWhile_cons_of_neg (by decide)]
  rw [parseUri_blob huri, hclean, Urllib.splitNetloc, htake, hdrop,
    Urllib.checkBrackets_bucket hb.chars, Urllib.checkNetloc_bucket hb.chars]
  show Except.ok (String.ofList bucket.toList, String.ofList (lstripSlash _), _) = _
  have hdir : decide (('s' :: '3' :: ':' :: '/' :: '/' ::
      (bucket.toList ++ '/' :: key.toList)).getLast? = some '/') = isDirectory key := by
    rw [show ('s' :: '3' :: ':' :: '/' :: '/' :: (bucket.toList ++ '/' :: key.toList)) =
      ['s', '3', ':', '/', '/'] ++ bucket.toList ++ '/' :: key.toList from by simp,
      List.getLast?_append_of_ne_nil _ (List.cons_ne_nil _ _), List.getLast?_cons]
    rcases hlast : key.toList.getLast? with _ | c
    · have hempty : key = "" := String.toList_eq_nil_iff.mp (List.getLast?_eq_none_iff.mp hlast)
      simp [isDirectory, hempty]
    · have hne : key ≠ "" := fun h => by rw [h] at hlast; cases hlast
      simp [isDirectory, hlast, hne]
  rw [lstripSlash_path hslash, String.ofList_toList, huri, hdir]

/-- `parse_uri(key, default_bucket=bucket)`. -/
theorem parseUri_relative (hb : bucket ≠ "") (hkey : key ≠ "") (huri : isBlobUri key = false)
    (hslash : key.toList.head? ≠ some '/') :
    parseUri u key (some bucket) "" = .ok (bucket, key, isDirectory key) := by
  have hstrip : lstripSlash key.toList = key.toList := by
    rw [lstripSlash]
    cases h : key.toList with
    | nil => rfl
    | cons c cs =>
      rw [h] at hslash
      exact List.dropWhile_cons_of_neg fun hc => hslash (by rw [of_decide_eq_true hc]; rfl)
  have hgiven : given (some bucket) = some bucket := by simp [given, hb]
  rw [parseUri, huri, hgiven, hstrip]
  simp [String.ofList_toList, isDirectory, hkey]

/-- **The two forms of an address agree, and give back what they were made of, exactly
when the key has no `#` and no `?`.**  Printable keys have no tabs and no line breaks. -/
theorem parseUri_forms_agree_iff (hb : IsBucketName u bucket)
    (hkey : ∀ c ∈ key.toList, isUnsafe c = false) (hslash : key.toList.head? ≠ some '/') :
    (parseUri u ("s3://" ++ bucket ++ "/" ++ key) none "" = .ok (bucket, key, isDirectory key) ∧
      (key ≠ "" → isBlobUri key = false →
        parseUri u key (some bucket) "" = .ok (bucket, key, isDirectory key))) ↔
      '#' ∉ key.toList ∧ '?' ∉ key.toList := by
  have hrelative : key ≠ "" → isBlobUri key = false →
      parseUri u key (some bucket) "" = .ok (bucket, key, isDirectory key) :=
    fun hne huri => parseUri_relative hb.nonempty hne huri hslash
  rw [and_iff_left hrelative, parseUri_full hb hkey hslash]
  have hlist : String.ofList (key.toList.takeWhile fun c => c ≠ '#' && c ≠ '?') = key ↔
      (key.toList.takeWhile fun c => c ≠ '#' && c ≠ '?') = key.toList := by
    rw [← String.toList_inj, String.toList_ofList]
  simp only [Except.ok.injEq, Prod.mk.injEq, true_and, and_true, hlist,
    List.takeWhile_eq_self_iff]
  constructor
  · intro h
    exact ⟨fun hmem => by simpa using h _ hmem, fun hmem => by simpa using h _ hmem⟩
  · rintro ⟨hhash, hquery⟩ c hc
    have hne : c ≠ '#' := fun h => hhash (h ▸ hc)
    have hne' : c ≠ '?' := fun h => hquery (h ▸ hc)
    simp [hne, hne']

theorem parseUri_forms_agree_iff_report :
    parseUri Urllib.ascii "s3://data.eu-1/runs/2024 (final)/report.csv" none "" =
      .ok ("data.eu-1", "runs/2024 (final)/report.csv", false) := by
  have hb : IsBucketName Urllib.ascii "data.eu-1" :=
    ⟨by decide, List.all_iff_forall_prop.mp (by decide)⟩
  have hkey : ∀ c ∈ "runs/2024 (final)/report.csv".toList, isUnsafe c = false :=
    List.all_iff_forall_prop.mp (by decide)
  exact ((parseUri_forms_agree_iff hb hkey (by decide)).mpr (by decide)).1

/-- A key with a `#` in it names another object in its URI than in its relative form. -/
theorem hash_in_key_truncated :
    IsBucketName Urllib.ascii "data" ∧ (∀ c ∈ "runs/#1.csv".toList, isUnsafe c = false) ∧
      parseUri Urllib.ascii "s3://data/runs/#1.csv" none "" = .ok ("data", "runs/", false) ∧
      parseUri Urllib.ascii "runs/#1.csv" (some "data") "" =
        .ok ("data", "runs/#1.csv", false) := by
  refine ⟨⟨by decide, ?_⟩, ?_, by decide +kernel, by decide +kernel⟩
  · exact List.all_iff_forall_prop.mp (by decide)
  · exact List.all_iff_forall_prop.mp (by decide)

/-! ## The bucket -/

/-- Something other than a delimiter stands behind `s3://`. -/
def HasAuthority (uri : String) : Prop :=
  ∃ c, ((uri.toList.drop 5).filter (!isUnsafe ·)).head? = some c ∧ isDelim c = false

/-- **`parse_uri` raises `ValueError` or names a bucket exactly on relative paths and on
URIs with an authority.** -/
theorem parseUri_bucket_iff (u : Urllib) (uri : String) (defaultBucket : Option String)
    (keyPrefix : String) :
    ((∃ msg, parseUri u uri defaultBucket keyPrefix = .error (.valueError msg)) ∨
      ∃ bucket key isDir, parseUri u uri defaultBucket keyPrefix = .ok (bucket, key, isDir) ∧
        bucket ≠ "") ↔
      (isBlobUri uri = true → HasAuthority uri) := by
  cases hblob : isBlobUri uri with
  | false =>
    -- a relative path is refused, or has the default bucket
    refine iff_of_true ?_ nofun
    rw [parseUri, hblob]
    cases hgiven : given defaultBucket with
    | none => exact Or.inl ⟨_, rfl⟩
    | some bucket =>
      obtain ⟨-, hne⟩ := Option.filter_eq_some_iff.mp hgiven
      exact Or.inr ⟨bucket, _, _, rfl, by simpa using hne⟩
  | true =>
    obtain ⟨rest, huri⟩ := isBlobUri_iff.mp hblob
    rw [parseUri_blob huri, HasAuthority, huri]
    show _ ↔ (true = true → ∃ c, (rest.filter (!isUnsafe ·)).head? = some c ∧ isDelim c = false)
    refine Iff.trans ?_ ⟨fun h _ => h, fun h => h rfl⟩
    generalize rest.filter (!isUnsafe ·) = cs
    have hnetloc : cs.takeWhile (!isDelim ·) ≠ [] ↔ ∃ c, cs.head? = some c ∧ isDelim c = false := by
      cases cs with
      | nil => simp
      | cons c cs => cases hc : isDelim c <;> simp [hc]
    rw [← hnetloc]
    -- an empty authority is not objected to, and becomes the bucket
    rcases u.splitNetloc_cases ['s', '3'] cs with h | ⟨hne, msg, h⟩
    · rw [h]
      constructor
      · rintro (⟨msg, hmsg⟩ | ⟨bucket, key, isDir, hok, hne⟩)
        · cases hmsg
        · cases hok
          intro hnil
          exact hne (by rw [Urllib.splitRest, hnil])
      · intro hne
        refine Or.inr ⟨_, _, _, rfl, fun hempty => hne ?_⟩
        exact String.ofList_eq_empty_iff.mp hempty
    · rw [h]
      exact iff_of_true (Or.inl ⟨msg, rfl⟩) hne

/-- A third slash leaves the bucket out, and nothing is raised. -/
theorem empty_bucket_returned :
    isBlobUri "s3:///models/a.bin" = true ∧
      parseUri Urllib.ascii "s3:///models/a.bin" (some "data") "" =
        .ok ("", "models/a.bin", false) := by
  decide +kernel

end Rxon
