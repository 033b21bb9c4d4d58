import Rxon.Signing

/-! # Verification as a decision

A signature comes from the network, so it can be any text.  The two HMAC verifiers hand
it to `compare_digest`, which does not take characters beyond ASCII; the Ed25519 verifier
answers `False` to whatever it cannot read.  So an HMAC verifier decides about a signature
exactly when the signature is ASCII (`verification_decides_iff`). -/

namespace Rxon

section
variable {D : Decls} (rt : Runtime D) (crypto : Crypto rt.orjson.Bytes)

/-! ## Call chains -/

/-- The message of a call chain. -/
def chainMessage (bubblingChain : List String) : Except PyError rt.orjson.Bytes :=
  rt.orjson.dumps true Orjson.noDefault (.list (bubblingChain.map .str))

def signBubblingChainHmac (bubblingChain : List String) (secret : String) :
    Except PyError String :=
  if secret = "" then .error (.valueError "Secret cannot be empty.")
  else do
    let message ← chainMessage rt bubblingChain
    return crypto.hmac secret message

def verifyBubblingChainHmac (bubblingChain : List String) (signature secret : String) :
    Except PyError Bool :=
  if signature = "" || secret = "" then .ok false
  else do
    let expected ← signBubblingChainHmac rt crypto bubblingChain secret
    compareDigest expected signature

/-- Every call chain has a message. -/
theorem exists_chainMessage (chain : List String) : ∃ m, chainMessage rt chain = .ok m := by
  have hpy : PyVal.list (chain.map .str) = (Json.arr (chain.map .str)).toPy := by
    rw [Json.toPy_arr, List.map_map]
    rfl
  have hints : (Json.arr (chain.map .str)).IntsFit := by
    rw [Json.intsFit_arr, List.forall_mem_map]
    intro s _
    simp [Json.IntsFit, Json.All, Json.nodes]
  have hdepth : (Json.arr (chain.map .str)).keptDepth ≤ maxRecursionDepth := by
    rw [← Nat.zero_add (Json.keptDepth _), Json.keptDepth_arr_le (Nat.zero_le _),
      List.forall_mem_map]
    intro s _
    show 0 + 1 + 0 ≤ 30
    omega
  rw [← Json.keptDepth_sortKeys] at hdepth
  unfold chainMessage
  rw [hpy, Orjson.dumps_toPy, if_pos rfl]
  exact (encode_isOk_iff rt hdepth).mpr (Json.intsFit_sortKeys.mpr hints)

/-- Every call chain is signed under every secret. -/
theorem exists_signBubblingChainHmac (chain : List String) {secret : String} (hs : secret ≠ "") :
    ∃ m, signBubblingChainHmac rt crypto chain secret = .ok (crypto.hmac secret m) := by
  obtain ⟨m, hm⟩ := exists_chainMessage rt chain
  refine ⟨m, ?_⟩
  rw [signBubblingChainHmac, if_neg hs, hm]
  rfl

/-! ## Deciding -/

/-- A verifier has decided whether the signature is the expected one. -/
def Decides (answer : Except PyError Bool) (expected signature : String) : Prop :=
  ∃ b, answer = .ok b ∧ (b = true ↔ signature = expected)

variable {rt crypto}

theorem isAscii_empty : isAscii "" = true := by decide

/-- The comparison decides about ASCII texts, and raises on others. -/
theorem decides_compareDigest_iff {expected : String} (h : isAscii expected = true)
    (signature : String) :
    Decides (compareDigest expected signature) expected signature ↔ isAscii signature = true := by
  unfold Decides compareDigest
  cases hascii : isAscii signature with
  | false => simp [h]
  | true =>
    rw [h]
    refine iff_of_true ⟨expected == signature, rfl, ?_⟩ rfl
    rw [beq_iff_eq]
    exact eq_comm

theorem compareDigest_of_not_ascii {expected signature : String}
    (h : isAscii signature = false) : compareDigest expected signature =
      .error (.typeError "comparing strings with non-ASCII characters is not supported") := by
  rw [compareDigest, h, Bool.and_false, if_neg Bool.false_ne_true]

theorem verifySignature_of_not_ascii {payload : PyVal} {signature secret s : String}
    {ig : Option (List String)} (hg : signature ≠ "") (hs : secret ≠ "")
    (h : signPayload rt crypto payload secret ig = .ok s) (hascii : isAscii signature = false) :
    verifySignature rt crypto payload signature secret ig =
      .error (.typeError "comparing strings with non-ASCII characters is not supported") := by
  rw [verifySignature, if_neg (by simp [hg, hs]), h]
  exact compareDigest_of_not_ascii hascii

theorem verifyBubblingChainHmac_of_not_ascii {chain : List String} {signature secret s : String}
    (hg : signature ≠ "") (hs : secret ≠ "")
    (h : signBubblingChainHmac rt crypto chain secret = .ok s)
    (hascii : isAscii signature = false) :
    verifyBubblingChainHmac rt crypto chain signature secret =
      .error (.typeError "comparing strings with non-ASCII characters is not supported") := by
  rw [verifyBubblingChainHmac, if_neg (by simp [hg, hs]), h]
  exact compareDigest_of_not_ascii hascii

/-- What a signature is an HMAC of. -/
theorem signPayload_eq_hmac {payload : PyVal} {secret s : String} {ig : Option (List String)}
    (h : signPayload rt crypto payload secret ig = .ok s) : ∃ m, s = crypto.hmac secret m := by
  unfold signPayload at h
  split at h
  · cases h
  · cases hm : payloadMessage rt payload ig with
    | error e =>
      rw [hm] at h
      cases h
    | ok m =>
      rw [hm] at h
      exact ⟨m, (Except.ok.inj h).symm⟩

/-- A verifier that compares with an HMAC decides exactly about ASCII signatures. -/
theorem decides_iff_of_hmac {signature secret : String} {m : rt.orjson.Bytes}
    {answer : Except PyError Bool} (hs : secret ≠ "")
    (h : answer = if signature = "" || secret = "" then .ok false
      else compareDigest (crypto.hmac secret m) signature) :
    Decides answer (crypto.hmac secret m) signature ↔ isAscii signature = true := by
  by_cases hempty : signature = ""
  · -- no signature is an empty text
    subst hempty
    rw [h, if_pos (by simp)]
    refine iff_of_true ⟨false, rfl, ?_⟩ isAscii_empty
    exact iff_of_false Bool.false_ne_true (crypto.hmac_ne secret m).symm
  · rw [h, if_neg (by simp [hempty, hs])]
    exact decides_compareDigest_iff (crypto.hmac_ascii secret m) signature

/-- **The HMAC verifiers decide about a signature exactly when it is ASCII**, for payloads
that can be signed and for all call chains. -/
theorem verification_decides_iff {payload : PyVal} {secret s : String}
    {ig : Option (List String)} (hs : secret ≠ "")
    (h : signPayload rt crypto payload secret ig = .ok s) (chain : List String)
    (signature : String) :
    (Decides (verifySignature rt crypto payload signature secret ig) s signature ↔
      isAscii signature = true) ∧
    ∃ s', signBubblingChainHmac rt crypto chain secret = .ok s' ∧
      (Decides (verifyBubblingChainHmac rt crypto chain signature secret) s' signature ↔
        isAscii signature = true) := by
  constructor
  · obtain ⟨m, rfl⟩ := signPayload_eq_hmac h
    apply decides_iff_of_hmac hs
    rw [verifySignature, h]
    rfl
  · obtain ⟨m, hm⟩ := exists_signBubblingChainHmac rt crypto chain hs
    refine ⟨_, hm, ?_⟩
    apply decides_iff_of_hmac hs
    rw [verifyBubblingChainHmac, hm]
    rfl

end

/-- HMAC with the key `secret` of `["a","b"]` and of `{"foo":"bar"}`. -/
def Crypto.secret : Crypto Json :=
  Crypto.reference Json
    (fun _ message => match message with
      | .arr _ => "4d7be3f727c825a878be91218dad6bacbc1169dc6bd19cb7512821b63ca157ad"
      | _ => "3f3ab3986b656abb17af3eb1443ed6c08ef8fff9fea83915909d1b421aec89be")
    (fun _ _ => by split <;> decide) (fun _ _ => by split <;> decide)

theorem signPayload_foo :
    signPayload Runtime.tight Crypto.secret (Json.obj [("foo", .str "bar")]).toPy "secret" none =
      .ok "3f3ab3986b656abb17af3eb1443ed6c08ef8fff9fea83915909d1b421aec89be" := by
  have hm : payloadMessage Runtime.tight (Json.obj [("foo", .str "bar")]).toPy none =
      .ok (.obj [("foo", .str "bar")]) := by
    rw [payloadMessage_toPy Runtime.tight none (by decide +kernel) (by decide +kernel)
      (by decide +kernel)]
    rfl
  exact signPayload_of_message Runtime.tight Crypto.secret (by decide) hm

/-- An ASCII text that is no signature is rejected. -/
theorem verification_decides_iff_foo :
    Decides (verifySignature Runtime.tight Crypto.secret (Json.obj [("foo", .str "bar")]).toPy
      "forged" "secret" none)
      "3f3ab3986b656abb17af3eb1443ed6c08ef8fff9fea83915909d1b421aec89be" "forged" :=
  ((verification_decides_iff (by decide) signPayload_foo [] "forged").1).mpr (by decide)

/-- A letter beyond ASCII makes the verifiers raise. -/
theorem verification_raises :
    (¬ ∃ b, verifySignature Runtime.tight Crypto.secret (Json.obj [("foo", .str "bar")]).toPy
      "signé" "secret" none = .ok b) ∧
    ¬ ∃ b, verifyBubblingChainHmac Runtime.tight Crypto.secret ["a", "b"] "signé" "secret" =
      .ok b := by
  obtain ⟨m, hm⟩ := exists_signBubblingChainHmac Runtime.tight Crypto.secret ["a", "b"]
    (by decide : "secret" ≠ "")
  constructor
  · rintro ⟨b, h⟩
    rw [verifySignature_of_not_ascii (by decide) (by decide) signPayload_foo (by decide)] at h
    cases h
  · rintro ⟨b, h⟩
    rw [verifyBubblingChainHmac_of_not_ascii (by decide) (by decide) hm (by decide)] at h
    cases h

end Rxon
