import Rxon.Utils

/-! # Signatures

Every signature covers the same message: the normal form of the payload without
its top-level signature carriers and ignored fields, written with sorted keys
(`payloadMessage`).  Two documents give the same message exactly when they are
equivalent once these entries are removed (`payloadMessage_eq_iff`). -/

/-- Whether every character is ASCII. -/
def isAscii (s : String) : Bool := s.toList.all fun c => c.toNat < 128

/-- The text an exception is printed as. -/
def PyError.message : PyError → String
  | .recursionError msg | .typeError msg | .valueError msg | .attributeError msg => msg

namespace Rxon
open Json (canon)

/-- `hmac` and `cryptography`. -/
structure Crypto (Bytes : Type) where
  /-- `new(secret, message, sha256).hexdigest()`. -/
  hmac : String → Bytes → String
  hmac_ne (secret : String) (message : Bytes) : hmac secret message ≠ ""
  hmac_ascii (secret : String) (message : Bytes) : isAscii (hmac secret message) = true
  PrivateKey : Type
  PublicKey : Type
  /-- `load_pem_private_key`; `none` is a key that is not Ed25519. -/
  loadPrivateKey : String → Except PyError (Option PrivateKey)
  loadPublicKey : String → Except PyError (Option PublicKey)
  /-- `private_key.sign(message).hex()`. -/
  sign : PrivateKey → Bytes → String
  /-- Whether `public_key.verify(bytes.fromhex(signature_hex), message)` returns. -/
  verify : PublicKey → String → Bytes → Bool

/-- `hmac.compare_digest` of two strings. -/
def compareDigest (a b : String) : Except PyError Bool :=
  if isAscii a && isAscii b then .ok (a == b)
  else .error (.typeError "comparing strings with non-ASCII characters is not supported")

/-- The top-level entries a signature does not cover. -/
def unsignedFields (ignoreFields : Option (List String)) : List String :=
  "security" :: "_signature" :: ignoreFields.getD []

/-- What is signed of a document: an object loses its unsigned fields. -/
def signedPart (ignoreFields : Option (List String)) : Json → Json
  | .obj kvs => .obj (Assoc.popAll (unsignedFields ignoreFields) kvs)
  | j => j

section
variable {D : Decls} (rt : Runtime D) (crypto : Crypto rt.orjson.Bytes)

/-- The message the four functions below compute from a payload. -/
def payloadMessage (payload : PyVal) (ignoreFields : Option (List String)) :
    Except PyError rt.orjson.Bytes := do
  let data ← toDict rt payload 0
  rt.orjson.dumps true Orjson.noDefault (signedPart ignoreFields data).toPy

def signPayload (payload : PyVal) (secret : String) (ignoreFields : Option (List String)) :
    Except PyError String :=
  if secret = "" then .error (.valueError "Secret key for signing cannot be empty.")
  else do
    let message ← payloadMessage rt payload ignoreFields
    return crypto.hmac secret message

def verifySignature (payload : PyVal) (signature secret : String)
    (ignoreFields : Option (List String)) : Except PyError Bool :=
  if signature = "" || secret = "" then .ok false
  else do
    let expectedSignature ← signPayload rt crypto payload secret ignoreFields
    compareDigest expectedSignature signature

def signPayloadEd25519 (payload : PyVal) (privateKeyPem : String)
    (ignoreFields : Option (List String)) : Except PyError String :=
  if privateKeyPem = "" then .error (.valueError "Private key for signing cannot be empty.")
  else do
    let message ← payloadMessage rt payload ignoreFields
    match crypto.loadPrivateKey privateKeyPem with
    | .error (.typeError msg) =>
      .error (.typeError ("Failed to load Ed25519 private key " ++
        s!"(password-protected keys are not supported): {msg}"))
    | .error e => .error (.valueError s!"Invalid private key: {e.message}")
    | .ok none => .error (.typeError "Key is not an Ed25519 private key.")
    | .ok (some privateKey) => .ok (crypto.sign privateKey message)

def verifySignatureEd25519 (payload : PyVal) (signatureHex publicKeyPem : String)
    (ignoreFields : Option (List String)) : Except PyError Bool :=
  if signatureHex = "" || publicKeyPem = "" then .ok false
  else do
    let message ← payloadMessage rt payload ignoreFields
    match crypto.loadPublicKey publicKeyPem with
    | .error _ | .ok none => .ok false
    | .ok (some publicKey) => .ok (crypto.verify publicKey signatureHex message)

end

/-! ## The signed part of a document -/

theorem signedPart_keeps {p : Json → Prop} (ig : Option (List String)) {j : Json}
    (hp : ∀ kvs kvs' : List (String × Json), kvs'.Sublist kvs → p (.obj kvs) → p (.obj kvs'))
    (h : p j) : p (signedPart ig j) := by
  cases j with
  | obj kvs => exact hp kvs _ (Assoc.popAll_sublist _ kvs) h
  | null | bool | int | float | str | arr => exact h

theorem wf_signedPart {ig : Option (List String)} {j : Json} (h : j.WF) :
    (signedPart ig j).WF := by
  refine signedPart_keeps ig (fun kvs kvs' hs hk => ?_) h
  obtain ⟨hu, hv⟩ := Json.wf_obj.mp hk
  exact Json.wf_obj.mpr ⟨hu.sublist hs, fun e he => hv e (hs.subset he)⟩

theorem intsFit_signedPart {ig : Option (List String)} {j : Json} (h : j.IntsFit) :
    (signedPart ig j).IntsFit := by
  refine signedPart_keeps ig (fun kvs kvs' hs hk => ?_) h
  exact Json.intsFit_obj.mpr fun e he => Json.intsFit_obj.mp hk e (hs.subset he)

theorem keptDepth_signedPart {ig : Option (List String)} {j : Json} {n : Nat}
    (h : j.keptDepth ≤ n) : (signedPart ig j).keptDepth ≤ n := by
  refine signedPart_keeps (p := fun j => j.keptDepth ≤ n) ig (fun kvs kvs' hs hk => ?_) h
  rw [← Nat.zero_add (Json.keptDepth _), Json.keptDepth_obj_le (Nat.zero_le n)] at hk ⊢
  exact fun e he => hk e (hs.subset he)

/-- Removing the unsigned fields commutes with normalizing. -/
theorem signedPart_canon (ig : Option (List String)) {j : Json} (hj : j.WF) :
    signedPart ig (canon j) = canon (signedPart ig j) := by
  cases j with
  | null | bool | int | str => rfl
  | float f =>
    by_cases h : f.IsInteger
    · simp only [signedPart, Json.canon_float_of_holds (Binary64.holds_toInt h)]
    · simp only [signedPart, Json.canon_float_of_not h]
  | arr xs => simp only [signedPart, Json.canon_arr]
  | obj kvs =>
    obtain ⟨hu, -⟩ := Json.wf_obj.mp hj
    have hpop : Assoc.Unique (Assoc.popAll (unsignedFields ig) kvs) :=
      hu.sublist (Assoc.popAll_sublist _ kvs)
    have hsorted := Assoc.sorted_sortByKey (Json.unique_mapVal_nonNull hu canon)
    rw [Json.canon_obj, signedPart, signedPart, Json.canon_obj, Json.obj.injEq]
    refine Assoc.ext_of_sorted (hsorted.sublist (Assoc.popAll_sublist _ _))
      (Assoc.sorted_sortByKey (Json.unique_mapVal_nonNull hpop canon)) fun k => ?_
    rw [Assoc.lookup_popAll, Json.lookup_canon hu, Json.lookup_canon hpop, Assoc.lookup_popAll]
    split <;> rfl

section
variable {D : Decls} (rt : Runtime D) (crypto : Crypto rt.orjson.Bytes)

/-- The message of a value that `to_dict` turns into the normal form of `j`. -/
theorem payloadMessage_of_toDict {v : PyVal} {j : Json} (ig : Option (List String)) (hj : j.WF)
    (h : toDict rt v 0 = .ok (canon j)) :
    payloadMessage rt v ig = rt.orjson.encode (canon (signedPart ig j)) := by
  have hstep : payloadMessage rt v ig =
      rt.orjson.dumps true Orjson.noDefault (signedPart ig (canon j)).toPy := by
    rw [payloadMessage, h]; rfl
  rw [hstep, Orjson.dumps_toPy, if_pos rfl, signedPart_canon ig hj,
    Json.sortKeys_canon (wf_signedPart hj)]

/-- The message of a document within the limits. -/
theorem payloadMessage_toPy {j : Json} (ig : Option (List String)) (hj : j.WF) (hi : j.IntsFit)
    (hd : j.keptDepth ≤ maxRecursionDepth) :
    payloadMessage rt j.toPy ig = rt.orjson.encode (canon (signedPart ig j)) :=
  payloadMessage_of_toDict rt ig hj (toDict_ok rt hj hi hd)

end
end Rxon
