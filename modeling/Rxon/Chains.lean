import Rxon.Verification

/-! # Call chains

An event that travels up the call chain carries the workers that it has passed, and their
signature.  Four functions sign and verify a chain, beside the four for payloads.  They are
the same functions, seen from a payload that is a list: what one of them signs, the other
verifies (`chain_signatures_agree`).  No two chains share a message, and no message object
shares one with a chain. -/

namespace Rxon
open Json (canon)

section
variable {D : Decls} (rt : Runtime D) (crypto : Crypto rt.orjson.Bytes)

/-- Here the exceptions of the key loader are not caught. -/
def signBubblingChain (bubblingChain : List String) (privateKeyPem : String) :
    Except PyError String :=
  if privateKeyPem = "" then .error (.valueError "Private key cannot be empty.")
  else do
    let message ← chainMessage rt bubblingChain
    match ← crypto.loadPrivateKey privateKeyPem with
    | none => .error (.typeError "Key is not an Ed25519 private key.")
    | some privateKey => .ok (crypto.sign privateKey message)

def verifyBubblingChainSignature (bubblingChain : List String)
    (signatureHex publicKeyPem : String) : Except PyError Bool :=
  if signatureHex = "" || publicKeyPem = "" then .ok false
  else do
    let message ← chainMessage rt bubblingChain
    match crypto.loadPublicKey publicKeyPem with
    | .error _ | .ok none => .ok false
    | .ok (some publicKey) => .ok (crypto.verify publicKey signatureHex message)

/-! ## The message of a chain -/

/-- A chain as a document. -/
def chainDocument (bubblingChain : List String) : Json := .arr (bubblingChain.map .str)

theorem toPy_chainDocument (chain : List String) :
    (chainDocument chain).toPy = .list (chain.map .str) := by
  rw [chainDocument, Json.toPy_arr, List.map_map]
  rfl

theorem signable_chainDocument (chain : List String) : Signable (chainDocument chain) := by
  constructor
  · rw [chainDocument, Json.wf_arr, List.forall_mem_map]
    exact fun s _ => Json.wf_str s
  · rw [chainDocument, Json.intsFit_arr, List.forall_mem_map]
    intro s _
    simp [Json.IntsFit, Json.All, Json.nodes]
  · rw [chainDocument, Json.floatsFit_arr, List.forall_mem_map]
    intro s _
    simp [Json.FloatsFit, Json.All, Json.nodes]
  · rw [chainDocument, ← Nat.zero_add (Json.keptDepth _), Json.keptDepth_arr_le (Nat.zero_le _),
      List.forall_mem_map]
    intro s _
    show 0 + 1 + 0 ≤ 30
    omega

theorem canon_chainDocument (chain : List String) :
    canon (chainDocument chain) = chainDocument chain := by
  rw [chainDocument, Json.canon_arr, List.map_map]
  rfl

theorem chainMessage_eq (chain : List String) :
    chainMessage rt chain = rt.orjson.encode (chainDocument chain) := by
  rw [chainMessage, ← toPy_chainDocument, Orjson.dumps_toPy, if_pos rfl, chainDocument,
    Json.sortKeys_arr, List.map_map]
  rfl

/-- A chain has the message that it has as a payload; there is nothing in it to ignore. -/
theorem payloadMessage_chain (chain : List String) (ig : Option (List String)) :
    payloadMessage rt (.list (chain.map .str)) ig = chainMessage rt chain := by
  obtain ⟨hwf, hints, -, hdepth⟩ := signable_chainDocument chain
  rw [← toPy_chainDocument, payloadMessage_toPy rt ig hwf hints hdepth, chainMessage_eq]
  show rt.orjson.encode (canon (chainDocument chain)) = _
  rw [canon_chainDocument]

theorem chainMessage_inj {chain chain' : List String}
    (h : chainMessage rt chain = chainMessage rt chain') : chain = chain' := by
  obtain ⟨m, hm⟩ := exists_chainMessage rt chain
  have hm' := h ▸ hm
  rw [chainMessage_eq] at hm hm'
  have hsame : chainDocument chain = chainDocument chain' := rt.orjson.encode_inj hm hm'
  exact List.map_injective_iff.mpr (fun _ _ h => Json.str.inj h) (Json.arr.inj hsame)

/-- What is signed of an object is an object, and no chain. -/
theorem chainMessage_ne {v : PyVal} {kvs : List (String × Json)}
    (h : toDict rt v 0 = .ok (.obj kvs)) (ig : Option (List String)) (chain : List String) :
    payloadMessage rt v ig ≠ chainMessage rt chain := by
  intro hsame
  obtain ⟨m, hm⟩ := exists_chainMessage rt chain
  rw [hm, payloadMessage, h] at hsame
  change rt.orjson.dumps true Orjson.noDefault
    (Json.obj (Assoc.popAll (unsignedFields ig) kvs)).toPy = .ok m at hsame
  rw [Orjson.dumps_toPy, if_pos rfl, Json.sortKeys_obj] at hsame
  rw [chainMessage_eq] at hm
  have hdocument := rt.orjson.encode_inj hsame hm
  cases hdocument

/-! ## The signatures of a chain -/

/-- **Chains are signed and verified as payloads are.**  For every chain, both signers give
the signatures of the list as a payload, whatever is ignored, and both verifiers the same
answers; chains share a message only if they are equal, and none with a payload that is an
object. -/
theorem chain_signatures_agree (chain : List String) (ig : Option (List String)) :
    (∀ secret s, signBubblingChainHmac rt crypto chain secret = .ok s ↔
      signPayload rt crypto (.list (chain.map .str)) secret ig = .ok s) ∧
    (∀ pem s, signBubblingChain rt crypto chain pem = .ok s ↔
      signPayloadEd25519 rt crypto (.list (chain.map .str)) pem ig = .ok s) ∧
    (∀ signature secret, verifyBubblingChainHmac rt crypto chain signature secret =
      verifySignature rt crypto (.list (chain.map .str)) signature secret ig) ∧
    (∀ signature pem, verifyBubblingChainSignature rt crypto chain signature pem =
      verifySignatureEd25519 rt crypto (.list (chain.map .str)) signature pem ig) ∧
    (∀ chain', chainMessage rt chain = chainMessage rt chain' ↔ chain = chain') ∧
    ∀ v kvs, toDict rt v 0 = .ok (.obj kvs) → payloadMessage rt v ig ≠ chainMessage rt chain := by
  have hmessage := payloadMessage_chain rt chain ig
  obtain ⟨m, hm⟩ := exists_chainMessage rt chain
  have hsign : ∀ secret, secret ≠ "" → signBubblingChainHmac rt crypto chain secret =
      signPayload rt crypto (.list (chain.map .str)) secret ig := by
    intro secret hs
    rw [signBubblingChainHmac, signPayload, if_neg hs, if_neg hs, hmessage]
  refine ⟨fun secret s => ?_, fun pem s => ?_, fun signature secret => ?_,
    fun signature pem => ?_, fun chain' => ?_, fun v kvs h => ?_⟩
  · by_cases hs : secret = ""
    · rw [signBubblingChainHmac, signPayload, if_pos hs, if_pos hs]
      exact iff_of_false (fun h => by cases h) fun h => by cases h
    · rw [hsign secret hs]
  · by_cases hp : pem = ""
    · rw [signBubblingChain, signPayloadEd25519, if_pos hp, if_pos hp]
      exact iff_of_false (fun h => by cases h) fun h => by cases h
    · rw [signBubblingChain, signPayloadEd25519, if_neg hp, if_neg hp, hmessage, hm]
      simp only [bind, Except.bind]
      -- the two differ in what they raise about a key that cannot be loaded
      cases crypto.loadPrivateKey pem with
      | error e =>
        cases e <;> exact iff_of_false (fun h => by cases h) fun h => by cases h
      | ok key =>
        cases key with
        | none => exact iff_of_false (fun h => by cases h) fun h => by cases h
        | some key => exact Iff.rfl
  · by_cases hempty : signature = "" ∨ secret = ""
    · rw [verifyBubblingChainHmac, verifySignature, if_pos (by simpa using hempty),
        if_pos (by simpa using hempty)]
    · rw [verifyBubblingChainHmac, verifySignature, if_neg (by simpa using hempty),
        if_neg (by simpa using hempty), hsign secret fun hs => hempty (Or.inr hs)]
  · unfold verifySignatureEd25519
    rw [hmessage]
    rfl
  · exact ⟨chainMessage_inj rt, fun h => by rw [h]⟩
  · exact chainMessage_ne rt h ig chain

end
end Rxon
