import Rxon.Reference

/-! # What digests and signatures identify

Within the limits of the protocol (`Signable`) hashing, signing and verifying never
fail, and they tell two documents apart exactly when the documents are not
equivalent.  One of the limits is not the encoder's: an integral double beyond 64
bits can be written as it is, but not once it has been normalized to an integer
(`serializes_iff`). -/

namespace Rxon
open Json (canon)

/-- A document within the limits: distinct keys, integers and integral doubles of
64 bits, bounded nesting. -/
structure Signable (j : Json) : Prop where
  wf : j.WF
  ints : j.IntsFit
  floats : j.FloatsFit
  depth : j.keptDepth ≤ maxRecursionDepth

instance (j : Json) : Decidable (Signable j) :=
  decidable_of_iff (j.WF ∧ j.IntsFit ∧ j.FloatsFit ∧ j.keptDepth ≤ maxRecursionDepth)
    ⟨fun h => ⟨h.1, h.2.1, h.2.2.1, h.2.2.2⟩, fun h => ⟨h.wf, h.ints, h.floats, h.depth⟩⟩

theorem Signable.signedPart {j : Json} (h : Signable j) (ig : Option (List String)) :
    (signedPart ig j).WF ∧ (canon (Rxon.signedPart ig j)).IntsFit ∧
      (canon (Rxon.signedPart ig j)).keptDepth ≤ maxRecursionDepth := by
  refine ⟨wf_signedPart h.wf, ?_, ?_⟩
  · rw [← signedPart_canon ig h.wf]
    exact intsFit_signedPart (Json.intsFit_canon.mpr ⟨h.ints, h.floats⟩)
  · rw [Json.keptDepth_canon]
    exact keptDepth_signedPart h.depth

section
variable {D : Decls} (rt : Runtime D) (crypto : Crypto rt.orjson.Bytes)

/-- The messages of two documents within the limits agree exactly when what is
signed of them is equivalent. -/
theorem payloadMessage_eq_iff {x y : Json} (hx : Signable x) (hy : Signable y)
    (ig : Option (List String)) :
    payloadMessage rt x.toPy ig = payloadMessage rt y.toPy ig ↔
      Json.Equiv (signedPart ig x) (signedPart ig y) := by
  obtain ⟨hwx, hix, hdx⟩ := hx.signedPart ig
  obtain ⟨hwy, hiy, hdy⟩ := hy.signedPart ig
  rw [Json.equiv_iff_canon_eq hwx hwy, payloadMessage_toPy rt ig hx.wf hx.ints hx.depth,
    payloadMessage_toPy rt ig hy.wf hy.ints hy.depth]
  refine ⟨fun h => ?_, fun h => by rw [h]⟩
  obtain ⟨b, hb⟩ := (encode_isOk_iff rt hdx).mpr hix
  exact rt.orjson.encode_inj hb (h ▸ hb)

theorem payloadMessage_isOk {x : Json} (hx : Signable x) (ig : Option (List String)) :
    ∃ m, payloadMessage rt x.toPy ig = .ok m := by
  obtain ⟨-, hix, hdx⟩ := hx.signedPart ig
  rw [payloadMessage_toPy rt ig hx.wf hx.ints hx.depth]
  exact (encode_isOk_iff rt hdx).mpr hix

/-- The normal form of a document within the limits is written. -/
theorem encode_canon_isOk {x : Json} (hx : Signable x) :
    ∃ b, rt.orjson.encode (canon x) = .ok b := by
  have hdepth : (canon x).keptDepth ≤ maxRecursionDepth := by
    rw [Json.keptDepth_canon]
    exact hx.depth
  exact (encode_isOk_iff rt hdepth).mpr (Json.intsFit_canon.mpr ⟨hx.ints, hx.floats⟩)

/-- The message `calculate_dict_hash` digests. -/
theorem calculateDictHash_of_toDict {v : PyVal} {j : Json} (hj : j.WF)
    (h : toDict rt v 0 = .ok (canon j)) :
    calculateDictHash rt v = (rt.orjson.encode (canon j)).map rt.sha256 := by
  have hstep : calculateDictHash rt v =
      (rt.orjson.dumps true Orjson.noDefault (canon j).toPy).map rt.sha256 := by
    rw [calculateDictHash, h]; rfl
  rw [hstep, Orjson.dumps_toPy, if_pos rfl, Json.sortKeys_canon hj]

/-- The text `json_dumps` returns. -/
theorem jsonDumps_of_toDict {v : PyVal} {j : Json} (h : toDict rt v 0 = .ok (canon j)) :
    jsonDumps rt v = rt.orjson.encode (canon j) := by
  have hstep : jsonDumps rt v = rt.orjson.dumps false Orjson.noDefault (canon j).toPy := by
    rw [jsonDumps, h]; rfl
  rw [hstep, Orjson.dumps_toPy, if_neg Bool.false_ne_true]

theorem signPayload_of_message {v : PyVal} {secret : String} {ig : Option (List String)}
    {m : rt.orjson.Bytes} (hs : secret ≠ "") (h : payloadMessage rt v ig = .ok m) :
    signPayload rt crypto v secret ig = .ok (crypto.hmac secret m) := by
  rw [signPayload, if_neg hs, h]; rfl

theorem signPayloadEd25519_of_message {v : PyVal} {pem : String} {ig : Option (List String)}
    {m : rt.orjson.Bytes} {key : crypto.PrivateKey} (hp : pem ≠ "")
    (hk : crypto.loadPrivateKey pem = .ok (some key)) (h : payloadMessage rt v ig = .ok m) :
    signPayloadEd25519 rt crypto v pem ig = .ok (crypto.sign key m) := by
  rw [signPayloadEd25519, if_neg hp, h]
  simp only [bind, Except.bind, hk]

theorem verifySignatureEd25519_of_message {v : PyVal} {sig pem : String}
    {ig : Option (List String)} {m : rt.orjson.Bytes} {key : crypto.PublicKey} (hg : sig ≠ "")
    (hp : pem ≠ "") (hk : crypto.loadPublicKey pem = .ok (some key))
    (h : payloadMessage rt v ig = .ok m) :
    verifySignatureEd25519 rt crypto v sig pem ig = .ok (crypto.verify key sig m) := by
  rw [verifySignatureEd25519, if_neg (by simp [hg, hp]), h]
  simp only [bind, Except.bind, hk]

/-- **Digests and signatures identify a document up to the normalization.**  Two
documents within the limits have the same hash exactly when they are equivalent,
and the same signature, as well as the same message signed and verified with
Ed25519, exactly when what is signed of them is equivalent. -/
theorem digests_identify {x y : Json} (hx : Signable x) (hy : Signable y) {secret : String}
    (hs : secret ≠ "") (ig : Option (List String))
    (hsha : ∀ m m', rt.orjson.encode (canon x) = .ok m → rt.orjson.encode (canon y) = .ok m' →
      rt.sha256 m = rt.sha256 m' → m = m')
    (hhmac : ∀ m m', payloadMessage rt x.toPy ig = .ok m → payloadMessage rt y.toPy ig = .ok m' →
      crypto.hmac secret m = crypto.hmac secret m' → m = m') :
    (calculateDictHash rt x.toPy = calculateDictHash rt y.toPy ↔ Json.Equiv x y) ∧
    (signPayload rt crypto x.toPy secret ig = signPayload rt crypto y.toPy secret ig ↔
      Json.Equiv (signedPart ig x) (signedPart ig y)) ∧
    ∃ m m',
      (m = m' ↔ Json.Equiv (signedPart ig x) (signedPart ig y)) ∧
      (∀ pem key, pem ≠ "" → crypto.loadPrivateKey pem = .ok (some key) →
        signPayloadEd25519 rt crypto x.toPy pem ig = .ok (crypto.sign key m) ∧
        signPayloadEd25519 rt crypto y.toPy pem ig = .ok (crypto.sign key m')) ∧
      ∀ sig pem key, sig ≠ "" → pem ≠ "" → crypto.loadPublicKey pem = .ok (some key) →
        verifySignatureEd25519 rt crypto x.toPy sig pem ig = .ok (crypto.verify key sig m) ∧
        verifySignatureEd25519 rt crypto y.toPy sig pem ig = .ok (crypto.verify key sig m') := by
  have hmsg := payloadMessage_eq_iff rt hx hy ig
  obtain ⟨m, hm⟩ := payloadMessage_isOk rt hx ig
  obtain ⟨m', hm'⟩ := payloadMessage_isOk rt hy ig
  rw [hm, hm', Except.ok.injEq] at hmsg
  refine ⟨?_, ?_, m, m', hmsg, fun pem key hp hk => ?_, fun sig pem key hg hp hk => ?_⟩
  · -- the hash is that of the normal form's text
    obtain ⟨b, hb⟩ := encode_canon_isOk rt hx
    obtain ⟨b', hb'⟩ := encode_canon_isOk rt hy
    rw [calculateDictHash_of_toDict rt hx.wf (toDict_ok rt hx.wf hx.ints hx.depth),
      calculateDictHash_of_toDict rt hy.wf (toDict_ok rt hy.wf hy.ints hy.depth),
      Json.equiv_iff_canon_eq hx.wf hy.wf]
    refine ⟨fun h => ?_, fun h => by rw [h]⟩
    rw [hb, hb'] at h
    have hbb : b = b' := hsha b b' hb hb' (Except.ok.inj h)
    exact rt.orjson.encode_inj hb (hbb ▸ hb')
  · rw [signPayload_of_message rt crypto hs hm, signPayload_of_message rt crypto hs hm', ← hmsg,
      Except.ok.injEq]
    exact ⟨hhmac m m' hm hm', fun h => by rw [h]⟩
  · exact ⟨signPayloadEd25519_of_message rt crypto hp hk hm,
      signPayloadEd25519_of_message rt crypto hp hk hm'⟩
  · exact ⟨verifySignatureEd25519_of_message rt crypto hg hp hk hm,
      verifySignatureEd25519_of_message rt crypto hg hp hk hm'⟩

end

/-! A pair that differs by a null entry and by a float spelled `1.0`: the digests are
those of `{"a":1}`. -/

def Runtime.tight : Runtime [] :=
  Runtime.reference [] fun _ => "015abd7f5cc57a2dd94b7590f04ad8084273905ee33ec5cebeae62276a97f862"

def Crypto.tight : Crypto Json :=
  Crypto.reference Json
    (fun _ _ => "c3a92ff9e274cdcce27a58c15a78ec6dcbbdbd0038a87e7a11baef2028fd8bff")
    (fun _ _ => by decide) (fun _ _ => by decide)

theorem loose_equiv_tight :
    Json.Equiv (.obj [("a", .float (Binary64.ofInt 1)), ("gone", .null)]) (.obj [("a", .int 1)]) :=
  (Json.Equiv.dropNull [("a", .float (Binary64.ofInt 1))] [] "gone" (by decide)).trans
    (.entry [] [] "a" (.integral (by decide +kernel)))

theorem digests_identify_loose_tight :
    calculateDictHash Runtime.tight
        (Json.obj [("a", .float (Binary64.ofInt 1)), ("gone", .null)]).toPy =
      calculateDictHash Runtime.tight (Json.obj [("a", .int 1)]).toPy :=
  have hsame := loose_equiv_tight.canon_eq
  have hx : Signable (.obj [("a", .float (Binary64.ofInt 1)), ("gone", .null)]) := by
    decide +kernel
  have hy : Signable (.obj [("a", .int 1)]) := by decide +kernel
  ((digests_identify Runtime.tight Crypto.tight hx hy (by decide : "k" ≠ "") none
    (fun m m' h h' _ => Except.ok.inj (by rw [← h, ← h', hsame]))
    (fun m m' h h' _ => Except.ok.inj (by
      rw [← h, ← h', (payloadMessage_eq_iff Runtime.tight hx hy none).mpr
        loose_equiv_tight]))).1).mpr
    loose_equiv_tight

section
variable {D : Decls} (rt : Runtime D) (crypto : Crypto rt.orjson.Bytes)

/-- **A document the reader can produce is hashed, signed, written and normalized
again without an exception exactly when its integral doubles fit 64 bits.** -/
theorem serializes_iff {x : Json} (hw : x.WF) (hi : x.IntsFit)
    (hd : x.keptDepth ≤ maxRecursionDepth) {secret : String} (hs : secret ≠ "")
    (ig : Option (List String)) :
    ((∃ s, signPayload rt crypto x.toPy secret ig = .ok s) ∧
      (∃ h, calculateDictHash rt x.toPy = .ok h) ∧
      (∃ text, jsonDumps rt x.toPy = .ok text) ∧
      ∃ data, toDict rt x.toPy 0 = .ok data ∧ ∃ data', toDict rt data.toPy 0 = .ok data') ↔
      x.FloatsFit := by
  have hdict := toDict_ok rt hw hi hd
  have hdc : (canon x).keptDepth ≤ maxRecursionDepth := by rwa [Json.keptDepth_canon]
  constructor
  · rintro ⟨-, -, ⟨text, htext⟩, -⟩
    rw [jsonDumps_of_toDict rt hdict] at htext
    exact (Json.intsFit_canon.mp ((encode_isOk_iff rt hdc).mp ⟨text, htext⟩)).2
  · intro hf
    have hic : (canon x).IntsFit := Json.intsFit_canon.mpr ⟨hi, hf⟩
    obtain ⟨m, hm⟩ := payloadMessage_isOk rt ⟨hw, hi, hf, hd⟩ ig
    obtain ⟨b, hb⟩ := (encode_isOk_iff rt hdc).mpr hic
    refine ⟨⟨_, signPayload_of_message rt crypto hs hm⟩, ⟨rt.sha256 b, ?_⟩, ⟨b, ?_⟩, canon x,
      hdict, _, toDict_ok rt (Json.wf_canon hw) hic hdc⟩
    · rw [calculateDictHash_of_toDict rt hw hdict, hb]; rfl
    · rw [jsonDumps_of_toDict rt hdict, hb]

end

/-- A double that is an integer of the encoder's range does no harm. -/
theorem serializes_iff_integral :
    (∃ s, signPayload Runtime.tight Crypto.tight
      (Json.obj [("a", .float (Binary64.ofInt 1))]).toPy "k" none = .ok s) ∧
    ∃ text, jsonDumps Runtime.tight (Json.obj [("a", .float (Binary64.ofInt 1))]).toPy =
      .ok text := by
  obtain ⟨hsign, -, htext, -⟩ :=
    (serializes_iff Runtime.tight Crypto.tight (x := .obj [("a", .float (Binary64.ofInt 1))])
      (by decide +kernel) (by decide +kernel) (by decide) (by decide : "k" ≠ "") none).mpr
        (by decide +kernel)
  exact ⟨hsign, htext⟩

/-- `1e20` is read from the network and normalized, but the integer it becomes is
not written. -/
theorem jsonDumps_1e20 :
    Json.WF (.float (Binary64.ofInt (10 ^ 20))) ∧ Json.IntsFit (.float (Binary64.ofInt (10 ^ 20))) ∧
      toDict Runtime.tight (Json.float (Binary64.ofInt (10 ^ 20))).toPy 0 = .ok (.int (10 ^ 20)) ∧
      jsonDumps Runtime.tight (Json.float (Binary64.ofInt (10 ^ 20))).toPy =
        .error (.typeError "Integer exceeds 64-bit range") := by
  have hholds : (Binary64.ofInt (10 ^ 20)).Holds (10 ^ 20) := by decide +kernel
  have hdict : toDict Runtime.tight (Json.float (Binary64.ofInt (10 ^ 20))).toPy 0 =
      .ok (canon (.float (Binary64.ofInt (10 ^ 20)))) :=
    toDict_ok Runtime.tight (by decide +kernel) (by decide +kernel) (Nat.zero_le _)
  refine ⟨by decide +kernel, by decide +kernel, ?_, ?_⟩
  · rw [hdict, Json.canon_float_of_holds hholds]
  · rw [jsonDumps_of_toDict Runtime.tight hdict, Json.canon_float_of_holds hholds]
    exact Runtime.tight.orjson.encode_range _ (by decide) (by decide)
end Rxon
