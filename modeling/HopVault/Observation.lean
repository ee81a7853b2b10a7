import HopVault.HonestRun
import HopVault.Framework.Observed

/-! # What the holder of some keys sees

    A node sees all it receives, sends and logs. Of a ciphertext it holds
    no key for it sees the length alone; one it can open it sees into, down
    to the next ciphertext it cannot open. `seeOnion` and `seeAnswer` put
    this in place of a ciphertext, and `View` in place of an interaction.

    Two ciphertexts that are alike but for what is sealed under one key
    look the same to whoever does not hold that key. -/

namespace HopVault

open Framework Framework.Json Framework.Utf8

/-- AES-GCM as an ideal cipher: nothing but the key a ciphertext was sealed
    with opens it, and its length is decided by that of the plaintext. -/
structure Externals.IdealAEAD (X : Externals) : Prop where
  lawful : X.LawfulAEAD
  foreign {key key' nonce : Bytes} (plaintext : Bytes) : newCipher key = .ok () →
    newCipher key' = .ok () → nonce.length = nonceSize → key' ≠ key →
    X.gcmOpen key' nonce (X.gcmSeal key nonce plaintext) = none
  length {key nonce plaintext₁ plaintext₂ : Bytes} : plaintext₁.length = plaintext₂.length →
    (X.gcmSeal key nonce plaintext₁).length = (X.gcmSeal key nonce plaintext₂).length

variable (X : Externals)

/-! ## Ciphertexts -/

/-- What is seen of a ciphertext. -/
inductive Sight where
  /-- The length of what no key opens. -/
  | hidden (length : Nat)
  /-- A layer with its key and nonce, and what is seen of its payload. -/
  | layer (key nonce nextHop : Bytes) (payload : Sight)
  /-- The layer a hop puts around an answer. -/
  | wrapped (key nonce : Bytes) (payload : Sight)
  /-- A plaintext that is no layer. -/
  | opened (key nonce plaintext : Bytes)
  deriving DecidableEq

/-- The first key that opens the ciphertext, and the plaintext. -/
def openedBy (keys : List Bytes) (ct : Bytes) : Option (Bytes × Bytes) :=
  keys.findSome? fun key =>
    match decrypt X key ct with
    | .error _ => none
    | .ok plaintext => some (key, plaintext)

/-- A plaintext that is just the text of a layer. -/
def readLayer (plaintext : Bytes) : Option Layer :=
  match unmarshal Layer.fields .zero plaintext with
  | none => none
  | some layer => if layer.json.encode = plaintext then some layer else none

/-- What is seen of an onion, opening at most `depth` ciphertexts. -/
def seeOnion (keys : List Bytes) : (depth : Nat) → Bytes → Sight
  | 0, ct => .hidden ct.length
  | depth + 1, ct =>
    match openedBy X keys ct with
    | none => .hidden ct.length
    | some (key, plaintext) =>
      match readLayer plaintext with
      | none => .opened key (ct.take nonceSize) plaintext
      | some layer =>
        .layer key (ct.take nonceSize) layer.nextHop (seeOnion keys depth layer.payload)

/-- What is seen of the payload of an answer. -/
def seeAnswer (keys : List Bytes) : (depth : Nat) → Bytes → Sight
  | 0, ct => .hidden ct.length
  | depth + 1, ct =>
    match openedBy X keys ct with
    | none => .hidden ct.length
    | some (key, plaintext) => .wrapped key (ct.take nonceSize) (seeAnswer keys depth plaintext)

/-! ## Messages -/

/-- What is seen of the body of a message. -/
inductive BodySight where
  /-- Just the text of an `OnionRequest`. -/
  | request (circuitID : Bytes) (payload : Sight)
  /-- Just the text of an `OnionResponse`. -/
  | answer (payload : Sight)
  /-- Any other body, in full. -/
  | text (body : Bytes)
  deriving DecidableEq

/-- What is seen of the body of a request in an exchange about `circuitID`,
    which may not be UTF-8 and so not what the body reads as. -/
def seeRequest (circuitID : Bytes) (keys : List Bytes) (depth : Nat) (body : Bytes) : BodySight :=
  match decodeStream OnionRequest.fields .zero body with
  | none => .text body
  | some req =>
    match [circuitID, req.circuitID].find? fun c =>
      (OnionRequest.json ⟨c, req.payload⟩).encode = body with
    | none => .text body
    | some c => .request c (seeOnion X keys depth req.payload)

/-- What is seen of the body of a response. -/
def seeResponse (keys : List Bytes) (depth : Nat) (body : Bytes) : BodySight :=
  match decodeStream OnionResponse.fields .zero body with
  | none => .text body
  | some resp =>
    if (onionAnswer resp.payload).body = body then .answer (seeAnswer X keys depth resp.payload)
    else .text body

/-- What is seen of the outcome of a POST: the error, or the status and the
    body. -/
def seeResult (keys : List Bytes) (depth : Nat) : Result Response → Result (Int × BodySight)
  | .error err => .error err
  | .ok resp => .ok (resp.statusCode, seeResponse X keys depth resp.body)

/-! ## Interactions -/

/-- What a node sees of an interaction of its own. -/
inductive View where
  | received (endpoint : Endpoint) (peer : Bytes) (body : BodySight)
  | answered (peer : Bytes) (body : BodySight)
  | posted (url contentType : Bytes) (body : BodySight) (result : Result (Int × BodySight))
  /-- Anything else, in full: log lines, key look-ups, random bits. -/
  | other (x : Interaction Effects)

/-- What is seen of an interaction. -/
def view (circuitID : Bytes) (keys : List Bytes) (depth : Nat) : Interaction Effects → View
  | .op (.accept (some endpoint) peer body) _ =>
    .received endpoint peer (seeRequest X circuitID keys depth body)
  | .op (.accept none peer body) _ => .answered peer (seeResponse X keys depth body)
  | .rpc q r =>
    .posted q.url q.contentType (seeRequest X circuitID keys depth q.body)
      (seeResult X keys depth r)
  | x => .other x

variable {X} {k : Bytes} {keys : List Bytes} {depth : Nat}

/-! ## Opening -/

/-- The error with which a key refuses a ciphertext of another key. -/
def refusal (key : Bytes) : Bytes :=
  match newCipher key with
  | .error err => wrap "create cipher" err
  | .ok () => wrap "decrypt" (lit "cipher: message authentication failed")

/-- A ciphertext opens with its key, and any other key refuses it. -/
theorem decrypt_seal (hX : X.IdealAEAD) {key nonce : Bytes} (hkey : newCipher key = .ok ())
    (hnonce : nonce.length = nonceSize) (plaintext key' : Bytes) :
    decrypt X key' (nonce ++ X.gcmSeal key nonce plaintext) =
      if key' = key then .ok plaintext else .error (refusal key') := by
  by_cases heq : key' = key
  · rw [if_pos heq, heq]
    exact decrypt_sealed hX.lawful hkey hnonce plaintext
  · rw [if_neg heq]
    unfold decrypt refusal
    cases hkey' : newCipher key' with
    | error err => rfl
    | ok _ =>
      -- long enough to hold a nonce, so the refusal is the cipher's own
      have hlen : ¬(nonce ++ X.gcmSeal key nonce plaintext).length < nonceSize := by
        rw [List.length_append]
        omega
      dsimp only
      rw [if_neg hlen, ← hnonce, List.take_left, List.drop_left,
        hX.foreign plaintext hkey hkey' hnonce heq]

/-- Who holds its key opens a ciphertext, whatever other keys it holds. -/
theorem openedBy_seal (hX : X.IdealAEAD) {key nonce : Bytes} (hkey : newCipher key = .ok ())
    (hnonce : nonce.length = nonceSize) (plaintext : Bytes) :
    openedBy X keys (nonce ++ X.gcmSeal key nonce plaintext) =
      if key ∈ keys then some (key, plaintext) else none := by
  induction keys with
  | nil => rfl
  | cons key' keys ih =>
    unfold openedBy at ih ⊢
    -- the key tried first either is the one of the seal or opens nothing
    rw [List.findSome?_cons, decrypt_seal hX hkey hnonce]
    by_cases heq : key' = key
    · rw [if_pos heq, heq, if_pos List.mem_cons_self]
    · rw [if_neg heq]
      dsimp only
      rw [ih]
      have hmem : key ∈ key' :: keys ↔ key ∈ keys := by
        rw [List.mem_cons]
        exact or_iff_right fun h => heq h.symm
      simp only [hmem]

/-- The text of a layer whose next hop is text is read as the layer. -/
theorem readLayer_json {layer : Layer} (hhop : toValid layer.nextHop = layer.nextHop) :
    readLayer layer.json.encode = some layer := by
  unfold readLayer
  rw [unmarshal_layer, hhop]
  exact if_pos rfl

/-! ## Ciphertexts that are alike -/

variable (X k) in
/-- Two ciphertexts under the key `k` of equal length. -/
structure Sealed (ct₁ ct₂ : Bytes) : Prop where
  cipher : newCipher k = .ok ()
  length : ct₁.length = ct₂.length
  first : ∃ nonce plaintext, nonce.length = nonceSize ∧ ct₁ = nonce ++ X.gcmSeal k nonce plaintext
  second : ∃ nonce plaintext, nonce.length = nonceSize ∧ ct₂ = nonce ++ X.gcmSeal k nonce plaintext

variable (X k) in
/-- Two onions that are alike but for what is under the key `k`. -/
inductive AlikeOnions : Bytes → Bytes → Prop
  | sealed {ct₁ ct₂ : Bytes} (h : Sealed X k ct₁ ct₂) : AlikeOnions ct₁ ct₂
  | layer {key nonce nextHop payload₁ payload₂ : Bytes} (hkey : newCipher key = .ok ())
      (hnonce : nonce.length = nonceSize) (hhop : toValid nextHop = nextHop)
      (h : AlikeOnions payload₁ payload₂) :
      AlikeOnions (nonce ++ X.gcmSeal key nonce (Layer.json ⟨nextHop, payload₁⟩).encode)
        (nonce ++ X.gcmSeal key nonce (Layer.json ⟨nextHop, payload₂⟩).encode)

variable (X k) in
/-- Two payloads of answers that are alike but for what is under `k`. -/
inductive AlikeAnswers : Bytes → Bytes → Prop
  | sealed {ct₁ ct₂ : Bytes} (h : Sealed X k ct₁ ct₂) : AlikeAnswers ct₁ ct₂
  | wrapped {key nonce payload₁ payload₂ : Bytes} (hkey : newCipher key = .ok ())
      (hnonce : nonce.length = nonceSize) (h : AlikeAnswers payload₁ payload₂) :
      AlikeAnswers (nonce ++ X.gcmSeal key nonce payload₁) (nonce ++ X.gcmSeal key nonce payload₂)

variable (X) in
/-- Two layers under `key` that name the same next hop, with payloads that
    are related by `R`. -/
structure Layered (key nextHop : Bytes) (R : Bytes → Bytes → Prop) (ct₁ ct₂ : Bytes) : Prop where
  cipher : newCipher key = .ok ()
  parts : ∃ nonce payload₁ payload₂, nonce.length = nonceSize ∧ R payload₁ payload₂ ∧
    ct₁ = nonce ++ X.gcmSeal key nonce (Layer.json ⟨nextHop, payload₁⟩).encode ∧
    ct₂ = nonce ++ X.gcmSeal key nonce (Layer.json ⟨nextHop, payload₂⟩).encode

theorem Layered.ne_nil {key nextHop : Bytes} {R : Bytes → Bytes → Prop} {ct₁ ct₂ : Bytes}
    (h : Layered X key nextHop R ct₁ ct₂) : ct₁ ≠ [] ∧ ct₂ ≠ [] := by
  obtain ⟨-, nonce, payload₁, payload₂, hnonce, -, rfl, rfl⟩ := h
  have hne : nonce ≠ [] := List.ne_nil_of_length_pos (by rw [hnonce]; decide)
  exact ⟨List.append_ne_nil_of_left_ne_nil hne _, List.append_ne_nil_of_left_ne_nil hne _⟩

theorem Layered.alike {key nextHop : Bytes} {R : Bytes → Bytes → Prop} {ct₁ ct₂ : Bytes}
    (h : Layered X key nextHop R ct₁ ct₂) (hhop : toValid nextHop = nextHop)
    (hR : ∀ ct₁ ct₂, R ct₁ ct₂ → AlikeOnions X k ct₁ ct₂) : AlikeOnions X k ct₁ ct₂ := by
  obtain ⟨hkey, nonce, payload₁, payload₂, hnonce, hpayload, rfl, rfl⟩ := h
  exact .layer hkey hnonce hhop (hR _ _ hpayload)

/-- The length of a layer's text is decided by that of its payload. -/
theorem length_encode_layer {nextHop payload₁ payload₂ : Bytes}
    (h : payload₁.length = payload₂.length) : (Layer.json ⟨nextHop, payload₁⟩).encode.length =
      (Layer.json ⟨nextHop, payload₂⟩).encode.length := by
  simp [Layer.json, encode, encodeMembers, length_encode_ofBytes h]

theorem AlikeOnions.length (hX : X.IdealAEAD) {ct₁ ct₂ : Bytes} (h : AlikeOnions X k ct₁ ct₂) :
    ct₁.length = ct₂.length := by
  induction h with
  | sealed h => exact h.length
  | layer hkey hnonce hhop h ih =>
    rw [List.length_append, List.length_append, hX.length (length_encode_layer ih)]

theorem AlikeAnswers.length (hX : X.IdealAEAD) {ct₁ ct₂ : Bytes} (h : AlikeAnswers X k ct₁ ct₂) :
    ct₁.length = ct₂.length := by
  induction h with
  | sealed h => exact h.length
  | wrapped hkey hnonce h ih => rw [List.length_append, List.length_append, hX.length ih]

theorem Sealed.ne_nil {ct₁ ct₂ : Bytes} (h : Sealed X k ct₁ ct₂) : ct₁ ≠ [] ∧ ct₂ ≠ [] := by
  have hne {nonce : Bytes} (hnonce : nonce.length = nonceSize) : nonce ≠ [] :=
    List.ne_nil_of_length_pos (by rw [hnonce]; decide)
  obtain ⟨-, -, ⟨nonce₁, _, hnonce₁, rfl⟩, nonce₂, _, hnonce₂, rfl⟩ := h
  exact ⟨List.append_ne_nil_of_left_ne_nil (hne hnonce₁) _,
    List.append_ne_nil_of_left_ne_nil (hne hnonce₂) _⟩

/-- Without the key nothing opens what is sealed. -/
theorem Sealed.unopened (hX : X.IdealAEAD) (hk : k ∉ keys) {ct₁ ct₂ : Bytes}
    (h : Sealed X k ct₁ ct₂) : openedBy X keys ct₁ = none ∧ openedBy X keys ct₂ = none := by
  obtain ⟨hkey, -, ⟨nonce₁, plaintext₁, hnonce₁, rfl⟩, nonce₂, plaintext₂, hnonce₂, rfl⟩ := h
  constructor
  · rw [openedBy_seal hX hkey hnonce₁, if_neg hk]
  · rw [openedBy_seal hX hkey hnonce₂, if_neg hk]

/-- Without the key the two onions look the same. -/
theorem AlikeOnions.sight (hX : X.IdealAEAD) (hk : k ∉ keys) {ct₁ ct₂ : Bytes}
    (h : AlikeOnions X k ct₁ ct₂) : seeOnion X keys depth ct₁ = seeOnion X keys depth ct₂ := by
  -- induction on the layers the two onions share; how deep the eyes look is arbitrary
  have hlen := h.length hX
  induction h generalizing depth with
  | sealed h =>
    obtain ⟨hone, htwo⟩ := h.unopened hX hk
    cases depth with
    | zero => simp only [seeOnion, hlen]
    | succ depth => simp only [seeOnion, hone, htwo, hlen]
  | @layer key nonce nextHop payload₁ payload₂ hkey hnonce hhop h ih =>
    cases depth with
    | zero => simp only [seeOnion, hlen]
    | succ depth =>
      simp only [seeOnion, openedBy_seal hX hkey hnonce]
      by_cases hmem : key ∈ keys
      · -- both are opened, and the same holds of their payloads
        have hread (payload : Bytes) : readLayer (Layer.json ⟨nextHop, payload⟩).encode =
            some ⟨nextHop, payload⟩ := readLayer_json hhop
        simp only [if_pos hmem, hread, ih (h.length hX), ← hnonce, List.take_left]
      · simp only [if_neg hmem, hlen]

/-- Without the key the two payloads look the same. -/
theorem AlikeAnswers.sight (hX : X.IdealAEAD) (hk : k ∉ keys) {ct₁ ct₂ : Bytes}
    (h : AlikeAnswers X k ct₁ ct₂) : seeAnswer X keys depth ct₁ = seeAnswer X keys depth ct₂ := by
  -- as for the onions: induction on the wraps that the two answers share
  have hlen := h.length hX
  induction h generalizing depth with
  | sealed h =>
    obtain ⟨hone, htwo⟩ := h.unopened hX hk
    cases depth with
    | zero => simp only [seeAnswer, hlen]
    | succ depth => simp only [seeAnswer, hone, htwo, hlen]
  | @wrapped key nonce payload₁ payload₂ hkey hnonce h ih =>
    cases depth with
    | zero => simp only [seeAnswer, hlen]
    | succ depth =>
      simp only [seeAnswer, openedBy_seal hX hkey hnonce]
      by_cases hmem : key ∈ keys
      · simp only [if_pos hmem, ih (h.length hX), ← hnonce, List.take_left]
      · simp only [if_neg hmem, hlen]

/-! ## Messages that are alike -/

/-- Requests with the same payload read the same when their circuit IDs are
    written the same. -/
theorem encode_onionRequest_iff {c c' payload : Bytes} :
    (OnionRequest.json ⟨c', payload⟩).encode = (OnionRequest.json ⟨c, payload⟩).encode ↔
      quote c' = quote c := by
  simp [OnionRequest.json, encode, encodeMembers]

/-- Onion requests that are alike look the same. -/
theorem AlikeOnions.request (hX : X.IdealAEAD) (hk : k ∉ keys) {ct₁ ct₂ circuitID : Bytes}
    (h : AlikeOnions X k ct₁ ct₂) {c : Bytes} (hc : c = circuitID ∨ c = toValid circuitID) :
    seeRequest X circuitID keys depth (OnionRequest.json ⟨c, ct₁⟩).encode =
      seeRequest X circuitID keys depth (OnionRequest.json ⟨c, ct₂⟩).encode := by
  have hfind : ([circuitID, toValid c].find? fun c' => decide (quote c' = quote c)) ≠ none := by
    intro hnone
    rw [List.find?_eq_none] at hnone
    rcases hc with rfl | rfl
    · exact hnone c (by simp) (by simp)
    · exact hnone _ (List.mem_cons_of_mem _ List.mem_cons_self) (by simp)
  simp only [seeRequest, decode_onionRequest, encode_onionRequest_iff]
  cases hsome : [circuitID, toValid c].find? fun c' => decide (quote c' = quote c) with
  | none => exact absurd hsome hfind
  | some c' => simp only [h.sight hX hk]

/-- Answers with payloads that are alike look the same. -/
theorem AlikeAnswers.response (hX : X.IdealAEAD) (hk : k ∉ keys) {ct₁ ct₂ : Bytes}
    (h : AlikeAnswers X k ct₁ ct₂) : seeResponse X keys depth (onionAnswer ct₁).body =
      seeResponse X keys depth (onionAnswer ct₂).body := by
  simp only [seeResponse, decode_onionAnswer, if_pos trivial, h.sight hX hk]

variable (X k) in
/-- Two results of a POST that are alike but for what is under `k`. -/
inductive AlikeResults : Result Response → Result Response → Prop
  | same (r : Result Response) : AlikeResults r r
  | answers {ct₁ ct₂ : Bytes} (h : AlikeAnswers X k ct₁ ct₂) :
      AlikeResults (.ok (onionAnswer ct₁)) (.ok (onionAnswer ct₂))

/-- Results that are alike look the same. -/
theorem AlikeResults.sight (hX : X.IdealAEAD) (hk : k ∉ keys) {r₁ r₂ : Result Response}
    (h : AlikeResults X k r₁ r₂) : seeResult X keys depth r₁ = seeResult X keys depth r₂ := by
  cases h with
  | same => rfl
  | answers h =>
    simp only [seeResult, h.response hX hk]
    rfl

end HopVault
