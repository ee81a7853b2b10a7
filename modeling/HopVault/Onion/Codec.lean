import HopVault.Onion.Exit
import HopVault.Onion.KeyExchange

/-! # What the readers make of written messages

    Every message the code writes is read back by its receiver as the
    message itself, with text coerced to UTF-8. The same holds of two
    readings the code does not intend but does not prevent: an exit layer
    read as an exit response, and an exit response read as an exit layer. -/

namespace HopVault

open Framework Framework.Json Framework.Utf8

/-! ## Requests and answers between hops -/

@[simp] theorem wf_onionRequest (r : OnionRequest) : Wf r.json :=
  ⟨trivial, wf_ofBytes r.payload, trivial⟩

@[simp] theorem wf_onionResponse (r : OnionResponse) : Wf r.json := ⟨wf_ofBytes r.payload, trivial⟩

@[simp] theorem wf_layer (l : Layer) : Wf l.json := ⟨trivial, wf_ofBytes l.payload, trivial⟩

@[simp] theorem wf_keySetupRequest (r : KeySetupRequest) : Wf r.json := ⟨trivial, trivial, trivial⟩

/-- A handler reads a written `OnionRequest`. -/
@[simp] theorem decode_onionRequest (r : OnionRequest) :
    decodeStream OnionRequest.fields .zero r.json.encode =
      some ⟨toValid r.circuitID, r.payload⟩ := by
  have h := decodeStream_encode OnionRequest.fields .zero (wf_onionRequest r)
    numEnd_nil
  rw [List.append_nil] at h
  rw [h, OnionRequest.json, fill_obj, fillMembers_known rfl rfl,
    fillMembers_known rfl (by simp [RecordField.of]; rfl)]
  rfl

/-- A caller reads a written `OnionResponse` with its line end. -/
@[simp] theorem decode_onionAnswer (ct : Bytes) :
    decodeStream OnionResponse.fields .zero (onionAnswer ct).body = some ⟨ct⟩ := by
  have h := decodeStream_encode OnionResponse.fields .zero
    (wf_onionResponse ⟨ct⟩) (numEnd_cons (b := 10) (by decide) [])
  show decodeStream _ _ ((OnionResponse.json ⟨ct⟩).encode ++ [10]) = _
  rw [h, OnionResponse.json, fill_obj, fillMembers_known rfl (by simp [RecordField.of]; rfl)]
  rfl

/-- A node reads a written `KeySetupRequest`. -/
@[simp] theorem decode_keySetupRequest (circuitID ct : Bytes) :
    decodeStream KeySetupRequest.fields .zero
        (KeySetupRequest.json ⟨circuitID, Base64.encode ct⟩).encode =
      some ⟨toValid circuitID, Base64.encode ct⟩ := by
  have h := decodeStream_encode KeySetupRequest.fields .zero
    (wf_keySetupRequest ⟨circuitID, Base64.encode ct⟩) numEnd_nil
  rw [List.append_nil] at h
  rw [h, KeySetupRequest.json, fill_obj, fillMembers_known rfl rfl, fillMembers_known rfl rfl]
  simp

/-- A hop reads a written `Layer`. -/
@[simp] theorem unmarshal_layer (l : Layer) :
    unmarshal Layer.fields .zero l.json.encode = some ⟨toValid l.nextHop, l.payload⟩ := by
  rw [unmarshal_encode (wf_layer l), Layer.json, fill_obj, fillMembers_known rfl rfl,
    fillMembers_known rfl (by simp [RecordField.of]; rfl)]
  rfl

/-! ## Exit layers and exit responses -/

/-- An exit layer as its reader gets it. -/
def ExitLayer.coerced (l : ExitLayer) : ExitLayer :=
  ⟨toValid l.url, toValid l.method, coercedMap l.headers, l.body⟩

/-- An exit response as its reader gets it. -/
def ExitResponse.coerced (r : ExitResponse) : ExitResponse :=
  ⟨r.statusCode, coercedMap r.headers, r.body⟩

@[simp] theorem wf_exitLayer (l : ExitLayer) : Wf l.json :=
  ⟨trivial, trivial, wfMembers_append (wfMembers_omitEmpty (wf_ofStringMap l.headers))
    (wfMembers_omitEmpty (wf_ofBytes l.body))⟩

@[simp] theorem wf_exitResponse (r : ExitResponse) : Wf r.json :=
  ⟨wf_ofInt _, wfMembers_append (wfMembers_omitEmpty (wf_ofStringMap r.headers))
    (wfMembers_omitEmpty (wf_ofBytes r.body))⟩

/-- A map without entries. -/
theorem coercedMap_of_isEmpty {m : SortedMap Bytes Bytes} (h : m.entries.isEmpty = true) :
    coercedMap m = .empty := by
  rw [coercedMap, List.isEmpty_iff.mp h]
  rfl

/-- The exit node reads a written `ExitLayer`. -/
@[simp] theorem unmarshal_exitLayer (l : ExitLayer) :
    unmarshal ExitLayer.fields .zero l.json.encode = some l.coerced := by
  rw [unmarshal_encode (wf_exitLayer l), ExitLayer.json, fill_obj, List.append_assoc,
    List.cons_append, List.cons_append, List.nil_append]
  rw [fillMembers_known rfl rfl, fillMembers_known rfl rfl]
  rw [fillMembers_omitEmpty (b := ⟨toValid l.url, toValid l.method, coercedMap l.headers, []⟩)
    rfl (fun h => by rw [coercedMap_of_isEmpty h]; rfl) (by simp [RecordField.of, ExitLayer.zero])]
  rw [← List.append_nil (omitEmpty _ l.body.isEmpty _)]
  rw [fillMembers_omitEmpty (b := l.coerced) rfl
    (fun h => by rw [ExitLayer.coerced, List.isEmpty_iff.mp h])
    (by simp [RecordField.of, ExitLayer.coerced])]
  rfl

/-- The exit node reads an encrypted `ExitLayer` that names a URL and a
    method. -/
theorem unwrapExitLayer_of_decrypt {X : Externals} {key ct : Bytes} {l : ExitLayer}
    (hdec : decrypt X key ct = .ok l.json.encode)
    (hne : ¬(l.coerced.url = [] ∨ l.coerced.method = [])) :
    unwrapExitLayer X key ct = .ok l.coerced := by
  simp only [unwrapExitLayer, hdec, unmarshal_exitLayer, if_neg hne]

/-- The client reads a written `ExitResponse`. -/
@[simp] theorem unmarshal_exitResponse (r : ExitResponse) :
    unmarshal ExitResponse.fields .zero r.json.encode = some r.coerced := by
  rw [unmarshal_encode (wf_exitResponse r), ExitResponse.json, fill_obj, List.append_assoc,
    List.cons_append, List.nil_append]
  rw [fillMembers_known (b := ⟨r.statusCode, .empty, []⟩) rfl
    (by simp [RecordField.of, ExitResponse.zero])]
  rw [fillMembers_omitEmpty (b := ⟨r.statusCode, coercedMap r.headers, []⟩) rfl
    (fun h => by rw [coercedMap_of_isEmpty h]) (by simp [RecordField.of])]
  rw [← List.append_nil (omitEmpty _ r.body.isEmpty _)]
  rw [fillMembers_omitEmpty (b := r.coerced) rfl
    (fun h => by rw [ExitResponse.coerced, List.isEmpty_iff.mp h])
    (by simp [RecordField.of, ExitResponse.coerced])]
  rfl

/-- The client reads an exit layer that is sent back to it as a response
    with status 0: the URL and the method are skipped as unknown members. -/
theorem unmarshal_exitLayer_as_response (l : ExitLayer) :
    unmarshal ExitResponse.fields .zero l.json.encode = some ⟨0, coercedMap l.headers, l.body⟩ := by
  rw [unmarshal_encode (wf_exitLayer l), ExitLayer.json, fill_obj, List.append_assoc,
    List.cons_append, List.cons_append, List.nil_append]
  rw [fillMembers_unknown rfl, fillMembers_unknown rfl]
  rw [fillMembers_omitEmpty (b := ⟨0, coercedMap l.headers, []⟩) rfl
    (fun h => by rw [coercedMap_of_isEmpty h]; rfl) (by simp [RecordField.of, ExitResponse.zero])]
  rw [← List.append_nil (omitEmpty _ l.body.isEmpty _)]
  rw [fillMembers_omitEmpty (b := ⟨0, coercedMap l.headers, l.body⟩) rfl
    (fun h => by rw [List.isEmpty_iff.mp h]) (by simp [RecordField.of])]
  rfl

/-- The exit node reads its own response as a layer without a URL. -/
theorem unmarshal_exitResponse_as_layer (r : ExitResponse) :
    unmarshal ExitLayer.fields .zero r.json.encode = some ⟨[], [], coercedMap r.headers, r.body⟩ := by
  rw [unmarshal_encode (wf_exitResponse r), ExitResponse.json, fill_obj, List.append_assoc,
    List.cons_append, List.nil_append]
  rw [fillMembers_unknown rfl]
  rw [fillMembers_omitEmpty (b := ⟨[], [], coercedMap r.headers, []⟩) rfl
    (fun h => by rw [coercedMap_of_isEmpty h]; rfl) (by simp [RecordField.of, ExitLayer.zero])]
  rw [← List.append_nil (omitEmpty _ r.body.isEmpty _)]
  rw [fillMembers_omitEmpty (b := ⟨[], [], coercedMap r.headers, r.body⟩) rfl
    (fun h => by rw [List.isEmpty_iff.mp h]) (by simp [RecordField.of])]
  rfl

/-- A forwarding hop reads an exit layer as a layer without a next hop. -/
theorem unmarshal_exitLayer_as_layer (l : ExitLayer) :
    unmarshal Layer.fields .zero l.json.encode = some .zero := by
  rw [unmarshal_encode (wf_exitLayer l), ExitLayer.json, fill_obj, List.append_assoc,
    List.cons_append, List.cons_append, List.nil_append]
  rw [fillMembers_unknown rfl, fillMembers_unknown rfl, fillMembers_omitEmpty_unknown rfl,
    ← List.append_nil (omitEmpty _ l.body.isEmpty _), fillMembers_omitEmpty_unknown rfl]
  rfl

/-! ## Requests read by the wrong handler -/

/-- A set-up request read as an onion request has no payload. -/
theorem decode_keySetupRequest_as_onion (r : KeySetupRequest) :
    decodeStream OnionRequest.fields .zero r.json.encode = some ⟨toValid r.circuitID, []⟩ := by
  have h := decodeStream_encode OnionRequest.fields .zero
    (wf_keySetupRequest r) numEnd_nil
  rw [List.append_nil] at h
  rw [h, KeySetupRequest.json, fill_obj, fillMembers_known rfl rfl, fillMembers_unknown rfl]
  rfl

/-- A set-up request read as a key request has no key. -/
theorem decode_keySetupRequest_as_key (r : KeySetupRequest) :
    decodeStream KeyRequest.fields .zero r.json.encode = some ⟨toValid r.circuitID, []⟩ := by
  have h := decodeStream_encode KeyRequest.fields .zero (wf_keySetupRequest r) numEnd_nil
  rw [List.append_nil] at h
  rw [h, KeySetupRequest.json, fill_obj, fillMembers_known rfl rfl, fillMembers_unknown rfl]
  rfl

/-- An onion request read as a set-up request has no key. -/
theorem decode_onionRequest_as_setup (r : OnionRequest) :
    decodeStream KeySetupRequest.fields .zero r.json.encode = some ⟨toValid r.circuitID, []⟩ := by
  have h := decodeStream_encode KeySetupRequest.fields .zero (wf_onionRequest r) numEnd_nil
  rw [List.append_nil] at h
  rw [h, OnionRequest.json, fill_obj, fillMembers_known rfl rfl, fillMembers_unknown rfl]
  rfl

/-- An onion request read as a key request has no key. -/
theorem decode_onionRequest_as_key (r : OnionRequest) :
    decodeStream KeyRequest.fields .zero r.json.encode = some ⟨toValid r.circuitID, []⟩ := by
  have h := decodeStream_encode KeyRequest.fields .zero (wf_onionRequest r) numEnd_nil
  rw [List.append_nil] at h
  rw [h, OnionRequest.json, fill_obj, fillMembers_known rfl rfl, fillMembers_unknown rfl]
  rfl

/-! ## The circuit a request names -/

/-- Whichever handler reads the body, it reads the circuit ID `circuitID`. -/
structure NamesCircuit (body circuitID : Bytes) : Prop where
  onion : ∀ r, decodeStream OnionRequest.fields .zero body = some r → r.circuitID = circuitID
  setup : ∀ r, decodeStream KeySetupRequest.fields .zero body = some r → r.circuitID = circuitID
  key : ∀ r, decodeStream KeyRequest.fields .zero body = some r → r.circuitID = circuitID

theorem namesCircuit_onionRequest (r : OnionRequest) :
    NamesCircuit r.json.encode (toValid r.circuitID) := by
  constructor
  · intro q hq
    rw [decode_onionRequest, Option.some.injEq] at hq
    rw [← hq]
  · intro q hq
    rw [decode_onionRequest_as_setup, Option.some.injEq] at hq
    rw [← hq]
  · intro q hq
    rw [decode_onionRequest_as_key, Option.some.injEq] at hq
    rw [← hq]

theorem namesCircuit_keySetupRequest (circuitID ct : Bytes) :
    NamesCircuit (KeySetupRequest.json ⟨circuitID, Base64.encode ct⟩).encode (toValid circuitID) := by
  constructor
  · intro q hq
    rw [decode_keySetupRequest_as_onion, Option.some.injEq] at hq
    rw [← hq]
  · intro q hq
    rw [decode_keySetupRequest, Option.some.injEq] at hq
    rw [← hq]
  · intro q hq
    rw [decode_keySetupRequest_as_key, Option.some.injEq] at hq
    rw [← hq]

/-- No handler reads a session key in the body. -/
structure CarriesNoKey (body : Bytes) : Prop where
  setup : ∀ r, decodeStream KeySetupRequest.fields .zero body = some r → r.encryptedKey = []
  key : ∀ r, decodeStream KeyRequest.fields .zero body = some r → r.key = []

theorem carriesNoKey_onionRequest (r : OnionRequest) : CarriesNoKey r.json.encode := by
  constructor
  · intro q hq
    rw [decode_onionRequest_as_setup, Option.some.injEq] at hq
    rw [← hq]
  · intro q hq
    rw [decode_onionRequest_as_key, Option.some.injEq] at hq
    rw [← hq]

/-! ## Reading a layer -/

variable {X : Externals}

variable (X) in
/-- The payload decrypts to a layer that says where to forward what. -/
structure Forwards (key payload : Bytes) (layer : Layer) : Prop where
  reads : ∃ plaintext, decrypt X key payload = .ok plaintext ∧
    unmarshal Layer.fields .zero plaintext = some layer
  nextHop : layer.nextHop ≠ []
  payload : layer.payload ≠ []

variable (X) in
/-- The payload decrypts to a layer that says what to request. -/
structure Requests (key payload : Bytes) (layer : ExitLayer) : Prop where
  reads : ∃ plaintext, decrypt X key payload = .ok plaintext ∧
    unmarshal ExitLayer.fields .zero plaintext = some layer
  url : layer.url ≠ []
  method : layer.method ≠ []

/-- `unwrapLayer` reads forwarding layers. -/
theorem unwrapLayer_eq_ok {key payload : Bytes} {layer : Layer} :
    unwrapLayer X key payload = .ok layer ↔ Forwards X key payload layer := by
  unfold unwrapLayer
  constructor
  · intro h
    cases hdec : decrypt X key payload with
    | error err =>
      rw [hdec] at h
      cases h
    | ok plaintext =>
      rw [hdec] at h
      dsimp only at h
      cases hread : unmarshal Layer.fields .zero plaintext with
      | none =>
        rw [hread] at h
        cases h
      | some l =>
        rw [hread] at h
        dsimp only at h
        split_ifs at h with hne
        cases h
        exact ⟨⟨plaintext, hdec, hread⟩, fun h => hne (.inl h), fun h => hne (.inr h)⟩
  · intro h
    obtain ⟨⟨plaintext, hdec, hread⟩, hhop, hpayload⟩ := h
    have hne : ¬(layer.nextHop = [] ∨ layer.payload = []) := fun h => h.elim hhop hpayload
    simp only [hdec, hread, if_neg hne]

/-- `unwrapExitLayer` reads exit layers. -/
theorem unwrapExitLayer_eq_ok {key payload : Bytes} {layer : ExitLayer} :
    unwrapExitLayer X key payload = .ok layer ↔ Requests X key payload layer := by
  unfold unwrapExitLayer
  constructor
  · intro h
    cases hdec : decrypt X key payload with
    | error err =>
      rw [hdec] at h
      cases h
    | ok plaintext =>
      rw [hdec] at h
      dsimp only at h
      cases hread : unmarshal ExitLayer.fields .zero plaintext with
      | none =>
        rw [hread] at h
        cases h
      | some l =>
        rw [hread] at h
        dsimp only at h
        split_ifs at h with hne
        cases h
        exact ⟨⟨plaintext, hdec, hread⟩, fun h => hne (.inl h), fun h => hne (.inr h)⟩
  · intro h
    obtain ⟨⟨plaintext, hdec, hread⟩, hurl, hmethod⟩ := h
    have hne : ¬(layer.url = [] ∨ layer.method = []) := fun h => h.elim hurl hmethod
    simp only [hdec, hread, if_neg hne]

/-- A forwarding layer that a client wrote unwraps to itself. -/
theorem unwrapLayer_layer {key payload nextHop inner : Bytes}
    (hdec : decrypt X key payload = .ok (Layer.json ⟨nextHop, inner⟩).encode) (hhop : nextHop ≠ [])
    (hvalid : Valid nextHop) (hinner : inner ≠ []) :
    unwrapLayer X key payload = .ok ⟨nextHop, inner⟩ := by
  refine unwrapLayer_eq_ok.mpr ⟨⟨_, hdec, ?_⟩, hhop, hinner⟩
  have htext : toValid nextHop = nextHop := hvalid
  rw [unmarshal_layer, htext]

/-- An exit layer is no forwarding layer: it has no next hop. -/
theorem unwrapLayer_exitLayer {key payload : Bytes} {layer : ExitLayer}
    (hdec : decrypt X key payload = .ok layer.json.encode) :
    unwrapLayer X key payload = .error (lit "layer must include nextHop and payload") := by
  simp only [unwrapLayer, hdec, unmarshal_exitLayer_as_layer]
  exact if_pos (.inl rfl)

/-- A circuit ID arrives, and a handler that asks for it and for a
    ciphertext finds both. -/
theorem not_missing {circuitID payload : Bytes} (hcid : circuitID ≠ []) (hpayload : payload ≠ []) :
    ¬(toValid circuitID = [] ∨ payload = []) := by
  rw [toValid_eq_nil]
  intro h
  exact h.elim hcid hpayload

end HopVault
