import HopVault.Effects

/-! # Onion layers

    The wire formats of `shared/onion/onion.go`, AES-256-GCM encryption of
    a layer, the unwrapping of one hop, and the `POST /key` handler. -/

namespace HopVault

open Framework Framework.Json

/-! ## Wire formats -/

/-- The JSON body for `POST /onion`. -/
structure OnionRequest where
  circuitID : Bytes
  payload : Bytes
  deriving DecidableEq, Repr

namespace OnionRequest

def zero : OnionRequest := ⟨[], []⟩

def json (r : OnionRequest) : Json :=
  obj [(lit "circuitId", str r.circuitID), (lit "payload", ofBytes r.payload)]

def fields : List (RecordField OnionRequest) :=
  [.of "circuitId" asString (·.circuitID) (fun v r => { r with circuitID := v }),
   .of "payload" asBytes (·.payload) (fun v r => { r with payload := v })]

end OnionRequest

/-- The JSON body returned from `POST /onion`. -/
structure OnionResponse where
  payload : Bytes
  deriving DecidableEq, Repr

namespace OnionResponse

def zero : OnionResponse := ⟨[]⟩

def json (r : OnionResponse) : Json := obj [(lit "payload", ofBytes r.payload)]

def fields : List (RecordField OnionResponse) :=
  [.of "payload" asBytes (·.payload) (fun v r => { r with payload := v })]

end OnionResponse

/-- The plaintext revealed after decrypting one onion layer. -/
structure Layer where
  nextHop : Bytes
  payload : Bytes
  deriving DecidableEq, Repr

namespace Layer

def zero : Layer := ⟨[], []⟩

def json (l : Layer) : Json :=
  obj [(lit "nextHop", str l.nextHop), (lit "payload", ofBytes l.payload)]

def fields : List (RecordField Layer) :=
  [.of "nextHop" asString (·.nextHop) (fun v l => { l with nextHop := v }),
   .of "payload" asBytes (·.payload) (fun v l => { l with payload := v })]

end Layer

/-- The JSON body for `POST /key`; `key` is base64. -/
structure KeyRequest where
  circuitID : Bytes
  key : Bytes
  deriving DecidableEq, Repr

namespace KeyRequest

def zero : KeyRequest := ⟨[], []⟩

def json (r : KeyRequest) : Json :=
  obj [(lit "circuitId", str r.circuitID), (lit "key", str r.key)]

def fields : List (RecordField KeyRequest) :=
  [.of "circuitId" asString (·.circuitID) (fun v r => { r with circuitID := v }),
   .of "key" asString (·.key) (fun v r => { r with key := v })]

end KeyRequest

/-- `json.NewEncoder(w).Encode(OnionResponse{Payload: encrypted})`. -/
def onionAnswer (encrypted : Bytes) : Response :=
  ⟨statusOK, (OnionResponse.json ⟨encrypted⟩).encode ++ [10]⟩

/-! ## Encryption of a layer -/

/-- The length of a GCM nonce. -/
def nonceSize : Nat := 12

/-- `aes.NewCipher`. -/
def newCipher (key : Bytes) : Result Unit :=
  if key.length = 16 ∨ key.length = 24 ∨ key.length = 32 then .ok ()
  else .error (lit "crypto/aes: invalid key size " ++ Decimal.itoa key.length)

variable (X : Externals)

/-- Encrypts plaintext with AES-GCM; the nonce is prepended. -/
def encrypt (key plaintext : Bytes) : Go (Result Bytes) :=
  match newCipher key with
  | .error err => return .error (wrap "create cipher" err)
  | .ok () => do
    let nonce ← perform (.rand nonceSize)
    return .ok (nonce.1 ++ X.gcmSeal key nonce.1 plaintext)

/-- Decrypts AES-GCM ciphertext where the nonce is prepended. -/
def decrypt (key ciphertext : Bytes) : Result Bytes :=
  match newCipher key with
  | .error err => .error (wrap "create cipher" err)
  | .ok () =>
    if ciphertext.length < nonceSize then .error (lit "ciphertext too short")
    else
      match X.gcmOpen key (ciphertext.take nonceSize) (ciphertext.drop nonceSize) with
      | none => .error (wrap "decrypt" (lit "cipher: message authentication failed"))
      | some plaintext => .ok plaintext

/-- Decrypts one onion hop and decodes the next-hop routing metadata plus
    the still-encrypted inner payload. -/
def unwrapLayer (key ciphertext : Bytes) : Result Layer :=
  match decrypt X key ciphertext with
  | .error err => .error (wrap "decrypt onion layer" err)
  | .ok plaintext =>
    match unmarshal Layer.fields Layer.zero plaintext with
    | none => .error (wrap "decode onion layer" (X.jsonError plaintext))
    | some layer =>
      if layer.nextHop = [] ∨ layer.payload = [] then
        .error (lit "layer must include nextHop and payload")
      else .ok layer

/-! ## POST /key -/

/-- The body of both `HandleKey` methods; `label` names the node in the
    log. -/
def handleKeyAs (label : Bytes) (r : ServerRequest) : Go Response :=
  if r.method ≠ methodPost then
    return httpError "method not allowed" statusMethodNotAllowed
  else
    match decodeStream KeyRequest.fields KeyRequest.zero r.body with
    | none => return httpError "invalid JSON" statusBadRequest
    | some req =>
      if req.circuitID = [] ∨ req.key = [] then
        return httpError "circuitId and key are required" statusBadRequest
      else
        match Base64.decode req.key with
        | none => return httpError "key must be valid base64" statusBadRequest
        | some keyBytes =>
          if keyBytes.length ≠ 32 then
            return httpError "key must be 32 bytes for AES-256" statusBadRequest
          else do
            perform (.keysStore req.circuitID keyBytes)
            logPrintf (lit "[" ++ label ++ lit "] session key stored for circuit " ++
              req.circuitID)
            return writeHeader statusNoContent

end HopVault
