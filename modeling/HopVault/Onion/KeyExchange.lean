import HopVault.Onion.Layer

/-! # Key exchange

    `shared/onion/keyexchange.go`: RSA-OAEP transport of a session key and
    the `POST /setup` handler that stores it. -/

namespace HopVault

open Framework Framework.Json

/-- The JSON body for `POST /setup`; `encryptedKey` is base64. -/
structure KeySetupRequest where
  circuitID : Bytes
  encryptedKey : Bytes
  deriving DecidableEq, Repr

namespace KeySetupRequest

def zero : KeySetupRequest := ⟨[], []⟩

def json (r : KeySetupRequest) : Json :=
  obj [(lit "circuitId", str r.circuitID), (lit "encryptedKey", str r.encryptedKey)]

def fields : List (RecordField KeySetupRequest) :=
  [.of "circuitId" asString (·.circuitID) (fun v r => { r with circuitID := v }),
   .of "encryptedKey" asString (·.encryptedKey) (fun v r => { r with encryptedKey := v })]

end KeySetupRequest

/-- The length of the seed OAEP with SHA-256 draws. -/
def oaepSeedSize : Nat := 32

variable (X : Externals)

/-- Encrypts a session key with an RSA public key. -/
def encryptKey (pub : PublicKey) (aesKey : Bytes) : Go (Result Bytes) := do
  let seed ← perform (.rand oaepSeedSize)
  match X.encryptOAEP pub seed.1 aesKey with
  | .error err => return .error (wrap "RSA-OAEP encrypt" err)
  | .ok ct => return .ok ct

/-- Decrypts an RSA-OAEP ciphertext to recover the session key. -/
def decryptKey (priv : PrivateKey) (encrypted : Bytes) : Result Bytes :=
  match X.decryptOAEP priv encrypted with
  | .error err => .error (wrap "RSA-OAEP decrypt" err)
  | .ok pt => .ok pt

theorem decryptKey_eq_ok {priv : PrivateKey} {encrypted key : Bytes} :
    decryptKey X priv encrypted = .ok key ↔ X.decryptOAEP priv encrypted = .ok key := by
  unfold decryptKey
  cases X.decryptOAEP priv encrypted <;> simp

/-- Parses a PKIX PEM-encoded RSA public key. -/
def parsePublicKey (pemStr : Bytes) : Result PublicKey :=
  match X.pemDecode pemStr with
  | none => .error (lit "no PEM block found in public key")
  | some block =>
    match X.parsePKIX block with
    | .error err => .error (wrap "parse PKIX public key" err)
    | .ok (.rsa pub) => .ok pub
    | .ok .other => .error (lit "public key is not RSA")

/-- The handler for `POST /setup`: the key is decrypted with the node's
    private key and stored for the circuit. -/
def handleSetup (priv : PrivateKey) (r : ServerRequest) : Go Response :=
  if r.method ≠ methodPost then
    return httpError "method not allowed" statusMethodNotAllowed
  else
    match decodeStream KeySetupRequest.fields KeySetupRequest.zero r.body with
    | none => return httpError "invalid JSON" statusBadRequest
    | some req =>
      if req.circuitID = [] ∨ req.encryptedKey = [] then
        return httpError "circuitId and encryptedKey are required" statusBadRequest
      else
        match Base64.decode req.encryptedKey with
        | none => return httpError "encryptedKey must be valid base64" statusBadRequest
        | some encrypted =>
          match decryptKey X priv encrypted with
          | .error _ => do
            -- the circuit ID is logged, never key material
            logPrintf (lit "[setup] key decryption failed for circuit " ++ req.circuitID)
            return httpError "key decryption failed" statusBadRequest
          | .ok aesKey =>
            if aesKey.length ≠ 32 then do
              logPrintf (lit "[setup] wrong key length " ++ Decimal.itoa aesKey.length ++
                lit " for circuit " ++ req.circuitID)
              return httpError "decrypted key must be 32 bytes (AES-256)" statusBadRequest
            else do
              perform (.keysStore req.circuitID aesKey)
              logPrintf (lit "[setup] session key established for circuit " ++ req.circuitID)
              return writeHeader statusNoContent

end HopVault
