import HopVault.Client
import HopVault.Python.Json

/-! # The Python client

    `experiments/locust/circuit_client.py`: fetching a circuit, the key
    exchange, building and sending the onion, peeling the answer, and the
    driver that tries again. What `json.loads` returns is kept as a `Json`
    value, an object with the meaning of a `dict`: of members with one
    name the last counts.

    An exception is its text (`str(exc)`), since `execute_circuit` catches
    every kind and uses the text only. Times are in the unit of the clock;
    the code reports milliseconds. -/

namespace HopVault.Python

open Framework Framework.Utf8 Framework.Json

/-! ## Values -/

/-- What the client takes from the libraries `requests` and `cryptography`,
    and from the interpreter where floating-point numbers or texts of its
    exceptions are concerned. The ciphers are those of `Externals`. -/
structure Libs where
  /-- The URL `requests` prepares, with the query parameter `hops`. -/
  prepareURL : (url : Bytes) → (hops : Int) → Bytes
  /-- `Response.json` of a body. -/
  responseJson : Bytes → Option Json
  /-- `Response.text` of a body. -/
  responseText : Bytes → Bytes
  /-- `serialization.load_pem_public_key`, when the key is an RSA key. -/
  loadPublicKey : Bytes → Option PublicKey
  /-- `str` of a floating-point number. -/
  formatFloat : Bytes → Bytes
  /-- A floating-point number is zero. -/
  floatIsZero : Bytes → Bool
  /-- `repr` of a list or a dict. -/
  repr : Json → Bytes
  /-- The text of the exception a failing operation raises for a value. -/
  raised : (operation : String) → Json → Bytes

variable (P : Libs)

/-- A number without fraction and exponent is an `int`. -/
def isInt (l : Bytes) : Bool := l.all fun b => Decimal.isDigit b || b == 45

/-- The value of a member of a dict. -/
def member (ms : List (Bytes × Json)) (name : Bytes) : Option Json :=
  (ms.reverse.find? fun m => m.1 == name).map (·.2)

/-- `value.get(name, default)`. -/
def dictGet (value : Json) (name : String) (default : Json) : Result Json :=
  match value with
  | obj ms => .ok ((member ms (lit name)).getD default)
  | value => .error (P.raised "get" value)

/-- `value[name]`. -/
def subscript (value : Json) (name : String) : Result Json :=
  match value with
  | obj ms =>
    match member ms (lit name) with
    | some v => .ok v
    | none => .error (lit "'" ++ lit name ++ lit "'")
  | value => .error (P.raised "subscript" value)

/-- `bool(value)`. -/
def truth : Json → Bool
  | null => false
  | .bool b => b
  | num l => if isInt l then l != lit "0" && l != lit "-0" else !P.floatIsZero l
  | str s => !s.isEmpty
  | arr xs => !xs.isEmpty
  | obj ms => !ms.isEmpty

/-- A value inside an f-string. -/
def format : Json → Bytes
  | null => lit "None"
  | .bool true => lit "True"
  | .bool false => lit "False"
  | num l => if isInt l then if l = lit "-0" then lit "0" else l else P.formatFloat l
  | str s => s
  | j => P.repr j

/-- The first `n` characters of a string. -/
def takeChars (n : Nat) (s : Bytes) : Bytes := ((segs s).take n).flatMap Seg.octets

variable (X : Externals)

/-! ## AES-256-GCM helpers -/

/-- `AESGCM(key)`, where the key may be missing. -/
def aesgcm (key : Option Bytes) : Result Bytes :=
  match key with
  | none => .error (P.raised "AESGCM" null)
  | some key =>
    if key.length = 16 ∨ key.length = 24 ∨ key.length = 32 then .ok key
    else .error (lit "AESGCM key must be 128, 192, or 256 bits.")

/-- Encrypt plaintext with AES-256-GCM; returns nonce and ciphertext. -/
def aesEncrypt (key : Option Bytes) (plaintext : Bytes) : Go (Result Bytes) := do
  let nonce ← perform (.rand nonceSize)
  match aesgcm P key with
  | .error exc => return .error exc
  | .ok key => return .ok (nonce.1 ++ X.gcmSeal key nonce.1 plaintext)

/-- Decrypt what `aesEncrypt` produced; `InvalidTag` has no text. -/
def aesDecrypt (key : Option Bytes) (data : Bytes) : Result Bytes :=
  if data.length < nonceSize then .error (lit "ciphertext too short")
  else
    match aesgcm P key with
    | .error exc => .error exc
    | .ok key =>
      match X.gcmOpen key (data.take nonceSize) (data.drop nonceSize) with
      | none => .error []
      | some plaintext => .ok plaintext

/-! ## RSA OAEP helpers -/

/-- The public key in a PEM text, which has to be a string that UTF-8 can
    encode. -/
def loadPublicKey (pem : Json) : Result PublicKey :=
  match pem with
  | str s =>
    if toValid s = s then
      match P.loadPublicKey s with
      | some pub => .ok pub
      | none => .error (P.raised "load_pem_public_key" pem)
    else .error (P.raised "encode" pem)
  | pem => .error (P.raised "encode" pem)

/-- RSA-OAEP-SHA256 encrypt an AES key with the node's public key. -/
def rsaEncryptKey (publicKeyPem : Json) (aesKey : Bytes) : Go (Result Bytes) :=
  match loadPublicKey P publicKeyPem with
  | .error exc => return .error exc
  | .ok pub => do
    let seed ← perform (.rand oaepSeedSize)
    match X.encryptOAEP pub seed.1 aesKey with
    | .error _ => return .error (P.raised "encrypt" publicKeyPem)
    | .ok ct => return .ok ct

/-! ## Directory and circuit helpers -/

/-- `circuit.get(hop, {}).get("nodeId")` is true. -/
def hasNode (circuit : Json) (hop : String) : Result Bool := do
  let node ← dictGet P circuit hop (obj [])
  let id ← dictGet P node "nodeId" null
  return truth P id

/-- The nodes a circuit has to have. -/
def checkCircuit (circuit : Json) (hops : Int) : Result Json := do
  if !(← hasNode P circuit "guard") then
    throw (lit "directory returned circuit with missing guard")
  if hops = 3 then
    if !(← hasNode P circuit "relay") then
      throw (lit "directory returned incomplete 3-hop circuit")
    if !(← hasNode P circuit "exit") then
      throw (lit "directory returned incomplete 3-hop circuit")
  return circuit

/-- `GET /circuit?hops=N` from the directory server. -/
def getCircuit (directoryURL : Bytes) (hops : Int) : Go (Result Json) := do
  match ← perform (.httpGet (P.prepareURL (directoryURL ++ lit "/circuit") hops)) with
  | .error exc => return .error exc
  | .ok resp =>
    if 400 ≤ resp.statusCode ∧ resp.statusCode < 600 then
      return .error (P.raised "raise_for_status" (ofInt resp.statusCode))
    else
      match P.responseJson resp.body with
      | none => return .error (P.raised "json" (str resp.body))
      | some circuit => return checkCircuit P circuit hops

/-! ## Key exchange -/

/-- `f"{node['host']}:{node['port']}"`. -/
def nodeAddr (node : Json) : Result Bytes := do
  let host ← subscript P node "host"
  let port ← subscript P node "port"
  return format P host ++ lit ":" ++ format P port

def nodeURL (node : Json) : Result Bytes := do
  let addr ← nodeAddr P node
  return lit "http://" ++ addr

/-- The exception for an answer with an unexpected status. -/
def unexpectedStatus (url : Bytes) (resp : Response) : Bytes :=
  lit "POST " ++ url ++ lit " returned " ++ Decimal.itoa resp.statusCode ++ lit ": " ++
    takeChars 200 (P.responseText resp.body)

/-- RSA-encrypt the key and POST it to the node's `/setup`. -/
def sendSetupKey (nodeURL circuitID : Bytes) (publicKeyPem : Json) (aesKey : Bytes) :
    Go (Result Unit) := do
  match ← rsaEncryptKey P X publicKeyPem aesKey with
  | .error exc => return .error exc
  | .ok encrypted =>
    let body := obj [(lit "circuitId", str circuitID),
      (lit "encryptedKey", str (Base64.encode encrypted))]
    match ← clientPost (nodeURL ++ lit "/setup") (dumps body) with
    | .error exc => return .error exc
    | .ok resp =>
      if resp.statusCode ≠ 204 then
        return .error (unexpectedStatus P (nodeURL ++ lit "/setup") resp)
      else return .ok ()

/-- The session keys of a circuit; a 1-hop circuit has only the first. -/
structure Keys where
  guardKey : Bytes
  relayKey : Option Bytes
  exitKey : Option Bytes
  deriving DecidableEq, Repr

/-- Fresh session keys. -/
def generateKeys (hops : Int) : Go Keys := do
  let guardKey ← perform (.rand 32)
  if hops = 3 then do
    let relayKey ← perform (.rand 32)
    let exitKey ← perform (.rand 32)
    return ⟨guardKey.1, some relayKey.1, some exitKey.1⟩
  else return ⟨guardKey.1, none, none⟩

/-- The nodes that are sent a key, with the key. -/
def candidates (circuit : Json) (keys : Keys) (hops : Int) : Result (List (Json × Bytes)) := do
  let guard ← subscript P circuit "guard"
  if hops = 3 then
    let relay ← subscript P circuit "relay"
    let exit ← subscript P circuit "exit"
    return [(guard, keys.guardKey), (relay, keys.relayKey.getD []), (exit, keys.exitKey.getD [])]
  else return [(guard, keys.guardKey)]

/-- The URL of a node and its public key. -/
def nodeContact (node : Json) : Result (Bytes × Json) := do
  let url ← nodeURL P node
  let pem ← subscript P node "publicKey"
  return (url, pem)

/-- The loop over the nodes and their keys. -/
def setupCandidates (circuitID : Bytes) : List (Json × Bytes) → Go (Result Unit)
  | [] => return .ok ()
  | (node, key) :: rest =>
    match nodeContact P node with
    | .error exc => return .error exc
    | .ok (url, pem) => do
      match ← sendSetupKey P X url circuitID pem key with
      | .error exc => return .error exc
      | .ok () => setupCandidates circuitID rest

/-- Generate fresh session keys and send each to its node. -/
def setupCircuit (circuit : Json) (circuitID : Bytes) (hops : Int) : Go (Result Keys) := do
  let keys ← generateKeys hops
  match candidates P circuit keys hops with
  | .error exc => return .error exc
  | .ok nodes =>
    match ← setupCandidates P X circuitID nodes with
    | .error exc => return .error exc
    | .ok () => return .ok keys

/-! ## Onions -/

/-- A layer with the address of the next hop and an inner ciphertext. -/
def layerJson (nextHop payload : Bytes) : Json :=
  obj [(lit "nextHop", str nextHop), (lit "payload", str (Base64.encode payload))]

/-- The addresses of the relay and the exit. -/
def hopAddresses (circuit : Json) : Result (Bytes × Bytes) := do
  let relayNode ← subscript P circuit "relay"
  let exitNode ← subscript P circuit "exit"
  let exitAddr ← nodeAddr P exitNode
  let relayAddr ← nodeAddr P relayNode
  return (relayAddr, exitAddr)

/-- Wrap the exit layer in onion-encrypted layers. -/
def buildOnion (keys : Keys) (exitLayer circuit : Json) (hops : Int) : Go (Result Bytes) :=
  let exitJSON := dumpsCompact exitLayer
  if hops = 1 then aesEncrypt P X (some keys.guardKey) exitJSON
  else do
    match ← aesEncrypt P X keys.exitKey exitJSON with
    | .error exc => return .error exc
    | .ok exitCT =>
      match hopAddresses P circuit with
      | .error exc => return .error exc
      | .ok (relayAddr, exitAddr) =>
        match ← aesEncrypt P X keys.relayKey (dumpsCompact (layerJson exitAddr exitCT)) with
        | .error exc => return .error exc
        | .ok relayCT =>
          aesEncrypt P X (some keys.guardKey) (dumpsCompact (layerJson relayAddr relayCT))

/-- POST the onion payload to the guard's `/onion`. -/
def sendOnion (guardURL circuitID payload : Bytes) : Go (Result Json) := do
  let body := obj [(lit "circuitId", str circuitID), (lit "payload", str (Base64.encode payload))]
  match ← clientPost (guardURL ++ lit "/onion") (dumps body) with
  | .error exc => return .error exc
  | .ok resp =>
    if resp.statusCode ≠ 200 then
      return .error (unexpectedStatus P (guardURL ++ lit "/onion") resp)
    else
      match P.responseJson resp.body with
      | none => return .error (P.raised "json" (str resp.body))
      | some onionResp => return .ok onionResp

/-- `base64.b64decode` of a value. -/
def decodePayload (payloadB64 : Json) : Result Bytes :=
  match payloadB64 with
  | str s =>
    match b64decode s with
    | some data => .ok data
    | none => .error (P.raised "b64decode" payloadB64)
  | payloadB64 => .error (P.raised "b64decode" payloadB64)

/-- `json.loads` of a plaintext. -/
def loadPlain (plain : Bytes) : Result Json :=
  match loads plain with
  | some value => .ok value
  | none => .error (P.raised "loads" (str plain))

/-- Peel onion layers from the circuit response. -/
def decryptResponse (keys : Keys) (payloadB64 : Json) (hops : Int) : Result Json := do
  let data ← decodePayload P payloadB64
  if hops = 1 then
    let plain ← aesDecrypt P X (some keys.guardKey) data
    loadPlain P plain
  else
    let relayEncrypted ← aesDecrypt P X (some keys.guardKey) data
    let exitEncrypted ← aesDecrypt P X keys.relayKey relayEncrypted
    let exitJSON ← aesDecrypt P X keys.exitKey exitEncrypted
    loadPlain P exitJSON

/-! ## Whole attempts -/

/-- What a circuit returns: the response, and the times the set-up and the
    request took. -/
structure Timed where
  exitResp : Json
  setup : Int
  request : Int

/-- The payload of the guard's answer, decrypted. -/
def readAnswer (keys : Keys) (onionResp : Json) (hops : Int) : Result Json := do
  let payload ← subscript P onionResp "payload"
  decryptResponse P X keys payload hops

/-- The URL of the circuit's guard. -/
def guardURL (circuit : Json) : Result Bytes := do
  let guard ← subscript P circuit "guard"
  nodeURL P guard

/-- One full circuit attempt. -/
def tryCircuit (directoryURL circuitID : Bytes) (exitLayer : Json) (hops : Int) :
    Go (Result Timed) := do
  match ← getCircuit P directoryURL hops with
  | .error exc => return .error exc
  | .ok circuit =>
    let t0 ← perform .now
    match ← setupCircuit P X circuit circuitID hops with
    | .error exc => return .error exc
    | .ok keys =>
      let setupDone ← perform .now
      match ← buildOnion P X keys exitLayer circuit hops with
      | .error exc => return .error exc
      | .ok payload =>
        match guardURL P circuit with
        | .error exc => return .error exc
        | .ok url =>
          let t1 ← perform .now
          perform (.mark .sending)
          match ← sendOnion P url circuitID payload with
          | .error exc => return .error exc
          | .ok onionResp =>
            let requestDone ← perform .now
            match readAnswer P X keys onionResp hops with
            | .error exc => return .error exc
            | .ok exitResp => return .ok ⟨exitResp, setupDone - t0, requestDone - t1⟩

/-- `MAX_CIRCUIT_ATTEMPTS`. -/
def maxCircuitAttempts : Nat := 3

/-- The loop of `execute_circuit`; `left` attempts remain. -/
def circuitAttempts (directoryURL circuitID : Bytes) (exitLayer : Json) (hops : Int) :
    (left : Nat) → (lastErr : Bytes) → Go (Result Timed)
  | 0, lastErr => return .error (lit "all " ++ Decimal.itoa maxCircuitAttempts ++
      lit " circuit attempts failed: " ++ lastErr)
  | left + 1, _ => do
    match ← tryCircuit P X directoryURL circuitID exitLayer hops with
    | .ok result => return .ok result
    | .error exc => circuitAttempts directoryURL circuitID exitLayer hops left exc

/-- Run the full circuit flow. -/
def executeCircuit (directoryURL circuitID : Bytes) (exitLayer : Json) (hops : Int) :
    Go (Result Timed) :=
  circuitAttempts P X directoryURL circuitID exitLayer hops maxCircuitAttempts (lit "None")

end HopVault.Python
