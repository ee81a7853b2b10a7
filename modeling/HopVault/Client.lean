import HopVault.Onion.Exit
import HopVault.Onion.KeyExchange

/-! # The client

    `client/client.go`: fetching a circuit from the directory, the key
    exchange with its hops, building and sending the onion, peeling the
    answer, the retry loop around them and the proactive rebuild. -/

namespace HopVault

open Framework Framework.Json

/-! ## Directory answers -/

/-- A node as the directory reports it; `lastSeen` is in nanoseconds. -/
structure NodeRecord where
  nodeID : Bytes
  nodeType : Bytes
  host : Bytes
  port : Int64
  publicKey : Bytes
  lastSeen : Int
  status : Bytes
  deriving DecidableEq, Repr

/-- The directory's `GET /circuit` response. -/
structure CircuitResponse where
  guard : NodeRecord
  relay : NodeRecord
  exit : NodeRecord
  deriving DecidableEq, Repr

/-- The directory's `GET /nodes` response. -/
structure NodesResponse where
  guard : List NodeRecord
  relay : List NodeRecord
  exit : List NodeRecord
  deriving DecidableEq, Repr

variable (X : Externals)

namespace NodeRecord

/-- The zero `time.Time`: the beginning of the year 1. -/
def zeroTime : Int := -62135596800 * 10 ^ 9

def zero : NodeRecord := ⟨[], [], [], 0, [], zeroTime, []⟩

/-- `time.Time` read from a value; `cur` is what the variable holds. -/
def asTime : Json → Int → Option Int
  | .null, cur => some cur
  | .str s, _ => X.parseTime s
  | _, _ => none

def fields : List (RecordField NodeRecord) :=
  [.of "nodeId" asString (·.nodeID) (fun v r => { r with nodeID := v }),
   .of "nodeType" asString (·.nodeType) (fun v r => { r with nodeType := v }),
   .of "host" asString (·.host) (fun v r => { r with host := v }),
   .of "port" asInt64 (·.port) (fun v r => { r with port := v }),
   .of "publicKey" asString (·.publicKey) (fun v r => { r with publicKey := v }),
   .of "lastSeen" (asTime X) (·.lastSeen) (fun v r => { r with lastSeen := v }),
   .of "status" asString (·.status) (fun v r => { r with status := v })]

end NodeRecord

namespace CircuitResponse

def zero : CircuitResponse := ⟨.zero, .zero, .zero⟩

def fields : List (RecordField CircuitResponse) :=
  let node := fill false (NodeRecord.fields X)
  [.of "guard" node (·.guard) (fun v r => { r with guard := v }),
   .of "relay" node (·.relay) (fun v r => { r with relay := v }),
   .of "exit" node (·.exit) (fun v r => { r with exit := v })]

end CircuitResponse

namespace NodesResponse

def zero : NodesResponse := ⟨[], [], []⟩

def fields : List (RecordField NodesResponse) :=
  let nodes := asList (fill false (NodeRecord.fields X)) .zero
  [.of "guard" nodes (·.guard) (fun v r => { r with guard := v }),
   .of "relay" nodes (·.relay) (fun v r => { r with relay := v }),
   .of "exit" nodes (·.exit) (fun v r => { r with exit := v })]

end NodesResponse

/-- `fmt.Sprintf("http://%s:%d", host, port)`. -/
def NodeRecord.nodeURL (n : NodeRecord) : Bytes :=
  lit "http://" ++ n.host ++ lit ":" ++ Decimal.itoa n.port.toInt

/-- `fmt.Sprintf("%s:%d", host, port)`. -/
def NodeRecord.addr (n : NodeRecord) : Bytes :=
  n.host ++ lit ":" ++ Decimal.itoa n.port.toInt

def validateHops (hops : Int) : Result Unit :=
  if hops = 1 ∨ hops = 3 then .ok () else .error (lit "hops must be 1 or 3")

def circuitHopAddresses (circuit : CircuitResponse) (hops : Int) : Bytes × Bytes :=
  if hops ≠ 3 then ([], []) else (circuit.relay.addr, circuit.exit.addr)

def httpStatusError (action : Bytes) (resp : Response) : Bytes :=
  let message := trimSpace resp.body
  if message = [] then action ++ lit " returned " ++ Decimal.itoa resp.statusCode
  else action ++ lit " returned " ++ Decimal.itoa resp.statusCode ++ lit ": " ++ message

/-! ## Fetching from the directory -/

/-- Fetches a circuit for the requested hop count. -/
def getCircuitWithHops (directoryURL : Bytes) (hops : Int) : Go (Result CircuitResponse) :=
  match validateHops hops with
  | .error err => return .error err
  | .ok () => do
    let circuitURL := directoryURL ++ lit "/circuit?hops=" ++ Decimal.itoa hops
    match ← perform (.httpGet circuitURL) with
    | .error err => return .error (lit "GET " ++ circuitURL ++ lit ": " ++ err)
    | .ok resp =>
      if resp.statusCode ≠ statusOK then
        return .error (httpStatusError (lit "GET " ++ circuitURL) resp)
      else
        match decodeStream (CircuitResponse.fields X) .zero resp.body with
        | none => return .error (wrap "decode circuit response" (X.jsonError resp.body))
        | some circuit =>
          if circuit.guard.nodeID = [] then
            return .error (lit "decode circuit response: guard node missing")
          else if hops = 3 ∧ (circuit.relay.nodeID = [] ∨ circuit.exit.nodeID = []) then
            return .error
              (lit "decode circuit response: relay or exit node missing for 3-hop circuit")
          else return .ok circuit

/-- Fetches the current healthy node list. -/
def getHealthyNodes (directoryURL : Bytes) : Go (Result NodesResponse) := do
  let nodesURL := directoryURL ++ lit "/nodes"
  match ← perform (.httpGet nodesURL) with
  | .error err => return .error (lit "GET " ++ nodesURL ++ lit ": " ++ err)
  | .ok resp =>
    if resp.statusCode ≠ statusOK then
      return .error (httpStatusError (lit "GET " ++ nodesURL) resp)
    else
      match decodeStream (NodesResponse.fields X) .zero resp.body with
      | none => return .error (wrap "decode nodes response" (X.jsonError resp.body))
      | some nodes => return .ok nodes

/-! ## Key exchange -/

/-- The session keys of a circuit; a single-hop circuit has only the first. -/
structure SessionKeys where
  guardKey : Bytes
  relayKey : Bytes
  exitKey : Bytes
  deriving DecidableEq, Repr

/-- The length of an AES-256 key. -/
def sessionKeySize : Nat := 32

/-- RSA-OAEP encrypts `key` with `pub` and posts it to the node. -/
def sendSetupKey (nodeURL circuitID : Bytes) (pub : PublicKey) (key : Bytes) :
    Go (Result Unit) := do
  match ← encryptKey X pub key with
  | .error err => return .error (wrap "encrypt key" err)
  | .ok ct =>
    perform (.mark (.posting nodeURL key))
    match ← clientPost (nodeURL ++ lit "/setup")
      (KeySetupRequest.json ⟨circuitID, Base64.encode ct⟩).encode with
    | .error err => return .error (lit "POST /setup to " ++ nodeURL ++ lit ": " ++ err)
    | .ok resp =>
      if resp.statusCode ≠ statusNoContent then
        return .error (httpStatusError (lit "POST /setup to " ++ nodeURL) resp)
      else return .ok ()

/-- The loop over the nodes and their keys. -/
def setupCandidates (circuitID : Bytes) : List (NodeRecord × Bytes) → Go (Result Unit)
  | [] => return .ok ()
  | (node, key) :: rest =>
    match parsePublicKey X node.publicKey with
    | .error err =>
      return .error (lit "parse public key for node " ++ node.nodeID ++ lit ": " ++ err)
    | .ok pub => do
      match ← sendSetupKey X node.nodeURL circuitID pub key with
      | .error err => return .error (lit "setup key for node " ++ node.nodeID ++ lit ": " ++ err)
      | .ok () => setupCandidates circuitID rest

/-- The nodes of a circuit with the keys drawn for them, in set-up order. -/
def candidates (circuit : CircuitResponse) (keys : SessionKeys) (hops : Int) :
    List (NodeRecord × Bytes) :=
  if hops = 3 then
    [(circuit.guard, keys.guardKey), (circuit.relay, keys.relayKey), (circuit.exit, keys.exitKey)]
  else [(circuit.guard, keys.guardKey)]

/-- Fresh keys for the requested hop count. -/
def generateKeys (hops : Int) : Go SessionKeys := do
  let guardKey ← perform (.rand sessionKeySize)
  if hops = 3 then do
    let relayKey ← perform (.rand sessionKeySize)
    let exitKey ← perform (.rand sessionKeySize)
    return ⟨guardKey.1, relayKey.1, exitKey.1⟩
  else return ⟨guardKey.1, [], []⟩

/-- Establishes session keys for the requested hop count. -/
def setupCircuitWithHops (circuitID : Bytes) (circuit : CircuitResponse) (hops : Int) :
    Go (Result SessionKeys) :=
  match validateHops hops with
  | .error err => return .error err
  | .ok () => do
    let keys ← generateKeys hops
    match ← setupCandidates X circuitID (candidates circuit keys hops) with
    | .error err => return .error err
    | .ok () => return .ok keys

/-! ## Onions -/

/-- A layer around an inner ciphertext, encrypted. -/
def wrapLayer (key nextHop payload : Bytes) (name : String) : Go (Result Bytes) := do
  match ← encrypt X key (Layer.json ⟨nextHop, payload⟩).encode with
  | .error err => return .error (wrap ("encrypt " ++ name ++ " layer") err)
  | .ok ct => return .ok ct

/-- Constructs a hop-count-specific onion payload. -/
def buildOnionWithHops (keys : SessionKeys) (exitLayer : ExitLayer) (relayAddr exitAddr : Bytes)
    (hops : Int) : Go (Result Bytes) :=
  match validateHops hops with
  | .error err => return .error err
  | .ok () => do
    let layerKey := if hops = 1 then keys.guardKey else keys.exitKey
    match ← encrypt X layerKey exitLayer.json.encode with
    | .error err => return .error (wrap "encrypt exit layer" err)
    | .ok exitCT =>
      if hops = 1 then return .ok exitCT
      else
        match ← wrapLayer X keys.relayKey exitAddr exitCT "relay" with
        | .error err => return .error err
        | .ok relayCT => wrapLayer X keys.guardKey relayAddr relayCT "guard"

/-- The innermost step of `DecryptResponseWithHops`. -/
def unmarshalExitResponse (text : Bytes) : Result ExitResponse :=
  match unmarshal ExitResponse.fields .zero text with
  | none => .error (wrap "unmarshal ExitResponse" (X.jsonError text))
  | some resp => .ok resp

/-- Peels the onion response according to the requested hop count. -/
def decryptResponseWithHops (keys : SessionKeys) (payload : Bytes) (hops : Int) :
    Result ExitResponse :=
  match validateHops hops with
  | .error err => .error err
  | .ok () =>
    if hops = 1 then
      match decrypt X keys.guardKey payload with
      | .error err => .error (wrap "decrypt guard layer" err)
      | .ok exitRespJSON => unmarshalExitResponse X exitRespJSON
    else
      match decrypt X keys.guardKey payload with
      | .error err => .error (wrap "decrypt guard layer" err)
      | .ok relayEncrypted =>
        match decrypt X keys.relayKey relayEncrypted with
        | .error err => .error (wrap "decrypt relay layer" err)
        | .ok exitEncrypted =>
          match decrypt X keys.exitKey exitEncrypted with
          | .error err => .error (wrap "decrypt exit layer" err)
          | .ok exitRespJSON => unmarshalExitResponse X exitRespJSON

/-- Sends the onion payload to the guard and returns the response. -/
def sendOnion (guardURL circuitID payload : Bytes) : Go (Result OnionResponse) := do
  match ← clientPost (guardURL ++ lit "/onion") (OnionRequest.json ⟨circuitID, payload⟩).encode with
  | .error err => return .error (lit "POST /onion to " ++ guardURL ++ lit ": " ++ err)
  | .ok resp =>
    if resp.statusCode ≠ statusOK then
      return .error (httpStatusError (lit "POST /onion to " ++ guardURL) resp)
    else
      match decodeStream OnionResponse.fields .zero resp.body with
      | none => return .error (wrap "decode onion response" (X.jsonError resp.body))
      | some onionResp => return .ok onionResp

end HopVault
