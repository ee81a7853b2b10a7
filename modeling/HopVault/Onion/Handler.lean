import HopVault.Onion.Exit

/-! # Forwarding nodes

    The `Handler` of `shared/onion/onion.go`: guard and relay peel one
    layer, forward the inner payload and wrap the answer. A guard may also
    terminate a single-hop circuit. -/

namespace HopVault

open Framework Framework.Json

/-- `POST /key` and `POST /onion` of an onion routing node. -/
structure Handler where
  nodeLabel : Bytes
  allowDirectExit : Bool
  deriving DecidableEq

/-- `NewHandler`. -/
def newHandler (nodeLabel : Bytes) : Handler := ⟨nodeLabel, false⟩

/-- `NewHandlerWithDirectExit`. -/
def newHandlerWithDirectExit (nodeLabel : Bytes) : Handler := ⟨nodeLabel, true⟩

/-- The URL the inner payload is forwarded to. -/
def nextHopURL (nextHop : Bytes) : Bytes := lit "http://" ++ nextHop ++ lit "/onion"

namespace Handler

variable (X : Externals) (h : Handler)

/-- A log line of the node. -/
def log (line : Bytes) : Go Unit := logPrintf (lit "[" ++ h.nodeLabel ++ lit "] " ++ line)

/-- `Handler.HandleKey`. -/
def handleKey (r : ServerRequest) : Go Response := handleKeyAs h.nodeLabel r

/-- The answer when no layer could be peeled. -/
def decryptionFailed (prevHop circuitID err : Bytes) : Go Response := do
  h.log (lit "decryption failed for circuit " ++ circuitID ++ lit " from " ++ prevHop ++
    lit ": " ++ err)
  return httpError "decryption failed" statusBadRequest

/-- The direct-exit fallback; `err` is why the layer could not be peeled. -/
def directExit (prevHop : Bytes) (req : OnionRequest) (key err : Bytes) : Go Response := do
  match ← executeExitPayload X key req.payload with
  | .ok (encrypted, exitLayer) =>
    h.log (lit "circuit " ++ req.circuitID ++ lit ": " ++ prevHop ++ lit " → direct " ++
      exitLayer.method ++ lit " " ++ exitLayer.url)
    return onionAnswer encrypted
  | .error _ => h.decryptionFailed prevHop req.circuitID err

/-- The answer to a request whose payload went to the next hop. -/
def returnPath (key nextHop : Bytes) (resp : Result Response) : Go Response :=
  match resp with
  | .error err => do
    h.log (lit "forward to " ++ nextHop ++ lit " failed: " ++ err)
    return httpError "next hop unreachable" statusBadGateway
  | .ok resp =>
    if resp.statusCode ≠ statusOK then do
      h.log (lit "next hop " ++ nextHop ++ lit " returned " ++ Decimal.itoa resp.statusCode ++
        lit ": " ++ resp.body)
      return httpError "next hop error" statusBadGateway
    else
      match decodeStream OnionResponse.fields OnionResponse.zero resp.body with
      | none => do
        h.log (lit "invalid response from " ++ nextHop ++ lit ": " ++ X.jsonError resp.body)
        return httpError "invalid next hop response" statusBadGateway
      | some nextResp => do
        -- the next hop's answer gets one more encryption layer
        match ← encrypt X key nextResp.payload with
        | .error err =>
          h.log (lit "encrypt response: " ++ err)
          return httpError "internal error" statusInternalServerError
        | .ok encrypted => return onionAnswer encrypted

/-- Forward the inner payload of a peeled layer. -/
def forward (prevHop : Bytes) (req : OnionRequest) (key : Bytes) (layer : Layer) :
    Go Response := do
  -- only the previous and the next hop are logged
  h.log (lit "circuit " ++ req.circuitID ++ lit ": " ++ prevHop ++ lit " → " ++ layer.nextHop)
  let resp ← clientPost (nextHopURL layer.nextHop)
    (OnionRequest.json ⟨req.circuitID, layer.payload⟩).encode
  acceptResponse (nextHopURL layer.nextHop) resp
  h.returnPath X key layer.nextHop resp

/-- The part of `HandleOnion` after the key look-up. -/
def peel (prevHop : Bytes) (req : OnionRequest) (key : Bytes) : Go Response :=
  match unwrapLayer X key req.payload with
  | .error err =>
    if h.allowDirectExit then h.directExit X prevHop req key err
    else h.decryptionFailed prevHop req.circuitID err
  | .ok layer => h.forward X prevHop req key layer

/-- Decrypts the outermost onion layer, forwards the inner payload to the
    next hop, and re-encrypts the response. -/
def handleOnion (r : ServerRequest) : Go Response :=
  if r.method ≠ methodPost then
    return httpError "method not allowed" statusMethodNotAllowed
  else
    let prevHop := r.remoteAddr
    match decodeStream OnionRequest.fields OnionRequest.zero r.body with
    | none => do
      h.log (lit "bad request from " ++ prevHop ++ lit ": " ++ X.jsonError r.body)
      return httpError "invalid JSON" statusBadRequest
    | some req =>
      if req.circuitID = [] ∨ req.payload = [] then do
        h.log (lit "bad request from " ++ prevHop ++ lit ": missing circuitId or payload")
        return httpError "circuitId and payload are required" statusBadRequest
      else do
        match ← perform (.keysGet req.circuitID) with
        | none =>
          h.log (lit "unknown circuit " ++ req.circuitID ++ lit " from " ++ prevHop)
          return httpError "unknown circuit" statusUnauthorized
        | some key => h.peel X prevHop req key

end Handler

end HopVault
