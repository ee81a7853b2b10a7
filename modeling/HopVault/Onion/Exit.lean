import HopVault.Onion.Layer

/-! # The exit node

    `shared/onion/exit.go`: the innermost layer, the request it describes,
    and the handler that executes it. -/

namespace HopVault

open Framework Framework.Json

/-! ## Wire formats -/

/-- The plaintext of the innermost onion layer: the HTTP request the exit
    node must execute. -/
structure ExitLayer where
  url : Bytes
  method : Bytes
  headers : SortedMap Bytes Bytes
  body : Bytes
  deriving DecidableEq

namespace ExitLayer

def zero : ExitLayer := ⟨[], [], .empty, []⟩

def json (l : ExitLayer) : Json :=
  obj ([(lit "url", str l.url), (lit "method", str l.method)] ++
    omitEmpty (lit "headers") l.headers.entries.isEmpty (ofStringMap l.headers) ++
    omitEmpty (lit "body") l.body.isEmpty (ofBytes l.body))

def fields : List (RecordField ExitLayer) :=
  [.of "url" asString (·.url) (fun v l => { l with url := v }),
   .of "method" asString (·.method) (fun v l => { l with method := v }),
   .of "headers" asStringMap (·.headers) (fun v l => { l with headers := v }),
   .of "body" asBytes (·.body) (fun v l => { l with body := v })]

end ExitLayer

/-- The HTTP response from the destination. -/
structure ExitResponse where
  statusCode : Int64
  headers : SortedMap Bytes Bytes
  body : Bytes
  deriving DecidableEq

namespace ExitResponse

def zero : ExitResponse := ⟨0, .empty, []⟩

def json (r : ExitResponse) : Json :=
  obj ([(lit "statusCode", ofInt r.statusCode.toInt)] ++
    omitEmpty (lit "headers") r.headers.entries.isEmpty (ofStringMap r.headers) ++
    omitEmpty (lit "body") r.body.isEmpty (ofBytes r.body))

def fields : List (RecordField ExitResponse) :=
  [.of "statusCode" asInt64 (·.statusCode) (fun v r => { r with statusCode := v }),
   .of "headers" asStringMap (·.headers) (fun v r => { r with headers := v }),
   .of "body" asBytes (·.body) (fun v r => { r with body := v })]

end ExitResponse

variable (X : Externals)

/-! ## Executing a request -/

/-- Decrypts the innermost onion layer and decodes the HTTP request. -/
def unwrapExitLayer (key ciphertext : Bytes) : Result ExitLayer :=
  match decrypt X key ciphertext with
  | .error err => .error (wrap "decrypt exit layer" err)
  | .ok plaintext =>
    match unmarshal ExitLayer.fields ExitLayer.zero plaintext with
    | none => .error (wrap "decode exit layer" (X.jsonError plaintext))
    | some layer =>
      if layer.url = [] ∨ layer.method = [] then
        .error (lit "exit layer must include url and method")
      else .ok layer

/-- The request for a layer whose headers are ranged over in `order`. -/
def destRequest (layer : ExitLayer) (order : List (Bytes × Bytes)) : DestRequest :=
  ⟨layer.method, layer.url, setHeaders order, layer.body⟩

/-- The response a destination's answer is turned into. -/
def exitResponse (resp : DestResponse) : ExitResponse :=
  ⟨resp.statusCode, firstValues resp.header, resp.body⟩

def executeExitRequest (layer : ExitLayer) : Go (Result ExitResponse) :=
  match X.newRequest layer.method layer.url with
  | .error err => return .error (wrap "invalid destination request" err)
  | .ok () => do
    let order ← perform (.range layer.headers)
    match ← perform (.clientDo (destRequest layer order.1)) with
    | .unreachable err => return .error (wrap "destination unreachable" err)
    | .broken err => return .error (wrap "failed to read destination response" err)
    | .answered resp => return .ok (exitResponse resp)

def encryptExitResponse (key : Bytes) (resp : ExitResponse) : Go (Result Bytes) := do
  match ← encrypt X key resp.json.encode with
  | .error err => return .error (wrap "internal error: encrypt response" err)
  | .ok encrypted => return .ok encrypted

/-- Decrypts the final onion layer, executes the destination request, and
    returns the encrypted response payload and the layer. -/
def executeExitPayload (key payload : Bytes) : Go (Result (Bytes × ExitLayer)) :=
  match unwrapExitLayer X key payload with
  | .error err => return .error err
  | .ok layer => do
    match ← executeExitRequest X layer with
    | .error err => return .error err
    | .ok exitResp =>
      match ← encryptExitResponse X key exitResp with
      | .error err => return .error err
      | .ok encrypted => return .ok (encrypted, layer)

/-! ## The handlers of the exit node -/

namespace ExitHandler

/-- `ExitHandler.HandleKey`. -/
def handleKey (r : ServerRequest) : Go Response := handleKeyAs (lit "exit") r

/-- The answer to a request that could not be executed, by the text of the
    error. -/
def failureAnswer (err : Bytes) : Response :=
  if contains err (lit "invalid destination request") || contains err (lit "exit layer") then
    httpError "invalid exit layer format" statusBadRequest
  else if contains err (lit "destination unreachable") ||
      contains err (lit "failed to read destination response") then
    httpError "destination unreachable" statusBadGateway
  else httpError "decryption failed" statusBadRequest

/-- The part of `ExitHandler.HandleOnion` after the key look-up. -/
def execute (req : OnionRequest) (key : Bytes) : Go Response := do
  match ← executeExitPayload X key req.payload with
  | .error err =>
    logPrintf (lit "[exit] circuit " ++ req.circuitID ++ lit " failed: " ++ err)
    return failureAnswer err
  | .ok (encrypted, layer) =>
    -- the destination URL is logged, never the client's address
    logPrintf (lit "[exit] circuit " ++ req.circuitID ++ lit " → " ++ layer.method ++ lit " " ++
      layer.url)
    return onionAnswer encrypted

/-- Decrypts the final onion layer, executes the plaintext HTTP request,
    encrypts the response with the session key, and returns it. -/
def handleOnion (r : ServerRequest) : Go Response :=
  if r.method ≠ methodPost then
    return httpError "method not allowed" statusMethodNotAllowed
  else
    match decodeStream OnionRequest.fields OnionRequest.zero r.body with
    | none => do
      logPrintf (lit "[exit] bad request: " ++ X.jsonError r.body)
      return httpError "invalid JSON" statusBadRequest
    | some req =>
      if req.circuitID = [] ∨ req.payload = [] then
        return httpError "circuitId and payload are required" statusBadRequest
      else do
        match ← perform (.keysGet req.circuitID) with
        | none =>
          logPrintf (lit "[exit] unknown circuit " ++ req.circuitID)
          return httpError "unknown circuit" statusUnauthorized
        | some key => execute X req key

end ExitHandler

end HopVault
