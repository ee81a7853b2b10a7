import HopVault.Directory.Registry

/-! # The directory server

    The handlers of `directory-server/main.go` that nodes call. A handler
    gets the clock reading it makes as an argument. -/

namespace HopVault.Directory

open Framework Framework.Json Framework.Utf8

/-! ## Wire formats -/

namespace NodeRegistration

def zero : NodeRegistration := ⟨[], [], [], 0, []⟩

/-- The members of a registration, as an object of its own or as part of a
    record. -/
def members (n : NodeRegistration) : List (Bytes × Json) :=
  [(lit "nodeId", str n.nodeID), (lit "nodeType", str n.nodeType), (lit "host", str n.host),
    (lit "port", ofInt n.port.toInt), (lit "publicKey", str n.publicKey)]

def fields : List (RecordField NodeRegistration) :=
  [.of "nodeId" asString (·.nodeID) (fun v r => { r with nodeID := v }),
   .of "nodeType" asString (·.nodeType) (fun v r => { r with nodeType := v }),
   .of "host" asString (·.host) (fun v r => { r with host := v }),
   .of "port" asInt64 (·.port) (fun v r => { r with port := v }),
   .of "publicKey" asString (·.publicKey) (fun v r => { r with publicKey := v })]

end NodeRegistration

/-- A record; `formatTime` is how `time.Time` is written. -/
def NodeRecord.json (formatTime : Int → Bytes) (r : NodeRecord) : Json :=
  obj (r.registration.members ++
    [(lit "lastSeen", str (formatTime r.lastSeen)), (lit "status", str r.status.text)])

/-- `writeJSON`. -/
def writeJSON (status : Int) (payload : Json) : Response := ⟨status, payload.encode ++ [10]⟩

/-- `writeJSONError`. -/
def writeJSONError (status : Int) (message : Bytes) : Response :=
  writeJSON status (obj [(lit "error", str message)])

/-- `decoder.Decode` with `DisallowUnknownFields`, and the text after the
    value. -/
def decodeStrict {α : Type} (fs : List (RecordField α)) (zero : α) (text : Bytes) :
    Option (α × Bytes) :=
  match parsePrefix text with
  | some (j, rest) => (fill true fs j zero).map fun a => (a, rest)
  | none => none

/-- `decoder.More` at the end of a value: something follows that does not
    close an array or an object. -/
def decoderMore (rest : Bytes) : Bool :=
  match skipWs rest with
  | [] => false
  | b :: _ => b != 93 && b != 125

/-! ## Validation -/

def isHexDigit (b : UInt8) : Bool :=
  let x := b.toNat
  decide (48 ≤ x ∧ x ≤ 57 ∨ 97 ≤ x ∧ x ≤ 102 ∨ 65 ≤ x ∧ x ≤ 70)

/-- The loop of `isUUID` from octet position `i` on. A rune is cut to its
    low octet before it is tested. -/
def isUUIDFrom : Nat → List Seg → Bool
  | _, [] => true
  | i, g :: gs =>
    (if i = 8 ∨ i = 13 ∨ i = 18 ∨ i = 23 then g.code == 45 else isHexDigit (UInt8.ofNat g.code)) &&
      isUUIDFrom (i + g.octets.length) gs

def isUUID (value : Bytes) : Bool := value.length == 36 && isUUIDFrom 0 (segs value)

def isValidNodeType (nodeType : Bytes) : Bool :=
  nodeType == lit "guard" || nodeType == lit "relay" || nodeType == lit "exit"

def validateNodeRegistration (node : NodeRegistration) : Result Unit :=
  if trimSpace node.nodeID = [] then .error (lit "nodeId is required")
  else if !isUUID node.nodeID then .error (lit "nodeId must be a valid UUID")
  else if trimSpace node.nodeType = [] then .error (lit "nodeType is required")
  else if !isValidNodeType node.nodeType then
    .error (lit "nodeType must be one of: guard, relay, exit")
  else if trimSpace node.host = [] then .error (lit "host is required")
  else if node.port ≤ 0 ∨ 65535 < node.port then .error (lit "port must be between 1 and 65535")
  else if trimSpace node.publicKey = [] then .error (lit "publicKey is required")
  else .ok ()

theorem validNodeType_of_validate {node : NodeRegistration}
    (h : validateNodeRegistration node = .ok ()) : isValidNodeType node.nodeType = true := by
  unfold validateNodeRegistration at h
  split_ifs at h with _ _ _ htype
  simpa using htype

/-! ## Handlers -/

variable (formatTime : Int → Bytes) (r : NodeRegistry)

def registerHandler (now : Int) (body : Bytes) : Response × NodeRegistry :=
  match decodeStrict NodeRegistration.fields .zero body with
  | none => (writeJSONError statusBadRequest (lit "invalid JSON payload"), r)
  | some (payload, rest) =>
    if decoderMore rest then (writeJSONError statusBadRequest (lit "invalid JSON payload"), r)
    else
      match validateNodeRegistration payload with
      | .error err => (writeJSONError statusBadRequest err, r)
      | .ok () =>
        let (record, r) := r.upsert payload now
        (writeJSON statusCreated (record.json formatTime), r)

def heartbeatHandler (now : Int) (pathValue : Bytes) : Response × NodeRegistry :=
  let nodeID := trimSpace pathValue
  if nodeID = [] then (writeJSONError statusBadRequest (lit "nodeId is required"), r)
  else
    match r.heartbeat nodeID now with
    | (none, r) => (writeJSONError statusNotFound (lit "node not found"), r)
    | (some record, r) => (writeJSON statusOK (record.json formatTime), r)

def deregisterHandler (pathValue : Bytes) : Response × NodeRegistry :=
  let nodeID := trimSpace pathValue
  if nodeID = [] then (writeJSONError statusBadRequest (lit "nodeId is required"), r)
  else
    match r.delete nodeID with
    | (false, r) => (writeJSONError statusNotFound (lit "node not found"), r)
    | (true, r) =>
      (writeJSON statusOK (obj [(lit "nodeId", str nodeID), (lit "status", str (lit "deregistered"))]),
        r)

/-- `cleanupUnhealthyNodes`: the log lines and the registry. -/
def cleanupUnhealthyNodes (order : List (Bytes × NodeRecord)) (now heartbeatTimeout : Int) :
    List Bytes × NodeRegistry :=
  let (transitions, r) := r.markUnhealthy order now heartbeatTimeout
  (transitions.map fun node => lit "[directory-server] node " ++ node.registration.nodeID ++
    lit " transitioned to " ++ Status.unhealthy.text, r)

end HopVault.Directory
