import HopVault.Client

/-! # The retry loop

    `ExecuteRequestWithRebuildTracking` of `client/client.go`. One attempt
    runs against a fetched circuit and ends in one of three ways: with a
    response, with an error that another circuit may cure, or with an
    error that ends the call. -/

namespace HopVault

open Framework Framework.Json

/-- `DefaultMaxCircuitAttempts`. -/
def defaultMaxCircuitAttempts : Int := 3

/-- Metadata about a circuit rebuild. `rebuildDoneAt` is `none` while it is
    the zero time. -/
structure RebuildEvent where
  timestamp : Int
  attempt : Int
  failedHop : Bytes
  failedNodeID : Bytes
  cause : Bytes
  rebuildDoneAt : Option Int
  rebuildMs : Int
  success : Bool
  deriving DecidableEq, Repr

/-- The response and the rebuild events that occurred. -/
structure CircuitResult where
  response : ExitResponse
  rebuildEvents : List RebuildEvent
  deriving DecidableEq

/-- How an attempt ends. -/
inductive Outcome where
  | retry (err : Bytes)
  | fail (err : Bytes)
  | done (resp : ExitResponse)
  deriving DecidableEq

/-- Inspects the error message to determine which hop failed. -/
def identifyFailedHop (err : Option Bytes) (circuit : Option CircuitResponse) : Bytes × Bytes :=
  match err, circuit with
  | some msg, some c =>
    if contains msg (lit "guard") || contains msg c.guard.nodeID then (lit "guard", c.guard.nodeID)
    else if contains msg (lit "relay") ||
        (c.relay.nodeID != [] && contains msg c.relay.nodeID) then
      (lit "relay", c.relay.nodeID)
    else if contains msg (lit "exit") || (c.exit.nodeID != [] && contains msg c.exit.nodeID) then
      (lit "exit", c.exit.nodeID)
    else (lit "unknown", [])
  | _, _ => (lit "unknown", [])

/-- Fill in the outcome of the last rebuild, if there was one. -/
def finishRebuild (success : Bool) (events : List RebuildEvent) : Go (List RebuildEvent) :=
  match events.getLast? with
  | none => return events
  | some evt => do
    let doneAt ← perform .now
    let later ← perform .now
    let evt := { evt with
      rebuildDoneAt := some doneAt
      rebuildMs := (later - evt.timestamp).tdiv 1000000
      success := success }
    return events.dropLast ++ [evt]

variable (X : Externals)

/-- What a call of the client asks for. -/
structure Call where
  directoryURL : Bytes
  circuitID : Bytes
  exitLayer : ExitLayer
  hops : Int
  maxAttempts : Int

/-- The keys of a circuit by the URL of the node they are for. -/
def sessionKeysAt (circuit : CircuitResponse) (keys : SessionKeys) (hops : Int) :
    List (Bytes × Bytes) :=
  (candidates circuit keys hops).map fun c => (c.1.nodeURL, c.2)

/-- One attempt, from the set-up of the fetched circuit on. -/
def attemptCircuit (c : Call) (circuit : CircuitResponse) : Go Outcome := do
  match ← setupCircuitWithHops X c.circuitID circuit c.hops with
  | .error err => return .retry (wrap "establish session keys" err)
  | .ok keys =>
    perform (.mark (.established (sessionKeysAt circuit keys c.hops)))
    let addrs := circuitHopAddresses circuit c.hops
    match ← buildOnionWithHops X keys c.exitLayer addrs.1 addrs.2 c.hops with
    | .error err => return .fail (wrap "build onion payload" err)
    | .ok payload =>
      perform (.mark .sending)
      match ← sendOnion X circuit.guard.nodeURL c.circuitID payload with
      | .error err =>
        return .retry (lit "send onion request via guard " ++ circuit.guard.nodeID ++ lit ": " ++
          err)
      | .ok onionResp =>
        match decryptResponseWithHops X keys onionResp.payload c.hops with
        | .error err => return .fail (wrap "decrypt circuit response" err)
        | .ok exitResp => return .done exitResp

/-- The rebuild event and log line with which an attempt begins, unless it
    is the first. -/
def beginRebuild (attempt maxAttempts : Int) (events : List RebuildEvent)
    (lastErr : Option Bytes) (lastCircuit : Option CircuitResponse) :
    Go (List RebuildEvent) :=
  if attempt > 1 then do
    let rebuildStart ← perform .now
    let cause := lastErr.getD []
    logPrintf (lit "[client] circuit attempt " ++ Decimal.itoa (attempt - 1) ++ lit "/" ++
      Decimal.itoa maxAttempts ++ lit " failed (" ++ cause ++ lit "); fetching fresh circuit")
    let failed := identifyFailedHop lastErr lastCircuit
    return events ++ [⟨rebuildStart, attempt, failed.1, failed.2, cause, none, 0, false⟩]
  else return events

/-- The loop over the attempts; `left` of them remain. -/
def runAttempts (c : Call) (maxAttempts : Int) : (left : Nat) → (attempt : Int) →
    List RebuildEvent → Option Bytes → Option CircuitResponse → Go (Result CircuitResult)
  | 0, _, _, lastErr, _ =>
    return .error (lit "all " ++ Decimal.itoa maxAttempts ++ lit " circuit attempts failed: " ++
      lastErr.getD [])
  | left + 1, attempt, events, lastErr, lastCircuit => do
    let events ← beginRebuild attempt maxAttempts events lastErr lastCircuit
    perform (.mark .attempt)
    match ← getCircuitWithHops X c.directoryURL c.hops with
    | .error err => return .error (wrap "get circuit from directory server" err)
    | .ok circuit =>
      let outcome ← attemptCircuit X c circuit
      perform (.mark .ended)
      match outcome with
      | .retry err =>
        let events ← finishRebuild false events
        runAttempts c maxAttempts left (attempt + 1) events (some err) (some circuit)
      | .fail err => return .error err
      | .done exitResp =>
        let events ← finishRebuild true events
        return .ok ⟨exitResp, events⟩

/-- The attempts a call makes at most. -/
def Call.attempts (c : Call) : Int :=
  if c.maxAttempts ≤ 0 then defaultMaxCircuitAttempts else c.maxAttempts

/-- Runs the full client flow, retrying on fresh circuits. -/
def executeRequestWithRebuildTracking (c : Call) : Go (Result CircuitResult) :=
  match validateHops c.hops with
  | .error err => return .error err
  | .ok () => runAttempts X c c.attempts c.attempts.toNat 1 [] none none

/-- `ExecuteRequestWithHops`: the default number of attempts, and the
    response alone. -/
def executeRequestWithHops (directoryURL circuitID : Bytes) (exitLayer : ExitLayer) (hops : Int) :
    Go (Result ExitResponse) := do
  match ← executeRequestWithRebuildTracking X
    ⟨directoryURL, circuitID, exitLayer, hops, defaultMaxCircuitAttempts⟩ with
  | .error err => return .error err
  | .ok result => return .ok result.response

end HopVault
