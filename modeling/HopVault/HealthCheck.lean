import HopVault.Client

/-! # The health checker

    `checkAndRebuildCircuit` of `client/client.go`: one poll of the
    directory, and the rebuild of the client's circuit when one of its
    nodes is no longer listed. -/

namespace HopVault

open Framework Framework.Json

/-- The current active circuit and its session keys. -/
structure CircuitState where
  circuit : Option CircuitResponse
  keys : SessionKeys
  circuitID : Bytes
  hops : Int
  ready : Bool
  deriving DecidableEq

/-- The IDs of the nodes of a circuit that are in use. -/
def currentIDs (circuit : CircuitResponse) (hops : Int) : List Bytes :=
  circuit.guard.nodeID ::
    if hops = 3 then [circuit.relay.nodeID, circuit.exit.nodeID] else []

/-- The IDs of all listed nodes. -/
def healthyIDs (nodes : NodesResponse) : List Bytes :=
  (nodes.guard ++ nodes.relay ++ nodes.exit).map (·.nodeID)

variable (X : Externals)

/-- Polls `/nodes`, and fetches a circuit if a node is missing. -/
def circuitToSetUp (directoryURL : Bytes) (state : CircuitState) (circuit : CircuitResponse) :
    Go (Option CircuitResponse) := do
  match ← getHealthyNodes X directoryURL with
  | .error err =>
    logPrintf (lit "[health-check] failed to poll /nodes: " ++ err)
    return none
  | .ok nodes =>
    -- the map of current IDs is ranged over up to the first missing one
    let ids ← perform (.range (.ofList ((currentIDs circuit state.hops).map (·, []))))
    match ids.1.find? fun id => !(healthyIDs nodes).contains id.1 with
    | none => return none
    | some id =>
      logPrintf (lit "[health-check] node " ++ id.1 ++
        lit " no longer healthy; triggering proactive rebuild")
      match ← getCircuitWithHops X directoryURL state.hops with
      | .error err =>
        logPrintf (lit "[health-check] proactive rebuild failed (get circuit): " ++ err)
        return none
      | .ok circuit => return some circuit

/-- Polls `/nodes` and rebuilds the circuit if a node is missing. -/
def checkAndRebuildCircuit (directoryURL : Bytes) (state : CircuitState) : Go CircuitState :=
  match state.ready, state.circuit with
  | true, some current => do
    match ← circuitToSetUp X directoryURL state current with
    | none => return state
    | some circuit =>
      match ← setupCircuitWithHops X state.circuitID circuit state.hops with
      | .error err =>
        -- the state keeps its circuit and its keys
        logPrintf (lit "[health-check] proactive rebuild failed (setup): " ++ err)
        return state
      | .ok keys =>
        logPrintf (lit "[health-check] proactive circuit rebuild complete")
        return { state with circuit := some circuit, keys := keys, ready := true }
  | _, _ => return state

end HopVault
