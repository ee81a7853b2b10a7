import HopVault.Framework.Service
import HopVault.Framework.History
import HopVault.Directory.Node
import HopVault.Directory.Query

/-! # The directory as a service

    The handlers of `directory-server/main.go` as programs: each reads the
    clock, the random source and the registry in separate steps, and only
    the operations of the registry are atomic. A handler that nobody
    interrupts does what the functions of `Server` say. -/

namespace HopVault.Directory

open Framework Framework.Json
open NodeRegistry (NodesByTypeResponse)

/-! ## Operations -/

/-- What a handler does besides computing. -/
inductive Operation where
  /-- `s.now()`. -/
  | now
  | upsert (node : NodeRegistration) (now : Int)
  | heartbeat (nodeID : Bytes) (now : Int)
  | delete (nodeID : Bytes)
  | list (includeUnhealthy : Bool)
  /-- `s.randomIntn(n)`. -/
  | randomIntn (n : Int)

/-- The answers to an operation. -/
abbrev Operation.Ans : Operation → Type
  | now => Int
  | upsert _ _ => NodeRecord
  | heartbeat _ _ => Option NodeRecord
  | delete _ => Bool
  | list _ => List NodeRecord
  | randomIntn _ => Int

/-- The directory calls no other program. -/
abbrev Operations : Sig where
  Op := Operation
  Ans := Operation.Ans
  Req := Empty
  Resp := Empty

/-- A handler; it panics where it returns `none`. -/
abbrev Service (α : Type) : Type := Prog Operations α

/-- Perform an operation. -/
def Operation.perform (e : Operation) : Service e.Ans := Prog.perform (S := Operations) e

@[simp] theorem Operation.perform_eq (e : Operation) : e.perform = .op e .ret := rfl

/-- What an operation answers at time `t`, and does to the registry. `List`
    ranges over the map in any order, and of the random source only the
    range is known. -/
def Performs (t : Int) (r : NodeRegistry) : (e : Operation) → e.Ans → NodeRegistry → Prop
  | .now, now, r' => now = t ∧ r' = r
  | .upsert node now, record, r' => (record, r') = r.upsert node now
  | .heartbeat nodeID now, record, r' => (record, r') = r.heartbeat nodeID now
  | .delete nodeID, deleted, r' => (deleted, r') = r.delete nodeID
  | .list includeUnhealthy, nodes, r' =>
    r' = r ∧ ∃ order : List (Bytes × NodeRecord), order.Perm r.entries ∧
      nodes = NodeRegistry.list order includeUnhealthy
  | .randomIntn n, i, r' => r' = r ∧ (0 < n → 0 ≤ i ∧ i < n)

/-! ## Listing by type -/

namespace NodeRegistry.NodesByTypeResponse

/-- The `switch` over the type of a node. -/
def add (grouped : NodesByTypeResponse) (node : NodeRecord) : NodesByTypeResponse :=
  if node.registration.nodeType = lit "guard" then
    { grouped with guard := grouped.guard ++ [node] }
  else if node.registration.nodeType = lit "relay" then
    { grouped with relay := grouped.relay ++ [node] }
  else if node.registration.nodeType = lit "exit" then
    { grouped with exit := grouped.exit ++ [node] }
  else grouped

/-- The loop of `GroupByType`. -/
def ofNodes (nodes : List NodeRecord) : NodesByTypeResponse := nodes.foldl add ⟨[], [], []⟩

theorem foldl_add (nodes : List NodeRecord) (grouped : NodesByTypeResponse) :
    nodes.foldl add grouped =
      ⟨grouped.guard ++ nodes.filter fun n => n.registration.nodeType == lit "guard",
        grouped.relay ++ nodes.filter fun n => n.registration.nodeType == lit "relay",
        grouped.exit ++ nodes.filter fun n => n.registration.nodeType == lit "exit"⟩ := by
  have hgr : lit "guard" ≠ lit "relay" := by decide
  have hge : lit "guard" ≠ lit "exit" := by decide
  have hre : lit "relay" ≠ lit "exit" := by decide
  -- induction on the nodes; the accumulator is arbitrary
  induction nodes generalizing grouped with
  | nil => simp
  | cons node nodes ih =>
    rw [List.foldl_cons, ih]
    unfold add
    -- a node of no known type is in no group
    by_cases hguard : node.registration.nodeType = lit "guard"
    · simp [hguard, hgr, hge]
    · by_cases hrelay : node.registration.nodeType = lit "relay"
      · simp [hrelay, hgr.symm, hre]
      · by_cases hexit : node.registration.nodeType = lit "exit"
        · simp [hexit, hge.symm, hre.symm]
        · simp [hguard, hrelay, hexit]

/-- The loop does what `groupByType` says. -/
theorem ofNodes_list (order : List (Bytes × NodeRecord)) (includeUnhealthy : Bool) :
    ofNodes (list order includeUnhealthy) =
      groupByType order includeUnhealthy := by
  unfold ofNodes
  rw [foldl_add]
  rfl

end NodeRegistry.NodesByTypeResponse

/-! ## Answers -/

/-- `http.StatusServiceUnavailable`. -/
def statusServiceUnavailable : Int := 503

def NodeRegistry.NodesByTypeResponse.json (formatTime : Int → Bytes)
    (grouped : NodesByTypeResponse) : Json :=
  obj [(lit "guard", arr (grouped.guard.map (·.json formatTime))),
    (lit "relay", arr (grouped.relay.map (·.json formatTime))),
    (lit "exit", arr (grouped.exit.map (·.json formatTime)))]

/-- A circuit of three hops. -/
structure CircuitResponse where
  guard : NodeRecord
  relay : NodeRecord
  exit : NodeRecord

def CircuitResponse.json (formatTime : Int → Bytes) (circuit : CircuitResponse) : Json :=
  obj [(lit "guard", circuit.guard.json formatTime), (lit "relay", circuit.relay.json formatTime),
    (lit "exit", circuit.exit.json formatTime)]

/-- A circuit of one hop: a map with one entry. -/
def guardJson (formatTime : Int → Bytes) (guard : NodeRecord) : Json :=
  obj [(lit "guard", guard.json formatTime)]

/-! ## Handlers -/

namespace Service

variable (formatTime : Int → Bytes)

/-- `NodeRegistry.GroupByType`. -/
def groupByType (includeUnhealthy : Bool) : Service NodesByTypeResponse := do
  let nodes ← (Operation.list includeUnhealthy).perform
  return .ofNodes nodes

/-- `nodes[s.randomIntn(len(nodes))]`; `none` is an index out of range. -/
def pick (nodes : List NodeRecord) : Service (Option NodeRecord) := do
  let i ← (Operation.randomIntn nodes.length).perform
  return if 0 ≤ i then nodes[i.toNat]? else none

def registerHandler (body : Bytes) : Service (Option Response) :=
  match decodeStrict NodeRegistration.fields .zero body with
  | none => return some (writeJSONError statusBadRequest (lit "invalid JSON payload"))
  | some (payload, rest) =>
    if decoderMore rest then
      return some (writeJSONError statusBadRequest (lit "invalid JSON payload"))
    else
      match validateNodeRegistration payload with
      | .error err => return some (writeJSONError statusBadRequest err)
      | .ok () => do
        -- the clock is read before the registry takes its lock
        let now ← Operation.now.perform
        let record ← (Operation.upsert payload now).perform
        return some (writeJSON statusCreated (record.json formatTime))

/-- The answer to a heartbeat. -/
def heartbeatAnswer : Option NodeRecord → Response
  | none => writeJSONError statusNotFound (lit "node not found")
  | some record => writeJSON statusOK (record.json formatTime)

def heartbeatHandler (pathValue : Bytes) : Service (Option Response) :=
  let nodeID := trimSpace pathValue
  if nodeID = [] then return some (writeJSONError statusBadRequest (lit "nodeId is required"))
  else do
    let now ← Operation.now.perform
    let record ← (Operation.heartbeat nodeID now).perform
    return some (heartbeatAnswer formatTime record)

def deregisterHandler (pathValue : Bytes) : Service (Option Response) :=
  let nodeID := trimSpace pathValue
  if nodeID = [] then return some (writeJSONError statusBadRequest (lit "nodeId is required"))
  else do
    match ← (Operation.delete nodeID).perform with
    | false => return some (writeJSONError statusNotFound (lit "node not found"))
    | true =>
      return some (writeJSON statusOK
        (obj [(lit "nodeId", str nodeID), (lit "status", str (lit "deregistered"))]))

def nodesHandler : Service (Option Response) := do
  let grouped ← groupByType false
  return some (writeJSON statusOK (grouped.json formatTime))

def notEnoughNodes : Response :=
  writeJSONError statusServiceUnavailable (lit "not enough healthy nodes to build a circuit")

/-- The part of `circuitHandler` after the nodes are listed. -/
def drawCircuit (hops : Int) (grouped : NodesByTypeResponse) : Service (Option Response) :=
  if grouped.guard = [] then return some notEnoughNodes
  else if hops = 1 then do
    match ← pick grouped.guard with
    | none => return none
    | some guard => return some (writeJSON statusOK (guardJson formatTime guard))
  else if grouped.relay = [] ∨ grouped.exit = [] then return some notEnoughNodes
  else do
    match ← pick grouped.guard with
    | none => return none
    | some guard =>
      match ← pick grouped.relay with
      | none => return none
      | some relay =>
        match ← pick grouped.exit with
        | none => return none
        | some exit =>
          return some (writeJSON statusOK (CircuitResponse.json formatTime ⟨guard, relay, exit⟩))

def circuitHandler (rawQuery : Bytes) : Service (Option Response) :=
  match parseHops rawQuery with
  | .error err => return some (writeJSONError statusBadRequest err)
  | .ok hops => do
    let grouped ← groupByType false
    drawCircuit formatTime hops grouped

def debugNodesHandler : Service (Option Response) := do
  let nodes ← (Operation.list true).perform
  return some (writeJSON statusOK (arr (nodes.map (·.json formatTime))))

end Service

/-! ## Requests -/

/-- A request to the directory, as the mux hands it out. -/
inductive Call where
  | update (q : Request)
  | nodes
  | circuit (rawQuery : Bytes)
  | debugNodes
  /-- No route of the directory server: the mux or `/health` answers. -/
  | other (answer : Response)

variable (formatTime : Int → Bytes) (heartbeatTimeout : Int)

/-- `RegisterRoutes`. -/
def Call.handler : Call → Service (Option Response)
  | update (.register body) => Service.registerHandler formatTime body
  | update (.heartbeat pathValue) => Service.heartbeatHandler formatTime pathValue
  | update (.deregister pathValue) => Service.deregisterHandler pathValue
  | nodes => Service.nodesHandler formatTime
  | circuit rawQuery => Service.circuitHandler formatTime rawQuery
  | debugNodes => Service.debugNodesHandler formatTime
  | other answer => return some answer

/-- What happens at the directory: a request is answered, or the health
    monitor cleans up. -/
inductive Exchange where
  | request (t : Int) (c : Call) (answer : Option Response)
  | cleanup (t : Int)

/-- When it happened. -/
def Exchange.time : Exchange → Int
  | request t _ _ => t
  | cleanup t => t

/-- A handler runs from start to end at one time. -/
inductive Serves : NodeRegistry → Exchange → NodeRegistry → Prop
  | request {r r' : NodeRegistry} {answer : Option Response} (t : Int) (c : Call) :
      Runs (Performs t) r (c.handler formatTime) answer r' → Serves r (.request t c answer) r'
  | cleanup {r : NodeRegistry} (t : Int) (order : List (Bytes × NodeRecord)) :
      order.Perm r.entries →
      Serves r (.cleanup t) (cleanupUnhealthyNodes r order t heartbeatTimeout).2

/-! ## Handlers that nobody interrupts -/

/-- What `Server` says of a request. -/
def Request.answer (r : NodeRegistry) (now : Int) : Request → Response × NodeRegistry
  | register body => Directory.registerHandler formatTime r now body
  | heartbeat pathValue => Directory.heartbeatHandler formatTime r now pathValue
  | deregister pathValue => Directory.deregisterHandler r pathValue

variable {formatTime heartbeatTimeout}

/-- The programs of the handlers that change the registry do what the
    functions of `Server` say. -/
theorem runs_update {r r' : NodeRegistry} {t : Int} {q : Request} {answer : Option Response} :
    Runs (Performs t) r ((Call.update q).handler formatTime) answer r' ↔
      answer = some (q.answer formatTime r t).1 ∧ r' = (q.answer formatTime r t).2 := by
  cases q with
  | register body =>
    simp only [Call.handler, Service.registerHandler, Request.answer, Directory.registerHandler]
    cases decodeStrict NodeRegistration.fields .zero body with
    | none => simp
    | some x =>
      obtain ⟨payload, rest⟩ := x
      cases hmore : decoderMore rest with
      | true => simp [hmore]
      | false =>
        cases hvalid : validateNodeRegistration payload with
        | error err => simp [hmore, hvalid]
        | ok _ =>
          simp [hmore, hvalid, Performs, Prod.ext_iff]
          exact and_comm
  | heartbeat pathValue =>
    simp only [Call.handler, Service.heartbeatHandler, Request.answer, Directory.heartbeatHandler]
    by_cases hid : trimSpace pathValue = []
    · simp [hid]
    · cases hfound : r.heartbeat (trimSpace pathValue) t with
      | mk record r₁ =>
        cases record <;>
          simp [hid, Performs, Prod.ext_iff, hfound, Service.heartbeatAnswer, and_comm]
  | deregister pathValue =>
    simp only [Call.handler, Service.deregisterHandler, Request.answer, Directory.deregisterHandler]
    by_cases hid : trimSpace pathValue = []
    · simp [hid]
    · cases hfound : r.delete (trimSpace pathValue) with
      | mk deleted r₁ =>
        cases deleted <;> simp [hid, Performs, Prod.ext_iff, hfound]

/-- A request, served at some time. -/
theorem serves_update (r : NodeRegistry) (t : Int) (q : Request) :
    Serves formatTime heartbeatTimeout r
      (.request t (.update q) (some (q.answer formatTime r t).1)) (q.answer formatTime r t).2 :=
  .request t _ (runs_update.mpr ⟨rfl, rfl⟩)

end HopVault.Directory
