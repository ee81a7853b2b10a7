import HopVault.Directory.Circuit

/-! # Which machines a circuit runs through

    The registry tells nodes apart by their IDs only, so two of its records
    may be about one machine. A circuit of three hops then runs through
    that machine twice, unless no node registers under the host and port of
    another one of a different type. -/

namespace HopVault.Directory

open Framework Framework.Json

/-- Where a node is reached. -/
def NodeRegistration.endpoint (n : NodeRegistration) : Bytes × Int64 := (n.host, n.port)

variable {formatTime : Int → Bytes} {heartbeatTimeout : Int} {r r' : NodeRegistry}

/-! ## Runs in which endpoints tell types -/

/-- Where the registry knows the endpoint of the registration under another
    ID, it is that of a node of the same type. -/
def Compatible (r : NodeRegistry) (payload : NodeRegistration) : Prop :=
  ∀ id record, r.get? id = some record → id ≠ payload.nodeID →
    record.registration.endpoint = payload.endpoint →
    record.registration.nodeType = payload.nodeType

/-- An exchange in which no other registration is accepted. -/
def Takes (r : NodeRegistry) : Exchange → Prop
  | .request _ (.update (.register body)) _ => ∀ payload, Taken body payload → Compatible r payload
  | _ => True

/-- A step of such a run. -/
def ServesApart (formatTime : Int → Bytes) (heartbeatTimeout : Int) (r : NodeRegistry)
    (x : Exchange) (r' : NodeRegistry) : Prop :=
  Serves formatTime heartbeatTimeout r x r' ∧ Takes r x

/-- Records with one endpoint are of one type. -/
def Apart (r : NodeRegistry) : Prop :=
  ∀ id₁ record₁ id₂ record₂, r.get? id₁ = some record₁ → r.get? id₂ = some record₂ →
    record₁.registration.endpoint = record₂.registration.endpoint →
    record₁.registration.nodeType = record₂.registration.nodeType

theorem Apart.inherits (hr : Apart r) (h : Inherits r r') : Apart r' := by
  intro id₁ record₁ id₂ record₂ h₁ h₂ hsame
  obtain ⟨old₁, hold₁, heq₁⟩ := h id₁ record₁ h₁
  obtain ⟨old₂, hold₂, heq₂⟩ := h id₂ record₂ h₂
  rw [heq₁, heq₂] at hsame ⊢
  exact hr id₁ old₁ id₂ old₂ hold₁ hold₂ hsame

/-- A compatible registration keeps the types apart. -/
theorem Apart.upsert (hr : Apart r) {node : NodeRegistration} (hnode : Compatible r node)
    (now : Int) : Apart (r.upsert node now).2 := by
  have hold {id : Bytes} {record : NodeRecord} (h : r.get? id = some record)
      (hid : id ≠ node.nodeID) (hsame : record.registration.endpoint = node.endpoint) :=
    hnode id record h hid hsame
  intro id₁ record₁ id₂ record₂ h₁ h₂ hsame
  rw [NodeRegistry.get?_upsert] at h₁ h₂
  split_ifs at h₁ h₂ with hid₁ hid₂ hid₂
  · rw [← Option.some.inj h₁, ← Option.some.inj h₂]
  · rw [← Option.some.inj h₁] at hsame ⊢
    exact (hold h₂ hid₂ hsame.symm).symm
  · rw [← Option.some.inj h₂] at hsame ⊢
    exact hold h₁ hid₁ hsame
  · exact hr id₁ record₁ id₂ record₂ h₁ h₂ hsame

theorem Apart.serves (hr : Apart r) {x : Exchange}
    (h : ServesApart formatTime heartbeatTimeout r x r') : Apart r' := by
  obtain ⟨hserves, htakes⟩ := h
  rcases serves_cases hserves with ⟨rfl, -⟩ | ⟨body, payload, answer, hx, htaken, rfl⟩ |
    ⟨nodeID, rfl, -⟩ | ⟨nodeID, rfl, -⟩ | ⟨order, horder, -, rfl⟩
  · exact hr
  · rw [hx] at htakes
    exact hr.upsert (htakes payload htaken) _
  · exact hr.inherits (inherits_heartbeat nodeID _)
  · exact hr.inherits (inherits_delete nodeID)
  · exact hr.inherits (inherits_markUnhealthy horder _ _)

/-! ## Endpoints of a circuit -/

/-- **Hops of a circuit** always have different IDs, and different endpoints
    as long as no registration is accepted for the host and port of a node
    of another type that is registered under another ID. -/
theorem circuit_endpoints {h : List Exchange}
    (hrun : Steps (Serves formatTime heartbeatTimeout) .empty h r)
    {t : Int} {rawQuery : Bytes} (hhops : parseHops rawQuery = .ok 3) {answer : Option Response}
    (hserve : Runs (Performs t) r (Service.circuitHandler formatTime rawQuery) answer r') :
    ∃ response, answer = some response ∧ (response.statusCode = statusOK →
      ∃ circuit : CircuitResponse, response = writeJSON statusOK (circuit.json formatTime) ∧
        [circuit.guard, circuit.relay, circuit.exit].Pairwise
          (fun a b => a.registration.nodeID ≠ b.registration.nodeID) ∧
        (Steps (ServesApart formatTime heartbeatTimeout) .empty h r →
          [circuit.guard, circuit.relay, circuit.exit].Pairwise
            (fun a b => a.registration.endpoint ≠ b.registration.endpoint))) := by
  have hr := wellFormed_of_run hrun
  obtain ⟨response, hanswer, hcircuit⟩ := runs_circuitHandler hr hhops hserve
  refine ⟨response, hanswer, fun hok => ?_⟩
  cases hcircuit with
  | @three circuit hguard hrelay hexit =>
    refine ⟨circuit, rfl, ?_, fun hapart => ?_⟩
    · simp [hguard.ne hrelay (by decide), hguard.ne hexit (by decide), hrelay.ne hexit (by decide)]
    · have hapart : Apart r := hapart.invariant (I := Apart) (by simp [Apart])
        fun _ _ _ hr hstep => hr.serves hstep
      -- hops are of different types
      have hne {type₁ type₂ : String} {a b : NodeRecord} (ha : Offers r type₁ a)
          (hb : Offers r type₂ b) (htypes : lit type₁ ≠ lit type₂) :
          a.registration.endpoint ≠ b.registration.endpoint := by
        intro hsame
        have := hapart _ a _ b ha.registered hb.registered hsame
        rw [ha.type, hb.type] at this
        exact htypes this
      simp [hne hguard hrelay (by decide), hne hguard hexit (by decide),
        hne hrelay hexit (by decide)]
  | unavailable hnone => exact absurd hok (by decide)

/-! ## Machines -/

namespace Sample

/-- The circuit over the first node of each type, drawn with every index 0. -/
theorem runs_registerAll {nodes : List NodeRegistration}
    (hentries : (registerAll nodes).entries = nodes.map fun node => (node.nodeID, newRecord node))
    (hincreasing : Increasing (nodes.map newRecord))
    {guard relay exit : NodeRecord} {guards relays exits : List NodeRecord}
    (hgrouped : NodeRegistry.NodesByTypeResponse.ofNodes (nodes.map newRecord) =
      ⟨guard :: guards, relay :: relays, exit :: exits⟩) :
    Runs (Performs 0) (registerAll nodes) (Service.circuitHandler (fun _ => []) [])
      (some (writeJSON statusOK (CircuitResponse.json (fun _ => []) ⟨guard, relay, exit⟩)))
      (registerAll nodes) := by
  have hlist := list_registerAll hentries hincreasing
  unfold Service.circuitHandler
  rw [parseHops_absent (by decide +kernel)]
  refine .op (b := nodes.map newRecord) ⟨rfl, _, .refl _, hlist.symm⟩ ?_
  show Runs (Performs 0) _ (Service.drawCircuit (fun _ => []) 3 (.ofNodes (nodes.map newRecord))) _ _
  rw [hgrouped]
  have hdraw (n : Nat) : Performs 0 (registerAll nodes)
      (.randomIntn ((n + 1 : Nat) : Int)) (0 : Int) (registerAll nodes) :=
    ⟨rfl, fun _ => ⟨le_refl 0, by omega⟩⟩
  exact .op (hdraw guards.length) (.op (hdraw relays.length) (.op (hdraw exits.length) .ret))

/-! ### Machines of their own -/

/-- The circuit over the first guard. -/
def ownCircuit : CircuitResponse :=
  ⟨newRecord liveNode, newRecord relayNode, newRecord exitNode⟩

theorem runs_nodes : Runs (Performs 0) (registerAll nodes)
    (Service.circuitHandler (fun _ => []) [])
    (some (writeJSON statusOK (ownCircuit.json fun _ => []))) (registerAll nodes) :=
  runs_registerAll entries_nodes increasing_nodes rfl

/-- No entry of another type has the endpoint of the node. -/
def Fits (r : NodeRegistry) (node : NodeRegistration) : Prop :=
  ∀ e ∈ r.entries, e.2.registration.endpoint = node.coerced.endpoint →
    e.2.registration.nodeType = node.coerced.nodeType

theorem step_apart {r : NodeRegistry} {node : NodeRegistration} (h : Fits r node) :
    ∃ x, ServesApart (fun _ => []) 30 r x (register r node) := by
  refine ⟨_, serves_registering r node, fun payload htaken => ?_⟩
  rw [htaken.own]
  intro id record hrecord _
  exact h (id, record) (SortedMap.get?_eq_some.mp hrecord)

/-- The two guards are of one type, and all others are elsewhere. -/
theorem steps_nodes :
    ∃ h, Steps (ServesApart (fun _ => []) 30) .empty h (registerAll nodes) := by
  have hguard : Fits .empty liveNode := by simp [Fits, SortedMap.empty]
  have hneighbour : Fits (registerAll [liveNode]) neighbour := by
    unfold Fits
    decide +kernel
  have hrelay : Fits (registerAll [liveNode, neighbour]) relayNode := by
    unfold Fits
    decide +kernel
  have hexit : Fits (registerAll [liveNode, neighbour, relayNode]) exitNode := by
    unfold Fits
    decide +kernel
  obtain ⟨_, hguard⟩ := step_apart hguard
  obtain ⟨_, hneighbour⟩ := step_apart hneighbour
  obtain ⟨_, hrelay⟩ := step_apart hrelay
  obtain ⟨_, hexit⟩ := step_apart hexit
  exact ⟨_, (((Steps.single hguard).snoc hneighbour).snoc hrelay).snoc hexit⟩

/-! ### A machine that is guard, relay and exit -/

/-- One machine under three IDs. -/
def sharedRelay : NodeRegistration :=
  { liveNode with nodeID := generateNodeID (List.replicate 16 1), nodeType := lit "relay" }

def sharedExit : NodeRegistration :=
  { liveNode with nodeID := generateNodeID (List.replicate 16 2), nodeType := lit "exit" }

def sharedNodes : List NodeRegistration := [liveNode, sharedRelay, sharedExit]

def sharedCircuit : CircuitResponse :=
  ⟨newRecord liveNode, newRecord sharedRelay, newRecord sharedExit⟩

theorem runs_shared : Runs (Performs 0) (registerAll sharedNodes)
    (Service.circuitHandler (fun _ => []) [])
    (some (writeJSON statusOK (sharedCircuit.json fun _ => []))) (registerAll sharedNodes) := by
  have hentries : (registerAll sharedNodes).entries =
      sharedNodes.map fun node => (node.nodeID, newRecord node) := by
    decide +kernel
  have hincreasing : Increasing (sharedNodes.map newRecord) := by
    unfold Increasing
    decide +kernel
  exact runs_registerAll hentries hincreasing rfl

end Sample

/-- The hops of a circuit over the machines of their own are on three of
    them. -/
theorem circuit_endpoints_sample : ∃ circuit : CircuitResponse,
    some (writeJSON statusOK (Sample.ownCircuit.json fun _ => [])) =
      some (writeJSON statusOK (circuit.json fun _ => [])) ∧
    [circuit.guard, circuit.relay, circuit.exit].Pairwise
      (fun a b => a.registration.nodeID ≠ b.registration.nodeID) ∧
    [circuit.guard, circuit.relay, circuit.exit].Pairwise
      (fun a b => a.registration.endpoint ≠ b.registration.endpoint) := by
  obtain ⟨h, hapart⟩ := Sample.steps_nodes
  obtain ⟨response, hanswer, hcircuit⟩ := circuit_endpoints (hapart.mono fun _ _ _ hx => hx.1)
    (parseHops_absent (by decide +kernel)) Sample.runs_nodes
  obtain ⟨circuit, hresponse, hids, hends⟩ := hcircuit (Option.some.inj hanswer ▸ rfl)
  exact ⟨circuit, hresponse ▸ hanswer, hids, hends hapart⟩

/-- One machine registers as guard, relay and exit: the directory hands out
    a circuit whose hops are all that machine. -/
theorem shared_endpoint : ∃ h r, ∃ circuit : CircuitResponse,
    Steps (Serves (fun _ => []) 30) .empty h r ∧
    Runs (Performs 0) r (Service.circuitHandler (fun _ => []) [])
      (some (writeJSON statusOK (circuit.json fun _ => []))) r ∧
    circuit.guard.registration.endpoint = circuit.relay.registration.endpoint ∧
    circuit.guard.registration.endpoint = circuit.exit.registration.endpoint := by
  obtain ⟨h, hrun⟩ := Sample.steps_registerAll Sample.sharedNodes
  exact ⟨h, _, Sample.sharedCircuit, hrun, Sample.runs_shared, rfl, rfl⟩

end HopVault.Directory
