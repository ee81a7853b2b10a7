import HopVault.Directory.Circuit

/-! # The health checker of the experiment

    `HealthChecker` of `experiments/experiment3/locustfile.py`, and the part
    of a user that rebuilds its circuit, beside everything that happens at
    the directory. A poll reads the listing first and compares it later,
    under the lock; in between the user may pass the nodes of another
    circuit. The lock does not know how old the listing is. -/

namespace HopVault.Python.Health

open Framework Framework.Utf8 Directory
open NodeRegistry (NodesByTypeResponse)

/-! ## The checker -/

/-- The fields that the lock protects; the IDs are a `set`. -/
structure Checker where
  currentNodeIDs : List Bytes
  needsRebuild : Bool
  deriving DecidableEq, Repr

def Checker.init : Checker := ⟨[], false⟩

/-- `set_circuit_nodes`. -/
def setCircuitNodes (nodeIDs : List Bytes) : Checker := ⟨nodeIDs, false⟩

/-- `check_needs_rebuild`. -/
def checkNeedsRebuild (c : Checker) : Bool := c.needsRebuild

/-- `healthy_ids` of a listing. -/
def healthyIDs (nodes : NodesByTypeResponse) : List Bytes :=
  [nodes.guard, nodes.relay, nodes.exit].flatMap fun group => group.map (·.registration.nodeID)

/-- A circuit is being watched, and one of its nodes is not listed. -/
def Missing (c : Checker) (healthy : List Bytes) : Prop :=
  c.currentNodeIDs ≠ [] ∧ ¬c.currentNodeIDs ⊆ healthy

instance (c : Checker) (healthy : List Bytes) : Decidable (Missing c healthy) :=
  inferInstanceAs (Decidable (_ ∧ _))

/-- What a poll does under the lock. -/
def compareListing (c : Checker) (healthy : List Bytes) : Checker :=
  if Missing c healthy then { c with needsRebuild := true } else c

/-! ## The directory -/

/-- The directory has the node as healthy, under one of the three types. -/
def HealthyNode (r : NodeRegistry) (id : Bytes) : Prop :=
  ∃ record : Directory.NodeRecord, (∃ key, r.get? key = some record) ∧ record.status = .healthy ∧
    isValidNodeType record.registration.nodeType = true ∧ record.registration.nodeID = id

/-- In whatever order the registry is ranged over, the listing has the
    healthy nodes. -/
theorem mem_healthyIDs {r : NodeRegistry} {order : List (Bytes × Directory.NodeRecord)}
    (horder : order.Perm r.entries) {id : Bytes} :
    id ∈ healthyIDs (NodeRegistry.groupByType order false) ↔ HealthyNode r id := by
  simp only [healthyIDs, NodeRegistry.groupByType, List.flatMap_cons, List.flatMap_nil,
    List.append_nil, List.mem_append, List.mem_map, List.mem_filter, mem_list_iff horder,
    beq_iff_eq, Bool.false_eq_true, false_or]
  unfold HealthyNode isValidNodeType
  constructor
  · intro h
    rcases h with ⟨record, ⟨⟨hget, hhealthy⟩, htype⟩, hid⟩ |
        ⟨record, ⟨⟨hget, hhealthy⟩, htype⟩, hid⟩ | ⟨record, ⟨⟨hget, hhealthy⟩, htype⟩, hid⟩ <;>
      exact ⟨record, hget, hhealthy, by simp [htype], hid⟩
  · intro h
    obtain ⟨record, hget, hhealthy, htype, hid⟩ := h
    simp only [Bool.or_eq_true, beq_iff_eq, or_assoc] at htype
    rcases htype with htype | htype | htype
    · exact .inl ⟨record, ⟨⟨hget, hhealthy⟩, htype⟩, hid⟩
    · exact .inr (.inl ⟨record, ⟨⟨hget, hhealthy⟩, htype⟩, hid⟩)
    · exact .inr (.inr ⟨record, ⟨⟨hget, hhealthy⟩, htype⟩, hid⟩)

/-- The IDs of a circuit that the directory draws, as
    `_update_health_checker_nodes` collects them. -/
inductive Drawn (r : NodeRegistry) : Int → List Bytes → Prop
  | one {guard : Directory.NodeRecord} : Offers r "guard" guard → Drawn r 1 [guard.registration.nodeID]
  | three {guard relay exit : Directory.NodeRecord} : Offers r "guard" guard → Offers r "relay" relay →
      Offers r "exit" exit →
      Drawn r 3 [guard.registration.nodeID, relay.registration.nodeID, exit.registration.nodeID]

/-! ## Checker, user and directory -/

/-- Node IDs, and how many changes the directory had seen when they were
    read there. -/
structure Reading where
  ids : List Bytes
  time : Nat
  deriving DecidableEq, Repr

structure System where
  registry : NodeRegistry
  /-- The earlier registries, oldest first. -/
  past : List NodeRegistry
  checker : Checker
  /-- The poll thread has been started. -/
  started : Bool
  /-- It has been told to stop. -/
  stopped : Bool
  /-- A listing that has been fetched and not been compared. -/
  listing : Option Reading
  /-- A circuit that has been fetched and is being set up. -/
  circuit : Option Reading
  /-- When the circuit last passed to `set_circuit_nodes` was fetched. -/
  fetchedAt : Nat

def System.init : System := ⟨.empty, [], .init, false, false, none, none, 0⟩

def System.time (s : System) : Nat := s.past.length

/-- The registry after some number of changes. -/
def System.registryAt (s : System) (time : Nat) : Option NodeRegistry :=
  (s.past ++ [s.registry])[time]?

inductive Event where
  /-- A registration, a heartbeat, a deregistration or a cleanup. -/
  | directory
  | fetchCircuit
  | setupFailed
  | setCircuitNodes
  | start
  | stop
  | fetchListing
  | compare
  | check (needsRebuild : Bool)
  deriving DecidableEq, Repr

variable (hops heartbeatTimeout : Int)

/-- One step of the directory, the user or the poll. A request that fails
    changes nothing. -/
inductive Step : System → Event → System → Prop
  | directory {s : System} {r : NodeRegistry} : Change heartbeatTimeout s.registry r →
      Step s .directory { s with registry := r, past := s.past ++ [s.registry] }
  | fetchCircuit {s : System} {ids : List Bytes} : s.circuit = none → Drawn s.registry hops ids →
      Step s .fetchCircuit { s with circuit := some ⟨ids, s.time⟩ }
  | setupFailed {s : System} {circuit : Reading} : s.circuit = some circuit →
      Step s .setupFailed { s with circuit := none }
  | setCircuitNodes {s : System} {circuit : Reading} : s.circuit = some circuit →
      Step s .setCircuitNodes
        { s with
          checker := setCircuitNodes circuit.ids
          circuit := none
          fetchedAt := circuit.time }
  | start {s : System} : s.checker.currentNodeIDs ≠ [] → Step s .start { s with started := true }
  | stop {s : System} : Step s .stop { s with stopped := true }
  | fetchListing {s : System} {order : List (Bytes × Directory.NodeRecord)} :
      s.started = true → s.stopped = false → s.listing = none →
      order.Perm s.registry.entries →
      Step s .fetchListing
        { s with listing := some ⟨healthyIDs (NodeRegistry.groupByType order false), s.time⟩ }
  | compare {s : System} {listing : Reading} : s.listing = some listing →
      Step s .compare
        { s with checker := compareListing s.checker listing.ids, listing := none }
  | check {s : System} : s.circuit = none → Step s (.check (checkNeedsRebuild s.checker)) s

/-! ## Alarms -/

/-- Some node of the watched circuit was missing at the directory when the
    circuit was fetched, or later. -/
def Justified (s : System) : Prop :=
  ∃ time r id, s.fetchedAt ≤ time ∧ s.registryAt time = some r ∧ id ∈ s.checker.currentNodeIDs ∧
    ¬HealthyNode r id

/-- The listing that is about to be compared was fetched before the circuit
    that is watched, and misses one of its nodes. -/
def Stale (s : System) : Prop :=
  ∃ listing, s.listing = some listing ∧ listing.time < s.fetchedAt ∧
    Missing s.checker listing.ids

/-- A step whose comparison, if it is one, does not go wrong. -/
def FreshStep (s : System) (e : Event) (s' : System) : Prop :=
  Step hops heartbeatTimeout s e s' ∧ (e = .compare → ¬Stale s)

/-- What holds in a run of such steps. -/
structure Inv (s : System) : Prop where
  listing : ∀ listing, s.listing = some listing → ∃ r, s.registryAt listing.time = some r ∧
    ∀ id, id ∈ listing.ids ↔ HealthyNode r id
  alarm : s.checker.needsRebuild = true → Justified s

variable {hops heartbeatTimeout}

theorem registryAt_time (s : System) : s.registryAt s.time = some s.registry := by
  unfold System.registryAt System.time
  rw [List.getElem?_append_right le_rfl, Nat.sub_self]
  rfl

/-- A change at the directory leaves its past alone. -/
theorem registryAt_change {s : System} {r r' : NodeRegistry} {time : Nat}
    (h : s.registryAt time = some r) :
    { s with registry := r', past := s.past ++ [s.registry] }.registryAt time = some r := by
  unfold System.registryAt at *
  obtain ⟨hlt, -⟩ := List.getElem?_eq_some_iff.mp h
  show ((s.past ++ [s.registry]) ++ [r'])[time]? = some r
  rw [List.getElem?_append_left hlt]
  exact h

theorem inv_init : Inv .init := by
  constructor
  · intro listing h
    cases h
  · intro h
    cases h

/-- **Step**: an alarm is raised for a node that the listing misses, and
    the listing is of a time at which the circuit had been fetched. -/
theorem Inv.step {s s' : System} {e : Event} (hs : Inv s)
    (h : FreshStep hops heartbeatTimeout s e s') : Inv s' := by
  obtain ⟨hstep, hfresh⟩ := h
  cases hstep with
  | directory _ =>
    -- a change at the directory ends no past: what was missing then still was
    constructor
    · intro listing hlisting
      obtain ⟨r, hr, hids⟩ := hs.listing listing hlisting
      exact ⟨r, registryAt_change hr, hids⟩
    · intro halarm
      obtain ⟨time, r, id, hle, hr, hid, hmissing⟩ := hs.alarm halarm
      exact ⟨time, r, id, hle, registryAt_change hr, hid, hmissing⟩
  | fetchCircuit _ _ => exact ⟨hs.listing, hs.alarm⟩
  | setupFailed _ => exact ⟨hs.listing, hs.alarm⟩
  | setCircuitNodes _ =>
    -- set_circuit_nodes resets the flag, so there is no alarm to justify
    refine ⟨hs.listing, ?_⟩
    intro halarm
    cases halarm
  | start _ => exact ⟨hs.listing, hs.alarm⟩
  | stop => exact ⟨hs.listing, hs.alarm⟩
  | fetchListing _ _ _ horder =>
    -- the new listing is the registry of this moment
    refine ⟨?_, hs.alarm⟩
    intro listing hlisting
    obtain rfl := Option.some.inj hlisting
    exact ⟨s.registry, registryAt_time s, fun id => mem_healthyIDs horder⟩
  | @compare listing hlisting =>
    constructor
    · intro listing' hlisting'
      cases hlisting'
    · intro halarm
      by_cases hmissing : Missing s.checker listing.ids
      · -- a listing that misses a node is no older than the circuit, by the run's condition
        have hle : s.fetchedAt ≤ listing.time := by
          by_contra hlt
          exact hfresh rfl ⟨listing, hlisting, by omega, hmissing⟩
        obtain ⟨r, hr, hids⟩ := hs.listing listing hlisting
        obtain ⟨id, hid, hunlisted⟩ : ∃ id ∈ s.checker.currentNodeIDs, id ∉ listing.ids := by
          simpa [List.subset_def] using hmissing.2
        refine ⟨listing.time, r, id, hle, hr, ?_, ?_⟩
        · show id ∈ (compareListing s.checker listing.ids).currentNodeIDs
          unfold compareListing
          rw [if_pos hmissing]
          exact hid
        · rw [← hids id]
          exact hunlisted
      · -- nothing missing: the flag is as it was, and so is its reason
        have hsame : compareListing s.checker listing.ids = s.checker := if_neg hmissing
        have halarm : (compareListing s.checker listing.ids).needsRebuild = true := halarm
        rw [hsame] at halarm
        obtain ⟨time, r, id, hle, hr, hid, hunhealthy⟩ := hs.alarm halarm
        refine ⟨time, r, id, hle, hr, ?_, hunhealthy⟩
        show id ∈ (compareListing s.checker listing.ids).currentNodeIDs
        rw [hsame]
        exact hid
  | check _ => exact ⟨hs.listing, hs.alarm⟩

/-- What the user is told is the flag. -/
theorem answer_of_check {s s' : System} {needsRebuild : Bool}
    (h : Step hops heartbeatTimeout s (.check needsRebuild) s') :
    s.checker.needsRebuild = needsRebuild := by
  generalize hevent : Event.check needsRebuild = e at h
  cases h with
  | check _ =>
    injection hevent with hanswer
    exact hanswer.symm
  | _ => cases hevent

/-- **Run**: an alarm is justified in every run whose comparisons do not
    find a node missing in a listing older than the circuit. -/
theorem alarms_justified {h : List Event} {s s' : System}
    (hrun : Steps (FreshStep hops heartbeatTimeout) .init h s)
    (hcheck : Step hops heartbeatTimeout s (.check true) s') : Justified s := by
  have hs : Inv s := hrun.invariant inv_init fun _ _ _ hs hstep => hs.step hstep
  exact hs.alarm (answer_of_check hcheck)

/-! ## Two runs -/

namespace Sample

open Directory.Sample

/-- Another guard. -/
def newNode : NodeRegistration :=
  ⟨generateNodeID (List.replicate 16 1), lit "guard", lit "10.0.0.2", 8080, lit "key"⟩

/-- The first guard registers, then the second, and the first leaves. -/
def first : NodeRegistry := (NodeRegistry.upsert .empty liveNode 0).2

def both : NodeRegistry := (NodeRegistry.upsert first newNode 10).2

def second : NodeRegistry := (NodeRegistry.delete both liveNode.nodeID).2

theorem change_first : Change 30 .empty first := by
  refine .operation 0 (.upsert liveNode 0) (NodeRegistry.upsert .empty liveNode 0).1 ?_ rfl
  exact ⟨by decide +kernel, by decide +kernel, by decide +kernel, by decide +kernel,
    by decide +kernel⟩

theorem change_both : Change 30 first both := by
  refine .operation 10 (.upsert newNode 10) (NodeRegistry.upsert first newNode 10).1 ?_ rfl
  exact ⟨by decide +kernel, by decide +kernel, by decide +kernel, by decide +kernel,
    by decide +kernel⟩

theorem change_second : Change 30 both second :=
  .operation 20 (.delete liveNode.nodeID) (NodeRegistry.delete both liveNode.nodeID).1 trivial rfl

theorem drawn_first : Drawn first 1 [liveNode.nodeID] := by
  have hoffers : Offers first "guard" ⟨liveNode, 0, .healthy⟩ :=
    ⟨by decide +kernel, rfl, rfl⟩
  exact .one hoffers

theorem drawn_second : Drawn second 1 [newNode.nodeID] := by
  have hoffers : Offers second "guard" ⟨newNode, 10, .healthy⟩ :=
    ⟨by decide +kernel, rfl, rfl⟩
  exact .one hoffers

/-- The user watches a circuit of the first guard, and polls. -/
def watching : System :=
  ⟨first, [.empty], ⟨[liveNode.nodeID], false⟩, true, false, none, none, 1⟩

theorem fresh_watching :
    Steps (FreshStep 1 30) .init [.directory, .fetchCircuit, .setCircuitNodes, .start] watching := by
  let registered : System := ⟨first, [.empty], .init, false, false, none, none, 0⟩
  let fetched : System :=
    ⟨first, [.empty], .init, false, false, none, some ⟨[liveNode.nodeID], 1⟩, 0⟩
  let passed : System :=
    ⟨first, [.empty], ⟨[liveNode.nodeID], false⟩, false, false, none, none, 1⟩
  have hdirectory : FreshStep 1 30 .init .directory registered := ⟨.directory change_first, nofun⟩
  have hcircuit : FreshStep 1 30 registered .fetchCircuit fetched :=
    ⟨.fetchCircuit rfl drawn_first, nofun⟩
  have hset : FreshStep 1 30 fetched .setCircuitNodes passed :=
    ⟨@Step.setCircuitNodes 1 30 fetched ⟨[liveNode.nodeID], 1⟩ rfl, nofun⟩
  have hstart : FreshStep 1 30 passed .start watching := ⟨.start (by simp [passed]), nofun⟩
  exact (((Steps.single hdirectory).snoc hcircuit).snoc hset).snoc hstart

/-- The second guard registers, the first leaves, and then the user polls. -/
def alarmed : System :=
  ⟨second, [.empty, first, both], ⟨[liveNode.nodeID], true⟩, true, false, none, none, 1⟩

theorem fresh_alarmed :
    Steps (FreshStep 1 30) watching [.directory, .directory, .fetchListing, .compare] alarmed := by
  let joined : System :=
    ⟨both, [.empty, first], ⟨[liveNode.nodeID], false⟩, true, false, none, none, 1⟩
  let left : System :=
    ⟨second, [.empty, first, both], ⟨[liveNode.nodeID], false⟩, true, false, none, none, 1⟩
  let listing : Reading := ⟨healthyIDs (NodeRegistry.groupByType second.entries false), 3⟩
  let polled : System :=
    ⟨second, [.empty, first, both], ⟨[liveNode.nodeID], false⟩, true, false, some listing, none, 1⟩
  have hjoined : FreshStep 1 30 watching .directory joined := ⟨.directory change_both, nofun⟩
  have hleft : FreshStep 1 30 joined .directory left := ⟨.directory change_second, nofun⟩
  have hpolled : FreshStep 1 30 left .fetchListing polled :=
    ⟨.fetchListing rfl rfl rfl (.refl _), nofun⟩
  have hflag : compareListing ⟨[liveNode.nodeID], false⟩ listing.ids =
      ⟨[liveNode.nodeID], true⟩ := by decide +kernel
  have hcompared : FreshStep 1 30 polled .compare alarmed := by
    constructor
    · have hstep := @Step.compare 1 30 polled listing rfl
      rw [hflag] at hstep
      exact hstep
    · intro _ hstale
      -- the listing is of time 3, the circuit of time 1
      obtain ⟨_, hlisting, hlt, -⟩ := hstale
      obtain rfl := Option.some.inj hlisting
      exact absurd hlt (by decide)
  exact (((Steps.single hjoined).snoc hleft).snoc hpolled).snoc hcompared

end Sample

/-- The first guard has left. -/
theorem alarms_justified_sample : Justified Sample.alarmed := by
  have hcheck : Step 1 30 Sample.alarmed (.check true) Sample.alarmed := .check rfl
  exact alarms_justified (Sample.fresh_watching.append Sample.fresh_alarmed) hcheck

namespace Sample

open Directory.Sample

/-- The user polls, and before the listing is compared it rebuilds its
    circuit with the second guard. -/
def misled : System :=
  ⟨second, [.empty, first, both], ⟨[newNode.nodeID], true⟩, true, false, none, none, 3⟩

theorem run_misled :
    Steps (Step 1 30) watching
      [.fetchListing, .directory, .directory, .fetchCircuit, .setCircuitNodes, .compare] misled := by
  let old : Reading := ⟨healthyIDs (NodeRegistry.groupByType first.entries false), 1⟩
  let watched : Checker := ⟨[liveNode.nodeID], false⟩
  let polled : System := ⟨first, [.empty], watched, true, false, some old, none, 1⟩
  let joined : System := ⟨both, [.empty, first], watched, true, false, some old, none, 1⟩
  let left : System := ⟨second, [.empty, first, both], watched, true, false, some old, none, 1⟩
  let fetched : System :=
    ⟨second, [.empty, first, both], watched, true, false, some old, some ⟨[newNode.nodeID], 3⟩, 1⟩
  let passed : System :=
    ⟨second, [.empty, first, both], ⟨[newNode.nodeID], false⟩, true, false, some old, none, 3⟩
  have hpolled : Step 1 30 watching .fetchListing polled := .fetchListing rfl rfl rfl (.refl _)
  have hjoined : Step 1 30 polled .directory joined := .directory change_both
  have hleft : Step 1 30 joined .directory left := .directory change_second
  have hfetched : Step 1 30 left .fetchCircuit fetched := .fetchCircuit rfl drawn_second
  have hpassed : Step 1 30 fetched .setCircuitNodes passed :=
    @Step.setCircuitNodes 1 30 fetched ⟨[newNode.nodeID], 3⟩ rfl
  -- the second guard had not registered when the listing was fetched
  have hflag : compareListing ⟨[newNode.nodeID], false⟩ old.ids = ⟨[newNode.nodeID], true⟩ := by
    decide +kernel
  have hcompared : Step 1 30 passed .compare misled := by
    have hstep := @Step.compare 1 30 passed old rfl
    rw [hflag] at hstep
    exact hstep
  exact (((((Steps.single hpolled).snoc hjoined).snoc hleft).snoc hfetched).snoc hpassed).snoc
    hcompared

end Sample

/-- **A false alarm**: the user is told to rebuild, and the only node of its
    circuit has been healthy since before the circuit was fetched. -/
theorem false_alarm : ∃ h, Steps (Step 1 30) .init h Sample.misled ∧
    Step 1 30 Sample.misled (.check true) Sample.misled ∧ ¬Justified Sample.misled := by
  -- the circuit of the second guard was fetched at time 3, the last change of the registry
  have hwatching := Sample.fresh_watching.mono fun _ _ _ hstep => hstep.1
  refine ⟨_, hwatching.append Sample.run_misled, .check rfl, ?_⟩
  intro hjustified
  obtain ⟨time, r, id, hle, hr, hid, hunhealthy⟩ := hjustified
  obtain ⟨hlt, hget⟩ := List.getElem?_eq_some_iff.mp hr
  have htime : time = 3 := by
    have hlt : time < 4 := hlt
    have hle : 3 ≤ time := hle
    omega
  subst htime
  obtain rfl : Sample.second = r := hget
  obtain rfl := List.mem_singleton.mp hid
  apply hunhealthy
  exact ⟨⟨Sample.newNode, 10, .healthy⟩, ⟨Sample.newNode.nodeID, by decide +kernel⟩, rfl,
    by decide +kernel, rfl⟩

end HopVault.Python.Health
