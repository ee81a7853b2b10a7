import HopVault.Http

/-! # The registry of the directory server

    `NodeRegistry` of `directory-server/main.go`. Its methods hold a lock,
    so each is one step. A loop over the map takes the order in which it
    meets the entries as an argument. -/

namespace HopVault.Directory

open Framework Framework.Json

/-- What a node says about itself. -/
structure NodeRegistration where
  nodeID : Bytes
  nodeType : Bytes
  host : Bytes
  port : Int64
  publicKey : Bytes
  deriving DecidableEq, Repr

inductive Status where
  | healthy
  | unhealthy
  deriving DecidableEq, Repr

namespace Status

def text : Status → Bytes
  | healthy => lit "HEALTHY"
  | unhealthy => lit "UNHEALTHY"

end Status

/-- What the directory keeps about a node; `lastSeen` is in nanoseconds. -/
structure NodeRecord where
  registration : NodeRegistration
  lastSeen : Int
  status : Status
  deriving DecidableEq, Repr

abbrev NodeRegistry : Type := SortedMap Bytes NodeRecord

/-- `Time.Sub`, which saturates at the bounds of a `Duration`. -/
def timeSub (t u : Int) : Int := max (-2 ^ 63) (min (2 ^ 63 - 1) (t - u))

/-- `sort.Slice` by node ID. -/
def sortByID (nodes : List NodeRecord) : List NodeRecord :=
  nodes.mergeSort fun a b => decide (a.registration.nodeID ≤ b.registration.nodeID)

/-- The list is in strictly increasing order of the node IDs. -/
def Increasing (nodes : List NodeRecord) : Prop :=
  nodes.Pairwise fun a b => a.registration.nodeID < b.registration.nodeID

/-- Sorting nodes with different IDs puts them into increasing order. -/
theorem increasing_sortByID {nodes : List NodeRecord}
    (hids : (nodes.map (·.registration.nodeID)).Nodup) : Increasing (sortByID nodes) := by
  have hperm : (sortByID nodes).Perm nodes := List.mergeSort_perm _ _
  have hsorted : (sortByID nodes).Pairwise fun a b =>
      a.registration.nodeID ≤ b.registration.nodeID := by
    refine (List.pairwise_mergeSort ?_ ?_ nodes).imp fun h => of_decide_eq_true h
    · intro a b c hab hbc
      exact decide_eq_true (le_trans (of_decide_eq_true hab) (of_decide_eq_true hbc))
    · intro a b
      simpa using le_total a.registration.nodeID b.registration.nodeID
  have hne : (sortByID nodes).Pairwise fun a b => a.registration.nodeID ≠ b.registration.nodeID :=
    List.pairwise_map.mp ((hperm.map _).nodup_iff.mpr hids)
  exact hsorted.imp₂ (fun _ _ hle hne => lt_of_le_of_ne hle hne) hne

/-- There is one increasing order of the same nodes. -/
theorem Increasing.eq_of_perm {nodes nodes' : List NodeRecord} (h : Increasing nodes)
    (h' : Increasing nodes') (hperm : nodes.Perm nodes') : nodes = nodes' := by
  refine hperm.eq_of_pairwise ?_ h h'
  intro a b _ _ hab hba
  exact absurd hab (not_lt_of_gt hba)

namespace NodeRegistry

variable (r : NodeRegistry)

def upsert (node : NodeRegistration) (now : Int) : NodeRecord × NodeRegistry :=
  let record : NodeRecord := ⟨node, now, .healthy⟩
  (record, r.insert node.nodeID record)

def heartbeat (nodeID : Bytes) (now : Int) : Option NodeRecord × NodeRegistry :=
  match r.get? nodeID with
  | none => (none, r)
  | some record =>
    let record := { record with lastSeen := now, status := .healthy }
    (some record, r.insert nodeID record)

def delete (nodeID : Bytes) : Bool × NodeRegistry :=
  match r.get? nodeID with
  | none => (false, r)
  | some _ => (true, r.erase nodeID)

/-- The nodes, met in `order`, sorted by ID. -/
def list (order : List (Bytes × NodeRecord)) (includeUnhealthy : Bool) : List NodeRecord :=
  sortByID ((order.map (·.2)).filter fun n => includeUnhealthy || n.status == .healthy)

/-- `GET /nodes` lists the nodes by type. -/
structure NodesByTypeResponse where
  guard : List NodeRecord
  relay : List NodeRecord
  exit : List NodeRecord

def groupByType (order : List (Bytes × NodeRecord)) (includeUnhealthy : Bool) :
    NodesByTypeResponse :=
  let ofType (nodeType : String) :=
    (list order includeUnhealthy).filter fun n => n.registration.nodeType == lit nodeType
  ⟨ofType "guard", ofType "relay", ofType "exit"⟩

/-- The status a node gets from a cleanup, if it changes. -/
def markNode (now timeout : Int) (node : NodeRecord) : Option NodeRecord :=
  if node.status = .unhealthy then none
  else if timeSub now node.lastSeen ≤ timeout then none
  else some { node with status := .unhealthy }

/-- Marks the nodes that have not been seen for longer than `timeout`, and
    returns them. -/
def markUnhealthy (order : List (Bytes × NodeRecord)) (now timeout : Int) :
    List NodeRecord × NodeRegistry :=
  (sortByID (order.filterMap fun e => markNode now timeout e.2),
    SortedMap.updateAll (fun _ => markNode now timeout) order r)

/-! ## What the operations do to one record -/

variable {r}

theorem get?_upsert (node : NodeRegistration) (now : Int) (id : Bytes) :
    (upsert r node now).2.get? id =
      if id = node.nodeID then some ⟨node, now, .healthy⟩ else r.get? id := by
  simp [upsert, SortedMap.get?_insert]

theorem get?_heartbeat (nodeID : Bytes) (now : Int) (id : Bytes) :
    (heartbeat r nodeID now).2.get? id =
      if id = nodeID then (r.get? id).map fun record =>
        { record with lastSeen := now, status := .healthy }
      else r.get? id := by
  unfold heartbeat
  by_cases hid : id = nodeID
  · subst hid
    cases h : r.get? id with
    | none => simp [h]
    | some record => simp [SortedMap.get?_insert]
  · cases h : r.get? nodeID with
    | none => simp [hid]
    | some record => simp [SortedMap.get?_insert, hid]

theorem get?_delete (nodeID id : Bytes) :
    (delete r nodeID).2.get? id = if id = nodeID then none else r.get? id := by
  unfold delete
  cases h : r.get? nodeID with
  | none =>
    by_cases hid : id = nodeID
    · simp [hid, h]
    · simp [hid]
  | some record => simp [SortedMap.get?_erase]

/-- In whatever order the loop meets the nodes. -/
theorem get?_markUnhealthy {order : List (Bytes × NodeRecord)} (h : order.Perm r.entries)
    (now timeout : Int) (id : Bytes) :
    (markUnhealthy r order now timeout).2.get? id =
      (r.get? id).map fun node => (markNode now timeout node).getD node :=
  SortedMap.get?_updateAll h id

/-- A healthy node is listed, in whatever order the loop meets the nodes. -/
theorem mem_list {order : List (Bytes × NodeRecord)} (h : order.Perm r.entries) {id : Bytes}
    {record : NodeRecord} (hget : r.get? id = some record) (hhealthy : record.status = .healthy)
    (includeUnhealthy : Bool) : record ∈ list order includeUnhealthy := by
  unfold list sortByID
  rw [List.mem_mergeSort, List.mem_filter]
  refine ⟨List.mem_map.mpr ⟨(id, record), h.mem_iff.mpr (SortedMap.get?_eq_some.mp hget), rfl⟩, ?_⟩
  simp [hhealthy]

end NodeRegistry

end HopVault.Directory
