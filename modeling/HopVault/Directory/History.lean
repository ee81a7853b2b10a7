import HopVault.Framework.History
import HopVault.Directory.Registry

/-! # The registry and its history

    What is in the registry is a function of the operations made on it:
    which nodes it knows, what it keeps about each, and which nodes a
    cleanup reports. -/

namespace HopVault.Directory.NodeRegistry

open Framework

/-! ## Operations -/

/-- An operation on the registry and what it returned. -/
inductive Entry where
  | upsert (node : NodeRegistration) (now : Int)
  | heartbeat (nodeID : Bytes) (now : Int) (found : Bool)
  | delete (nodeID : Bytes) (found : Bool)
  | markUnhealthy (now timeout : Int) (transitions : List NodeRecord)

/-- The operation leads from one registry to another; a cleanup ranges over
    the map in any order. -/
inductive Does : NodeRegistry → Entry → NodeRegistry → Prop
  | upsert {r : NodeRegistry} (node : NodeRegistration) (now : Int) :
      Does r (.upsert node now) (r.upsert node now).2
  | heartbeat {r : NodeRegistry} (nodeID : Bytes) (now : Int) :
      Does r (.heartbeat nodeID now (r.heartbeat nodeID now).1.isSome) (r.heartbeat nodeID now).2
  | delete {r : NodeRegistry} (nodeID : Bytes) :
      Does r (.delete nodeID (r.delete nodeID).1) (r.delete nodeID).2
  | markUnhealthy {r : NodeRegistry} (now timeout : Int) (order : List (Bytes × NodeRecord)) :
      order.Perm r.entries →
      Does r (.markUnhealthy now timeout (r.markUnhealthy order now timeout).1)
        (r.markUnhealthy order now timeout).2

namespace Entry

/-- An `Upsert` for the node ID. -/
def Upserts (id : Bytes) : Entry → Prop
  | upsert node _ => node.nodeID = id
  | _ => False

/-- A `Delete` of the node ID. -/
def Deletes (id : Bytes) : Entry → Prop
  | delete nodeID _ => nodeID = id
  | _ => False

/-- An `Upsert` for the node ID or a successful `Heartbeat`. -/
def Refreshes (id : Bytes) : Entry → Prop
  | upsert node _ => node.nodeID = id
  | heartbeat nodeID _ found => nodeID = id ∧ found = true
  | _ => False

/-- The time an operation was given. -/
def time : Entry → Option Int
  | upsert _ now => some now
  | heartbeat _ now _ => some now
  | delete _ _ => none
  | markUnhealthy now _ _ => some now

/-- A cleanup at which a node last seen then has been silent for too long. -/
def Expires (lastSeen : Int) : Entry → Prop
  | markUnhealthy now timeout _ => timeout < timeSub now lastSeen
  | _ => False

/-- An operation on the node ID. -/
def Names (id : Bytes) : Entry → Prop
  | upsert node _ => node.nodeID = id
  | heartbeat nodeID _ _ => nodeID = id
  | delete nodeID _ => nodeID = id
  | markUnhealthy _ _ _ => False

end Entry

open Entry

/-! ## What the history says -/

/-- What the history says about the record of `id`. -/
structure Traced (h : List Entry) (id : Bytes) (record : NodeRecord) : Prop where
  /-- The fields are those of the latest `Upsert`. -/
  registration : ∃ now after, Latest (Upserts id) h (.upsert record.registration now) after ∧
    ∀ x ∈ after, ¬Deletes id x
  /-- The node was last seen at its latest refresh, and is unhealthy if it
      has expired since. -/
  refresh : ∃ e after, Latest (Refreshes id) h e after ∧ e.time = some record.lastSeen ∧
    (∀ x ∈ after, ¬Deletes id x) ∧
    (record.status = .unhealthy ↔ ∃ x ∈ after, Expires record.lastSeen x)

variable {h : List Entry} {r r' : NodeRegistry} {e x : Entry} {id : Bytes}
  {record record' : NodeRecord}

/-- An operation that leaves the fields and the time as they are, and
    changes the status only to let the node expire. -/
theorem Traced.keep (ht : Traced h id record) (hrefresh : ¬Refreshes id x)
    (hdelete : ¬Deletes id x) (hregistration : record'.registration = record.registration)
    (hseen : record'.lastSeen = record.lastSeen)
    (hstatus : record'.status = .unhealthy ↔
      record.status = .unhealthy ∨ Expires record.lastSeen x) : Traced (h ++ [x]) id record' := by
  -- a registration refreshes the record too
  have hupsert : ¬Upserts id x := by
    intro hx
    cases x with
    | upsert node now => exact hrefresh hx
    | _ => exact hx
  have hafter {after : List Entry} (ha : ∀ y ∈ after, ¬Deletes id y) :
      ∀ y ∈ after ++ [x], ¬Deletes id y := by
    intro y hy
    rcases List.mem_append.mp hy with hy | hy
    · exact ha y hy
    · rw [List.mem_singleton.mp hy]
      exact hdelete
  obtain ⟨now, after, hlatest, hundeleted⟩ := ht.registration
  obtain ⟨e, since, hrefreshed, htime, hkept, hexpired⟩ := ht.refresh
  refine ⟨⟨now, after ++ [x], ?_, hafter hundeleted⟩, e, since ++ [x], hrefreshed.snoc hrefresh, ?_,
    hafter hkept, ?_⟩
  · rw [hregistration]
    exact hlatest.snoc hupsert
  · rw [hseen]
    exact htime
  · rw [hstatus, hexpired, hseen]
    simp [or_and_right, exists_or]

/-- After an `Upsert`. -/
theorem Traced.upsert (node : NodeRegistration) (now : Int) :
    Traced (h ++ [.upsert node now]) node.nodeID ⟨node, now, .healthy⟩ :=
  ⟨⟨now, [], .self rfl, by simp⟩, .upsert node now, [], .self rfl, rfl, by simp, by simp⟩

/-- After a successful `Heartbeat`. -/
theorem Traced.heartbeat (ht : Traced h id record) (now : Int) :
    Traced (h ++ [.heartbeat id now true]) id
      { record with lastSeen := now, status := .healthy } := by
  obtain ⟨now', after, hlatest, hundeleted⟩ := ht.registration
  refine ⟨⟨now', after ++ [.heartbeat id now true], hlatest.snoc (by simp [Upserts]), fun y hy => ?_⟩,
    .heartbeat id now true, [], .self ⟨rfl, rfl⟩, rfl, by simp, by simp⟩
  rcases List.mem_append.mp hy with hy | hy
  · exact hundeleted y hy
  · rw [List.mem_singleton.mp hy]
    exact fun hd => hd

/-- A record that says nothing new is traced as before. -/
theorem Traced.same (ht : Traced h id record) (hrefresh : ¬Refreshes id x)
    (hdelete : ¬Deletes id x) (hexpire : ¬Expires record.lastSeen x) :
    Traced (h ++ [x]) id record :=
  ht.keep hrefresh hdelete rfl rfl (by simp [hexpire])

/-- What a cleanup does to the status of a node. -/
theorem markNode_getD (now timeout : Int) (record : NodeRecord) :
    let marked := (markNode now timeout record).getD record
    marked.registration = record.registration ∧ marked.lastSeen = record.lastSeen ∧
      (marked.status = .unhealthy ↔
        record.status = .unhealthy ∨ timeout < timeSub now record.lastSeen) := by
  unfold markNode
  split_ifs with hunhealthy hrecent
  · simp [hunhealthy]
  · have hnot : ¬timeout < timeSub now record.lastSeen := by omega
    simp [hunhealthy, hnot]
  · have hexpired : timeout < timeSub now record.lastSeen := by omega
    simp [hexpired]

/-- The registry knows a node exactly if an `Upsert` of it has occurred
    since its last `Delete`, and keeps about it what the history says. -/
structure Determined (h : List Entry) (r : NodeRegistry) (id : Bytes) : Prop where
  known : (∃ record, r.get? id = some record) ↔ SinceLast (Deletes id) (Upserts id) h
  traced : ∀ record, r.get? id = some record → Traced h id record

/-- An operation that does not concern a node. -/
theorem Determined.frame (hd : Determined h r id) (hget : r'.get? id = r.get? id)
    (hrefresh : ¬Refreshes id x) (hupsert : ¬Upserts id x) (hdelete : ¬Deletes id x)
    (hexpire : ∀ lastSeen, ¬Expires lastSeen x) : Determined (h ++ [x]) r' id := by
  refine ⟨?_, fun record hrecord => ?_⟩
  · rw [hget, hd.known, sinceLast_snoc]
    simp [hupsert, hdelete]
  · rw [hget] at hrecord
    exact (hd.traced record hrecord).same hrefresh hdelete (hexpire _)

/-- An `Upsert` tells all about the node it stores, and nothing about others. -/
theorem Determined.upsert (hd : Determined h r id) (node : NodeRegistration) (now : Int) :
    Determined (h ++ [.upsert node now]) (r.upsert node now).2 id := by
  have hget := get?_upsert (r := r) node now id
  by_cases hid : id = node.nodeID
  · subst hid
    rw [if_pos rfl] at hget
    refine ⟨?_, fun record hrecord => ?_⟩
    · rw [hget, sinceLast_snoc]
      simp [Upserts]
    · rw [hget, Option.some.injEq] at hrecord
      rw [← hrecord]
      exact .upsert node now
  · rw [if_neg hid] at hget
    exact hd.frame hget (Ne.symm hid) (Ne.symm hid) (fun hx => hx) fun _ hx => hx

/-- A `Heartbeat` refreshes the node it finds, and nothing else. -/
theorem Determined.heartbeat (hd : Determined h r id) (nodeID : Bytes) (now : Int) :
    Determined (h ++ [.heartbeat nodeID now (r.heartbeat nodeID now).1.isSome])
      (r.heartbeat nodeID now).2 id := by
  have hget := get?_heartbeat (r := r) nodeID now id
  by_cases hid : id = nodeID
  · subst hid
    rw [if_pos rfl] at hget
    cases hknown : r.get? id with
    | none =>
      -- it finds no record, so it counts as no refresh
      have hmissing : (r.heartbeat id now).1 = none := by
        unfold NodeRegistry.heartbeat
        rw [hknown]
      rw [hknown] at hget
      rw [hmissing]
      exact hd.frame (hget.trans hknown.symm) (fun hr => Bool.noConfusion hr.2) (fun hu => hu)
        (fun hx => hx) fun _ hx => hx
    | some record =>
      have hfound : (r.heartbeat id now).1.isSome = true := by
        unfold NodeRegistry.heartbeat
        rw [hknown]
        rfl
      rw [hknown] at hget
      rw [hfound]
      refine ⟨?_, fun record' hrecord' => ?_⟩
      · have hsince := hd.known.mp ⟨record, hknown⟩
        rw [hget, sinceLast_snoc]
        simp [Upserts, Deletes, hsince]
      · rw [hget] at hrecord'
        obtain rfl := Option.some.inj hrecord'
        exact (hd.traced record hknown).heartbeat now
  · rw [if_neg hid] at hget
    exact hd.frame hget (fun hr => hid hr.1.symm) (fun hu => hu) (fun hx => hx) fun _ hx => hx

/-- A `Delete` leaves nothing to tell about the node. -/
theorem Determined.delete (hd : Determined h r id) (nodeID : Bytes) :
    Determined (h ++ [.delete nodeID (r.delete nodeID).1]) (r.delete nodeID).2 id := by
  have hget := get?_delete (r := r) nodeID id
  by_cases hid : id = nodeID
  · subst hid
    rw [if_pos rfl] at hget
    refine ⟨?_, fun record hrecord => ?_⟩
    · rw [hget, sinceLast_snoc]
      simp [Upserts, Deletes]
    · rw [hget] at hrecord
      cases hrecord
  · rw [if_neg hid] at hget
    exact hd.frame hget (fun hr => hr) (fun hu => hu) (Ne.symm hid) fun _ hx => hx

/-- A cleanup may change the status of any node, and what it tells is that. -/
theorem Determined.markUnhealthy (hd : Determined h r id) (now timeout : Int)
    {order : List (Bytes × NodeRecord)} (hperm : order.Perm r.entries) :
    Determined (h ++ [.markUnhealthy now timeout (r.markUnhealthy order now timeout).1])
      (r.markUnhealthy order now timeout).2 id := by
  have hget := get?_markUnhealthy hperm now timeout id
  refine ⟨?_, fun record hrecord => ?_⟩
  · -- it neither adds a record nor takes one away
    have hsame : (∃ record, (r.get? id).map (fun node => (markNode now timeout node).getD node) =
        some record) ↔ ∃ record, r.get? id = some record := by
      cases r.get? id <;> simp
    rw [hget, hsame, hd.known, sinceLast_snoc]
    simp [Upserts, Deletes]
  · rw [hget] at hrecord
    obtain ⟨old, hold, rfl⟩ := Option.map_eq_some_iff.mp hrecord
    obtain ⟨hregistration, hseen, hstatus⟩ := markNode_getD now timeout old
    exact (hd.traced old hold).keep (fun hr => hr) (fun hx => hx) hregistration hseen hstatus

/-- Each operation keeps the registry determined by its history. -/
theorem Determined.step (hd : Determined h r id) (hstep : Does r e r') :
    Determined (h ++ [e]) r' id := by
  cases hstep with
  | upsert node now => exact hd.upsert node now
  | heartbeat nodeID now => exact hd.heartbeat nodeID now
  | delete nodeID => exact hd.delete nodeID
  | markUnhealthy now timeout order hperm => exact hd.markUnhealthy now timeout hperm

/-- So it is at the end of every run. -/
theorem determined (hrun : Steps Does .empty h r) (id : Bytes) : Determined h r id :=
  hrun.induct (I := fun h r => Determined h r id) ⟨by simp, by simp⟩
    fun _ _ _ _ _ hd hstep => hd.step hstep

/-- Every record sits under its own node ID. -/
def Keyed (r : NodeRegistry) : Prop :=
  ∀ id record, r.get? id = some record → record.registration.nodeID = id

theorem keyed_of_run (hrun : Steps Does .empty h r) : Keyed r := by
  intro id record hrecord
  obtain ⟨now, after, hlatest, -⟩ := ((determined hrun id).traced record hrecord).registration
  exact hlatest.holds

/-! ## Frames and reports -/

/-- The fields and the time of a record, or that there is none. -/
def data (r : NodeRegistry) (id : Bytes) : Option (NodeRegistration × Int) :=
  (r.get? id).map fun record => (record.registration, record.lastSeen)

/-- A `Heartbeat` reports whether the node is known. -/
theorem Does.heartbeat_found {now : Int} {found : Bool}
    (hstep : Does r (.heartbeat id now found) r') :
    found = true ↔ ∃ record, r.get? id = some record := by
  cases hstep with
  | heartbeat _ _ =>
    unfold NodeRegistry.heartbeat
    cases r.get? id <;> simp

/-- So does a `Delete`. -/
theorem Does.delete_found {found : Bool} (hstep : Does r (.delete id found) r') :
    found = true ↔ ∃ record, r.get? id = some record := by
  cases hstep with
  | delete _ =>
    unfold NodeRegistry.delete
    cases r.get? id <;> simp

/-- An operation on one node ID changes the data of no other, and a cleanup
    that of none. -/
theorem Does.data (hstep : Does r e r') (hnames : ¬Names id e) :
    NodeRegistry.data r' id = NodeRegistry.data r id := by
  unfold NodeRegistry.data
  cases hstep with
  | upsert node now => rw [get?_upsert, if_neg (Ne.symm hnames)]
  | heartbeat nodeID now => rw [get?_heartbeat, if_neg (Ne.symm hnames)]
  | delete nodeID => rw [get?_delete, if_neg (Ne.symm hnames)]
  | markUnhealthy now timeout order hperm =>
    rw [get?_markUnhealthy hperm, Option.map_map]
    refine Option.map_congr fun record _ => ?_
    obtain ⟨hregistration, hseen, -⟩ := markNode_getD now timeout record
    exact Prod.ext hregistration hseen

/-- The record is the one a healthy record of the first registry has become
    by being marked unhealthy. -/
def Flipped (r r' : NodeRegistry) (record : NodeRecord) : Prop :=
  record.status = .unhealthy ∧ r'.get? record.registration.nodeID = some record ∧
    ∃ old, r.get? record.registration.nodeID = some old ∧ old.status = .healthy

theorem markNode_eq_some {now timeout : Int} :
    markNode now timeout record = some record' ↔ record.status = .healthy ∧
      timeout < timeSub now record.lastSeen ∧ record' = { record with status := .unhealthy } := by
  unfold markNode
  cases hstatus : record.status
  · by_cases hrecent : timeSub now record.lastSeen ≤ timeout
    · simp [hrecent]
    · simp [hrecent, Int.not_le.mp hrecent, eq_comm]
  · simp

/-- A part of a mapped list. -/
theorem map_filterMap_sublist {α β κ : Type} {f : α → Option β} {key : α → κ} {key' : β → κ}
    {l : List α} (hkey : ∀ a ∈ l, ∀ b, f a = some b → key' b = key a) :
    ((l.filterMap f).map key').Sublist (l.map key) := by
  induction l with
  | nil => exact .slnil
  | cons a l ih =>
    have ih := ih fun b hb => hkey b (List.mem_cons_of_mem _ hb)
    cases ha : f a with
    | none => simpa [List.filterMap_cons, ha] using ih.cons _
    | some b =>
      rw [List.filterMap_cons, ha, List.map_cons, List.map_cons, hkey a (by simp) b ha]
      exact ih.cons_cons _

/-- A cleanup returns the records it flips, in increasing order. -/
theorem Does.transitions (hkeyed : Keyed r) {now timeout : Int} {transitions : List NodeRecord}
    (hstep : Does r (.markUnhealthy now timeout transitions) r') :
    Increasing transitions ∧ ∀ record, record ∈ transitions ↔ Flipped r r' record := by
  cases hstep with
  | markUnhealthy _ _ order hperm =>
    have hget := get?_markUnhealthy hperm now timeout
    have hentry (entry : Bytes × NodeRecord) (he : entry ∈ order) :
        r.get? entry.1 = some entry.2 := SortedMap.get?_eq_some.mpr (hperm.mem_iff.mp he)
    constructor
    · -- the map is ranged over in some order; sorting by ID makes it irrelevant
      have hkeys : (order.map Prod.fst).Nodup := (hperm.map Prod.fst).nodup_iff.mpr r.nodup_keys
      refine increasing_sortByID (List.Sublist.nodup (map_filterMap_sublist ?_) hkeys)
      intro entry he marked hmarked
      obtain ⟨-, -, rfl⟩ := markNode_eq_some.mp hmarked
      exact hkeyed _ entry.2 (hentry entry he)
    · intro record
      show record ∈ sortByID _ ↔ _
      unfold sortByID
      rw [List.mem_mergeSort, List.mem_filterMap]
      constructor
      · rintro ⟨entry, he, hmarked⟩
        have hold := hentry entry he
        have hid := hkeyed _ _ hold
        have hnew := hget entry.1
        rw [hold, Option.map_some, hmarked, Option.getD_some] at hnew
        obtain ⟨hhealthy, -, rfl⟩ := markNode_eq_some.mp hmarked
        refine ⟨rfl, ?_, entry.2, ?_, hhealthy⟩
        · exact hid ▸ hnew
        · exact hid ▸ hold
      · -- back: the record that has become unhealthy is the marked one
        rintro ⟨hunhealthy, hnew, old, hold, hhealthy⟩
        refine ⟨(record.registration.nodeID, old), hperm.mem_iff.mpr
          (SortedMap.get?_eq_some.mp hold), ?_⟩
        rw [hget, hold, Option.map_some, Option.some.injEq] at hnew
        cases hmarked : markNode now timeout old with
        | some marked =>
          rw [hmarked] at hnew
          exact congrArg some hnew
        | none =>
          -- a record that is not marked would still be healthy
          rw [hmarked] at hnew
          rw [← show old = record from hnew, hhealthy] at hunhealthy
          cases hunhealthy

/-- A node that is not refreshed does not become healthy again. -/
theorem Does.unhealthy (hold : ∀ record, r.get? id = some record → record.status = .unhealthy)
    (hstep : Does r e r') (hrefresh : ¬Refreshes id e) :
    ∀ record, r'.get? id = some record → record.status = .unhealthy := by
  intro record hrecord
  cases hstep with
  | upsert node now =>
    rw [get?_upsert, if_neg (Ne.symm hrefresh)] at hrecord
    exact hold record hrecord
  | heartbeat nodeID now =>
    rw [get?_heartbeat] at hrecord
    -- a heartbeat that finds the record would be a refresh
    split_ifs at hrecord with hid
    · subst hid
      obtain ⟨old, hknown, -⟩ := Option.map_eq_some_iff.mp hrecord
      refine absurd ⟨rfl, ?_⟩ hrefresh
      unfold NodeRegistry.heartbeat
      rw [hknown]
      rfl
    · exact hold record hrecord
  | delete nodeID =>
    rw [get?_delete] at hrecord
    split_ifs at hrecord
    exact hold record hrecord
  | markUnhealthy now timeout order hperm =>
    -- marking leaves an unhealthy record unhealthy
    rw [get?_markUnhealthy hperm] at hrecord
    obtain ⟨old, hknown, rfl⟩ := Option.map_eq_some_iff.mp hrecord
    exact (markNode_getD now timeout old).2.2.mpr (.inl (hold old hknown))

/-- So it stays over a run without a refresh. -/
theorem unhealthy_of_run (hrun : Steps Does r h r')
    (hold : ∀ record, r.get? id = some record → record.status = .unhealthy)
    (hnone : ∀ e ∈ h, ¬Refreshes id e) :
    ∀ record, r'.get? id = some record → record.status = .unhealthy := by
  induction hrun with
  | nil => exact hold
  | snoc _ hstep ih =>
    exact hstep.unhealthy (ih fun e he => hnone e (List.mem_append_left _ he))
      (hnone _ (List.mem_append_right _ (List.mem_singleton_self _)))

/-- Between two reports of a node it has been refreshed. -/
theorem refreshed_between {h₁ h₂ h₃ : List Entry} {now timeout now' timeout' : Int}
    {transitions transitions' : List NodeRecord}
    (hrun : Steps Does .empty (h₁ ++ .markUnhealthy now timeout transitions ::
      (h₂ ++ .markUnhealthy now' timeout' transitions' :: h₃)) r)
    (hfirst : record ∈ transitions) (hsecond : record' ∈ transitions')
    (hsame : record.registration.nodeID = record'.registration.nodeID) :
    ∃ e ∈ h₂, Refreshes record.registration.nodeID e := by
  obtain ⟨r₁, r₂, hrun₁, hmark, hrun⟩ := hrun.of_append_cons
  obtain ⟨r₃, r₄, hrun₂, hmark', -⟩ := hrun.of_append_cons
  by_contra hnone
  push Not at hnone
  -- after the first report the record is unhealthy
  obtain ⟨hunhealthy, hget, -⟩ := ((hmark.transitions (keyed_of_run hrun₁)).2 record).mp hfirst
  have hflipped : ∀ x, r₂.get? record.registration.nodeID = some x → x.status = .unhealthy :=
    fun x hx => Option.some.inj (hget.symm.trans hx) ▸ hunhealthy
  have hkept := unhealthy_of_run hrun₂ hflipped hnone
  -- so the second cleanup has nothing to flip
  have hkeyed₃ := keyed_of_run ((hrun₁.snoc hmark).append hrun₂)
  obtain ⟨-, -, old, hold, hhealthy⟩ := ((hmark'.transitions hkeyed₃).2 record').mp hsecond
  rw [← hsame] at hold
  rw [hkept old hold] at hhealthy
  cases hhealthy

/-- **The registry is an exact function of its history**: which nodes it
    knows and what it keeps about each, which heartbeats and deregistrations
    find their node, what an operation leaves alone, and which nodes a
    cleanup reports, and how often. -/
theorem registry_exact (hrun : Steps Does .empty h r) :
    (∀ id, (∃ record, r.get? id = some record) ↔ SinceLast (Deletes id) (Upserts id) h) ∧
    (∀ id record, r.get? id = some record → Traced h id record) ∧
    (∀ id now found r', Does r (.heartbeat id now found) r' →
      (found = true ↔ SinceLast (Deletes id) (Upserts id) h)) ∧
    (∀ id found r', Does r (.delete id found) r' →
      (found = true ↔ SinceLast (Deletes id) (Upserts id) h)) ∧
    (∀ e r', Does r e r' → ∀ id, ¬Names id e → data r' id = data r id) ∧
    (∀ now timeout transitions r', Does r (.markUnhealthy now timeout transitions) r' →
      Increasing transitions ∧ ∀ record, record ∈ transitions ↔ Flipped r r' record) ∧
    (∀ h₁ h₂ h₃ now timeout transitions now' timeout' transitions',
      h = h₁ ++ .markUnhealthy now timeout transitions ::
        (h₂ ++ .markUnhealthy now' timeout' transitions' :: h₃) →
      ∀ record ∈ transitions, ∀ record' ∈ transitions',
        record.registration.nodeID = record'.registration.nodeID →
        ∃ e ∈ h₂, Refreshes record.registration.nodeID e) := by
  refine ⟨fun id => (determined hrun id).known, fun id => (determined hrun id).traced,
    fun id _ _ _ hstep => hstep.heartbeat_found.trans (determined hrun id).known,
    fun id _ _ hstep => hstep.delete_found.trans (determined hrun id).known,
    fun e r' hstep id => hstep.data, fun _ _ _ r' hstep => hstep.transitions (keyed_of_run hrun), ?_⟩
  rintro h₁ h₂ h₃ now timeout transitions now' timeout' transitions' rfl record hfirst record'
    hsecond hsame
  exact refreshed_between hrun hfirst hsecond hsame

namespace Sample

def guardNode : NodeRegistration := ⟨lit "a", lit "guard", lit "10.0.0.1", 8080, lit "key"⟩

def relayNode : NodeRegistration := ⟨lit "b", lit "relay", lit "10.0.0.2", 8080, lit "key"⟩

/-- The guard after it has come back elsewhere. -/
def movedNode : NodeRegistration := { guardNode with host := lit "10.0.0.3" }

/-- The relay is silent until the first cleanup, at 40, and refreshed after
    it. The guard leaves, tries a heartbeat and registers again. -/
def parting : List Entry :=
  [.upsert guardNode 0, .upsert relayNode 1, .heartbeat (lit "a") 20 true,
    .markUnhealthy 40 30 [⟨relayNode, 1, .unhealthy⟩], .heartbeat (lit "b") 41 true,
    .delete (lit "a") true]

def history : List Entry :=
  parting ++ [.heartbeat (lit "a") 42 false, .upsert movedNode 43,
    .markUnhealthy 80 30 [⟨movedNode, 43, .unhealthy⟩, ⟨relayNode, 41, .unhealthy⟩]]

def silent : NodeRegistry :=
  (((NodeRegistry.upsert .empty guardNode 0).2.upsert relayNode 1).2.heartbeat (lit "a") 20).2

def parted : NodeRegistry :=
  (((silent.markUnhealthy silent.entries 40 30).2.heartbeat (lit "b") 41).2.delete (lit "a")).2

def moved : NodeRegistry := ((parted.heartbeat (lit "a") 42).2.upsert movedNode 43).2

def ended : NodeRegistry := (moved.markUnhealthy moved.entries 80 30).2

theorem does_heartbeat {r : NodeRegistry} {nodeID : Bytes} {now : Int} {found : Bool}
    (hfound : (r.heartbeat nodeID now).1.isSome = found) :
    Does r (.heartbeat nodeID now found) (r.heartbeat nodeID now).2 :=
  hfound ▸ .heartbeat nodeID now

theorem does_delete {r : NodeRegistry} {nodeID : Bytes} {found : Bool}
    (hfound : (r.delete nodeID).1 = found) :
    Does r (.delete nodeID found) (r.delete nodeID).2 :=
  hfound ▸ .delete nodeID

theorem does_markUnhealthy {r : NodeRegistry} {now timeout : Int} {transitions : List NodeRecord}
    (hmarked : r.entries.filterMap (fun e => markNode now timeout e.2) = transitions)
    (hsorted : transitions.Pairwise fun a b =>
      decide (a.registration.nodeID ≤ b.registration.nodeID) = true) :
    Does r (.markUnhealthy now timeout transitions) (r.markUnhealthy r.entries now timeout).2 := by
  have htransitions : (r.markUnhealthy r.entries now timeout).1 = transitions := by
    show sortByID _ = transitions
    rw [hmarked]
    exact List.mergeSort_of_pairwise hsorted
  exact htransitions ▸ .markUnhealthy now timeout r.entries (.refl _)

theorem run_parting : Steps Does .empty parting parted := by
  have hbeat : Does _ (.heartbeat (lit "a") 20 true) silent := does_heartbeat (by decide +kernel)
  have hmark : Does silent (.markUnhealthy 40 30 [⟨relayNode, 1, .unhealthy⟩]) _ :=
    does_markUnhealthy (by decide +kernel) (by simp)
  have hrevive : Does (silent.markUnhealthy silent.entries 40 30).2 (.heartbeat (lit "b") 41 true)
      _ := does_heartbeat (by decide +kernel)
  have hdelete : Does ((silent.markUnhealthy silent.entries 40 30).2.heartbeat (lit "b") 41).2
      (.delete (lit "a") true) parted := does_delete (by decide +kernel)
  exact (((((Steps.single (.upsert guardNode 0)).snoc (.upsert relayNode 1)).snoc hbeat).snoc
    hmark).snoc hrevive).snoc hdelete

theorem does_missed :
    Does parted (.heartbeat (lit "a") 42 false) (parted.heartbeat (lit "a") 42).2 :=
  does_heartbeat (by decide +kernel)

theorem run_moved : Steps Does .empty
    (parting ++ [.heartbeat (lit "a") 42 false, .upsert movedNode 43]) moved := by
  have hrun := (run_parting.snoc does_missed).snoc (.upsert movedNode 43)
  rwa [List.append_assoc] at hrun

theorem does_last : Does moved (.markUnhealthy 80 30
    [⟨movedNode, 43, .unhealthy⟩, ⟨relayNode, 41, .unhealthy⟩]) ended :=
  does_markUnhealthy (by decide +kernel) (by decide +kernel)

theorem run_history : Steps Does .empty history ended := by
  have hrun := run_moved.snoc does_last
  rwa [List.append_assoc] at hrun

end Sample

/-- The guard is known under its new host, was missing in between, and the
    relay is reported twice with a heartbeat in between. -/
theorem registry_exact_sample :
    Traced Sample.history (lit "a") ⟨Sample.movedNode, 43, .unhealthy⟩ ∧
    Traced Sample.history (lit "b") ⟨Sample.relayNode, 41, .unhealthy⟩ ∧
    ¬SinceLast (Deletes (lit "a")) (Upserts (lit "a")) Sample.parting ∧
    Increasing [(⟨Sample.movedNode, 43, .unhealthy⟩ : NodeRecord),
      ⟨Sample.relayNode, 41, .unhealthy⟩] ∧
    ∃ e ∈ [.heartbeat (lit "b") 41 true, .delete (lit "a") true, .heartbeat (lit "a") 42 false,
      .upsert Sample.movedNode 43], Refreshes (lit "b") e := by
  obtain ⟨-, htraced, -, -, -, -, hbetween⟩ := registry_exact Sample.run_history
  obtain ⟨-, -, hfound, -⟩ := registry_exact Sample.run_parting
  obtain ⟨-, -, -, -, -, hreported, -⟩ := registry_exact Sample.run_moved
  have hmissing := hfound _ _ _ _ Sample.does_missed
  refine ⟨htraced _ _ (by decide +kernel), htraced _ _ (by decide +kernel), by simpa using hmissing,
    (hreported _ _ _ _ Sample.does_last).1, ?_⟩
  exact hbetween [.upsert Sample.guardNode 0, .upsert Sample.relayNode 1,
    .heartbeat (lit "a") 20 true] _ [] 40 30 _ 80 30 _ rfl ⟨Sample.relayNode, 1, .unhealthy⟩
    (by simp) ⟨Sample.relayNode, 41, .unhealthy⟩ (by simp) rfl

end HopVault.Directory.NodeRegistry
