import HopVault.Framework.JsonText
import HopVault.Directory.Service
import HopVault.Directory.History
import HopVault.Directory.LiveNode

/-! # The registry is well formed

    Whatever requests reach the directory, it only keeps registrations
    that it has accepted, each under its own node ID. So the lists it
    hands out do not depend on the order in which the map is ranged over,
    and no node is lost when they are sorted by type. -/

namespace HopVault.Directory

open Framework Framework.Json Framework.Utf8
open NodeRegistry (NodesByTypeResponse)

/-! ## Accepted registrations -/

/-- The texts of a registration are well-formed UTF-8. -/
structure NodeRegistration.ValidTexts (n : NodeRegistration) : Prop where
  nodeID : Valid n.nodeID
  nodeType : Valid n.nodeType
  host : Valid n.host
  publicKey : Valid n.publicKey

/-- A registration that the directory accepts. -/
structure NodeRegistration.Accepted (n : NodeRegistration) : Prop where
  valid : validateNodeRegistration n = .ok ()
  texts : n.ValidTexts

theorem NodeRegistration.Accepted.nodeID_ne_nil {n : NodeRegistration} (h : n.Accepted) :
    n.nodeID ≠ [] := by
  intro hempty
  have hvalid := h.valid
  unfold validateNodeRegistration at hvalid
  rw [hempty, if_pos (by decide)] at hvalid
  cases hvalid

/-- What the directory reads from a body is well-formed text. -/
theorem validTexts_of_decode {body rest : Bytes} {payload : NodeRegistration}
    (h : decodeStrict NodeRegistration.fields .zero body = some (payload, rest)) :
    payload.ValidTexts := by
  unfold decodeStrict at h
  split at h
  · rename_i j rest' hparse
    obtain ⟨a, hfill, he⟩ := Option.map_eq_some_iff.mp h
    obtain ⟨rfl, -⟩ := Prod.mk.inj he
    have hj := (parsePrefix_reads hparse).valid
    -- by induction on the members: a field is set to a valid text or left as it is
    refine fill_keeps (P := NodeRegistration.ValidTexts) hfill
      ⟨valid_nil, valid_nil, valid_nil, valid_nil⟩ ?_
    rintro ms rfl m hm f hf a b ha hb
    have hm := (ValidMembers.mem hj m hm).2
    -- each field reads one text or the port
    simp only [NodeRegistration.fields, List.mem_cons, List.not_mem_nil, or_false] at hf
    rcases hf with rfl | rfl | rfl | rfl | rfl <;>
      obtain ⟨s, hs, rfl⟩ := Option.map_eq_some_iff.mp hb
    · exact { ha with nodeID := asString_valid hm ha.nodeID hs }
    · exact { ha with nodeType := asString_valid hm ha.nodeType hs }
    · exact { ha with host := asString_valid hm ha.host hs }
    · exact { ha with }
    · exact { ha with publicKey := asString_valid hm ha.publicKey hs }
  · cases h

/-! ## What the handlers do -/

/-- An operation that a handler may perform. -/
def Operation.Allowed : Operation → Prop
  | upsert node _ => node.Accepted
  | randomIntn n => 0 < n
  | _ => True

/-- An operation that leaves the registry alone. -/
def Operation.ReadOnly : Operation → Prop
  | now => True
  | list _ => True
  | randomIntn n => 0 < n
  | _ => False

variable {formatTime : Int → Bytes} {heartbeatTimeout : Int}

theorem all_pick {P : Operation → Prop} (hrandom : ∀ n, 0 < n → P (.randomIntn n))
    {nodes : List NodeRecord} (hnodes : nodes ≠ []) :
    (Service.pick nodes).All P (fun _ => True) fun _ => True :=
  ⟨hrandom _ (by simpa using List.length_pos_iff.mpr hnodes), fun _ => trivial⟩

/-- `GET /circuit` only reads, and draws only from nodes there are. -/
theorem all_circuitHandler {P : Operation → Prop} (hlist : P (.list false))
    (hrandom : ∀ n, 0 < n → P (.randomIntn n)) (rawQuery : Bytes) :
    (Service.circuitHandler formatTime rawQuery).All P (fun _ => True) fun _ => True := by
  unfold Service.circuitHandler
  cases parseHops rawQuery with
  | error err => trivial
  | ok hops =>
    refine Prog.all_bind (T := fun _ => True) ⟨hlist, fun _ => trivial⟩ fun grouped _ => ?_
    unfold Service.drawCircuit
    split_ifs with hguard hone hrest
    · trivial
    · -- the draw is below the length of a group that is not empty
      refine Prog.all_bind (all_pick hrandom hguard) fun guard _ => ?_
      cases guard <;> trivial
    · trivial
    · obtain ⟨hrelay, hexit⟩ := not_or.mp hrest
      refine Prog.all_bind (all_pick hrandom hguard) fun guard _ => ?_
      cases guard with
      | none => trivial
      | some guard =>
        refine Prog.all_bind (all_pick hrandom hrelay) fun relay _ => ?_
        cases relay with
        | none => trivial
        | some relay =>
          refine Prog.all_bind (all_pick hrandom hexit) fun exit _ => ?_
          cases exit <;> trivial

/-- No handler does anything else. -/
theorem Call.allowed (c : Call) :
    (c.handler formatTime).All Operation.Allowed (fun _ => True) fun _ => True := by
  cases c with
  | update q =>
    -- only an accepted registration reaches upsert
    cases q with
    | register body =>
      show (Service.registerHandler formatTime body).All _ _ _
      unfold Service.registerHandler
      cases hdecode : decodeStrict NodeRegistration.fields .zero body with
      | none => trivial
      | some x =>
        obtain ⟨payload, rest⟩ := x
        dsimp only
        split_ifs
        · trivial
        · cases hvalid : validateNodeRegistration payload with
          | error err => trivial
          | ok _ =>
            exact ⟨trivial, fun now => ⟨⟨hvalid, validTexts_of_decode hdecode⟩, fun _ => trivial⟩⟩
    | heartbeat pathValue =>
      show (Service.heartbeatHandler formatTime pathValue).All _ _ _
      unfold Service.heartbeatHandler
      dsimp only
      split_ifs
      · trivial
      · exact ⟨trivial, fun now => ⟨trivial, fun _ => trivial⟩⟩
    | deregister pathValue =>
      show (Service.deregisterHandler pathValue).All _ _ _
      unfold Service.deregisterHandler
      dsimp only
      split_ifs
      · trivial
      · refine ⟨trivial, fun deleted => ?_⟩
        cases deleted <;> trivial
  | nodes => exact ⟨trivial, fun _ => trivial⟩
  | circuit rawQuery => exact all_circuitHandler trivial (fun _ h => h) rawQuery
  | debugNodes => exact ⟨trivial, fun _ => trivial⟩
  | other answer => trivial

/-- The handlers of the other routes change nothing. -/
theorem Call.readOnly {c : Call} (hc : ∀ q, c ≠ .update q) :
    (c.handler formatTime).All Operation.ReadOnly (fun _ => True) fun _ => True := by
  cases c with
  | update q => exact absurd rfl (hc q)
  | nodes => exact ⟨trivial, fun _ => trivial⟩
  | circuit rawQuery => exact all_circuitHandler trivial (fun _ h => h) rawQuery
  | debugNodes => exact ⟨trivial, fun _ => trivial⟩
  | other answer => trivial

/-! ## The invariant -/

/-- Every record sits under its own node ID, and has been accepted. -/
structure WellFormed (r : NodeRegistry) : Prop where
  keyed : NodeRegistry.Keyed r
  accepted : ∀ id record, r.get? id = some record → record.registration.Accepted

theorem wellFormed_empty : WellFormed .empty := ⟨by simp [NodeRegistry.Keyed], by simp⟩

variable {r r' : NodeRegistry} {t : Int}

/-- The records of `r'` come from `r`, up to status and time. -/
def Inherits (r r' : NodeRegistry) : Prop :=
  ∀ id record, r'.get? id = some record →
    ∃ old, r.get? id = some old ∧ record.registration = old.registration

theorem inherits_heartbeat (nodeID : Bytes) (now : Int) :
    Inherits r (r.heartbeat nodeID now).2 := by
  intro id record hrecord
  rw [NodeRegistry.get?_heartbeat] at hrecord
  split_ifs at hrecord with hid
  · obtain ⟨old, hold, rfl⟩ := Option.map_eq_some_iff.mp hrecord
    exact ⟨old, hold, rfl⟩
  · exact ⟨record, hrecord, rfl⟩

theorem inherits_delete (nodeID : Bytes) : Inherits r (r.delete nodeID).2 := by
  intro id record hrecord
  rw [NodeRegistry.get?_delete] at hrecord
  split_ifs at hrecord
  exact ⟨record, hrecord, rfl⟩

theorem inherits_markUnhealthy {order : List (Bytes × NodeRecord)} (horder : order.Perm r.entries)
    (now timeout : Int) : Inherits r (r.markUnhealthy order now timeout).2 := by
  intro id record hrecord
  rw [NodeRegistry.get?_markUnhealthy horder] at hrecord
  obtain ⟨old, hold, rfl⟩ := Option.map_eq_some_iff.mp hrecord
  exact ⟨old, hold, (NodeRegistry.markNode_getD now timeout old).1⟩

theorem WellFormed.inherits (hr : WellFormed r) (h : Inherits r r') : WellFormed r' := by
  constructor
  · intro id record hrecord
    obtain ⟨old, hold, hsame⟩ := h id record hrecord
    rw [hsame]
    exact hr.keyed id old hold
  · intro id record hrecord
    obtain ⟨old, hold, hsame⟩ := h id record hrecord
    rw [hsame]
    exact hr.accepted id old hold

/-- Every operation of a handler keeps the registry well formed. -/
theorem WellFormed.performs (hr : WellFormed r) {e : Operation} (he : e.Allowed) {a : e.Ans}
    (h : Performs t r e a r') : WellFormed r' := by
  cases e with
  | now => exact h.2 ▸ hr
  | upsert node now =>
    obtain rfl : r' = (r.upsert node now).2 := congrArg Prod.snd h
    -- the record under the ID just registered is the new one, all others are old
    constructor
    · intro id record hrecord
      rw [NodeRegistry.get?_upsert] at hrecord
      split_ifs at hrecord with hid
      · rw [← Option.some.inj hrecord, hid]
      · exact hr.keyed id record hrecord
    · intro id record hrecord
      rw [NodeRegistry.get?_upsert] at hrecord
      split_ifs at hrecord with hid
      · rw [← Option.some.inj hrecord]
        exact he
      · exact hr.accepted id record hrecord
  | heartbeat nodeID now =>
    obtain rfl : r' = (r.heartbeat nodeID now).2 := congrArg Prod.snd h
    exact hr.inherits (inherits_heartbeat nodeID now)
  | delete nodeID =>
    obtain rfl : r' = (r.delete nodeID).2 := congrArg Prod.snd h
    exact hr.inherits (inherits_delete nodeID)
  | list includeUnhealthy => exact h.1 ▸ hr
  | randomIntn n => exact h.1 ▸ hr

theorem WellFormed.cleanup (hr : WellFormed r) {order : List (Bytes × NodeRecord)}
    (horder : order.Perm r.entries) (timeout : Int) :
    WellFormed (cleanupUnhealthyNodes r order t timeout).2 :=
  hr.inherits (inherits_markUnhealthy horder t timeout)

/-- Each request and each cleanup keeps the registry well formed. -/
theorem WellFormed.serves (hr : WellFormed r) {x : Exchange}
    (h : Serves formatTime heartbeatTimeout r x r') : WellFormed r' := by
  cases h with
  | request t c hrun =>
    exact (hrun.of_all c.allowed hr fun e he s b s' hs h =>
      hs.performs he h).2
  | cleanup t order horder => exact hr.cleanup horder heartbeatTimeout

theorem wellFormed_of_run {h : List Exchange}
    (hrun : Steps (Serves formatTime heartbeatTimeout) .empty h r) : WellFormed r :=
  hrun.invariant wellFormed_empty fun _ _ _ hr hstep => hr.serves hstep

/-! ## Lists -/

/-- The IDs of the records are the keys they are kept under. -/
theorem WellFormed.nodup_ids (hr : WellFormed r) {order : List (Bytes × NodeRecord)}
    (horder : order.Perm r.entries) :
    ((order.map (·.2)).map (·.registration.nodeID)).Nodup := by
  have hids : (order.map (·.2)).map (·.registration.nodeID) = order.map Prod.fst := by
    rw [List.map_map]
    refine List.map_congr_left fun entry hentry => ?_
    exact hr.keyed _ _ (SortedMap.get?_eq_some.mpr (horder.mem_iff.mp hentry))
  rw [hids]
  exact (horder.map Prod.fst).nodup_iff.mpr r.nodup_keys

theorem WellFormed.increasing_list (hr : WellFormed r) {order : List (Bytes × NodeRecord)}
    (horder : order.Perm r.entries) (includeUnhealthy : Bool) :
    Increasing (NodeRegistry.list order includeUnhealthy) :=
  increasing_sortByID ((hr.nodup_ids horder).sublist (List.filter_sublist.map _))

theorem perm_list {order order' : List (Bytes × NodeRecord)} (h : order.Perm order')
    (includeUnhealthy : Bool) :
    (NodeRegistry.list order includeUnhealthy).Perm (NodeRegistry.list order' includeUnhealthy) :=
  (List.mergeSort_perm _ _).trans (((h.map _).filter _).trans (List.mergeSort_perm _ _).symm)

theorem perm_markUnhealthy {order order' : List (Bytes × NodeRecord)} (h : order.Perm order')
    (now timeout : Int) :
    (r.markUnhealthy order now timeout).1.Perm (r.markUnhealthy order' now timeout).1 :=
  (List.mergeSort_perm _ _).trans ((h.filterMap _).trans (List.mergeSort_perm _ _).symm)

/-- The nodes by type are the nodes, each once, in the group of its type
    and in the same order. -/
structure Partition (nodes : List NodeRecord) (grouped : NodesByTypeResponse) : Prop where
  guard : grouped.guard.Sublist nodes ∧ ∀ n ∈ grouped.guard, n.registration.nodeType = lit "guard"
  relay : grouped.relay.Sublist nodes ∧ ∀ n ∈ grouped.relay, n.registration.nodeType = lit "relay"
  exit : grouped.exit.Sublist nodes ∧ ∀ n ∈ grouped.exit, n.registration.nodeType = lit "exit"
  complete : (grouped.guard ++ grouped.relay ++ grouped.exit).Perm nodes

/-- A list is the concatenation of its parts by the value of `f`, up to
    order. -/
theorem perm_of_three {α β : Type} [BEq β] [LawfulBEq β] {f : α → β} {a b c : β} (hab : a ≠ b)
    (hac : a ≠ c) (hbc : b ≠ c) {l : List α} (h : ∀ x ∈ l, f x = a ∨ f x = b ∨ f x = c) :
    (l.filter (f · == a) ++ l.filter (f · == b) ++ l.filter (f · == c)).Perm l := by
  -- the head goes to the group of its type, past those before it
  induction l with
  | nil => simp
  | cons x l ih =>
    have ih := ih fun y hy => h y (List.mem_cons_of_mem _ hy)
    rcases h x (by simp) with hx | hx | hx
    · simpa [hx, hab, hac] using ih.cons x
    · have hmiddle : (l.filter (f · == a) ++ x :: (l.filter (f · == b) ++ l.filter (f · == c))).Perm
          (x :: (l.filter (f · == a) ++ (l.filter (f · == b) ++ l.filter (f · == c)))) :=
        List.perm_middle
      rw [← List.append_assoc] at hmiddle
      simpa [hx, hab.symm, hbc] using hmiddle.trans (ih.cons x)
    · have hmiddle : (l.filter (f · == a) ++ l.filter (f · == b) ++ x :: l.filter (f · == c)).Perm
          (x :: (l.filter (f · == a) ++ l.filter (f · == b) ++ l.filter (f · == c))) :=
        List.perm_middle
      simpa [hx, hac.symm, hbc.symm] using hmiddle.trans (ih.cons x)

theorem mem_list_iff {order : List (Bytes × NodeRecord)} (horder : order.Perm r.entries)
    {includeUnhealthy : Bool} {record : NodeRecord} :
    record ∈ NodeRegistry.list order includeUnhealthy ↔
      (∃ id, r.get? id = some record) ∧ (includeUnhealthy = true ∨ record.status = .healthy) := by
  unfold NodeRegistry.list sortByID
  rw [List.mem_mergeSort, List.mem_filter, List.mem_map]
  have hentry : (∃ e ∈ order, e.2 = record) ↔ ∃ id, r.get? id = some record := by
    constructor
    · rintro ⟨e, he, rfl⟩
      exact ⟨e.1, SortedMap.get?_eq_some.mpr (horder.mem_iff.mp he)⟩
    · rintro ⟨id, hid⟩
      exact ⟨(id, record), horder.mem_iff.mpr (SortedMap.get?_eq_some.mp hid), rfl⟩
  rw [hentry]
  simp

theorem WellFormed.nodeType (hr : WellFormed r) {id : Bytes} {record : NodeRecord}
    (hrecord : r.get? id = some record) :
    record.registration.nodeType = lit "guard" ∨ record.registration.nodeType = lit "relay" ∨
      record.registration.nodeType = lit "exit" := by
  have htype := validNodeType_of_validate (hr.accepted id record hrecord).valid
  simpa only [isValidNodeType, Bool.or_eq_true, beq_iff_eq, or_assoc] using htype

theorem WellFormed.partition (hr : WellFormed r) {order : List (Bytes × NodeRecord)}
    (horder : order.Perm r.entries) (includeUnhealthy : Bool) :
    Partition (NodeRegistry.list order includeUnhealthy)
      (NodeRegistry.groupByType order includeUnhealthy) := by
  have hfilter (l : List NodeRecord) (nodeType : String) :
      (l.filter fun n => n.registration.nodeType == lit nodeType).Sublist l ∧
        ∀ n ∈ l.filter fun n => n.registration.nodeType == lit nodeType,
          n.registration.nodeType = lit nodeType :=
    ⟨List.filter_sublist, fun n hn => by simpa using (List.mem_filter.mp hn).2⟩
  refine ⟨hfilter _ _, hfilter _ _, hfilter _ _, ?_⟩
  refine perm_of_three (f := fun n : NodeRecord => n.registration.nodeType) (by decide) (by decide)
    (by decide) fun n hn => ?_
  obtain ⟨⟨id, hid⟩, -⟩ := (mem_list_iff horder).mp hn
  exact hr.nodeType hid

/-! ## Rejected requests -/

/-- A request that is answered with a 4xx status changes nothing. -/
theorem answer_rejected (r : NodeRegistry) (now : Int) (q : Request)
    (hstatus : 400 ≤ (q.answer formatTime r now).1.statusCode) :
    (q.answer formatTime r now).2 = r := by
  cases q with
  | register body =>
    simp only [Request.answer, Directory.registerHandler] at hstatus ⊢
    cases hdecode : decodeStrict NodeRegistration.fields .zero body with
    | none => rfl
    | some x =>
      obtain ⟨payload, rest⟩ := x
      cases hmore : decoderMore rest with
      | true => simp [hmore]
      | false =>
        -- a registration that is taken answers 201
        cases hvalid : validateNodeRegistration payload with
        | error err => simp [hmore, hvalid]
        | ok _ => simp [hdecode, hmore, hvalid, writeJSON, statusCreated] at hstatus
  | heartbeat pathValue =>
    simp only [Request.answer, Directory.heartbeatHandler, NodeRegistry.heartbeat] at hstatus ⊢
    by_cases hid : trimSpace pathValue = []
    · simp [hid]
    · -- the ID is known: the answer is 200
      cases hfound : r.get? (trimSpace pathValue) with
      | none => simp [hid]
      | some record => simp [hid, hfound, writeJSON, statusOK] at hstatus
  | deregister pathValue =>
    simp only [Request.answer, Directory.deregisterHandler, NodeRegistry.delete] at hstatus ⊢
    by_cases hid : trimSpace pathValue = []
    · simp [hid]
    · cases hfound : r.get? (trimSpace pathValue) with
      | none => simp [hid]
      | some record => simp [hid, hfound, writeJSON, statusOK] at hstatus

/-- The handlers that do not serve an update change nothing. -/
theorem runs_readOnly {c : Call} {answer : Option Response} (hc : ∀ q, c ≠ .update q)
    (hrun : Runs (Performs t) r (c.handler formatTime) answer r') : r' = r := by
  refine (hrun.of_all (I := fun s => s = r) (c.readOnly hc) rfl ?_).2
  rintro e he s b s' rfl hb
  cases e with
  | now => exact hb.2
  | list includeUnhealthy => exact hb.1
  | randomIntn n => exact hb.1
  | _ => exact he.elim

theorem serves_rejected {c : Call} {answer : Response}
    (h : Serves formatTime heartbeatTimeout r (.request t c (some answer)) r')
    (hstatus : 400 ≤ answer.statusCode) : r' = r := by
  cases h with
  | request _ _ hrun =>
    by_cases hc : ∃ q, c = .update q
    · obtain ⟨q, rfl⟩ := hc
      obtain ⟨hanswer, rfl⟩ := runs_update.mp hrun
      rw [Option.some.inj hanswer] at hstatus
      exact answer_rejected r t q hstatus
    · -- the other handlers change nothing, whatever they answer
      push Not at hc
      exact runs_readOnly hc hrun

/-- What a request does to the registry, if it does anything. -/
theorem answer_cases (r : NodeRegistry) (now : Int) (q : Request) :
    (q.answer formatTime r now).2 = r ∨
    (∃ body payload, q = .register body ∧ Taken body payload ∧
      (q.answer formatTime r now).2 = (r.upsert payload now).2) ∨
    (∃ nodeID, (q.answer formatTime r now).2 = (r.heartbeat nodeID now).2) ∨
    ∃ nodeID, (q.answer formatTime r now).2 = (r.delete nodeID).2 := by
  cases q with
  | register body =>
    rcases registerHandler_cases formatTime r now body with
      ⟨hsame, -⟩ | ⟨payload, htaken, hstored⟩
    · exact .inl hsame
    · exact .inr (.inl ⟨body, payload, rfl, htaken, hstored⟩)
  | heartbeat pathValue =>
    simp only [Request.answer, Directory.heartbeatHandler]
    split_ifs with hid
    · exact .inl rfl
    · refine .inr (.inr (.inl ⟨trimSpace pathValue, ?_⟩))
      cases hfound : r.heartbeat (trimSpace pathValue) now with
      | mk record r₁ => cases record <;> rfl
  | deregister pathValue =>
    simp only [Request.answer, Directory.deregisterHandler]
    split_ifs with hid
    · exact .inl rfl
    · refine .inr (.inr (.inr ⟨trimSpace pathValue, ?_⟩))
      cases hfound : r.delete (trimSpace pathValue) with
      | mk deleted r₁ => cases deleted <;> rfl

/-- What one exchange does to the registry. -/
theorem serves_cases {x : Exchange} (h : Serves formatTime heartbeatTimeout r x r') :
    (r' = r ∧ ∃ c answer, x = .request x.time c answer) ∨
    (∃ body payload answer, x = .request x.time (.update (.register body)) answer ∧
      Taken body payload ∧ r' = (r.upsert payload x.time).2) ∨
    (∃ nodeID, r' = (r.heartbeat nodeID x.time).2 ∧ ∃ c answer, x = .request x.time c answer) ∨
    (∃ nodeID, r' = (r.delete nodeID).2 ∧ ∃ c answer, x = .request x.time c answer) ∨
    ∃ order : List (Bytes × NodeRecord), order.Perm r.entries ∧ x = .cleanup x.time ∧
      r' = (r.markUnhealthy order x.time heartbeatTimeout).2 := by
  cases h with
  | @request _ answer t c hrun =>
    -- the handlers that only read leave the registry as it is
    by_cases hc : ∃ q, c = .update q
    · obtain ⟨q, rfl⟩ := hc
      obtain ⟨-, rfl⟩ := runs_update.mp hrun
      rcases @answer_cases formatTime r t q with
        h | ⟨body, payload, rfl, htaken, h⟩ | ⟨nodeID, h⟩ | ⟨nodeID, h⟩
      · exact .inl ⟨h, _, _, rfl⟩
      · exact .inr (.inl ⟨body, payload, _, rfl, htaken, h⟩)
      · exact .inr (.inr (.inl ⟨nodeID, h, _, _, rfl⟩))
      · exact .inr (.inr (.inr (.inl ⟨nodeID, h, _, _, rfl⟩)))
    · push Not at hc
      exact .inl ⟨runs_readOnly hc hrun, c, answer, rfl⟩
  | cleanup t order horder => exact .inr (.inr (.inr (.inr ⟨order, horder, rfl, rfl⟩)))

/-- **The registry stays well formed**, whatever is requested: what it
    keeps, that a request it rejects leaves it alone, and what it lists, in
    whatever order the map is ranged over. -/
theorem registry_well_formed {h : List Exchange}
    (hrun : Steps (Serves formatTime heartbeatTimeout) .empty h r) :
    (∀ id record, r.get? id = some record →
      record.registration.nodeID = id ∧ validateNodeRegistration record.registration = .ok ()) ∧
    (∀ t c answer r', Serves formatTime heartbeatTimeout r (.request t c (some answer)) r' →
      400 ≤ answer.statusCode → answer.statusCode < 500 → r' = r) ∧
    (∀ order order' : List (Bytes × NodeRecord), order.Perm r.entries → order'.Perm r.entries →
      (∀ b, NodeRegistry.list order b = NodeRegistry.list order' b) ∧
      ∀ now timeout, (r.markUnhealthy order now timeout).1 =
        (r.markUnhealthy order' now timeout).1) ∧
    (∀ order : List (Bytes × NodeRecord), order.Perm r.entries →
      (∀ b, Increasing (NodeRegistry.list order b)) ∧
      (∀ now timeout, Increasing (r.markUnhealthy order now timeout).1) ∧
      ∀ b, Partition (NodeRegistry.list order b) (NodeRegistry.groupByType order b)) := by
  have hr := wellFormed_of_run hrun
  have hmarked {order : List (Bytes × NodeRecord)} (horder : order.Perm r.entries)
      (now timeout : Int) : Increasing (r.markUnhealthy order now timeout).1 :=
    ((NodeRegistry.Does.markUnhealthy now timeout order horder).transitions hr.keyed).1
  refine ⟨fun id record hrecord => ⟨hr.keyed id record hrecord, (hr.accepted id record hrecord).valid⟩,
    fun _ _ _ _ hserves hlo _ => serves_rejected hserves hlo, ?_, ?_⟩
  · -- a sorted list is determined by its members, whatever the order of the map
    intro order order' horder horder'
    have hperm := horder.trans horder'.symm
    refine ⟨fun b => ?_, fun now timeout => ?_⟩
    · exact (hr.increasing_list horder b).eq_of_perm (hr.increasing_list horder' b)
        (perm_list hperm b)
    · exact (hmarked horder now timeout).eq_of_perm (hmarked horder' now timeout)
        (perm_markUnhealthy hperm now timeout)
  · intro order horder
    exact ⟨hr.increasing_list horder, hmarked horder, hr.partition horder⟩

/-! ## Registering one node after the other -/

namespace Sample

def newRecord (node : NodeRegistration) : NodeRecord := ⟨node, 0, .healthy⟩

/-- The directory registers the node at time 0. -/
def register (r : NodeRegistry) (node : NodeRegistration) : NodeRegistry :=
  (Request.answer (fun _ => []) r 0 (.register (registerBody node))).2

def registerAll (nodes : List NodeRegistration) : NodeRegistry := nodes.foldl register .empty

/-- The exchange in which it does. -/
def registering (r : NodeRegistry) (node : NodeRegistration) : Exchange :=
  .request 0 (.update (.register (registerBody node)))
    (some (Request.answer (fun _ => []) r 0 (.register (registerBody node))).1)

/-- What it answers does not matter to the registry. -/
theorem register_eq (formatTime : Int → Bytes) (r : NodeRegistry) (node : NodeRegistration) :
    (Request.answer formatTime r 0 (.register (registerBody node))).2 = register r node := by
  show (registerHandler formatTime r 0 (registerBody node)).2 =
    (registerHandler (fun _ => []) r 0 (registerBody node)).2
  rw [registerHandler_own, registerHandler_own]
  cases validateNodeRegistration node.coerced <;> rfl

theorem serves_registering (r : NodeRegistry) (node : NodeRegistration) :
    Serves (fun _ => []) 30 r (registering r node) (register r node) :=
  serves_update r 0 (.register (registerBody node))

theorem steps_registerAll (nodes : List NodeRegistration) :
    ∃ h, Steps (Serves (fun _ => []) 30) .empty h (registerAll nodes) := by
  unfold registerAll
  induction nodes using List.reverseRecOn with
  | nil => exact ⟨[], .nil⟩
  | append_singleton nodes node ih =>
    obtain ⟨h, hrun⟩ := ih
    rw [List.foldl_append]
    exact ⟨_, hrun.snoc (serves_registering _ node)⟩

/-- The listing of a registry in which nobody has been seen since time 0. -/
theorem list_of_entries {r : NodeRegistry} (hr : WellFormed r) {nodes : List NodeRegistration}
    (hentries : r.entries = nodes.map fun node => (node.nodeID, newRecord node))
    (hincreasing : Increasing (nodes.map newRecord)) :
    NodeRegistry.list r.entries false = nodes.map newRecord := by
  refine (hr.increasing_list (.refl _) false).eq_of_perm hincreasing ?_
  refine (List.mergeSort_perm _ _).trans (.of_eq ?_)
  rw [hentries, List.map_map]
  exact List.filter_eq_self.mpr (by simp [newRecord])

theorem list_registerAll {nodes : List NodeRegistration}
    (hentries : (registerAll nodes).entries = nodes.map fun node => (node.nodeID, newRecord node))
    (hincreasing : Increasing (nodes.map newRecord)) :
    NodeRegistry.list (registerAll nodes).entries false = nodes.map newRecord := by
  obtain ⟨h, hrun⟩ := steps_registerAll nodes
  exact list_of_entries (wellFormed_of_run hrun) hentries hincreasing

/-! ### Two guards, a relay and an exit -/

def relayNode : NodeRegistration :=
  ⟨generateNodeID (List.replicate 16 2), lit "relay", lit "10.0.0.2", 8080, lit "key"⟩

def exitNode : NodeRegistration :=
  ⟨generateNodeID (List.replicate 16 3), lit "exit", lit "10.0.0.3", 8080, lit "key"⟩

def nodes : List NodeRegistration := [liveNode, neighbour, relayNode, exitNode]

theorem entries_nodes :
    (registerAll nodes).entries = nodes.map fun node => (node.nodeID, newRecord node) := by
  decide +kernel

theorem increasing_nodes : Increasing (nodes.map newRecord) := by
  unfold Increasing
  decide +kernel

theorem list_nodes : NodeRegistry.list (registerAll nodes).entries false = nodes.map newRecord :=
  list_registerAll entries_nodes increasing_nodes

end Sample

/-- The four nodes are listed in one order, by type, and expire in one
    order, when the map is ranged over backwards. -/
theorem registry_well_formed_sample :
    let r := Sample.registerAll Sample.nodes
    NodeRegistry.list r.entries.reverse false = Sample.nodes.map Sample.newRecord ∧
    Increasing (NodeRegistry.list r.entries.reverse false) ∧
    Partition (NodeRegistry.list r.entries.reverse false)
      (NodeRegistry.groupByType r.entries.reverse false) ∧
    (r.markUnhealthy r.entries.reverse 31 30).1 = (r.markUnhealthy r.entries 31 30).1 := by
  intro r
  obtain ⟨h, hrun⟩ := Sample.steps_registerAll Sample.nodes
  have hperm : r.entries.reverse.Perm r.entries := List.reverse_perm _
  obtain ⟨-, -, horder, hlists⟩ := registry_well_formed hrun
  obtain ⟨hlist, hmarked⟩ := horder _ _ hperm (.refl _)
  obtain ⟨hincreasing, -, hpartition⟩ := hlists _ hperm
  exact ⟨(hlist false).trans Sample.list_nodes, hincreasing false, hpartition false, hmarked 31 30⟩

end HopVault.Directory
