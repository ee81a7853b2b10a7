import HopVault.Directory.Node

/-! # A live node stays registered

    A registration is never dropped by the directory itself, and a
    heartbeat makes the node healthy again, so a node stays on offer. What
    the heartbeats cannot do is to bring a registration back: once the
    directory has restarted, the node is answered 404 and only logs it. -/

namespace HopVault.Directory

open Framework Framework.Json Framework.Utf8

/-! ## Generated node IDs -/

/-- An octet of a node ID: ASCII, and nothing that is trimmed. -/
def IDByte (b : UInt8) : Prop := b.toNat < 0x80 ∧ isSpace b.toNat = false

theorem idByte_hexDigit {n : Nat} (h : n < 16) : IDByte (hexDigit n) := by
  unfold IDByte
  have hall : ∀ n : Fin 16, (hexDigit n).toNat < 0x80 ∧ isSpace (hexDigit n).toNat = false := by
    decide
  exact hall ⟨n, h⟩

theorem idByte_hex {bytes : Bytes} : ∀ b ∈ hex bytes, IDByte b := by
  intro b hb
  obtain ⟨x, -, hx⟩ := List.mem_flatMap.mp hb
  have hlt := x.toNat_lt
  rcases List.mem_cons.mp hx with rfl | hx
  · exact idByte_hexDigit (by omega)
  · rw [List.mem_singleton.mp hx]
    exact idByte_hexDigit (by omega)

/-- A generated ID is ASCII text without white space. -/
theorem idByte_generateNodeID {bytes : Bytes} : ∀ b ∈ generateNodeID bytes, IDByte b := by
  have hdash : ∀ b ∈ lit "-", IDByte b := by
    intro b hb
    have hlit : lit "-" = [45] := by decide
    rw [hlit, List.mem_singleton] at hb
    rw [hb]
    exact ⟨by decide, by decide⟩
  unfold generateNodeID
  intro b hb
  simp only [List.mem_append] at hb
  rcases hb with (((((((hb | hb) | hb) | hb) | hb) | hb) | hb) | hb) | hb <;>
    first | exact idByte_hex b hb | exact hdash b hb

theorem generateNodeID_ne_nil {bytes : Bytes} : generateNodeID bytes ≠ [] := by
  have hdash : lit "-" ≠ [] := by decide
  simp [generateNodeID, hdash]

/-! ## One request -/

/-- A registration as the directory reads it. -/
def NodeRegistration.coerced (n : NodeRegistration) : NodeRegistration :=
  ⟨toValid n.nodeID, toValid n.nodeType, toValid n.host, n.port, toValid n.publicKey⟩

/-- The directory reads a written registration, up to its end. -/
theorem decodeStrict_registerBody (cfg : NodeRegistration) :
    decodeStrict NodeRegistration.fields .zero (registerBody cfg) = some (cfg.coerced, []) := by
  have hwf : Wf (obj cfg.members) := ⟨trivial, trivial, trivial, wf_ofInt _, trivial, trivial⟩
  have h := parsePrefix_encode hwf numEnd_nil
  rw [List.append_nil] at h
  simp only [decodeStrict, registerBody, h]
  rw [fill_obj, NodeRegistration.members, fillMembers_known rfl rfl, fillMembers_known rfl rfl,
    fillMembers_known rfl rfl,
    fillMembers_known (b := ⟨toValid cfg.nodeID, toValid cfg.nodeType, toValid cfg.host, cfg.port, []⟩)
      rfl (by simp [RecordField.of, NodeRegistration.zero]),
    fillMembers_known rfl rfl]
  rfl

variable {formatTime : Int → Bytes} {cfg : NodeRegistration} {heartbeatTimeout : Int}
  {r : NodeRegistry}

/-- The directory takes the body as this registration. -/
structure Taken (body : Bytes) (payload : NodeRegistration) : Prop where
  decode : ∃ rest, decodeStrict NodeRegistration.fields .zero body = some (payload, rest) ∧
    decoderMore rest = false
  valid : validateNodeRegistration payload = .ok ()

/-- The node's own body is taken as what it registers with, if as anything. -/
theorem Taken.own {payload : NodeRegistration} (h : Taken (registerBody cfg) payload) :
    payload = cfg.coerced := by
  obtain ⟨rest, hdecode, -⟩ := h.decode
  rw [decodeStrict_registerBody, Option.some.injEq, Prod.mk.injEq] at hdecode
  exact hdecode.1.symm

variable (formatTime r) in
/-- A registration is stored and answered with 201, or nothing happens. -/
theorem registerHandler_cases (now : Int) (body : Bytes) :
    ((registerHandler formatTime r now body).2 = r ∧
      (registerHandler formatTime r now body).1.statusCode = statusBadRequest) ∨
    ∃ payload, Taken body payload ∧
      (registerHandler formatTime r now body).2 = (r.upsert payload now).2 := by
  unfold registerHandler
  cases hdecode : decodeStrict NodeRegistration.fields .zero body with
  | none => exact .inl ⟨rfl, rfl⟩
  | some x =>
    obtain ⟨payload, rest⟩ := x
    dsimp only
    split_ifs with hmore
    · exact .inl ⟨rfl, rfl⟩
    · cases hvalid : validateNodeRegistration payload with
      | error err => exact .inl ⟨rfl, rfl⟩
      | ok _ =>
        exact .inr ⟨payload, ⟨⟨rest, hdecode, Bool.eq_false_iff.mpr hmore⟩, hvalid⟩, rfl⟩

/-- What the directory answers to the node's own registration. -/
theorem registerHandler_own (now : Int) :
    registerHandler formatTime r now (registerBody cfg) =
      match validateNodeRegistration cfg.coerced with
      | .error err => (writeJSONError statusBadRequest err, r)
      | .ok () =>
        (writeJSON statusCreated ((r.upsert cfg.coerced now).1.json formatTime),
          (r.upsert cfg.coerced now).2) := by
  -- nothing follows the registration in the body
  have hmore : decoderMore [] = false := rfl
  unfold registerHandler
  rw [decodeStrict_registerBody]
  cases hvalid : validateNodeRegistration cfg.coerced <;>
    simp only [hmore, Bool.false_eq_true, if_false, hvalid]

/-- A heartbeat for a node ID refreshes the record under it, and no other. -/
theorem get?_heartbeatHandler (now : Int) (pathValue id : Bytes) :
    (heartbeatHandler formatTime r now pathValue).2.get? id =
      if trimSpace pathValue ≠ [] ∧ id = trimSpace pathValue then
        (r.get? id).map fun record => { record with lastSeen := now, status := .healthy }
      else r.get? id := by
  have hget := NodeRegistry.get?_heartbeat (r := r) (trimSpace pathValue) now id
  unfold heartbeatHandler
  dsimp only
  by_cases hnil : trimSpace pathValue = []
  · simp [hnil]
  · rw [if_neg hnil]
    rcases hbeat : r.heartbeat (trimSpace pathValue) now with ⟨_ | record, r'⟩ <;>
      simpa [hbeat, hnil] using hget

/-- A deregistration for a node ID removes the record under it, and no other. -/
theorem get?_deregisterHandler (pathValue id : Bytes) :
    (deregisterHandler r pathValue).2.get? id =
      if trimSpace pathValue ≠ [] ∧ id = trimSpace pathValue then none else r.get? id := by
  have hget := NodeRegistry.get?_delete (r := r) (trimSpace pathValue) id
  unfold deregisterHandler
  dsimp only
  by_cases hnil : trimSpace pathValue = []
  · simp [hnil]
  · rw [if_neg hnil]
    rcases hdelete : r.delete (trimSpace pathValue) with ⟨_ | _, r'⟩ <;>
      simpa [hdelete, hnil] using hget

variable (formatTime r) in
/-- A registration of another ID leaves the record alone. -/
theorem get?_registerHandler_of_ne (now : Int) {body id : Bytes}
    (h : ∀ payload, Taken body payload → payload.nodeID ≠ id) :
    (registerHandler formatTime r now body).2.get? id = r.get? id := by
  rcases registerHandler_cases formatTime r now body with ⟨hr, -⟩ | ⟨payload, htaken, hr⟩
  · rw [hr]
  · rw [hr, NodeRegistry.get?_upsert, if_neg (Ne.symm (h payload htaken))]

/-! ## Staying registered -/

/-- The directory has the node's own registration. -/
def Registered (cfg : NodeRegistration) (r : NodeRegistry) : Prop :=
  ∃ record, r.get? cfg.nodeID = some record ∧ record.registration = cfg.coerced ∧
    isValidNodeType cfg.coerced.nodeType = true

/-- An event in which no other party is registered or deregistered under the
    node's ID. -/
def Foreign (cfg : NodeRegistration) : Event → Prop
  | .request (.register body) => ∀ payload, Taken body payload → payload.nodeID ≠ cfg.nodeID
  | .request (.deregister pathValue) => trimSpace pathValue ≠ cfg.nodeID
  | _ => True

/-- A node ID that directory and node read alike. -/
structure PlainID (id : Bytes) : Prop where
  valid : toValid id = id
  trimmed : trimSpace id = id
  nonempty : id ≠ []

theorem plainID_generateNodeID (bytes : Bytes) : PlainID (generateNodeID bytes) where
  valid := toValid_ascii fun b hb => (idByte_generateNodeID b hb).1
  trimmed := trimSpace_ascii idByte_generateNodeID
  nonempty := generateNodeID_ne_nil

variable (formatTime) in
/-- A heartbeat of a node is answered by whether it is known. -/
theorem heartbeatHandler_statusCode {id : Bytes} (hid : PlainID id) (now : Int) :
    (heartbeatHandler formatTime r now id).1.statusCode =
      if (r.get? id).isSome then statusOK else statusNotFound := by
  unfold heartbeatHandler NodeRegistry.heartbeat
  simp only [hid.trimmed, hid.nonempty, if_false]
  cases r.get? id <;> rfl

section

variable (hid : PlainID cfg.nodeID)

include hid

variable (formatTime) in
/-- A heartbeat keeps the registration and makes the node healthy. -/
theorem Registered.heartbeat (h : Registered cfg r) (now : Int) :
    ∃ record, (heartbeatHandler formatTime r now cfg.nodeID).2.get? cfg.nodeID = some record ∧
      record.registration = cfg.coerced ∧ record.status = .healthy := by
  obtain ⟨record, hget, hown, -⟩ := h
  refine ⟨{ record with lastSeen := now, status := .healthy }, ?_, hown, rfl⟩
  rw [get?_heartbeatHandler, hid.trimmed, if_pos ⟨hid.nonempty, rfl⟩, hget]
  rfl

/-- The node's own registration is stored, if the directory takes it. -/
theorem register_own (hvalid : validateNodeRegistration cfg.coerced = .ok ()) (now : Int) :
    Registered cfg (registerHandler formatTime r now (registerBody cfg)).2 := by
  have hcoerced : cfg.coerced.nodeID = cfg.nodeID := hid.valid
  refine ⟨⟨cfg.coerced, now, .healthy⟩, ?_, rfl, validNodeType_of_validate hvalid⟩
  rw [registerHandler_own, hvalid]
  show ((r.upsert cfg.coerced now).2).get? cfg.nodeID = _
  rw [NodeRegistry.get?_upsert, if_pos hcoerced.symm]

/-- The node's own registration never drops it. -/
theorem Registered.register (h : Registered cfg r) (now : Int) :
    Registered cfg (registerHandler formatTime r now (registerBody cfg)).2 := by
  cases hvalid : validateNodeRegistration cfg.coerced with
  | error err =>
    rw [registerHandler_own, hvalid]
    exact h
  | ok _ => exact register_own hid hvalid now

/-- Nothing but a restart, or another party that uses its ID, drops it. -/
theorem Registered.step {s s' : System} {e : Event} (h : Registered cfg s.registry)
    (hforeign : Foreign cfg e) (hrestart : e ≠ .restart)
    (hstep : Step formatTime cfg heartbeatTimeout s e s') : Registered cfg s'.registry := by
  -- the node's own heartbeats and those of others: the registration is kept either way
  have hbeat (now : Int) (pathValue : Bytes) :
      Registered cfg (heartbeatHandler formatTime s.registry now pathValue).2 := by
    obtain ⟨record, hget, hreg, htype⟩ := h
    unfold Registered
    rw [get?_heartbeatHandler, hget]
    split_ifs
    · exact ⟨_, rfl, hreg, htype⟩
    · exact ⟨record, rfl, hreg, htype⟩
  cases hstep with
  | register now _ => exact h.register hid now
  | registerUnanswered now err _ => exact h.register hid now
  | registerLost err _ => exact h
  | lateRegister now n _ => exact h.register hid now
  | heartbeat now fate _ _ => exact hbeat now cfg.nodeID
  | heartbeatLost err _ => exact h
  | cleanup now order hperm =>
    -- a cleanup may mark the record, but not remove it
    obtain ⟨record, hget, hreg, htype⟩ := h
    refine ⟨(NodeRegistry.markNode now heartbeatTimeout record).getD record, ?_, ?_, htype⟩
    · show ((s.registry.markUnhealthy order now heartbeatTimeout).2).get? cfg.nodeID = _
      rw [NodeRegistry.get?_markUnhealthy hperm, hget]
      rfl
    · unfold NodeRegistry.markNode
      split_ifs <;> exact hreg
  | restart => exact absurd rfl hrestart
  | request now q =>
    cases q with
    | heartbeat pathValue => exact hbeat now pathValue
    | register body =>
      -- a foreign registration is stored under another ID
      obtain ⟨record, hget, hreg, htype⟩ := h
      exact ⟨record, (get?_registerHandler_of_ne formatTime s.registry now hforeign).trans hget, hreg,
        htype⟩
    | deregister pathValue =>
      -- and a foreign deregistration removes another ID
      obtain ⟨record, hget, hreg, htype⟩ := h
      refine ⟨record, ?_, hreg, htype⟩
      show (deregisterHandler s.registry pathValue).2.get? cfg.nodeID = _
      rw [get?_deregisterHandler, if_neg fun hsame => hforeign hsame.2.symm, hget]

/-- So it stays over a whole run. -/
theorem Registered.run {s s' : System} (h : Registered cfg s.registry)
    (hrun : Run formatTime cfg heartbeatTimeout (fun e => Foreign cfg e ∧ e ≠ .restart) s s') :
    Registered cfg s'.registry := by
  induction hrun with
  | refl => exact h
  | tail _ hlast ih =>
    obtain ⟨e, ⟨hforeign, hrestart⟩, hstep⟩ := hlast
    exact ih.step hid hforeign hrestart hstep

end

/-! ## Running nodes -/

/-- A node runs only after the directory has accepted its registration, so
    the directory will accept it whenever it arrives. -/
theorem valid_of_running {P : Event → Prop} {s : System}
    (hrun : Run formatTime cfg heartbeatTimeout P .start s) (hrunning : s.running = true) :
    validateNodeRegistration cfg.coerced = .ok () := by
  -- the node runs only from a registration that the directory took
  induction hrun with
  | refl => cases hrunning
  | @tail s s' _ hlast ih =>
    obtain ⟨e, -, hstep⟩ := hlast
    cases hstep with
    | register now _ =>
      cases hvalid : validateNodeRegistration cfg.coerced with
      | ok _ => rfl
      | error err =>
        have haccepted : accepted (registerHandler formatTime s.registry now
            (registerBody cfg)).1 = true := hrunning
        rw [registerHandler_own, hvalid] at haccepted
        cases haccepted
    | _ => exact ih hrunning

/-- The node's own registration arrives at the directory. -/
def Event.Registers : Event → Prop
  | .register fate => ∀ err, fate ≠ .loseRequest err
  | .lateRegister => True
  | _ => False

/-- `GET /nodes` lists the record and `GET /circuit` draws from its list, in
    whatever order the directory meets its entries. -/
def Offered (r : NodeRegistry) (record : NodeRecord) : Prop :=
  ∀ order : List (Bytes × NodeRecord), order.Perm r.entries →
    let nodes := NodeRegistry.groupByType order false
    record.registration.nodeType = lit "guard" ∧ record ∈ nodes.guard ∨
    record.registration.nodeType = lit "relay" ∧ record ∈ nodes.relay ∨
    record.registration.nodeType = lit "exit" ∧ record ∈ nodes.exit

theorem offered_of_healthy {record : NodeRecord} {id : Bytes} (hget : r.get? id = some record)
    (hhealthy : record.status = .healthy)
    (htype : isValidNodeType record.registration.nodeType = true) : Offered r record := by
  intro order hperm
  have hlisted := NodeRegistry.mem_list hperm hget hhealthy false
  simp only [isValidNodeType, Bool.or_eq_true, beq_iff_eq] at htype
  simp only [NodeRegistry.groupByType, List.mem_filter, beq_iff_eq]
  rcases htype with (htype | htype) | htype <;> simp [htype, hlisted]

/-! ## After a restart -/

/-- An event in which nothing is registered under the node's ID, by itself
    or by others. -/
def Event.Unregistering (cfg : NodeRegistration) : Event → Prop
  | .request (.register body) => ∀ payload, Taken body payload → payload.nodeID ≠ cfg.nodeID
  | e => ¬e.Registers

/-- Without a registration the node does not come back. -/
theorem absent_step {s s' : System} {e : Event} (h : s.registry.get? cfg.nodeID = none)
    (hevent : e.Unregistering cfg) (hstep : Step formatTime cfg heartbeatTimeout s e s') :
    s'.registry.get? cfg.nodeID = none := by
  -- a heartbeat finds no record to refresh
  have hbeat (now : Int) (pathValue : Bytes) :
      (heartbeatHandler formatTime s.registry now pathValue).2.get? cfg.nodeID = none := by
    rw [get?_heartbeatHandler, h]
    split_ifs <;> rfl
  cases hstep with
  | register now _ => exact absurd (fun _ => nofun) hevent
  | registerUnanswered now err _ => exact absurd (fun _ => nofun) hevent
  | registerLost err _ => exact h
  | lateRegister now n _ => exact absurd trivial hevent
  | heartbeat now fate _ _ => exact hbeat now cfg.nodeID
  | heartbeatLost err _ => exact h
  | cleanup now order hperm =>
    show ((s.registry.markUnhealthy order now heartbeatTimeout).2).get? cfg.nodeID = none
    rw [NodeRegistry.get?_markUnhealthy hperm, h]
    rfl
  | restart => rfl
  | request now q =>
    cases q with
    | heartbeat pathValue => exact hbeat now pathValue
    | register body => exact (get?_registerHandler_of_ne formatTime s.registry now hevent).trans h
    | deregister pathValue =>
      show (deregisterHandler s.registry pathValue).2.get? cfg.nodeID = none
      rw [get?_deregisterHandler, h, ite_self]

theorem absent_run {s s' : System} (h : s.registry.get? cfg.nodeID = none)
    (hrun : Run formatTime cfg heartbeatTimeout (Event.Unregistering cfg) s s') :
    s'.registry.get? cfg.nodeID = none := by
  induction hrun with
  | refl => exact h
  | tail _ hlast ih =>
    obtain ⟨e, hevent, hstep⟩ := hlast
    exact absent_step ih hevent hstep

/-- Nothing ends a node that runs, so it never registers again. -/
theorem running_of_run {P : Event → Prop} {s s' : System} (h : s.running = true)
    (hrun : Run formatTime cfg heartbeatTimeout P s s') : s'.running = true := by
  induction hrun with
  | refl => exact h
  | tail _ hlast ih =>
    obtain ⟨e, -, hstep⟩ := hlast
    cases hstep with
    | register now hidle =>
      rw [ih] at hidle
      cases hidle
    | _ => exact ih

theorem not_registers_of_running {s s' : System} (h : s.running = true) {fate : Fate} :
    ¬Step formatTime cfg heartbeatTimeout s (.register fate) s' := by
  intro hstep
  have hidle : s.running = false := by cases hstep <;> assumption
  rw [h] at hidle
  cases hidle

/-! ## The composition -/

/-- **A live node**: in any run of a node that has been accepted. Once its
    registration has reached the directory, and as long as the directory
    does not restart and nobody else is registered or deregistered under
    the node's ID, every heartbeat that is delivered finds the node
    registered, is accepted, and leaves it on offer with its own data. After
    a restart the node is unknown until a registration under its ID arrives:
    its heartbeats are answered with 404. And it never registers again. -/
theorem live_node_listed {id : Bytes} (hid : cfg.nodeID = generateNodeID id) {s : System}
    (hreach : Run formatTime cfg heartbeatTimeout (fun _ => True) .start s)
    (hrunning : s.running = true) :
    (∀ s₀ e s₁ s', e.Registers → Step formatTime cfg heartbeatTimeout s₀ e s₁ →
      Run formatTime cfg heartbeatTimeout (fun e => Foreign cfg e ∧ e ≠ .restart) s₁ s →
      Step formatTime cfg heartbeatTimeout s (.heartbeat .deliver) s' →
      (∀ now, accepted (heartbeatHandler formatTime s.registry now cfg.nodeID).1 = true) ∧
      ∃ record, s'.registry.get? cfg.nodeID = some record ∧ record.registration = cfg.coerced ∧
        record.status = .healthy ∧ Offered s'.registry record) ∧
    (∀ s₁ s₂, Step formatTime cfg heartbeatTimeout s .restart s₁ →
      Run formatTime cfg heartbeatTimeout (Event.Unregistering cfg) s₁ s₂ →
      s₂.registry.get? cfg.nodeID = none ∧
      ∀ now, (heartbeatHandler formatTime s₂.registry now cfg.nodeID).1.statusCode =
        statusNotFound) ∧
    (∀ s', Run formatTime cfg heartbeatTimeout (fun _ => True) s s' → s'.running = true ∧
      ∀ fate s'', ¬Step formatTime cfg heartbeatTimeout s' (.register fate) s'') := by
  have hplain : PlainID cfg.nodeID := hid ▸ plainID_generateNodeID id
  refine ⟨fun s₀ e s₁ s' hregisters hregister hrun hbeat => ?_, fun s₁ s₂ hrestart hrun => ?_,
    fun s' hrun => ?_⟩
  · -- the node is running, so its registration is one the directory accepts
    have hvalid := valid_of_running hreach hrunning
    -- it arrives, and from there on stays
    have hregistered₁ : Registered cfg s₁.registry := by
      cases hregister with
      | register now _ => exact register_own hplain hvalid now
      | registerUnanswered now err _ => exact register_own hplain hvalid now
      | registerLost err _ => exact absurd rfl (hregisters err)
      | lateRegister now n _ => exact register_own hplain hvalid now
      | _ => exact hregisters.elim
    have hregistered := hregistered₁.run hplain hrun
    -- the record is found under the trimmed ID, so the node hears no 404
    constructor
    · intro now
      obtain ⟨record, hget, -, -⟩ := hregistered
      unfold accepted
      rw [heartbeatHandler_statusCode formatTime hplain, hget]
      rfl
    · cases hbeat with
      | heartbeat now fate _ _ =>
        obtain ⟨record, hget, hown, hhealthy⟩ := hregistered.heartbeat formatTime hplain now
        obtain ⟨-, -, -, htype⟩ := hregistered
        exact ⟨record, hget, hown, hhealthy, offered_of_healthy hget hhealthy (hown ▸ htype)⟩
  · have hempty : s₁.registry.get? cfg.nodeID = none := by
      cases hrestart
      rfl
    have habsent := absent_run hempty hrun
    refine ⟨habsent, fun now => ?_⟩
    rw [heartbeatHandler_statusCode formatTime hplain, habsent]
    rfl
  · have hrunning' := running_of_run hrunning hrun
    exact ⟨hrunning', fun fate s'' => not_registers_of_running hrunning'⟩

/-! ## A directory that restarts -/

namespace Sample

/-- A guard. -/
def liveNode : NodeRegistration :=
  ⟨generateNodeID (List.replicate 16 0), lit "guard", lit "10.0.0.1", 8080, lit "key"⟩

/-- The directory when the node has registered at time 0. -/
def registered : System :=
  ⟨(registerHandler (fun _ => []) .empty 0 (registerBody liveNode)).2, true, 0⟩

theorem accepted_liveNode :
    accepted (registerHandler (fun _ => []) .empty 0 (registerBody liveNode)).1 = true := by
  decide +kernel

theorem step_register :
    Step (fun _ => []) liveNode 30 .start (.register .deliver) registered := by
  have h : Step (fun _ => []) liveNode 30 .start (.register .deliver) _ := .register 0 rfl
  rw [show System.start.registry = .empty from rfl, accepted_liveNode] at h
  exact h

/-! ### A late registration -/

/-- Another guard. -/
def neighbour : NodeRegistration := { liveNode with nodeID := generateNodeID (List.replicate 16 1) }

/-- The node's own registration with something behind it. -/
def botchedBody : Bytes := registerBody liveNode ++ lit "x"

/-- The node has been accepted with one registration given up, and the
    directory has restarted. -/
def restarted : System := ⟨.empty, true, 1⟩

theorem run_restarted : Run (fun _ => []) liveNode 30 (fun _ => True) .start restarted := by
  have hlost : Step (fun _ => []) liveNode 30 .start (.register (.loseRequest (lit "timeout"))) _ :=
    .registerLost (lit "timeout") rfl
  have hregister : Step (fun _ => []) liveNode 30 ⟨.empty, false, 1⟩ (.register .deliver) _ :=
    .register 0 rfl
  dsimp only at hregister
  rw [accepted_liveNode] at hregister
  have hrestart := @Step.restart (fun _ => []) liveNode 30
    ⟨(registerHandler (fun _ => []) .empty 0 (registerBody liveNode)).2, true, 1⟩
  exact ((Relation.ReflTransGen.single ⟨_, trivial, hlost⟩).tail ⟨_, trivial, hregister⟩).tail
    ⟨_, trivial, hrestart⟩

/-- The late registration arrives at 10. -/
def rejoined : NodeRegistry := (registerHandler (fun _ => []) .empty 10 (registerBody liveNode)).2

theorem step_rejoined : Step (fun _ => []) liveNode 30 restarted .lateRegister ⟨rejoined, true, 0⟩ :=
  .lateRegister 10 0 rfl

/-- Another guard registers at 20, somebody tries to register under the ID
    of the node at 25, and at 100 both nodes have been silent too long. -/
def crowded : NodeRegistry :=
  (Request.register (registerBody neighbour)).serve (fun _ => []) rejoined 20

def refused : NodeRegistry := (Request.register botchedBody).serve (fun _ => []) crowded 25

def silenced : NodeRegistry := (cleanupUnhealthyNodes refused refused.entries 100 30).2

theorem step_request (r : NodeRegistry) (now : Int) (q : Request) :
    Step (fun _ => []) liveNode 30 ⟨r, true, 0⟩ (.request q) ⟨q.serve (fun _ => []) r now, true, 0⟩ :=
  .request now q

theorem step_cleanup (r : NodeRegistry) (now : Int) : Step (fun _ => []) liveNode 30 ⟨r, true, 0⟩
    .cleanup ⟨(cleanupUnhealthyNodes r r.entries now 30).2, true, 0⟩ :=
  .cleanup now r.entries (.refl _)

theorem run_silenced : Run (fun _ => []) liveNode 30 (fun e => Foreign liveNode e ∧ e ≠ .restart)
    ⟨rejoined, true, 0⟩ ⟨silenced, true, 0⟩ := by
  have hneighbour : Foreign liveNode (.request (.register (registerBody neighbour))) := by
    intro payload htaken
    rw [htaken.own]
    decide +kernel
  have hbotched : Foreign liveNode (.request (.register botchedBody)) := by
    intro payload htaken
    -- what follows the registration makes the directory refuse it
    have hmore : (decodeStrict NodeRegistration.fields .zero botchedBody).map
        (fun x => decoderMore x.2) = some true := by
      decide +kernel
    obtain ⟨rest, hdecode, hnone⟩ := htaken.decode
    rw [hdecode, Option.map_some, hnone] at hmore
    cases hmore
  exact ((Relation.ReflTransGen.single ⟨_, ⟨hneighbour, by simp⟩, step_request rejoined 20 _⟩).tail
    ⟨_, ⟨hbotched, by simp⟩, step_request crowded 25 _⟩).tail
    ⟨.cleanup, ⟨trivial, by simp⟩, step_cleanup refused 100⟩

theorem run_reached : Run (fun _ => []) liveNode 30 (fun _ => True) .start ⟨silenced, true, 0⟩ :=
  (run_restarted.tail ⟨_, trivial, step_rejoined⟩).trans (run_silenced.weaken fun _ _ => trivial)

end Sample

/-- The node is unhealthy at 100, on offer again after its heartbeat at 101,
    and after the next restart still unknown when it has sent a heartbeat. -/
theorem live_node_listed_sample : ∃ s₁ s₂ s₃ old record,
    Sample.silenced.get? Sample.liveNode.nodeID = some old ∧ old.status = .unhealthy ∧
    Step (fun _ => []) Sample.liveNode 30 ⟨Sample.silenced, true, 0⟩ (.heartbeat .deliver) s₁ ∧
    s₁.registry.get? Sample.liveNode.nodeID = some record ∧ record.status = .healthy ∧
    Offered s₁.registry record ∧
    Step (fun _ => []) Sample.liveNode 30 ⟨Sample.silenced, true, 0⟩ .restart s₂ ∧
    Step (fun _ => []) Sample.liveNode 30 s₂ (.heartbeat .deliver) s₃ ∧
    (heartbeatHandler (fun _ => []) s₃.registry 103 Sample.liveNode.nodeID).1.statusCode =
      statusNotFound := by
  have hold : Sample.silenced.get? Sample.liveNode.nodeID =
      some ⟨Sample.liveNode.coerced, 10, .unhealthy⟩ := by
    decide +kernel
  have hbeat : Step (fun _ => []) Sample.liveNode 30 ⟨Sample.silenced, true, 0⟩
      (.heartbeat .deliver) _ := .heartbeat 101 .deliver rfl (by simp)
  have hlate : Step (fun _ => []) Sample.liveNode 30 ⟨.empty, true, 0⟩ (.heartbeat .deliver) _ :=
    .heartbeat 102 .deliver rfl (by simp)
  have hid : Sample.liveNode.nodeID = generateNodeID (List.replicate 16 0) := rfl
  obtain ⟨hlisted, hforgotten, -⟩ := live_node_listed hid Sample.run_reached rfl
  obtain ⟨-, record, hget, -, hhealthy, hoffered⟩ :=
    hlisted _ .lateRegister _ _ trivial Sample.step_rejoined Sample.run_silenced hbeat
  obtain ⟨-, h404⟩ := hforgotten _ _ .restart (.single ⟨.heartbeat .deliver, not_false, hlate⟩)
  exact ⟨_, _, _, _, record, hold, rfl, hbeat, hget, hhealthy, hoffered, .restart, hlate, h404 103⟩

/-- The directory restarts after the node has registered: the next heartbeat
    is delivered and answered 404, and the node is not in the registry. -/
theorem live_node_forgotten :
    ∃ s₂ s₃, Run (fun _ => []) Sample.liveNode 30 (Foreign Sample.liveNode) .start s₂ ∧
      Step (fun _ => []) Sample.liveNode 30 s₂ (.heartbeat .deliver) s₃ ∧
      (heartbeatHandler (fun _ => []) s₂.registry 7 Sample.liveNode.nodeID).1.statusCode =
        statusNotFound ∧
      s₃.registry.get? Sample.liveNode.nodeID = none := by
  have hbeat : Step (fun _ => []) Sample.liveNode 30 { Sample.registered with registry := .empty }
      (.heartbeat .deliver) _ := .heartbeat 7 .deliver rfl (by simp)
  refine ⟨_, _, ?_, hbeat, by decide +kernel, by decide +kernel⟩
  exact (Relation.ReflTransGen.single ⟨.register .deliver, trivial, Sample.step_register⟩).tail
    ⟨.restart, trivial, .restart⟩

end HopVault.Directory
