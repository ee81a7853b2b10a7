import HopVault.Directory.Circuit
import HopVault.FaultMasking

/-! # A whole deployment

    The directory server, the onion nodes and a client together. Nodes
    register as what they are, and some of them may be down by the time of
    the call. Whatever the directory is asked meanwhile, it draws circuits
    of registered nodes only, so that a call gets through on the first
    circuit without a node that is down. -/

namespace HopVault

open Framework Framework.Json Framework.Utf8 Framework.Prog Framework.Semantics Directory

variable {ι ν : Type} {N : Net ν}

/-! ## Registered nodes -/

/-- The type under which a node registers. -/
def Role.nodeType : Role → String
  | guard => "guard"
  | relay => "relay"
  | exit => "exit"

theorem Role.nodeType_injective {p q : Role} (h : lit p.nodeType = lit q.nodeType) : p = q := by
  revert h
  cases p <;> cases q <;> decide

/-- A registration as the client sees it, once it is in the registry. -/
def Directory.NodeRegistration.listed (cfg : NodeRegistration) : HopVault.NodeRecord :=
  ⟨cfg.nodeID, cfg.nodeType, cfg.host, cfg.port, cfg.publicKey, NodeRecord.zeroTime, []⟩

/-- The registration of a node of the network, under its own type, or of
    one that is down. -/
def Net.Runs (N : Net ν) (cfg : NodeRegistration) : Prop :=
  (∃ n, N.Honest cfg.listed n ∧ cfg.nodeType = lit (N.role n).nodeType) ∨ N.Down cfg.listed

/-- A time of the years 1970 to 9999, in nanoseconds. -/
def Dated (t : Int) : Prop := 0 ≤ t ∧ t < 253402300800 * 10 ^ 9

/-- A request in these years that registers nobody but a node of the
    network, or a cleanup. -/
structure Net.Genuine (N : Net ν) (x : Directory.Exchange) : Prop where
  dated : Dated x.time
  registers : ∀ t body answer, x = .request t (.update (.register body)) answer →
    ∃ cfg, body = registerBody cfg ∧ N.Runs cfg.coerced

/-- A record of a node of the network, last seen in these years. -/
structure Net.Listed (N : Net ν) (record : Directory.NodeRecord) : Prop where
  runs : N.Runs record.registration
  dated : Dated record.lastSeen

/-- Only nodes of the network are registered. -/
def Net.Deployed (N : Net ν) (r : NodeRegistry) : Prop :=
  ∀ id record, r.get? id = some record → N.Listed record

/-- Where a record leads does not depend on when its node was seen. -/
theorem Net.Honest.reported {record : Directory.NodeRecord} {n : ν}
    (h : N.Honest record.registration.listed n) : N.Honest record.reported n :=
  ⟨h.setupRoute, h.onionRoute, h.publicKey, h.addr⟩

theorem Net.Down.reported {record : Directory.NodeRecord} (h : N.Down record.registration.listed) :
    N.Down record.reported := h

/-! ## The directory -/

variable {formatTime : Int → Bytes} {heartbeatTimeout : Int} {r r' s : NodeRegistry}

theorem deployed_empty : N.Deployed .empty := by simp [Net.Deployed]

/-- A registration that arrives is the node's own. -/
theorem Net.Deployed.register (hr : N.Deployed r) {cfg : NodeRegistration} (hcfg : N.Runs cfg.coerced)
    {t : Int} (ht : Dated t) :
    N.Deployed (registerHandler formatTime r t (registerBody cfg)).2 := by
  rw [registerHandler_own]
  cases validateNodeRegistration cfg.coerced with
  | error err => exact hr
  | ok _ =>
    intro id record hrecord
    have hrecord : (r.upsert cfg.coerced t).2.get? id = some record := hrecord
    rw [NodeRegistry.get?_upsert] at hrecord
    split_ifs at hrecord
    · rw [← Option.some.inj hrecord]
      exact ⟨hcfg, ht⟩
    · exact hr id record hrecord

theorem Net.Deployed.heartbeat (hr : N.Deployed r) {t : Int} (ht : Dated t) (pathValue : Bytes) :
    N.Deployed (heartbeatHandler formatTime r t pathValue).2 := by
  intro id record hrecord
  rw [get?_heartbeatHandler] at hrecord
  split_ifs at hrecord
  · obtain ⟨old, hold, rfl⟩ := Option.map_eq_some_iff.mp hrecord
    exact ⟨(hr id old hold).runs, ht⟩
  · exact hr id record hrecord

theorem Net.Deployed.deregister (hr : N.Deployed r) (pathValue : Bytes) :
    N.Deployed (deregisterHandler r pathValue).2 := by
  have hdelete : N.Deployed (r.delete (trimSpace pathValue)).2 := by
    intro id record hrecord
    rw [NodeRegistry.get?_delete] at hrecord
    split_ifs at hrecord
    exact hr id record hrecord
  unfold deregisterHandler
  dsimp only
  split_ifs
  · exact hr
  · rcases hd : r.delete (trimSpace pathValue) with ⟨_ | _, r'⟩ <;> rw [hd] at hdelete <;>
      exact hdelete

theorem Net.Deployed.cleanup (hr : N.Deployed r) {order : List (Bytes × Directory.NodeRecord)}
    (horder : order.Perm r.entries) (t : Int) :
    N.Deployed (cleanupUnhealthyNodes r order t heartbeatTimeout).2 := by
  intro id record hrecord
  have hrecord : (r.markUnhealthy order t heartbeatTimeout).2.get? id = some record := hrecord
  rw [NodeRegistry.get?_markUnhealthy horder] at hrecord
  obtain ⟨old, hold, rfl⟩ := Option.map_eq_some_iff.mp hrecord
  obtain ⟨hruns, hdated⟩ := hr id old hold
  -- a cleanup changes the status only
  unfold NodeRegistry.markNode
  split_ifs <;> exact ⟨hruns, hdated⟩

/-- No request and no cleanup brings in a stranger. -/
theorem Net.Deployed.serves (hr : N.Deployed r) {x : Directory.Exchange} (hx : N.Genuine x)
    (h : Serves formatTime heartbeatTimeout r x r') : N.Deployed r' := by
  cases h with
  | cleanup t order horder => exact hr.cleanup horder t
  | @request _ answer t c hrun =>
    have ht : Dated t := hx.dated
    by_cases hread : ∀ q, c ≠ .update q
    · -- the other routes only read
      have hkeep := hrun.of_all (I := fun s => s = r) (Call.readOnly hread) rfl ?_
      · exact hkeep.2 ▸ hr
      · rintro e he s b s' rfl hperforms
        cases e with
        | now => exact hperforms.2
        | list includeUnhealthy => exact hperforms.1
        | randomIntn n => exact hperforms.1
        | _ => cases he
    · obtain ⟨q, rfl⟩ := not_forall_not.mp hread
      obtain ⟨-, rfl⟩ := runs_update.mp hrun
      cases q with
      | register body =>
        obtain ⟨cfg, rfl, hcfg⟩ := hx.registers t body answer rfl
        exact hr.register hcfg ht
      | heartbeat pathValue => exact hr.heartbeat ht pathValue
      | deregister pathValue => exact hr.deregister pathValue

/-- A registry of a directory server with which only nodes of the network
    have registered. -/
def Net.Reached (N : Net ν) (formatTime : Int → Bytes) (heartbeatTimeout : Int)
    (r : NodeRegistry) : Prop :=
  ∃ h, Steps (Serves formatTime heartbeatTimeout) .empty h r ∧ ∀ x ∈ h, N.Genuine x

theorem Net.reached_empty : N.Reached formatTime heartbeatTimeout .empty := ⟨[], .nil, by simp⟩

theorem Net.Reached.step (hr : N.Reached formatTime heartbeatTimeout r) {x : Directory.Exchange}
    (hx : N.Genuine x) (h : Serves formatTime heartbeatTimeout r x r') :
    N.Reached formatTime heartbeatTimeout r' := by
  obtain ⟨history, hrun, hgenuine⟩ := hr
  refine ⟨history ++ [x], hrun.snoc h, fun y hy => ?_⟩
  rcases List.mem_append.mp hy with hy | hy
  · exact hgenuine y hy
  · exact List.mem_singleton.mp hy ▸ hx

theorem Net.Reached.deployed (hr : N.Reached formatTime heartbeatTimeout r) : N.Deployed r := by
  obtain ⟨h, hrun, hgenuine⟩ := hr
  refine hrun.induct (I := fun h r => (∀ x ∈ h, N.Genuine x) → N.Deployed r)
    (fun _ => deployed_empty) ?_ hgenuine
  intro h r x r' _ ih hstep hgenuine
  exact (ih fun y hy => hgenuine y (List.mem_append_left _ hy)).serves
    (hgenuine x (by simp)) hstep

theorem Net.Reached.wellFormed (hr : N.Reached formatTime heartbeatTimeout r) : WellFormed r := by
  obtain ⟨h, hrun, -⟩ := hr
  exact wellFormed_of_run hrun

/-! ## Circuits -/

theorem nodup_circuitRoles (hops : Int) : (circuitRoles hops).Nodup := by
  unfold circuitRoles
  split_ifs <;> decide

/-- Nodes for records, one for each. -/
theorem exists_nodes {recs : List HopVault.NodeRecord} {roles : List Role}
    (h : List.Forall₂ (fun rec role => ∃ n, N.Honest rec n ∧ N.role n = role) recs roles) :
    ∃ nodes, List.Forall₂ N.Honest recs nodes ∧ nodes.map N.role = roles := by
  induction h with
  | nil => exact ⟨[], .nil, rfl⟩
  | cons hrec _ ih =>
    obtain ⟨n, hn, rfl⟩ := hrec
    obtain ⟨nodes, hnodes, rfl⟩ := ih
    exact ⟨n :: nodes, .cons hn hnodes, rfl⟩

/-- A circuit whose hops are each up, in the role of their position, or
    down. -/
theorem whole_or_broken {circuit : HopVault.CircuitResponse} {hops : Int}
    (h : List.Forall₂ (fun rec role => (∃ n, N.Honest rec n ∧ N.role n = role) ∨ N.Down rec)
      (circuitHops circuit hops) (circuitRoles hops)) :
    N.Whole circuit hops ∨ N.Broken circuit hops := by
  by_cases hdown : ∃ rec ∈ circuitHops circuit hops, N.Down rec
  · right
    refine ⟨?_, hdown⟩
    intro rec hrec
    obtain ⟨k, hk, rfl⟩ := List.getElem_of_mem hrec
    rcases h.get hk (h.length_eq ▸ hk) with ⟨n, hn, -⟩ | hdown
    · exact .inl ⟨n, hn⟩
    · exact .inr hdown
  · left
    -- none is down, so each is a node in the role of its position
    have hup : List.Forall₂ (fun rec role => ∃ n, N.Honest rec n ∧ N.role n = role)
        (circuitHops circuit hops) (circuitRoles hops) := by
      have hboth := (List.forall₂_and_left (p := fun rec => ¬N.Down rec) _ _).mpr
        ⟨fun rec hrec hd => hdown ⟨rec, hrec, hd⟩, h⟩
      exact hboth.imp fun rec role hrec => hrec.2.resolve_right hrec.1
    obtain ⟨nodes, hhonest, hroles⟩ := exists_nodes hup
    refine ⟨nodes, hhonest, ?_, hroles⟩
    exact List.Nodup.of_map N.role (hroles ▸ nodup_circuitRoles hops)

/-- The directory offers a node of the network, in the role it asks for. -/
theorem Directory.Offers.known (hs : N.Deployed s) (role : Role) {record : Directory.NodeRecord}
    (h : Offers s role.nodeType record) :
    (∃ n, N.Honest record.reported n ∧ N.role n = role) ∨ N.Down record.reported := by
  rcases (hs _ _ h.registered).runs with ⟨n, hn, htype⟩ | hdown
  · refine .inl ⟨n, hn.reported, ?_⟩
    exact Role.nodeType_injective (htype.symm.trans h.type)
  · exact .inr hdown.reported

/-- What the client reads is drawn from a registry: a circuit of records
    that are healthy there, or an error where there is none. -/
inductive DrawnFrom (s : NodeRegistry) (hops : Int) : Result HopVault.CircuitResponse → Prop
  | circuit {circuit : HopVault.CircuitResponse} : Available s hops →
      (∀ rec ∈ circuitHops circuit hops, ∃ record, s.get? record.registration.nodeID = some record ∧
        record.status = .healthy ∧ rec = record.reported) → DrawnFrom s hops (.ok circuit)
  | unavailable {err : Bytes} : ¬Available s hops → DrawnFrom s hops (.error err)

/-- A time of these years is written as text that reads as the same time. -/
def TimesRead (X : Externals) (formatTime : Int → Bytes) : Prop :=
  ∀ t, Dated t → Valid (formatTime t) ∧ X.parseTime (formatTime t) = some t

theorem Net.Deployed.timed (hs : N.Deployed s) (htimes : TimesRead N.X formatTime)
    {type : String} {record : Directory.NodeRecord} (h : Offers s type record) :
    record.Timed N.X formatTime :=
  have hread := htimes record.lastSeen (hs _ _ h.registered).dated
  ⟨hread.1, hread.2⟩

/-- What the client returns for a response is what it reads from it. -/
theorem read_of_fetches {X : Externals} {hops : Int} (hhops : hops = 1 ∨ hops = 3)
    {response : Response} {circuit : HopVault.CircuitResponse}
    (h : Fetches X hops response circuit) (directoryURL : Bytes) :
    readCircuit X directoryURL hops (.ok response) = .ok circuit := by
  obtain ⟨k, hget, hk⟩ := h directoryURL
  rw [getCircuit_eq (if_pos hhops)] at hget
  obtain ⟨-, hget⟩ := Prog.op.inj hget
  obtain rfl := eq_of_heq hget
  exact Prog.ret.inj hk

/-- The client reads from an answer of the directory what is drawn from its
    registry, and of a circuit it knows every hop. -/
theorem read_answer (hs : N.Reached formatTime heartbeatTimeout s) (htimes : TimesRead N.X formatTime)
    {hops : Int} (hhops : hops = 1 ∨ hops = 3) {response : Response}
    (h : AnswersFrom formatTime s hops response) (directoryURL : Bytes) :
    DrawnFrom s hops (readCircuit N.X directoryURL hops (.ok response)) ∧
    ∀ circuit, readCircuit N.X directoryURL hops (.ok response) = .ok circuit →
      N.Whole circuit hops ∨ N.Broken circuit hops := by
  by_cases havailable : Available s hops
  · have hok := h.ok.mpr havailable
    rcases hhops with rfl | rfl
    · obtain ⟨guard, -, hguard, hfetch⟩ := h.one rfl hok
      rw [read_of_fetches (.inl rfl) (hfetch N.X (hs.deployed.timed htimes hguard))]
      refine ⟨.circuit havailable fun rec hrec => ?_, fun circuit hread => ?_⟩
      · obtain rfl := List.mem_singleton.mp hrec
        exact ⟨guard, hguard.registered, hguard.healthy, rfl⟩
      · obtain rfl := Except.ok.inj hread
        exact whole_or_broken (.cons (Offers.known hs.deployed .guard hguard) .nil)
    · obtain ⟨circuit, -, hguard, hrelay, hexit, -, hfetch⟩ := h.three rfl hok
      have htimed : ∀ record ∈ [circuit.guard, circuit.relay, circuit.exit],
          record.Timed N.X formatTime := by
        simp only [List.forall_mem_cons, List.not_mem_nil, false_implies, implies_true, and_true]
        exact ⟨hs.deployed.timed htimes hguard, hs.deployed.timed htimes hrelay,
          hs.deployed.timed htimes hexit⟩
      rw [read_of_fetches (.inr rfl) (hfetch N.X htimed)]
      refine ⟨.circuit havailable fun rec hrec => ?_, fun circuit hread => ?_⟩
      · simp only [circuitHops, if_true, List.mem_cons, List.not_mem_nil, or_false] at hrec
        rcases hrec with rfl | rfl | rfl
        · exact ⟨_, hguard.registered, hguard.healthy, rfl⟩
        · exact ⟨_, hrelay.registered, hrelay.healthy, rfl⟩
        · exact ⟨_, hexit.registered, hexit.healthy, rfl⟩
      · obtain rfl := Except.ok.inj hread
        exact whole_or_broken (.cons (Offers.known hs.deployed .guard hguard)
          (.cons (Offers.known hs.deployed .relay hrelay)
            (.cons (Offers.known hs.deployed .exit hexit) .nil)))
  · -- a 503 is no circuit
    have hstatus := h.unavailable.mpr havailable
    have hne : response.statusCode ≠ statusOK := by
      rw [hstatus]
      decide
    unfold readCircuit
    simp only [ne_eq, hne, not_false_eq_true, if_true]
    refine ⟨.unavailable havailable, fun circuit hread => ?_⟩
    cases hread

/-! ## Calls -/

/-- A request for a circuit at the directory server, while other requests of
    the network's nodes are served: the registries the handler runs through
    and its response. -/
structure Net.Asked (N : Net ν) (formatTime : Int → Bytes) (heartbeatTimeout hops : Int) where
  registry : NodeRegistry
  reached : N.Reached formatTime heartbeatTimeout registry
  seen : List NodeRegistry
  response : Response
  run : Interleaved PerformsSometime
    (fun s s' => ∃ x, N.Genuine x ∧ Serves formatTime heartbeatTimeout s x s') registry
    (Service.circuitHandler formatTime (lit "hops=" ++ Decimal.itoa hops)) seen (some response)

/-- The response is from the registry at one instant of the request. -/
theorem Net.Asked.answersFrom {hops : Int} (hhops : hops = 1 ∨ hops = 3)
    (asked : N.Asked formatTime heartbeatTimeout hops) :
    ∃ s ∈ asked.seen, N.Reached formatTime heartbeatTimeout s ∧
      AnswersFrom formatTime s hops asked.response := by
  obtain ⟨s, hseen, hs, answer, hanswer, hcircuit⟩ := circuitHandler_answer onRegistry_id
    (parseHops_client hhops) asked.reached (fun s s' hs ⟨x, hx, hstep⟩ => hs.step hx hstep)
    (fun _ hs => hs.wellFormed) asked.run
  obtain rfl := Option.some.inj hanswer
  exact ⟨s, hseen, hs, hcircuit.answersFrom hs.wellFormed⟩

section

variable [DecidableEq ι] [DecidableEq ν] {i : ι} {c : HopVault.Call}
  {D : DestRequest → DestResponse}

/-- What the client reads in the answer to its `k`-th choice, if that is a
    request for a circuit. -/
def readingAt (X : Externals) (c : HopVault.Call) (w : World ι ν) (i : ι) (k : Nat) :
    Result HopVault.CircuitResponse :=
  readCircuit X c.directoryURL c.hops
    ((w.oracle (i, .client) k).get (circuitURL c.directoryURL c.hops))

/-- A call whose `k`-th answer is from a registry with `P k`, with which only
    nodes of the network have registered. -/
theorem execute_of_answers {P : Nat → NodeRegistry → Prop} (hX : N.X.LawfulAEAD)
    (htimes : TimesRead N.X formatTime) (hc : c.Ready N) {w : World ι ν}
    (hD : ∀ n m req, (w.oracle (i, .node n) m).dest req = .answered (D req))
    (hP : ∀ k s, P k s → N.Reached formatTime heartbeatTimeout s)
    (hdir : ∀ k, ∃ s response, P k s ∧ AnswersFrom formatTime s c.hops response ∧
      (w.oracle (i, .client) k).get (circuitURL c.directoryURL c.hops) = .ok response) :
    ∃ τ r w',
      N.reliable.Traces (i, .client) (executeRequestWithRebuildTracking N.X c) w τ r w' ∧
      Masks N c D i 0 c.attempts.toNat w w' (fetchedCircuits N.X c τ) r ∧
      ∀ x ∈ fetchedCircuits N.X c τ, (∃ k, x = readingAt N.X c w i k) ∧
        ∀ k, x = readingAt N.X c w i k → ∃ s, P k s ∧ DrawnFrom s c.hops x := by
  -- each answer is from a registry, and known
  have hread (k : Nat) : ∃ s, P k s ∧ DrawnFrom s c.hops (readingAt N.X c w i k) ∧
      ∀ circuit, readingAt N.X c w i k = .ok circuit →
        N.Whole circuit c.hops ∨ N.Broken circuit c.hops := by
    obtain ⟨s, response, hs, hanswer, hget⟩ := hdir k
    refine ⟨s, hs, ?_⟩
    unfold readingAt
    rw [hget]
    exact read_answer (hP k s hs) htimes hc.hops hanswer c.directoryURL
  have hknown : N.KnownCircuits c w i := by
    intro k circuit hcircuit
    obtain ⟨s, -, -, hcases⟩ := hread k
    exact hcases circuit hcircuit
  obtain ⟨τ, r, w', htrace, hmasks, hstore⟩ := does_execute hX hc hD hknown
  refine ⟨τ, r, w', htrace, hmasks, fun x hx => ⟨hstore x hx, fun k hk => ?_⟩⟩
  obtain ⟨s, hs, hdrawn, -⟩ := hread k
  exact ⟨s, hs, hk ▸ hdrawn⟩

/-- **A whole deployment**: nodes register with the directory server as what
    they are, and may go down; a client asks it for circuits. Every circuit
    it fetches is of nodes that were healthy in the registry at one instant
    of the request that was answered with it, it gets none only when there
    were too few at that instant, and the call is served by the first that
    is whole. -/
theorem deployment_serves (hX : N.X.LawfulAEAD) (htimes : TimesRead N.X formatTime)
    (hc : c.Ready N) {w : World ι ν}
    (hD : ∀ n m req, (w.oracle (i, .node n) m).dest req = .answered (D req))
    (asked : Nat → N.Asked formatTime heartbeatTimeout c.hops)
    (hdir : ∀ k, (w.oracle (i, .client) k).get (circuitURL c.directoryURL c.hops) =
      .ok (asked k).response) :
    ∃ τ r w',
      N.reliable.Traces (i, .client) (executeRequestWithRebuildTracking N.X c) w τ r w' ∧
      Masks N c D i 0 c.attempts.toNat w w' (fetchedCircuits N.X c τ) r ∧
      ∀ x ∈ fetchedCircuits N.X c τ, (∃ k, x = readingAt N.X c w i k) ∧
        ∀ k, x = readingAt N.X c w i k → ∃ s ∈ (asked k).seen,
          N.Reached formatTime heartbeatTimeout s ∧ DrawnFrom s c.hops x := by
  obtain ⟨τ, r, w', htrace, hmasks, hdrawn⟩ := execute_of_answers (D := D) (i := i) (w := w)
    (P := fun k s => s ∈ (asked k).seen ∧ N.Reached formatTime heartbeatTimeout s) hX htimes hc hD
    (fun _ _ hs => hs.2) fun k => by
      obtain ⟨s, hseen, hs, hanswer⟩ := (asked k).answersFrom hc.hops
      exact ⟨s, _, ⟨hseen, hs⟩, hanswer, hdir k⟩
  refine ⟨τ, r, w', htrace, hmasks, fun x hx => ⟨(hdrawn x hx).1, fun k hk => ?_⟩⟩
  obtain ⟨s, ⟨hseen, hs⟩, hdraw⟩ := (hdrawn x hx).2 k hk
  exact ⟨s, hseen, hs, hdraw⟩

end

/-- A number in decimal is ASCII. -/
theorem valid_itoa (t : Int) : Valid (Decimal.itoa t) := by
  apply valid_ascii
  have hdigit (n : Nat) : ∀ b ∈ Decimal.digits n, b.toNat < 0x80 := by
    intro b hb
    have := Decimal.isDigit_of_mem_digits hb
    simp only [Decimal.isDigit, decide_eq_true_eq] at this
    omega
  cases t with
  | ofNat n => exact hdigit n
  | negSucc n => exact List.forall_mem_cons.mpr ⟨by decide, hdigit (n + 1)⟩

namespace Sample

/-- The libraries, with times in decimal. -/
def datedExternals : Externals := { externals with parseTime := Decimal.parseInt }

def datedNet : Net Node := { net with X := datedExternals }

/-- What the nodes register with, and a relay that will be gone. -/
def config : Node → NodeRegistration
  | .guard => ⟨generateNodeID (List.replicate 16 0), lit "guard", lit "g", 1, lit "g"⟩
  | .relay => ⟨generateNodeID (List.replicate 16 1), lit "relay", lit "r", 1, lit "r"⟩
  | .exit => ⟨generateNodeID (List.replicate 16 3), lit "exit", lit "e", 1, lit "e"⟩

def goneConfig : NodeRegistration :=
  ⟨generateNodeID (List.replicate 16 2), lit "relay", lit "x", 1, lit "x"⟩

theorem config_runs (n : Node) : datedNet.Runs (config n).coerced := by
  have hcoerced : (config n).coerced = config n := by
    cases n <;> decide +kernel
  rw [hcoerced]
  refine .inl ⟨n, ⟨?_, ?_, ⟨host n, ?_, keyPair (host n)⟩, ?_⟩, ?_⟩
  · cases n <;> decide
  · cases n <;> decide
  · cases n <;> rfl
  · cases n <;> (show toValid _ = _; decide +kernel)
  · cases n <;> rfl

theorem gone_down : datedNet.Down goneConfig.listed := by
  unfold Net.Down
  decide

theorem gone_runs : datedNet.Runs goneConfig.coerced := by
  have hcoerced : goneConfig.coerced = goneConfig := by decide +kernel
  exact .inr (hcoerced ▸ gone_down)

open Directory.Sample (register registerAll newRecord register_eq list_of_entries reads_id draw_at
  list_then_draw)

theorem dated_zero : Dated 0 := by
  unfold Dated
  decide

theorem reached_register {r : NodeRegistry} (hr : datedNet.Reached Decimal.itoa 30 r)
    {cfg : NodeRegistration} (hcfg : datedNet.Runs cfg.coerced) :
    datedNet.Reached Decimal.itoa 30 (register r cfg) := by
  rw [← register_eq Decimal.itoa]
  refine hr.step (x := .request 0 _ _) ⟨dated_zero, ?_⟩
    (serves_update r 0 (.register (registerBody cfg)))
  rintro t body answer ⟨⟩
  exact ⟨cfg, rfl, hcfg⟩

/-- All four have registered. -/
def staff : List NodeRegistration := [config .guard, config .relay, goneConfig, config .exit]

/-- The registry before and after the second relay has deregistered. -/
def staffed : NodeRegistry := registerAll staff

def remaining : NodeRegistry :=
  (Request.answer Decimal.itoa staffed 0 (.deregister goneConfig.nodeID)).2

theorem staffed_reached : datedNet.Reached Decimal.itoa 30 staffed :=
  reached_register (reached_register (reached_register (reached_register Net.reached_empty
    (config_runs .guard)) (config_runs .relay)) gone_runs) (config_runs .exit)

/-- What the directory does meanwhile. -/
theorem genuine_deregister (r : NodeRegistry) (pathValue : Bytes) :
    ∃ x, datedNet.Genuine x ∧ Serves Decimal.itoa 30 r x
      (Request.answer Decimal.itoa r 0 (.deregister pathValue)).2 :=
  ⟨.request 0 _ _, ⟨dated_zero, by rintro t body answer ⟨⟩⟩,
    serves_update r 0 (.deregister pathValue)⟩

theorem remaining_reached : datedNet.Reached Decimal.itoa 30 remaining := by
  obtain ⟨x, hx, hserves⟩ := genuine_deregister staffed goneConfig.nodeID
  exact staffed_reached.step hx hserves

theorem list_staffed : NodeRegistry.list staffed.entries false = staff.map newRecord :=
  list_of_entries staffed_reached.wellFormed (by decide +kernel)
    (by unfold Directory.Increasing; decide +kernel)

theorem list_remaining : NodeRegistry.list remaining.entries false =
    [config .guard, config .relay, config .exit].map newRecord :=
  list_of_entries remaining_reached.wellFormed (by decide +kernel)
    (by unfold Directory.Increasing; decide +kernel)

/-- A circuit over the relay that is about to go, and one over the other. -/
def goneCircuit : Directory.CircuitResponse :=
  ⟨newRecord (config .guard), newRecord goneConfig, newRecord (config .exit)⟩

def wholeCircuit : Directory.CircuitResponse :=
  ⟨newRecord (config .guard), newRecord (config .relay), newRecord (config .exit)⟩

/-- The relay deregisters while it is drawn. -/
theorem first_run {σ : Type} {registry : σ → NodeRegistry} {B : Behavior Operations σ}
    {E : σ → σ → Prop} (hB : Directory.Sample.Reads registry B) {u v : σ} (hu : registry u = staffed)
    (hstep : E u v) :
    Interleaved B E u (Service.circuitHandler Decimal.itoa (lit "hops=" ++ Decimal.itoa 3))
      [u, u, v, v, v, v] (some (writeJSON statusOK (goneCircuit.json Decimal.itoa))) := by
  have hgrouped : NodeRegistry.NodesByTypeResponse.ofNodes (staff.map newRecord) =
      ⟨[newRecord (config .guard)], [newRecord (config .relay), newRecord goneConfig],
        [newRecord (config .exit)]⟩ := rfl
  refine list_then_draw hB (parseHops_client (.inr rfl)) ?_ hgrouped
    (.env hstep (draw_at hB 0 1 0 rfl rfl rfl))
  rw [hu]
  exact list_staffed

/-- The next request meets the registry without it. -/
theorem second_run {σ : Type} {registry : σ → NodeRegistry} {B : Behavior Operations σ}
    {E : σ → σ → Prop} (hB : Directory.Sample.Reads registry B) {v : σ}
    (hv : registry v = remaining) :
    Interleaved B E v (Service.circuitHandler Decimal.itoa (lit "hops=" ++ Decimal.itoa 3))
      [v, v, v, v, v] (some (writeJSON statusOK (wholeCircuit.json Decimal.itoa))) := by
  have hgrouped : NodeRegistry.NodesByTypeResponse.ofNodes
      ([config .guard, config .relay, config .exit].map newRecord) =
      ⟨[newRecord (config .guard)], [newRecord (config .relay)], [newRecord (config .exit)]⟩ := rfl
  refine list_then_draw hB (parseHops_client (.inr rfl)) ?_ hgrouped (draw_at hB 0 0 0 rfl rfl rfl)
  rw [hv]
  exact list_remaining

/-- The requests of a call: all but the first choice meet the smaller
    registry. -/
def asked (k : Nat) : datedNet.Asked Decimal.itoa 30 3 :=
  if k < 2 then ⟨staffed, staffed_reached, _, _, first_run reads_id rfl
    (genuine_deregister staffed goneConfig.nodeID)⟩
  else ⟨remaining, remaining_reached, _, _, second_run reads_id rfl⟩

theorem dated_timesRead : TimesRead datedExternals Decimal.itoa :=
  fun t _ => ⟨valid_itoa t, Decimal.parseInt_itoa t⟩

theorem patientCall_dated : patientCall.Ready datedNet :=
  ⟨.inr rfl, by decide, layer_text, ⟨by decide, by decide, rfl⟩, by
    unfold ExitLayer.DistinctHeaders
    decide⟩

/-- The answers to these requests. -/
def served : World Unit Node :=
  { start with oracle := fun _ m => { choice m with get := fun _ => .ok (asked m).response } }

end Sample

/-- A call over three hops, while one of two relays goes. -/
theorem deployment_serves_sample : Sample.datedNet.Down Sample.goneConfig.listed ∧ ∃ τ r w',
    Sample.datedNet.reliable.Traces ((), .client)
      (executeRequestWithRebuildTracking Sample.datedExternals Sample.patientCall) Sample.served τ r
      w' ∧
    Masks Sample.datedNet Sample.patientCall (fun _ => Sample.response) () 0 2 Sample.served w'
      (fetchedCircuits Sample.datedExternals Sample.patientCall τ) r ∧
    ∀ x ∈ fetchedCircuits Sample.datedExternals Sample.patientCall τ, ∃ k,
      x = readingAt Sample.datedExternals Sample.patientCall Sample.served () k ∧
      ∃ s ∈ (Sample.asked k).seen, DrawnFrom s 3 x := by
  obtain ⟨τ, r, w', htrace, hmasks, hdrawn⟩ := deployment_serves (N := Sample.datedNet) (i := ())
    (w := Sample.served) (D := fun _ => Sample.response) (fun {_ _} => Sample.lawfulAEAD)
    Sample.dated_timesRead Sample.patientCall_dated (fun _ _ _ => rfl) Sample.asked fun _ => rfl
  refine ⟨Sample.gone_down, τ, r, w', htrace, hmasks, fun x hx => ?_⟩
  obtain ⟨⟨k, hk⟩, hregistry⟩ := hdrawn x hx
  obtain ⟨s, hseen, -, hdraw⟩ := hregistry k hk
  exact ⟨k, hk, s, hseen, hdraw⟩

end HopVault
