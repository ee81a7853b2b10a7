import HopVault.CircuitFaults
import HopVault.Framework.Visits

/-! # Who knows the sender and the destination

    What a node knows of a call is what it has received: the addresses its
    requests came from, the session keys its private key opens, and what
    these keys open. The client posts the session key of every hop to the
    hop itself, so the exit hears from the client as well as of the
    destination. -/

namespace HopVault

open Framework Framework.Json Framework.Utf8 Framework.Semantics Framework.Prog

variable {ι ν : Type}

/-! ## What a node knows -/

namespace Received

variable (m : Received ν)

/-- The circuit that a request names. -/
def circuitID : Option Bytes :=
  match m.endpoint with
  | some .setup => (decodeStream KeySetupRequest.fields .zero m.body).map (·.circuitID)
  | some .key => (decodeStream KeyRequest.fields .zero m.body).map (·.circuitID)
  | some .onion => (decodeStream OnionRequest.fields .zero m.body).map (·.circuitID)
  | none => none

/-- The session key of a set-up request. -/
def sessionKey (X : Externals) (priv : PrivateKey) : Option Bytes :=
  match m.endpoint with
  | some .setup => do
    let req ← decodeStream KeySetupRequest.fields .zero m.body
    let ct ← Base64.decode req.encryptedKey
    (decryptKey X priv ct).toOption
  | _ => none

/-- The ciphertext of an onion, or of an answer to one. -/
def payload : Option Bytes :=
  match m.endpoint with
  | some .onion => (decodeStream OnionRequest.fields .zero m.body).map (·.payload)
  | none => (decodeStream OnionResponse.fields .zero m.body).map (·.payload)
  | _ => none

end Received

/-- The node has received the message. -/
def World.Holds (w : World ι ν) (n : ν) (m : Received ν) : Prop := m.node = n ∧ ∃ j, m ∈ w.received j

section

variable (N : Net ν) (w : World ι ν) (circuitID : Bytes) (n : ν)

/-- A request for the circuit has come to the node from the client. -/
def Contacted : Prop :=
  ∃ m, w.Holds n m ∧ m.peer = N.remoteAddr .client ∧ m.circuitID = some (toValid circuitID)

/-- The node has a session key of the circuit. -/
def KeyKnown (key : Bytes) : Prop :=
  ∃ m, w.Holds n m ∧ m.circuitID = some (toValid circuitID) ∧
    m.sessionKey N.X (N.priv n) = some key

/-- One of its session keys opens a request for the URL. -/
def DestinationKnown (url : Bytes) : Prop :=
  ∃ key m ct text, KeyKnown N w circuitID n key ∧ w.Holds n m ∧ m.payload = some ct ∧
    decrypt N.X key ct = .ok text ∧
    ∃ layer, unmarshal ExitLayer.fields .zero text = some layer ∧ layer.url = toValid url

/-- No node knows both sides of the circuit, and a relay neither. -/
structure Anonymous (url : Bytes) : Prop where
  apart : ∀ n, ¬(Contacted N w circuitID n ∧ DestinationKnown N w circuitID n url)
  relay : ∀ n, N.role n = .relay → ¬Contacted N w circuitID n ∧ ¬DestinationKnown N w circuitID n url

end

/-! ## Nothing is forgotten -/

/-- What has been received by the first world has been by the second. -/
def Grown (w w' : World ι ν) : Prop := ∀ j, w.received j <+: w'.received j

theorem Grown.refl (w : World ι ν) : Grown w w := fun _ => List.prefix_rfl

theorem Grown.trans {u v w : World ι ν} (h₁ : Grown u v) (h₂ : Grown v w) : Grown u w :=
  fun j => (h₁ j).trans (h₂ j)

theorem Grown.holds {w w' : World ι ν} (h : Grown w w') {n : ν} {m : Received ν}
    (hm : w.Holds n m) : w'.Holds n m := by
  obtain ⟨hn, j, hj⟩ := hm
  exact ⟨hn, j, (h j).subset hj⟩

variable [DecidableEq ι] [DecidableEq ν]

theorem grown_act (ℓ : Loc ι ν) (e : Effect) (w : World ι ν) : Grown w (World.act ℓ e w).2 := by
  intro j
  obtain ⟨i, p⟩ := ℓ
  cases e with
  | accept endpoint peer body =>
    cases p with
    | node n =>
      -- a request is recorded once, for the client it belongs to
      show w.received j <+: Function.update w.received i _ j
      by_cases h : j = i
      · subst h
        rw [Function.update_self]
        exact List.prefix_append _ _
      · rw [Function.update_of_ne h]
    | client => exact List.prefix_rfl
    | nowhere => exact List.prefix_rfl
  | keysStore circuitID key => cases p <;> exact List.prefix_rfl
  | _ => exact List.prefix_rfl

variable {N : Net ν} {i : ι} {w w' : World ι ν}

/-- A run only adds to what has been received. -/
theorem grown_of_returns {M : Semantics Effects (Loc ι ν) (World ι ν)} (hact : M.act = World.act)
    {α : Type} {ℓ : Loc ι ν} {p : Go α} {a : α} (h : M.Returns ℓ p w a w') : Grown w w' := by
  induction h with
  | ret => exact .refl _
  | @op α ℓ e k w w' a _ ih =>
    rw [hact] at ih
    exact (grown_act ℓ e w).trans ih
  | rpc _ _ ih₁ ih₂ => exact ih₁.trans ih₂

/-- Nothing has been stored or executed, and nothing forgotten. -/
structure Later (w w' : World ι ν) : Prop where
  quiet : Quiet w w'
  grown : Grown w w'

omit [DecidableEq ι] [DecidableEq ν] in
theorem Later.trans {u v w : World ι ν} (h₁ : Later u v) (h₂ : Later v w) : Later u w :=
  ⟨h₁.quiet.trans h₂.quiet, h₁.grown.trans h₂.grown⟩

theorem later_act {e : Effect} (he : e.Silent) (ℓ : Loc ι ν) (w : World ι ν) :
    Later w (World.act ℓ e w).2 := ⟨quiet_act he ℓ w, grown_act ℓ e w⟩

/-- A request that a node accepts is received. -/
theorem holds_accept (n : ν) (endpoint : Option Endpoint) (peer body : Bytes) :
    (World.act (i, .node n) (.accept endpoint peer body) w).2.Holds n ⟨n, endpoint, peer, body⟩ := by
  refine ⟨rfl, i, ?_⟩
  show _ ∈ Function.update w.received i _ i
  rw [Function.update_self]
  exact List.mem_append_right _ (List.mem_singleton_self _)

/-! ## The set-up -/

/-- The node has been contacted with a session key. -/
def Introduced (N : Net ν) (w : World ι ν) (circuitID : Bytes) (n : ν) (key : Bytes) : Prop :=
  Contacted N w circuitID n ∧ KeyKnown N w circuitID n key

omit [DecidableEq ι] [DecidableEq ν] in
theorem Introduced.later {circuitID key : Bytes} {n : ν} (h : Introduced N w circuitID n key)
    (hg : Grown w w') : Introduced N w' circuitID n key := by
  obtain ⟨⟨m, hm, hpeer, hcid⟩, m', hm', hcid', hkey⟩ := h
  exact ⟨⟨m, hg.holds hm, hpeer, hcid⟩, m', hg.holds hm', hcid', hkey⟩

/-- A hop that is set up hears from the client. -/
theorem meets_introduced {rec : NodeRecord} {n : ν} (hn : N.Honest rec n) {circuitID key : Bytes}
    (hlen : key.length = sessionKeySize) {pub : PublicKey} (hpair : N.X.KeyPair pub (N.priv n)) :
    N.reliable.Meets (i, .client) (sendSetupKey N.X rec.nodeURL circuitID pub key) w
      fun _ w' => Introduced N w' circuitID n key := by
  simp only [sendSetupKey, encryptKey, perform_eq, clientPost_eq, op_bind, rpc_bind, ret_bind,
    pure_eq]
  apply meets_any
  -- the node can decrypt what is encrypted under its public key, with any seed
  intro seed w₁
  obtain ⟨ct, -, henc, hdec⟩ := hpair seed.1 key seed.2 hlen
  rw [henc]
  apply meets_any
  intro _ w₂
  refine meets_rpc (R := fun _ w₃ => Introduced N w₃ circuitID n key) ?_ ?_
  · intro r w₃ hr
    simp only [Net.reliable, Net.serve, hn.setupRoute, Net.serveAt, perform_eq, op_bind, ret_bind,
      pure_eq] at hr
    -- the setup request itself tells the node who sent it, for which circuit, and the key
    have hheld := holds_accept (w := w₂) (i := i) n (some .setup) (N.remoteAddr .client)
      (KeySetupRequest.json ⟨circuitID, Base64.encode ct⟩).encode
    have hgrown := grown_of_returns rfl (returns_op.mp hr)
    have hkey : (decryptKey N.X (N.priv n) ct).toOption = some key := by
      rw [(decryptKey_eq_ok N.X).mpr hdec]
      rfl
    refine Introduced.later ⟨⟨_, hheld, rfl, ?_⟩, _, hheld, ?_, ?_⟩ hgrown
    · simp [Received.circuitID]
    · simp [Received.circuitID]
    · simp [Received.sessionKey, hkey]
  · intro r w₃ hr
    cases r with
    | error err => exact meets_ret hr
    | ok resp =>
      dsimp only
      split_ifs
      · exact meets_ret hr
      · exact meets_ret hr

/-- Once a circuit is set up, every hop of it has heard from the client. -/
theorem meets_allIntroduced {circuitID : Bytes} {cands : List (NodeRecord × Bytes)}
    {nodes : List ν}
    (h : List.Forall₂ (fun c n => N.Honest c.1 n ∧ c.2.length = sessionKeySize) cands nodes) :
    N.reliable.Meets (i, .client) (setupCandidates N.X circuitID cands) w fun r w' => r = .ok () →
      List.Forall₂ (fun c n => Introduced N w' circuitID n c.2) cands nodes := by
  induction h generalizing w with
  | nil => exact meets_ret fun _ => .nil
  | @cons c n cands nodes hc _ ih =>
    obtain ⟨rec, key⟩ := c
    obtain ⟨hn, hlen⟩ := hc
    obtain ⟨pub, hpub, hpair⟩ := hn.publicKey
    simp only [setupCandidates, hpub]
    refine meets_bind (meets_introduced hn hlen hpair) ?_
    intro r w₁ hr
    -- a failed set-up is no answer with keys
    cases r with
    | error err =>
      apply meets_ret
      intro h
      cases h
    | ok _ =>
      intro r' w₂ hr' hok
      exact .cons (hr.later (grown_of_returns rfl hr')) (ih r' w₂ hr' hok)

/-! ## Up to the exit -/

variable {Q : World ι ν → Prop} {α : Type} {ℓ : Loc ι ν}

/-- An operation on the way. -/
theorem comes_silent {e : Effect} (he : e.Silent) {k : e.Ans → Go α}
    (h : ∀ a w', Later w w' → N.reliable.Comes ℓ (k a) w' Q) :
    N.reliable.Comes ℓ (.op e k) w Q :=
  comes_op (h _ _ (later_act he ℓ w))

/-- A key look-up on the way. -/
theorem comes_keysGet {n : ν} {circuitID key : Bytes} {k : Option Bytes → Go α}
    (hkey : w.keys n circuitID = some key)
    (h : ∀ w', Later w w' → N.reliable.Comes (i, .node n) (k (some key)) w' Q) :
    N.reliable.Comes (i, .node n) (.op (.keysGet circuitID) k) w Q := by
  apply comes_op
  have hans : (World.act (i, .node n) (.keysGet circuitID) w).1 = some key := hkey
  show N.reliable.Comes _ (k (World.act (i, .node n) (.keysGet circuitID) w).1) _ _
  rw [hans]
  exact h _ (later_act (by trivial) _ _)

/-- A hop passes the inner onion on. -/
theorem Handler.comes_forward {h : Handler} {n : ν}
    {addr circuitID key payload nextHop inner : Bytes} (hcid : circuitID ≠ [])
    (hstored : w.keys n (toValid circuitID) = some key)
    (hdec : decrypt N.X key payload = .ok (Layer.json ⟨nextHop, inner⟩).encode)
    (hhop : nextHop ≠ []) (hvalid : Valid nextHop) (hinner : inner ≠ []) {q : Post}
    (hq : q = jsonPost (nextHopURL nextHop) (OnionRequest.json ⟨toValid circuitID, inner⟩).encode)
    (hnext : ∀ w₁, Later w w₁ → N.reliable.Comes (N.serve (i, .node n) q).1
      (N.serve (i, .node n) q).2 w₁ Q) :
    N.reliable.Comes (i, .node n) (h.handleOnion N.X
      ⟨methodPost, addr, (OnionRequest.json ⟨circuitID, payload⟩).encode⟩) w Q := by
  have hreq := not_missing hcid (ne_nil_of_decrypt hdec)
  have hunwrap := unwrapLayer_layer hdec hhop hvalid hinner
  subst hq
  simp only [handleOnion, decode_onionRequest, if_neg hreq, ne_eq, not_true_eq_false, if_false,
    perform_eq, op_bind, ret_bind]
  refine comes_keysGet hstored ?_
  intro w₁ hw₁
  -- the key is found, the layer is opened, and its payload is posted to the next hop
  simp only [peel, hunwrap, forward, Handler.log, logPrintf_eq, clientPost_eq, op_bind, rpc_bind,
    ret_bind]
  refine comes_silent (by trivial) ?_
  intro _ w₂ hw₂
  exact comes_call (hnext w₂ (hw₁.trans hw₂))

/-- An onion at a forwarding hop comes to the next one. -/
theorem comes_hop {n m : ν} (hrole : N.role n = .guard ∨ N.role n = .relay) {p : Place ν} {q : Post}
    {circuitID key payload inner : Bytes} (hq : Posted N n circuitID q payload)
    (hstored : w.keys n (toValid circuitID) = some key) {rec : NodeRecord}
    (hnext : N.Honest rec m)
    (hdec : decrypt N.X key payload = .ok (Layer.json ⟨rec.addr, inner⟩).encode)
    (hinner : inner ≠ []) (hcall : ∀ w₁ q', Later w w₁ → Posted N m circuitID q' inner →
      N.reliable.Comes (N.serve (i, .node n) q').1 (N.serve (i, .node n) q').2 w₁ Q) :
    N.reliable.Comes (N.serve (i, p) q).1 (N.serve (i, p) q).2 w Q := by
  obtain ⟨cid, hcid, hsame, hbody⟩ := hq.body
  simp only [Net.serve, hq.route, Net.serveAt, perform_eq, op_bind, ret_bind, pure_eq]
  refine comes_silent (by trivial) ?_
  intro _ w₁ hw₁
  apply comes_left
  have hforward (h : Handler) : N.reliable.Comes (i, .node n) (h.handleOnion N.X
      ⟨methodPost, N.remoteAddr p, q.body⟩) w₁ Q := by
    rw [hbody]
    refine Handler.comes_forward hcid (by rw [hsame, hw₁.quiet.keys]; exact hstored) hdec
      (addr_ne_nil _) hnext.addr hinner rfl ?_
    intro w₂ hw₂
    -- what reaches the next hop is the inner layer under the same circuit ID
    refine hcall w₂ _ (hw₁.trans hw₂) ⟨?_, toValid cid, ?_, ?_, rfl⟩
    · show N.route (nextHopURL rec.addr) = _
      rw [nextHopURL_addr]
      exact hnext.onionRoute
    · exact fun h => hcid (toValid_eq_nil.mp h)
    · rw [toValid_toValid, hsame]
  unfold Net.handle
  rcases hrole with hrole | hrole
  · rw [hrole]
    exact hforward _
  · rw [hrole]
    exact hforward _

/-- When the exit has accepted the onion, it knows the destination. -/
theorem comes_destination {n : ν} {p : Place ν} {q : Post} {circuitID key payload : Bytes}
    {layer : ExitLayer} (hq : Posted N n circuitID q payload)
    (hdec : decrypt N.X key payload = .ok layer.json.encode)
    (hknown : KeyKnown N w circuitID n key) :
    N.reliable.Comes (N.serve (i, p) q).1 (N.serve (i, p) q).2 w fun v =>
      Grown w v ∧ DestinationKnown N v circuitID n layer.url := by
  obtain ⟨cid, -, -, hbody⟩ := hq.body
  simp only [Net.serve, hq.route, Net.serveAt, perform_eq, op_bind, ret_bind, pure_eq]
  apply comes_op
  apply comes_here
  have hgrown := grown_act (i, .node n) (.accept (some .onion) (N.remoteAddr p) q.body) w
  refine ⟨hgrown, key, _, payload, _, ?_, holds_accept _ _ _ _, ?_, hdec, layer.coerced, ?_, rfl⟩
  · obtain ⟨m, hm, hcid, hkey⟩ := hknown
    exact ⟨m, hgrown.holds hm, hcid, hkey⟩
  · simp [Received.payload, hbody]
  · exact unmarshal_exitLayer layer

variable {circuit : CircuitResponse} {nodes : Role → ν}

/-- The exit knows both sides, and the relay the client. -/
structure Exposed (N : Net ν) (w : World ι ν) (circuitID url : Bytes) (nodes : Role → ν) : Prop where
  client : ∀ role, Contacted N w circuitID (nodes role)
  destination : DestinationKnown N w circuitID (nodes .exit) url

/-- After the set-up the hops hold their keys and have heard from the
    client. -/
theorem ends_introduced {circuitID : Bytes} (hcid : circuitID ≠ [])
    (hc : N.Circuit circuit 3 (nodesAt nodes 3)) :
    N.reliable.Ends (i, .client) (setupCircuitWithHops N.X circuitID circuit 3) w fun r w' =>
      ∃ keys, r = .ok keys ∧ keys.Proper 3 ∧
        Keyed w' circuitID (candidates circuit keys 3) (nodesAt nodes 3) ∧
        List.Forall₂ (fun c n => Introduced N w' circuitID n c.2) (candidates circuit keys 3)
          (nodesAt nodes 3) := by
  have hall : N.reliable.Meets (i, .client) (setupCircuitWithHops N.X circuitID circuit 3) w
      fun r w' => ∀ keys, r = .ok keys →
        List.Forall₂ (fun c n => Introduced N w' circuitID n c.2) (candidates circuit keys 3)
          (nodesAt nodes 3) := by
    unfold setupCircuitWithHops validateHops
    rw [if_pos (.inr rfl)]
    refine meets_bind (meets_of_all (I := fun _ => True) (all_generateKeys_proper 3) trivial
      fun _ _ _ _ => trivial) ?_
    intro keys w₁ hkeys
    refine meets_bind (meets_allIntroduced (hc.candidates hkeys.1)) ?_
    intro r w₂ hr
    cases r with
    | error err =>
      apply meets_ret
      intro keys' h
      cases h
    | ok _ =>
      apply meets_ret
      intro keys' h
      rw [← Except.ok.inj h]
      exact hr rfl
  refine ((ends_setupCircuit hcid (if_pos (.inr rfl) : validateHops 3 = _) hc).and_meets
    hall).weaken ?_
  intro r w' h
  obtain ⟨⟨keys, hr, hk, hkeyed, -⟩, hintro⟩ := h
  exact ⟨keys, hr, hk, hkeyed, hintro keys hr⟩

/-- An attempt over three hops comes to this. -/
theorem comes_exposed (hX : N.X.LawfulAEAD) {c : Call} (h3 : c.hops = 3) (hcid : c.circuitID ≠ [])
    (hc : N.Circuit circuit 3 (nodesAt nodes 3)) :
    N.reliable.Comes (i, .client) (attemptCircuit N.X c circuit) w fun v =>
      Exposed N v c.circuitID c.exitLayer.url nodes := by
  simp only [attemptCircuit, h3, perform_eq, op_bind, ret_bind, pure_eq]
  refine comes_bind (ends_introduced hcid hc) ?_
  intro r w₁ hr
  obtain ⟨keys, rfl, hk, hkeyed, hintro⟩ := hr
  refine comes_silent (by trivial) ?_
  intro _ w₂ hw₂
  refine comes_bind ((ends_buildOnion hX (.inr rfl) hk c.exitLayer _ _).and_meets
    fun _ _ hr => grown_of_returns rfl hr) ?_
  intro r w₃ hr
  obtain ⟨⟨payload, rfl, hwrap, hq₃⟩, hg₃⟩ := hr
  refine comes_silent (by trivial) ?_
  intro _ w₄ hw₄
  have hw := (hw₂.trans ⟨hq₃, hg₃⟩).trans hw₄
  -- the onion is posted to the guard
  apply comes_left
  simp only [sendOnion, clientPost_eq, rpc_bind, ret_bind, pure_eq]
  apply comes_call
  -- three hops: every role has its node
  have hin (role : Role) : role ∈ circuitRoles 3 := by
    cases role <;> decide
  have hintro (role : Role) : Introduced N w₁ c.circuitID (nodes role) (keys.of role) := by
    have hintro : Introduced N w₁ c.circuitID (nodes .guard) keys.guardKey ∧
        Introduced N w₁ c.circuitID (nodes .relay) keys.relayKey ∧
        Introduced N w₁ c.circuitID (nodes .exit) keys.exitKey := by
      simpa [candidates, nodesAt, circuitRoles] using hintro
    cases role with
    | guard => exact hintro.1
    | relay => exact hintro.2.1
    | exit => exact hintro.2.2
  -- neither building the onion nor the marks touch the key tables
  have hkeys (role : Role) : w₄.keys (nodes role) (toValid c.circuitID) = some (keys.of role) := by
    rw [hw.quiet.keys]
    exact hkeyed.at (hin role)
  unfold Wrapped at hwrap
  rw [if_pos rfl] at hwrap
  obtain ⟨relayCT, exitCT, hguardCT, hrelayCT, hexitCT⟩ := hwrap
  -- from the guard to the relay, from there to the exit, and on to the destination
  refine comes_hop (.inl (hc.at (hin .guard)).2)
    ⟨(hc.at (hin .guard)).1.onionRoute, c.circuitID, hcid, rfl, rfl⟩ (hkeys .guard)
    (hc.at (hin .relay)).1 hguardCT (ne_nil_of_decrypt hrelayCT) ?_
  intro w₅ q hw₅ hq
  refine comes_hop (.inr (hc.at (hin .relay)).2) hq (by rw [hw₅.quiet.keys]; exact hkeys .relay)
    (hc.at (hin .exit)).1 hrelayCT (ne_nil_of_decrypt hexitCT) ?_
  intro w₆ q' hw₆ hq'
  have hgrown := (hw.trans (hw₅.trans hw₆)).grown
  obtain ⟨v, hv, hgrown', hknown⟩ := comes_destination (N := N) (i := i) (p := .node (nodes .relay))
    hq' hexitCT ((hintro .exit).later hgrown).2
  refine ⟨v, hv, ?_, hknown⟩
  intro role
  exact ((hintro role).later (hgrown.trans hgrown')).1

/-! ## Without a circuit ID -/

/-- What a call can do whose set-ups are all refused: only guards have
    received anything, and no onion. -/
structure Refused (N : Net ν) (w v : World ι ν) : Prop where
  oracle : v.oracle = w.oracle
  guards : ∀ n m, v.Holds n m → m.endpoint = some .setup ∧ N.role n = .guard

omit [DecidableEq ι] [DecidableEq ν] in
/-- Then nobody knows the destination, and no relay the client. -/
theorem Refused.anonymous {v : World ι ν} (h : Refused N w v) (circuitID url : Bytes) :
    Anonymous N v circuitID url := by
  have hnone (n : ν) : ¬DestinationKnown N v circuitID n url := by
    -- the destination shows only in a payload, and none was received
    rintro ⟨key, m, ct, text, -, hm, hct, -⟩
    unfold Received.payload at hct
    rw [(h.guards n m hm).1] at hct
    cases hct
  constructor
  · intro n hn
    exact hnone n hn.2
  · intro n hrole
    refine ⟨?_, hnone n⟩
    -- all that arrived came from clients, at guards
    rintro ⟨m, hm, -⟩
    have hguard := (h.guards n m hm).2
    rw [hrole] at hguard
    cases hguard

/-- An operation by which nothing is received. -/
def Effect.Unreceived : Effect → Prop
  | .accept _ _ _ => False
  | _ => True

theorem Effect.Plain.unreceived {e : Effect} (he : e.Plain) : e.Unreceived := by
  cases e with
  | accept endpoint peer body => cases he
  | _ => trivial

theorem refused_act {e : Effect} (he : e.Unreceived) {v : World ι ν} (h : Refused N w v) :
    Refused N w (World.act ℓ e v).2 := by
  obtain ⟨j, p⟩ := ℓ
  cases e with
  | accept endpoint peer body => cases he
  | keysStore circuitID key => cases p <;> exact ⟨h.oracle, h.guards⟩
  | _ => exact ⟨h.oracle, h.guards⟩

/-- A set-up request that a guard receives. -/
theorem refused_accept {n : ν} (hrole : N.role n = .guard) {v : World ι ν} (h : Refused N w v)
    (peer body : Bytes) :
    Refused N w (World.act (i, .node n) (.accept (some .setup) peer body) v).2 := by
  refine ⟨h.oracle, ?_⟩
  rintro n' m ⟨rfl, j, hj⟩
  have hj : m ∈ Function.update v.received i (v.received i ++ [⟨n, some .setup, peer, body⟩]) j := hj
  by_cases hown : j = i
  · subst hown
    rw [Function.update_self] at hj
    rcases List.mem_append.mp hj with hj | hj
    · exact h.guards _ m ⟨rfl, j, hj⟩
    · rw [List.mem_singleton.mp hj]
      exact ⟨rfl, hrole⟩
  · rw [Function.update_of_ne hown] at hj
    exact h.guards _ m ⟨rfl, j, hj⟩

/-- An operation that keeps to this. -/
theorem stays_unreceived {v : World ι ν} {e : Effect} (he : e.Unreceived) {k : e.Ans → Go α}
    {R : α → World ι ν → Prop} (h : Refused N w v)
    (hk : ∀ a v', Refused N w v' → N.reliable.Stays ℓ (k a) v' (Refused N w) R) :
    N.reliable.Stays ℓ (.op e k) v (Refused N w) R :=
  stays_op h (hk _ _ (refused_act he h))

/-- A guard refuses a set-up for no circuit. -/
theorem stays_sendSetupKey {v : World ι ν} (h : Refused N w v) {rec : NodeRecord} {n : ν}
    (hn : N.Honest rec n) (hrole : N.role n = .guard) (pub : PublicKey) (key : Bytes) :
    N.reliable.Stays (i, .client) (sendSetupKey N.X rec.nodeURL [] pub key) v (Refused N w)
      fun r v' => (∃ err, r = .error err) ∧ Refused N w v' := by
  simp only [sendSetupKey, encryptKey, perform_eq, op_bind, ret_bind, pure_eq]
  apply stays_unreceived (by trivial) h
  intro seed v₁ h₁
  -- the set-up request has an empty circuit ID, which the handler refuses
  cases N.X.encryptOAEP pub seed.1 key with
  | error err => exact stays_ret h₁ ⟨⟨_, rfl⟩, h₁⟩
  | ok ct =>
    simp only [clientPost_eq, rpc_bind, ret_bind]
    apply stays_unreceived (by trivial) h₁
    intro _ v₂ h₂
    refine stays_rpc (R := fun (r : Result Response) v' =>
      (∃ resp, r = .ok resp ∧ resp.statusCode = statusBadRequest) ∧ Refused N w v') h₂ ?_ ?_
    · -- the answer is a 400 before anything else is looked at
      have hbad : handleSetup N.X (N.priv n) ⟨methodPost, N.remoteAddr .client,
          (KeySetupRequest.json ⟨[], Base64.encode ct⟩).encode⟩ =
          .ret (httpError "circuitId and encryptedKey are required" statusBadRequest) := by
        have hnil : toValid [] = [] := toValid_eq_nil.mpr rfl
        simp [handleSetup, hnil]
      simp only [Net.reliable, Net.serve, hn.setupRoute, Net.serveAt, Net.handle, hbad, perform_eq,
        op_bind, ret_bind, pure_eq]
      have h₃ := refused_accept (i := i) hrole h₂ (N.remoteAddr .client)
        (KeySetupRequest.json ⟨[], Base64.encode ct⟩).encode
      exact stays_op h₂ (stays_ret h₃ ⟨⟨_, rfl, rfl⟩, h₃⟩)
    · intro r v₃ hr
      obtain ⟨⟨resp, rfl, hstatus⟩, h₃⟩ := hr
      dsimp only
      rw [hstatus, if_pos (by decide)]
      exact stays_ret h₃ ⟨⟨_, rfl⟩, h₃⟩

/-- So no circuit is set up, -/
theorem stays_attempt {v : World ι ν} (h : Refused N w v) {c : Call} (h3 : c.hops = 3)
    (hcid : c.circuitID = []) (hc : N.Circuit circuit 3 (nodesAt nodes 3)) :
    N.reliable.Stays (i, .client) (attemptCircuit N.X c circuit) v (Refused N w)
      fun outcome v' => (∃ err, outcome = .retry err) ∧ Refused N w v' := by
  obtain ⟨hn, hrole⟩ := hc.at (show Role.guard ∈ circuitRoles 3 by decide)
  obtain ⟨pub, hpub, -⟩ := hn.publicKey
  have hpub : parsePublicKey N.X circuit.guard.publicKey = .ok pub := hpub
  unfold attemptCircuit setupCircuitWithHops validateHops
  rw [h3, if_pos (.inr rfl), hcid]
  -- the guard is set up first, and its refusal ends the attempt
  refine stays_bind (R := fun r v' => (∃ err, r = .error err) ∧ Refused N w v') ?_ ?_
  · refine stays_bind (stays_of_all (all_generateKeys (fun _ he => he.unreceived) 3) h
      fun _ he _ hv => refused_act he hv) ?_
    intro keys v₁ hv₁
    refine stays_bind (R := fun r v' => (∃ err, r = .error err) ∧ Refused N w v') ?_ ?_
    · simp only [candidates, if_true, setupCandidates, hpub]
      refine stays_bind (stays_sendSetupKey hv₁.2 hn hrole pub keys.guardKey) ?_
      intro r v₂ hr
      obtain ⟨⟨err, rfl⟩, h₂⟩ := hr
      exact stays_ret h₂ ⟨⟨_, rfl⟩, h₂⟩
    · intro r v₂ hr
      obtain ⟨⟨err, rfl⟩, h₂⟩ := hr
      exact stays_ret h₂ ⟨⟨_, rfl⟩, h₂⟩
  · intro r v₁ hr
    obtain ⟨⟨err, rfl⟩, h₁⟩ := hr
    exact stays_ret h₁ ⟨⟨_, rfl⟩, h₁⟩

/-! ## The directory -/

/-- Every circuit the directory hands out is one of three honest nodes. -/
def Net.Directed (N : Net ν) (i : ι) (w : World ι ν) : Prop :=
  ∀ m url resp circuit, (w.oracle (i, .client) m).get url = .ok resp →
    decodeStream (CircuitResponse.fields N.X) .zero resp.body = some circuit →
    ∃ nodes, N.Circuit circuit 3 (nodesAt nodes 3)

/-- A circuit that is fetched is handed out by the directory. -/
theorem stays_getCircuit {v : World ι ν} {I : World ι ν → Prop} (hI : I v)
    (hget : ∀ url, I (World.act (i, .client) (.httpGet url) v).2) (hdir : N.Directed i v)
    (directoryURL : Bytes) :
    N.reliable.Stays (i, .client) (getCircuitWithHops N.X directoryURL 3) v I fun r v' =>
      I v' ∧ ∀ circuit, r = .ok circuit → ∃ nodes, N.Circuit circuit 3 (nodesAt nodes 3) := by
  have hnone {err : Bytes} : ∀ circuit, (.error err : Result CircuitResponse) = .ok circuit →
      ∃ nodes, N.Circuit circuit 3 (nodesAt nodes 3) := by
    intro circuit h
    cases h
  simp only [getCircuitWithHops, validateHops, or_true, if_true, perform_eq, op_bind, ret_bind,
    pure_eq]
  apply stays_op hI
  have h₁ := hget (directoryURL ++ lit "/circuit?hops=" ++ Decimal.itoa 3)
  have hans := hdir (v.used (i, .client)) (directoryURL ++ lit "/circuit?hops=" ++ Decimal.itoa 3)
  -- the oracle is directed: what parses as a circuit is one of honest nodes
  cases hgot : (N.reliable.act (i, .client) (.httpGet (directoryURL ++ lit "/circuit?hops=" ++
      Decimal.itoa 3)) v).1 with
  | error err => exact stays_ret h₁ ⟨h₁, hnone⟩
  | ok resp =>
    dsimp only
    split_ifs
    · exact stays_ret h₁ ⟨h₁, hnone⟩
    · cases hread : decodeStream (CircuitResponse.fields N.X) .zero resp.body with
      | none => exact stays_ret h₁ ⟨h₁, hnone⟩
      | some circuit =>
        dsimp only
        split_ifs
        · exact stays_ret h₁ ⟨h₁, hnone⟩
        · exact stays_ret h₁ ⟨h₁, hnone⟩
        · refine stays_ret h₁ ⟨h₁, ?_⟩
          intro circuit' h
          rw [← Except.ok.inj h]
          exact hans resp circuit hgot hread

/-! ## Anonymity -/

/-- A call without a circuit ID never gets past the guards. The induction is
    on the attempts that are left. -/
theorem stays_runAttempts (hdir : N.Directed i w) {c : Call} (h3 : c.hops = 3)
    (hcid : c.circuitID = []) (maxAttempts : Int) (left : Nat) (attempt : Int)
    (events : List RebuildEvent) (lastErr : Option Bytes) (lastCircuit : Option CircuitResponse)
    {v : World ι ν} (h : Refused N w v) :
    N.reliable.Stays (i, .client)
      (runAttempts N.X c maxAttempts left attempt events lastErr lastCircuit) v (Refused N w)
      fun _ v' => Refused N w v' := by
  -- induction on the attempts left; that nothing but refusals has happened is the invariant
  induction left generalizing attempt events lastErr lastCircuit v with
  | zero => exact stays_ret h h
  | succ left ih =>
    rw [runAttempts_eq]
    refine stays_bind (stays_of_all (all_beginRebuild (fun _ he => he.unreceived) _ _ _ _ _) h
      fun _ he _ hv => refused_act he hv) ?_
    intro events₁ v₁ h₁
    simp only [perform_eq, op_bind, ret_bind]
    apply stays_unreceived (by trivial) h₁.2
    intro _ v₂ h₂
    have hdir₂ : N.Directed i v₂ := by
      unfold Net.Directed
      rw [h₂.oracle]
      exact hdir
    rw [h3]
    refine stays_bind (stays_getCircuit h₂ (fun _ => refused_act (by trivial) h₂) hdir₂ _) ?_
    intro r v₃ hr
    cases r with
    | error err => exact stays_ret hr.1 hr.1
    | ok circuit =>
      obtain ⟨nodes, hc⟩ := hr.2 circuit rfl
      refine stays_bind (stays_attempt hr.1 h3 hcid hc) ?_
      intro outcome v₄ hout
      obtain ⟨⟨err, rfl⟩, h₄⟩ := hout
      -- the attempt is made again
      simp only [afterAttempt, perform_eq, op_bind, ret_bind]
      apply stays_unreceived (by trivial) h₄
      intro _ v₅ h₅
      refine stays_bind (stays_of_all (all_finishRebuild (fun _ he => he.unreceived) _ _) h₅
        fun _ he _ hv => refused_act he hv) ?_
      intro events₂ v₆ h₆
      exact ih _ _ _ _ h₆.2

/-- A call whose first attempt gets a circuit exposes it. -/
theorem comes_execute (hX : N.X.LawfulAEAD) (hdir : N.Directed i w) {c : Call} (h3 : c.hops = 3)
    (hcid : c.circuitID ≠ []) {w₀ : World ι ν} (hfetch : N.reliable.Returns (i, .client)
      (getCircuitWithHops N.X c.directoryURL c.hops) (World.act (i, .client) (.mark .attempt) w).2
      (.ok circuit) w₀) :
    ∃ nodes, N.Circuit circuit 3 (nodesAt nodes 3) ∧
      N.reliable.Comes (i, .client) (executeRequestWithRebuildTracking N.X c) w fun v =>
        Exposed N v c.circuitID c.exitLayer.url nodes := by
  have hhanded := stays_getCircuit (N := N) (i := i) (I := fun _ => True)
    (v := (World.act (i, .client) (.mark .attempt) w).2) trivial (fun _ => trivial) hdir
    c.directoryURL
  rw [h3] at hfetch
  obtain ⟨nodes, hc⟩ := (hhanded.2 _ _ hfetch).2 circuit rfl
  refine ⟨nodes, hc, ?_⟩
  -- the first attempt is enough
  obtain ⟨left, hleft⟩ := Nat.exists_eq_add_one.mpr c.attempts_pos
  unfold executeRequestWithRebuildTracking validateHops
  rw [if_pos (.inr h3)]
  dsimp only
  rw [hleft, runAttempts_eq]
  refine comes_bind (R := fun events w₁ => w₁ = w) ⟨[], w, .ret, rfl⟩ ?_
  rintro events w₁ rfl
  simp only [perform_eq, op_bind, ret_bind]
  apply comes_op
  rw [h3]
  refine comes_bind (R := fun r _ => r = .ok circuit) ⟨_, _, hfetch, rfl⟩ ?_
  rintro r w₂ rfl
  exact comes_left (comes_exposed hX h3 hcid hc)

/-- **Anonymity**: over honest nodes a call keeps the sender apart from the
    destination only if it names no circuit, so that no guard accepts it.
    Any other call comes to a state in which the exit knows both. -/
theorem anonymous_iff (hX : N.X.LawfulAEAD) (hdir : N.Directed i w)
    (hfresh : ∀ j, w.received j = []) {c : Call} (h3 : c.hops = 3) {w₀ : World ι ν}
    (hfetch : N.reliable.Returns (i, .client) (getCircuitWithHops N.X c.directoryURL c.hops)
      (World.act (i, .client) (.mark .attempt) w).2 (.ok circuit) w₀) :
    ((∀ v, N.reliable.Visits (i, .client) (executeRequestWithRebuildTracking N.X c) w v →
      Anonymous N v c.circuitID c.exitLayer.url) ↔ c.circuitID = []) ∧
    (c.circuitID ≠ [] → ∃ nodes v, N.Circuit circuit 3 (nodesAt nodes 3) ∧
      N.reliable.Visits (i, .client) (executeRequestWithRebuildTracking N.X c) w v ∧
      Exposed N v c.circuitID c.exitLayer.url nodes) := by
  have hexposed (hcid : c.circuitID ≠ []) : ∃ nodes v, N.Circuit circuit 3 (nodesAt nodes 3) ∧
      N.reliable.Visits (i, .client) (executeRequestWithRebuildTracking N.X c) w v ∧
      Exposed N v c.circuitID c.exitLayer.url nodes := by
    obtain ⟨nodes, hc, v, hv, hexp⟩ := comes_execute hX hdir h3 hcid hfetch
    exact ⟨nodes, v, hc, hv, hexp⟩
  refine ⟨?_, hexposed⟩
  constructor
  · -- with a circuit ID the exit knows both ends, so the property fails
    intro h
    by_contra hcid
    obtain ⟨nodes, v, -, hv, hexp⟩ := hexposed hcid
    exact (h v hv).apart (nodes .exit) ⟨hexp.client .exit, hexp.destination⟩
  · intro hcid v hv
    -- nothing has been received yet, so nothing but refusals
    have hstart : Refused N w w := by
      refine ⟨rfl, ?_⟩
      rintro n m ⟨-, j, hj⟩
      rw [hfresh j] at hj
      cases hj
    have hstays := stays_runAttempts hdir h3 hcid c.attempts c.attempts.toNat 1 [] none none hstart
    unfold executeRequestWithRebuildTracking validateHops at hv
    rw [if_pos (.inr h3)] at hv
    exact (hstays.1 v hv).anonymous _ _

namespace Sample

/-- The directory hands out the circuit over the three nodes. -/
theorem decode_directory : decodeStream (CircuitResponse.fields externals) .zero
    (directory Sample.circuit).body = some Sample.circuit := by
  decide +kernel

theorem directed : net.Directed () (start : World Unit Node) := by
  intro m url resp circuit hget hread
  cases hget
  cases decode_directory.symm.trans hread
  exact ⟨id, circuit_nodesAt⟩

theorem fetched : ∃ w₀, net.reliable.Returns ((), .client)
    (getCircuitWithHops externals call.directoryURL call.hops)
    (World.act ((), .client) (.mark .attempt) (start : World Unit Node)).2 (.ok Sample.circuit)
    w₀ := by
  have hexec : ((net.reliable.exec 1 ((), .client)
      (getCircuitWithHops externals call.directoryURL call.hops)
      (World.act ((), .client) (.mark .attempt) (start : World Unit Node)).2).map
        fun r => r.1.toOption) = some (some Sample.circuit) := by
    decide +kernel
  obtain ⟨⟨r, w₀⟩, hrun, hr⟩ := Option.map_eq_some_iff.mp hexec
  cases r with
  | error err => cases hr
  | ok circuit =>
    cases hr
    exact ⟨w₀, returns_of_exec hrun⟩

end Sample

/-- A call that names no circuit gets one and gives nothing away. -/
theorem anonymous_iff_sample : ∃ w₀, Sample.net.reliable.Returns ((), .client)
      (getCircuitWithHops Sample.externals Sample.call.directoryURL Sample.call.hops)
      (World.act ((), .client) (.mark .attempt) Sample.start).2 (.ok Sample.circuit) w₀ ∧
    ∀ v, Sample.net.reliable.Visits ((), .client)
      (executeRequestWithRebuildTracking Sample.externals { Sample.call with circuitID := [] })
      Sample.start v → Anonymous Sample.net v [] Sample.layer.url := by
  obtain ⟨w₀, hfetch⟩ := Sample.fetched
  have hcall := @anonymous_iff Unit Sample.Node _ _ Sample.net () Sample.start Sample.circuit
    Sample.lawfulAEAD Sample.directed (fun _ => rfl) { Sample.call with circuitID := [] } rfl w₀
    hfetch
  exact ⟨w₀, hfetch, hcall.1.mpr rfl⟩

/-- One that names a circuit: the exit hears from the client and of the
    destination, and the relay hears from the client. -/
theorem exit_knows_both : ∃ v, Sample.net.reliable.Visits ((), .client)
    (executeRequestWithRebuildTracking Sample.externals Sample.call) Sample.start v ∧
    Contacted Sample.net v (lit "c1") .exit ∧
    DestinationKnown Sample.net v (lit "c1") .exit (lit "http://d") ∧
    Contacted Sample.net v (lit "c1") .relay ∧
    ¬Anonymous Sample.net v (lit "c1") (lit "http://d") := by
  obtain ⟨w₀, hfetch⟩ := Sample.fetched
  obtain ⟨nodes, hc, v, hv, hexp⟩ := comes_execute Sample.lawfulAEAD Sample.directed rfl
    (show Sample.call.circuitID ≠ [] by decide) hfetch
  have hrole (role : Role) : nodes role = role :=
    (hc.at (by cases role <;> decide)).2
  have hclient := hexp.client
  have hdest := hexp.destination
  rw [hrole] at hdest
  have hexit := hclient .exit
  have hrelay := hclient .relay
  rw [hrole] at hexit hrelay
  refine ⟨v, hv, hexit, hdest, hrelay, ?_⟩
  intro h
  exact h.apart .exit ⟨hexit, hdest⟩

end HopVault
