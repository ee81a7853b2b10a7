import HopVault.Attribution
import HopVault.ExitPaths
import HopVault.Transparency

/-! # Which faults are retried

    A failure goes back to the client hop by hop. What it learns of a fault
    behind the guard is the guard's answer: an error, after which it takes
    another circuit, or a payload, which it opens or gives up on. -/

namespace HopVault

open Framework Framework.Json Framework.Utf8 Framework.Semantics Framework.Prog

/-! ## Answers to an onion -/

/-- The payload with which the sender of an onion goes on, unless the answer
    is an error to it. -/
def answerPayload : Result Response → Option Bytes
  | .error _ => none
  | .ok resp =>
    if resp.statusCode ≠ statusOK then none
    else (decodeStream OnionResponse.fields .zero resp.body).map (·.payload)

@[simp] theorem answerPayload_onionAnswer (ct : Bytes) :
    answerPayload (.ok (onionAnswer ct)) = some ct := by
  have hok : ¬(onionAnswer ct).statusCode ≠ statusOK := fun h => h rfl
  simp only [answerPayload, if_neg hok, decode_onionAnswer]
  rfl

theorem answerPayload_status {resp : Response} (h : resp.statusCode ≠ statusOK) :
    answerPayload (.ok resp) = none := by
  simp only [answerPayload, if_pos h]

/-- What a hop with this key makes of the answer of the next one: an error
    of an error, and of a payload an encryption of it. -/
def Wraps (X : Externals) (key : Bytes) (x y : Result Response) : Prop :=
  match answerPayload x with
  | none => answerPayload y = none
  | some p => ∃ p', answerPayload y = some p' ∧ decrypt X key p' = .ok p

/-- Opened with the keys one after the other, the first payload is the
    second. -/
def PeelsTo (X : Externals) : List Bytes → Bytes → Bytes → Prop
  | [], p', p => p' = p
  | key :: keys, p', p => ∃ q, decrypt X key p' = .ok q ∧ PeelsTo X keys q p

/-- Hops with these keys, the first of them nearest to the client, have
    brought back the answer `x` as `y`. -/
def BringsBack (X : Externals) (keys : List Bytes) (x y : Result Response) : Prop :=
  match answerPayload x with
  | none => answerPayload y = none
  | some p => ∃ p', answerPayload y = some p' ∧ PeelsTo X keys p' p

theorem BringsBack.nil {X : Externals} (x : Result Response) : BringsBack X [] x x := by
  unfold BringsBack
  cases h : answerPayload x with
  | none => rfl
  | some p => exact ⟨p, rfl, rfl⟩

/-- One more hop on the way back. -/
theorem BringsBack.cons {X : Externals} {key : Bytes} {keys : List Bytes} {x y z : Result Response}
    (h : BringsBack X keys x y) (hwraps : Wraps X key y z) : BringsBack X (key :: keys) x z := by
  unfold BringsBack Wraps at *
  cases hx : answerPayload x with
  | none =>
    rw [hx] at h
    dsimp only at h
    rw [h] at hwraps
    exact hwraps
  | some p =>
    rw [hx] at h
    obtain ⟨p', hy, hpeels⟩ := h
    rw [hy] at hwraps
    obtain ⟨p'', hz, hdec⟩ := hwraps
    exact ⟨p'', hz, p', hdec, hpeels⟩

variable {ι ν : Type} [DecidableEq ι] [DecidableEq ν] {N : Net ν}
  {M : Semantics Effects (Loc ι ν) (World ι ν)} {i : ι} {w : World ι ν}

/-! ## Runs on any network -/

section

variable (hact : M.act = World.act)

include hact

/-- An operation whose answer does not matter. -/
theorem meets_silent {α : Type} {ℓ : Loc ι ν} {e : Effect} (he : e.Silent) {k : e.Ans → Go α}
    {Q : α → World ι ν → Prop} (h : ∀ a w', Quiet w w' → M.Meets ℓ (k a) w' Q) :
    M.Meets ℓ (.op e k) w Q := by
  obtain ⟨act, serve⟩ := M
  dsimp only at hact
  subst hact
  exact meets_op (h _ _ (quiet_act he ℓ w))

/-- A key look-up. -/
theorem meets_keysGet {α : Type} {n : ν} {circuitID key : Bytes} {k : Option Bytes → Go α}
    {Q : α → World ι ν → Prop} (hkey : w.keys n circuitID = some key)
    (h : ∀ w', Quiet w w' → M.Meets (i, .node n) (k (some key)) w' Q) :
    M.Meets (i, .node n) (.op (.keysGet circuitID) k) w Q := by
  obtain ⟨act, serve⟩ := M
  dsimp only at hact
  subst hact
  apply meets_op
  have hans : (World.act (i, .node n) (.keysGet circuitID) w).1 = some key := hkey
  show Meets _ _ (k (World.act (i, .node n) (.keysGet circuitID) w).1) _ _
  rw [hans]
  exact h _ (quiet_act (by trivial) _ _)

theorem meets_encrypt (hX : N.X.LawfulAEAD) {ℓ : Loc ι ν} {key : Bytes}
    (hkey : newCipher key = .ok ()) (plaintext : Bytes) :
    M.Meets ℓ (encrypt N.X key plaintext) w fun r w' =>
      ∃ ct, r = .ok ct ∧ decrypt N.X key ct = .ok plaintext ∧ Quiet w w' :=
  (ends_encrypt hX hkey plaintext).meets (K := N.reliable) hact
    (all_encrypt (P := fun _ => True) (R := fun _ => False) (fun _ _ => trivial) key plaintext)
    fun _ h => h.elim

/-! ## Hops -/

namespace Handler

/-- The return path of a hop. -/
theorem meets_returnPath (hX : N.X.LawfulAEAD) (h : Handler) {ℓ : Loc ι ν} {key : Bytes}
    (hkey : newCipher key = .ok ()) (nextHop : Bytes) (x : Result Response) :
    M.Meets ℓ (h.returnPath N.X key nextHop x) w fun r _ => Wraps N.X key x (.ok r) := by
  unfold returnPath Wraps
  have h502 (message : String) :
      answerPayload (.ok (httpError message statusBadGateway)) = none :=
    answerPayload_status (by show statusBadGateway ≠ statusOK; decide)
  -- only a 200 that carries a payload is passed on
  cases x with
  | error err =>
    apply meets_any
    intro _ w₁
    exact meets_ret (h502 _)
  | ok resp =>
    by_cases hstatus : resp.statusCode ≠ statusOK
    · rw [answerPayload_status hstatus]
      simp only [if_pos hstatus]
      apply meets_any
      intro _ w₁
      exact meets_ret (h502 _)
    · simp only [answerPayload, if_neg hstatus]
      cases hread : decodeStream OnionResponse.fields .zero resp.body with
      | none =>
        apply meets_any
        intro _ w₁
        exact meets_ret (h502 "invalid next hop response")
      | some next =>
        refine meets_bind (meets_encrypt hact hX hkey next.payload) ?_
        intro r w₁ hr
        obtain ⟨ct, rfl, hct, -⟩ := hr
        exact meets_ret ⟨ct, answerPayload_onionAnswer ct, hct⟩

/-- A hop that peels a layer and forwards the rest brings back the answer of
    the next one. -/
theorem meets_forward (hX : N.X.LawfulAEAD) {h : Handler} {n : ν}
    {addr circuitID key payload nextHop inner : Bytes} (hcid : circuitID ≠ [])
    (hstored : w.keys n (toValid circuitID) = some key) (hkey : newCipher key = .ok ())
    (hdec : decrypt N.X key payload = .ok (Layer.json ⟨nextHop, inner⟩).encode)
    (hhop : nextHop ≠ []) (hvalid : Valid nextHop) (hinner : inner ≠ []) {q : Post}
    (hq : q = jsonPost (nextHopURL nextHop) (OnionRequest.json ⟨toValid circuitID, inner⟩).encode)
    {R : Result Response → Prop}
    (hnext : ∀ w₁, Quiet w w₁ → M.Meets (M.serve (i, .node n) q).1 (M.serve (i, .node n) q).2 w₁
      fun x _ => R x) :
    M.Meets (i, .node n) (h.handleOnion N.X
      ⟨methodPost, addr, (OnionRequest.json ⟨circuitID, payload⟩).encode⟩) w fun r _ =>
        ∃ x, R x ∧ Wraps N.X key x (.ok r) := by
  have hreq := not_missing hcid (ne_nil_of_decrypt hdec)
  have hunwrap := unwrapLayer_layer hdec hhop hvalid hinner
  subst hq
  simp only [handleOnion, decode_onionRequest, if_neg hreq, ne_eq, not_true_eq_false, if_false,
    perform_eq, op_bind, ret_bind]
  -- the key is there, the layer names the next hop, and its payload is posted
  refine meets_keysGet hact hstored ?_
  intro w₁ hq₁
  simp only [peel, hunwrap, forward, Handler.log, logPrintf_eq, clientPost_eq, op_bind, rpc_bind,
    ret_bind]
  refine meets_silent hact (by trivial) ?_
  intro _ w₂ hq₂
  refine meets_rpc (hnext w₂ (hq₁.trans hq₂)) ?_
  intro x w₃ hx
  -- what the hop records of the answer
  refine meets_bind (R := fun _ _ => True) (fun _ _ _ => trivial) ?_
  intro _ w₄ _
  exact (meets_returnPath hact hX h hkey nextHop x).weaken fun r _ hr => ⟨x, hx, hr⟩

end Handler

/-! ## Executions that fail -/

/-- No destination answers the call. -/
def Unanswering (w : World ι ν) (i : ι) : Prop :=
  ∀ n m req resp, (w.oracle (i, .node n) m).dest req ≠ .answered resp

omit [DecidableEq ι] [DecidableEq ν] hact in
theorem Quiet.unanswering {v w : World ι ν} (h : Quiet v w) (hv : Unanswering v i) :
    Unanswering w i := by
  unfold Unanswering
  rw [h.oracle]
  exact hv

/-- The exit cannot execute the layer, or gets no answer. -/
theorem meets_executeExitPayload_error {n : ν} {key payload : Bytes} {layer : ExitLayer}
    (hdec : decrypt N.X key payload = .ok layer.json.encode)
    (hfails : ¬layer.coerced.Executable N.X ∨ Unanswering w i) :
    M.Meets (i, .node n) (executeExitPayload N.X key payload) w fun r _ => ∃ err, r = .error err := by
  unfold executeExitPayload
  cases hlayer : unwrapExitLayer N.X key payload with
  | error err => exact meets_ret ⟨err, rfl⟩
  | ok l =>
    obtain ⟨⟨plaintext, hdec', hread⟩, hurl, hmethod⟩ := unwrapExitLayer_eq_ok.mp hlayer
    rw [hdec] at hdec'
    cases hdec'
    rw [unmarshal_exitLayer] at hread
    cases hread
    simp only [executeExitRequest]
    cases hbuild : N.X.newRequest layer.coerced.method layer.coerced.url with
    | error err => exact meets_ret ⟨_, rfl⟩
    | ok _ =>
      -- the request can be built, so it is the destination that does not answer
      have hnone := hfails.resolve_left fun h => h ⟨hurl, hmethod, hbuild⟩
      simp only [perform_eq, op_bind, ret_bind]
      refine meets_silent hact (by trivial) ?_
      intro order w₁ hq
      have hnone := hq.unanswering hnone n (w₁.used (i, .node n))
        (destRequest layer.coerced order.1)
      obtain ⟨act, serve⟩ := M
      dsimp only at hact
      subst hact
      apply meets_op
      have hans : (World.act (i, .node n) (.clientDo (destRequest layer.coerced order.1)) w₁).1 =
        (w₁.oracle (i, .node n) (w₁.used (i, .node n))).dest
          (destRequest layer.coerced order.1) := rfl
      dsimp only
      rw [hans]
      cases hout : (w₁.oracle (i, .node n) (w₁.used (i, .node n))).dest
          (destRequest layer.coerced order.1) with
      | unreachable err => exact meets_ret ⟨_, rfl⟩
      | broken err => exact meets_ret ⟨_, rfl⟩
      | answered resp => exact absurd hout (hnone resp)

variable {n : ν} {addr circuitID key payload : Bytes} {layer : ExitLayer}

/-- The exit node then answers with an error, -/
theorem meets_exit_error (hcid : circuitID ≠ [])
    (hstored : w.keys n (toValid circuitID) = some key)
    (hdec : decrypt N.X key payload = .ok layer.json.encode)
    (hfails : ¬layer.coerced.Executable N.X ∨ Unanswering w i) :
    M.Meets (i, .node n) (ExitHandler.handleOnion N.X
      ⟨methodPost, addr, (OnionRequest.json ⟨circuitID, payload⟩).encode⟩) w fun r _ =>
        answerPayload (.ok r) = none := by
  have hreq := not_missing hcid (ne_nil_of_decrypt hdec)
  simp only [ExitHandler.handleOnion, decode_onionRequest, if_neg hreq, ne_eq, not_true_eq_false,
    if_false, perform_eq, op_bind, ret_bind]
  refine meets_keysGet hact hstored ?_
  intro w₁ hq₁
  unfold ExitHandler.execute
  refine meets_bind (meets_executeExitPayload_error hact hdec
    (hfails.imp_right hq₁.unanswering)) ?_
  intro r w₂ hr
  obtain ⟨err, rfl⟩ := hr
  apply meets_any
  intro _ w₃
  apply meets_ret
  -- neither status of a failure is 200
  apply answerPayload_status
  rcases failureAnswer_status err with h | h <;> (rw [h]; decide)

/-- and so does a guard that is the exit. -/
theorem meets_directExit_error {h : Handler} (hdirect : h.allowDirectExit = true)
    (hcid : circuitID ≠ []) (hstored : w.keys n (toValid circuitID) = some key)
    (hdec : decrypt N.X key payload = .ok layer.json.encode)
    (hfails : ¬layer.coerced.Executable N.X ∨ Unanswering w i) :
    M.Meets (i, .node n) (h.handleOnion N.X
      ⟨methodPost, addr, (OnionRequest.json ⟨circuitID, payload⟩).encode⟩) w fun r _ =>
        answerPayload (.ok r) = none := by
  have hreq := not_missing hcid (ne_nil_of_decrypt hdec)
  have hunwrap := unwrapLayer_exitLayer hdec
  simp only [Handler.handleOnion, decode_onionRequest, if_neg hreq, ne_eq, not_true_eq_false,
    if_false, perform_eq, op_bind, ret_bind]
  refine meets_keysGet hact hstored ?_
  intro w₁ hq₁
  simp only [Handler.peel, hunwrap, hdirect, if_true, Handler.directExit]
  refine meets_bind (meets_executeExitPayload_error hact hdec
    (hfails.imp_right hq₁.unanswering)) ?_
  intro r w₂ hr
  obtain ⟨err, rfl⟩ := hr
  apply meets_any
  intro _ w₃
  exact meets_ret (answerPayload_status (by show statusBadRequest ≠ statusOK; decide))

end

/-! ## The chain of hops -/

/-- The key of the hop at a position, -/
def SessionKeys.of (keys : SessionKeys) : Role → Bytes
  | .guard => keys.guardKey
  | .relay => keys.relayKey
  | .exit => keys.exitKey

/-- and those of the hops before it. -/
def SessionKeys.before (keys : SessionKeys) (hop : Role) : List Bytes := hop.before.map keys.of

/-- The hop that executes the exit layer. -/
def lastHop (hops : Int) : Role := if hops = 3 then .exit else .guard

/-- The nodes in use at their positions. -/
def nodesAt (nodes : Role → ν) (hops : Int) : List ν := (circuitRoles hops).map nodes

variable {circuit : CircuitResponse} {nodes : Role → ν} {hops : Int} {keys : SessionKeys}

omit [DecidableEq ι] [DecidableEq ν] in
/-- The hop at a position in use. -/
theorem Net.Circuit.at (hc : N.Circuit circuit hops (nodesAt nodes hops)) {role : Role}
    (hrole : role ∈ circuitRoles hops) :
    N.Honest (circuit.hop role) (nodes role) ∧ N.role (nodes role) = role := by
  have hhonest := hc.honest
  have hroles := hc.roles
  unfold circuitHops nodesAt circuitRoles at hhonest
  unfold nodesAt circuitRoles at hroles
  unfold circuitRoles at hrole
  by_cases h3 : hops = 3
  · simp only [if_pos h3, List.map_cons, List.map_nil, List.forall₂_cons] at hhonest
    simp only [if_pos h3, List.map_cons, List.map_nil, List.cons.injEq] at hroles
    cases role with
    | guard => exact ⟨hhonest.1, hroles.1⟩
    | relay => exact ⟨hhonest.2.1, hroles.2.1⟩
    | exit => exact ⟨hhonest.2.2.1, hroles.2.2.1⟩
  · simp only [if_neg h3, List.map_cons, List.map_nil, List.forall₂_cons] at hhonest
    simp only [if_neg h3, List.map_cons, List.map_nil, List.cons.injEq] at hroles
    simp only [if_neg h3, List.mem_singleton] at hrole
    subst hrole
    exact ⟨hhonest.1, hroles.1⟩

omit [DecidableEq ι] [DecidableEq ν] in
/-- And its key. -/
theorem Keyed.at {circuitID : Bytes} (h : Keyed w circuitID (candidates circuit keys hops)
    (nodesAt nodes hops)) {role : Role} (hrole : role ∈ circuitRoles hops) :
    w.keys (nodes role) (toValid circuitID) = some (keys.of role) := by
  unfold Keyed candidates nodesAt circuitRoles at h
  unfold circuitRoles at hrole
  by_cases h3 : hops = 3
  · simp only [if_pos h3, List.map_cons, List.map_nil, List.forall₂_cons] at h
    cases role with
    | guard => exact h.1
    | relay => exact h.2.1
    | exit => exact h.2.2.1
  · simp only [if_neg h3, List.map_cons, List.map_nil, List.forall₂_cons] at h
    simp only [if_neg h3, List.mem_singleton] at hrole
    subst hrole
    exact h.1

/-- An onion with the payload, for the circuit, as it is posted to a hop. -/
structure Posted (N : Net ν) (n : ν) (circuitID : Bytes) (q : Post) (payload : Bytes) : Prop where
  route : N.route q.url = some (n, .onion)
  body : ∃ cid, cid ≠ [] ∧ toValid cid = toValid circuitID ∧
    q.body = (OnionRequest.json ⟨cid, payload⟩).encode

section

variable (hact : M.act = World.act)

include hact

/-- A forwarding hop that serves its onion brings back the answer of the
    next one. -/
theorem meets_hop (hX : N.X.LawfulAEAD) {n m : ν} (hrole : N.role n = .guard ∨ N.role n = .relay)
    {p : Place ν} {q : Post} (hserve : M.serve (i, p) q = N.serve (i, p) q)
    {circuitID key payload inner : Bytes} (hq : Posted N n circuitID q payload)
    (hstored : w.keys n (toValid circuitID) = some key) (hkey : newCipher key = .ok ())
    {rec : NodeRecord} (hnext : N.Honest rec m)
    (hdec : decrypt N.X key payload = .ok (Layer.json ⟨rec.addr, inner⟩).encode)
    (hinner : inner ≠ []) {R : Result Response → Prop}
    (hcall : ∀ w₁ q', Quiet w w₁ → Posted N m circuitID q' inner →
      M.Meets (M.serve (i, .node n) q').1 (M.serve (i, .node n) q').2 w₁ fun x _ => R x) :
    M.Meets (M.serve (i, p) q).1 (M.serve (i, p) q).2 w fun y _ => ∃ x, R x ∧ Wraps N.X key x y := by
  obtain ⟨cid, hcid, hsame, hbody⟩ := hq.body
  rw [hserve]
  simp only [Net.serve, hq.route, Net.serveAt, perform_eq, op_bind, ret_bind, pure_eq]
  refine meets_silent hact (by trivial) ?_
  intro _ w₁ hq₁
  have hforward (h : Handler) : M.Meets (i, .node n) (h.handleOnion N.X
      ⟨methodPost, N.remoteAddr p, q.body⟩) w₁ fun r _ => ∃ x, R x ∧ Wraps N.X key x (.ok r) := by
    rw [hbody]
    refine Handler.meets_forward hact hX hcid (by rw [hsame, hq₁.keys]; exact hstored) hkey hdec
      (addr_ne_nil _) hnext.addr hinner rfl ?_
    intro w₂ hq₂
    refine hcall w₂ _ (hq₁.trans hq₂) ⟨?_, toValid cid, ?_, ?_, rfl⟩
    · show N.route (nextHopURL rec.addr) = _
      rw [nextHopURL_addr]
      exact hnext.onionRoute
    · exact fun h => hcid (toValid_eq_nil.mp h)
    · rw [toValid_toValid, hsame]
  refine meets_bind (R := fun r _ => ∃ x, R x ∧ Wraps N.X key x (.ok r)) ?_ ?_
  · unfold Net.handle
    rcases hrole with hrole | hrole
    · rw [hrole]
      exact hforward _
    · rw [hrole]
      exact hforward _
  · intro r w₂ hr
    exact meets_ret hr

/-- The hops before the one at `hop` bring its answer back to the client. -/
theorem meets_chain (hX : N.X.LawfulAEAD) (hhops : hops = 1 ∨ hops = 3)
    (hc : N.Circuit circuit hops (nodesAt nodes hops)) (hk : keys.Proper hops)
    {circuitID payload : Bytes}
    (hkeyed : Keyed w circuitID (candidates circuit keys hops) (nodesAt nodes hops))
    {layer : ExitLayer} (hwrap : Wrapped N.X keys layer (circuitHopAddresses circuit hops).1
      (circuitHopAddresses circuit hops).2 hops payload)
    {hop : Role} (hhop : hop ∈ circuitRoles hops)
    (hserve : ∀ role ∈ hop.before, ∀ p q, N.route q.url = some (nodes role, .onion) →
      M.serve (i, p) q = N.serve (i, p) q)
    {R : Result Response → Prop} (hlast : ∀ w₁ p q ct, Quiet w w₁ →
      Posted N (nodes hop) circuitID q ct → ∀ text, decrypt N.X (keys.of hop) ct = .ok text →
      (hop = lastHop hops → text = layer.json.encode) →
      M.Meets (M.serve (i, p) q).1 (M.serve (i, p) q).2 w₁ fun x _ => R x)
    {q : Post} (hq : Posted N (nodes .guard) circuitID q payload) :
    M.Meets (M.serve (i, .client) q).1 (M.serve (i, .client) q).2 w fun y _ =>
      ∃ x, R x ∧ BringsBack N.X (keys.before hop) x y := by
  have hnone : ∀ x, BringsBack N.X (keys.before .guard) x x := BringsBack.nil
  have hself {x : Result Response} (hx : R x) : ∃ x', R x' ∧ BringsBack N.X [] x' x :=
    ⟨x, hx, .nil x⟩
  -- the hop in question serves what arrives, and each hop before it wraps the answer
  rcases hhops with rfl | rfl
  · -- the guard is the only hop
    obtain rfl : hop = .guard := by simpa [circuitRoles] using hhop
    have hdec : decrypt N.X keys.guardKey payload = .ok layer.json.encode := by
      unfold Wrapped at hwrap
      rwa [if_neg (by decide)] at hwrap
    exact (hlast w _ q payload (.refl w) hq _ hdec fun _ => rfl).weaken
      fun x _ hx => ⟨x, hx, hnone x⟩
  · unfold Wrapped at hwrap
    rw [if_pos rfl] at hwrap
    obtain ⟨relayCT, exitCT, hguardCT, hrelayCT, hexitCT⟩ := hwrap
    obtain ⟨hrelayKey, hexitKey⟩ := hk.others rfl
    have hin (role : Role) : role ∈ circuitRoles 3 := by
      cases role <;> decide
    obtain ⟨-, hguardRole⟩ := hc.at (hin .guard)
    obtain ⟨hrelay, hrelayRole⟩ := hc.at (hin .relay)
    obtain ⟨hexit, -⟩ := hc.at (hin .exit)
    have hg := hkeyed.at (hin .guard)
    have hr := hkeyed.at (hin .relay)
    cases hop with
    | guard =>
      refine (hlast w _ q payload (.refl w) hq _ hguardCT ?_).weaken
        fun x _ hx => ⟨x, hx, hnone x⟩
      exact fun h => absurd h (by decide)
    | relay =>
      refine (meets_hop hact hX (.inl hguardRole) (hserve .guard (by decide) _ q hq.route) hq hg
        (newCipher_of_length hk.guardKey) hrelay hguardCT (ne_nil_of_decrypt hrelayCT)
        (R := fun x => ∃ x', R x' ∧ BringsBack N.X [] x' x) ?_).weaken ?_
      · intro w₁ q' hq₁ hq'
        refine (hlast w₁ _ q' relayCT hq₁ hq' _ hrelayCT ?_).weaken fun x _ hx => hself hx
        exact fun h => absurd h (by decide)
      · intro y _ hy
        obtain ⟨x, ⟨x', hx', hback⟩, hwraps⟩ := hy
        exact ⟨x', hx', hback.cons hwraps⟩
    | exit =>
      refine (meets_hop hact hX (.inl hguardRole) (hserve .guard (by decide) _ q hq.route) hq hg
        (newCipher_of_length hk.guardKey) hrelay hguardCT (ne_nil_of_decrypt hrelayCT)
        (R := fun x => ∃ x', R x' ∧ BringsBack N.X [keys.relayKey] x' x) ?_).weaken ?_
      · intro w₁ q₁ hq₁ hq'
        refine (meets_hop hact hX (.inr hrelayRole) (hserve .relay (by decide) _ q₁ hq'.route) hq'
          (by rw [hq₁.keys]; exact hr) (newCipher_of_length hrelayKey) hexit hrelayCT
          (ne_nil_of_decrypt hexitCT)
          (R := fun x => ∃ x', R x' ∧ BringsBack N.X [] x' x) ?_).weaken ?_
        · intro w₂ q₂ hq₂ hq''
          exact (hlast w₂ _ q₂ exitCT (hq₁.trans hq₂) hq'' _ hexitCT fun _ => rfl).weaken
            fun x _ hx => hself hx
        · intro y _ hy
          obtain ⟨x, ⟨x', hx', hback⟩, hwraps⟩ := hy
          exact ⟨x', hx', hback.cons hwraps⟩
      · intro y _ hy
        obtain ⟨x, ⟨x', hx', hback⟩, hwraps⟩ := hy
        exact ⟨x', hx', hback.cons hwraps⟩

/-! ## Attempts -/

omit [DecidableEq ι] [DecidableEq ν] hact in
/-- The candidates are the hops in use. -/
theorem role_of_candidate {c : NodeRecord × Bytes} (hmem : c ∈ candidates circuit keys hops) :
    ∃ role ∈ circuitRoles hops, c.1 = circuit.hop role := by
  unfold candidates at hmem
  unfold circuitRoles
  by_cases h3 : hops = 3
  · simp only [if_pos h3, List.mem_cons, List.not_mem_nil, or_false] at hmem ⊢
    rcases hmem with rfl | rfl | rfl
    · exact ⟨.guard, .inl rfl, rfl⟩
    · exact ⟨.relay, .inr (.inl rfl), rfl⟩
    · exact ⟨.exit, .inr (.inr rfl), rfl⟩
  · simp only [if_neg h3, List.mem_singleton] at hmem ⊢
    exact ⟨.guard, rfl, by rw [hmem]; rfl⟩

/-- The set-up of a circuit on a network that serves it. -/
theorem meets_setup_served (hserve : ∀ q n, N.route q.url = some (n, .setup) →
      M.serve (i, .client) q = N.serve (i, .client) q) {circuitID : Bytes} (hcid : circuitID ≠ [])
    (hhops : hops = 1 ∨ hops = 3) (hc : N.Circuit circuit hops (nodesAt nodes hops)) :
    M.Meets (i, .client) (setupCircuitWithHops N.X circuitID circuit hops) w fun r w' =>
      ∃ keys, r = .ok keys ∧ keys.Proper hops ∧
        Keyed w' circuitID (candidates circuit keys hops) (nodesAt nodes hops) ∧
        w'.oracle = w.oracle := by
  have hends := (ends_setupCircuit (w := w) (i := i) hcid (if_pos hhops : validateHops hops = _)
    hc).weaken (R := fun r w' => ∃ keys, r = .ok keys ∧ keys.Proper hops ∧
      Keyed w' circuitID (candidates circuit keys hops) (nodesAt nodes hops) ∧
      w'.oracle = w.oracle) (by
    intro r w' h
    obtain ⟨keys, hr, hk, hkeyed, -, horacle⟩ := h
    exact ⟨keys, hr, hk, hkeyed, horacle⟩)
  -- the client posts to the hops only
  have hposts : (setupCircuitWithHops N.X circuitID circuit hops).All (fun _ => True)
      (fun q : Post => ∃ n, N.route q.url = some (n, .setup)) fun _ => True := by
    unfold setupCircuitWithHops validateHops
    rw [if_pos hhops]
    refine all_bind (all_generateKeys (fun _ _ => trivial) hops) fun keys _ => ?_
    refine all_bind (T := fun _ => True) ?_ fun r _ => by cases r <;> trivial
    apply all_setupCandidates_to (fun _ _ => trivial) (fun _ _ => trivial)
    intro c hmem ct
    obtain ⟨role, hrole, hrec⟩ := role_of_candidate hmem
    rw [hrec]
    exact ⟨_, (hc.at hrole).1.setupRoute⟩
  -- the set-up of a network without faults, as no fault touches a setup endpoint
  refine hends.meets (K := N.reliable) hact hposts ?_
  intro q hq v r v₁ hr
  obtain ⟨n, hroute⟩ := hq
  rw [hserve q n hroute] at hr
  refine hr.transfer (K := N.reliable) hact (P := fun _ => True) (R := fun _ => False)
    (T := fun _ => True) ?_ fun _ h => h.elim
  -- a node that is set up calls nobody
  show (N.serve (i, .client) q).2.All _ _ _
  simp only [Net.serve, hroute, Net.serveAt, perform_eq, op_bind, ret_bind, pure_eq]
  refine ⟨trivial, fun _ => all_bind (T := fun _ => True) ?_ fun _ _ => trivial⟩
  unfold Net.handle
  exact (all_handleSetup (fun _ _ => trivial) _ _ _ fun _ _ _ _ _ _ _ => trivial).mono
    fun _ _ => trivial

/-- How an attempt ends when the guard gives this answer. -/
def EndsWith (X : Externals) (keys : SessionKeys) (hops : Int) (y : Result Response)
    (outcome : Outcome) : Prop :=
  match answerPayload y with
  | none => ∃ err, outcome = .retry err
  | some p =>
    match decryptResponseWithHops X keys p hops with
    | .error err => outcome = .fail (wrap "decrypt circuit response" err)
    | .ok resp => outcome = .done resp

omit [DecidableEq ι] [DecidableEq ν] hact in
/-- The client's post to the guard. -/
theorem meets_sendOnion {guardURL circuitID payload : Bytes} {A : Result Response → Prop}
    (hcall : ∀ q, q = jsonPost (guardURL ++ lit "/onion") (OnionRequest.json
      ⟨circuitID, payload⟩).encode → M.Meets (M.serve (i, .client) q).1 (M.serve (i, .client) q).2 w
        fun y _ => A y) :
    M.Meets (i, .client) (sendOnion N.X guardURL circuitID payload) w fun r _ => ∃ y, A y ∧
      match answerPayload y with
      | none => ∃ err, r = .error err
      | some p => r = .ok ⟨p⟩ := by
  simp only [sendOnion, clientPost_eq, rpc_bind, ret_bind, pure_eq]
  refine meets_rpc (hcall _ rfl) ?_
  intro y w₁ hy
  -- the client takes the payload of a 200 it can read, all else is an error
  cases y with
  | error err => exact meets_ret ⟨_, hy, _, rfl⟩
  | ok resp =>
    by_cases hstatus : resp.statusCode ≠ statusOK
    · simp only [if_pos hstatus]
      apply meets_ret
      refine ⟨_, hy, ?_⟩
      rw [answerPayload_status hstatus]
      exact ⟨_, rfl⟩
    · simp only [if_neg hstatus]
      cases hread : decodeStream OnionResponse.fields .zero resp.body with
      | none =>
        apply meets_ret
        refine ⟨_, hy, ?_⟩
        simp only [answerPayload, if_neg hstatus, hread]
        exact ⟨_, rfl⟩
      | some onion =>
        apply meets_ret
        refine ⟨_, hy, ?_⟩
        simp only [answerPayload, if_neg hstatus, hread]
        rfl

/-- An attempt ends as the answer of the guard says. -/
theorem meets_attempt (hX : N.X.LawfulAEAD) {c : Call} (hhops : c.hops = 1 ∨ c.hops = 3)
    {S : SessionKeys → World ι ν → Prop} (hS : ∀ keys w₁ w₂, Quiet w₁ w₂ → S keys w₁ → S keys w₂)
    (hsetup : M.Meets (i, .client) (setupCircuitWithHops N.X c.circuitID circuit c.hops) w
      fun r w₁ => ∃ keys, r = .ok keys ∧ keys.Proper c.hops ∧ S keys w₁)
    {A : SessionKeys → Result Response → Prop}
    (hguard : ∀ keys w₁ payload q, keys.Proper c.hops → S keys w₁ →
      Wrapped N.X keys c.exitLayer (circuitHopAddresses circuit c.hops).1
        (circuitHopAddresses circuit c.hops).2 c.hops payload →
      q = jsonPost (circuit.guard.nodeURL ++ lit "/onion") (OnionRequest.json
        ⟨c.circuitID, payload⟩).encode →
      M.Meets (M.serve (i, .client) q).1 (M.serve (i, .client) q).2 w₁ fun y _ => A keys y) :
    M.Meets (i, .client) (attemptCircuit N.X c circuit) w fun outcome _ =>
      ∃ keys y, A keys y ∧ EndsWith N.X keys c.hops y outcome := by
  simp only [attemptCircuit, perform_eq, op_bind, ret_bind, pure_eq]
  refine meets_bind hsetup ?_
  intro r w₁ hr
  obtain ⟨keys, rfl, hk, hw₁⟩ := hr
  refine meets_silent hact (by trivial) ?_
  intro _ w₂ hq₂
  refine meets_bind ((ends_buildOnion hX hhops hk c.exitLayer _ _).meets (K := N.reliable) hact
    (all_buildOnion (P := fun _ => True) (R := fun _ => False) (fun _ _ => trivial) _ _ _ _ _)
    fun _ h => h.elim) ?_
  intro r w₃ hr
  obtain ⟨payload, rfl, hwrap, hq₃⟩ := hr
  refine meets_silent hact (by trivial) ?_
  intro _ w₄ hq₄
  -- neither the marks nor building the onion touch what the set-up left
  have hw₄ := hS keys _ _ ((hq₂.trans hq₃).trans hq₄) hw₁
  refine meets_bind (meets_sendOnion fun q hq => hguard keys w₄ payload q hk hw₄ hwrap hq) ?_
  intro r w₅ hr
  obtain ⟨y, hy, hr⟩ := hr
  -- the attempt ends as the answer of the guard says
  unfold EndsWith
  cases hp : answerPayload y with
  | none =>
    rw [hp] at hr
    obtain ⟨err, rfl⟩ := hr
    refine meets_ret ⟨keys, y, hy, ?_⟩
    rw [hp]
    exact ⟨_, rfl⟩
  | some p =>
    rw [hp] at hr
    dsimp only at hr
    subst hr
    dsimp only
    cases hdec : decryptResponseWithHops N.X keys p c.hops with
    | error err =>
      refine meets_ret ⟨keys, y, hy, ?_⟩
      rw [hp]
      dsimp only
      rw [hdec]
    | ok resp =>
      refine meets_ret ⟨keys, y, hy, ?_⟩
      rw [hp]
      dsimp only
      rw [hdec]

end

/-! ## The loop around an attempt -/

section

variable (X : Externals) (c : Call) (maxAttempts : Int) (left : Nat) (attempt : Int)
  (events : List RebuildEvent)

/-- The rest of the loop after an attempt on a circuit; `left` remain. -/
def afterAttempt (circuit : CircuitResponse) (outcome : Outcome) : Go (Result CircuitResult) := do
  perform (.mark .ended)
  match outcome with
  | .retry err =>
    let events ← finishRebuild false events
    runAttempts X c maxAttempts left (attempt + 1) events (some err) (some circuit)
  | .fail err => return .error err
  | .done exitResp =>
    let events ← finishRebuild true events
    return .ok ⟨exitResp, events⟩

/-- The rest of the loop after the directory has been asked. -/
def afterFetch (fetched : Result CircuitResponse) : Go (Result CircuitResult) :=
  match fetched with
  | .error err => return .error (wrap "get circuit from directory server" err)
  | .ok circuit => do
    let outcome ← attemptCircuit X c circuit
    afterAttempt X c maxAttempts left attempt events circuit outcome

/-- A round of the loop is made of these. -/
theorem runAttempts_eq (lastErr : Option Bytes) (lastCircuit : Option CircuitResponse) :
    runAttempts X c maxAttempts (left + 1) attempt events lastErr lastCircuit = (do
      let events ← beginRebuild attempt maxAttempts events lastErr lastCircuit
      perform (.mark .attempt)
      let fetched ← getCircuitWithHops X c.directoryURL c.hops
      afterFetch X c maxAttempts left attempt events fetched) := by
  unfold runAttempts
  congr 1

end

/-! ## Faults -/

/-- What a process does whose key store finds this key for every circuit. -/
def holding {α : Type} (stored : Option Bytes) : Go α → Go α
  | .ret a => .ret a
  | .op (.keysGet _) k => holding stored (k stored)
  | .op e k => .op e fun x => holding stored (k x)
  | .rpc q k => .rpc q fun r => holding stored (k r)

/-- The network in which one node has no key for a circuit, or a wrong one. -/
def Net.mislaying (N : Net ν) (n : ν) (stored : Option Bytes) :
    Semantics Effects (Loc ι ν) (World ι ν) :=
  ⟨World.act, fun ℓ q =>
    if N.route q.url = some (n, .onion) then ((N.serve ℓ q).1, holding stored (N.serve ℓ q).2)
    else N.serve ℓ q⟩

/-- The one fault of an attempt. -/
inductive CircuitFault (ν : Type) where
  /-- A hop does not serve an endpoint, but answers with this. -/
  | answers (f : Fault ν)
  /-- A hop has no key for the circuit, or this one. -/
  | mislaid (n : ν) (stored : Option Bytes)
  /-- The destination cannot be reached. -/
  | destination
  /-- The destination request is not valid. -/
  | exitLayer

namespace CircuitFault

/-- The network with the fault. -/
def network (N : Net ν) : CircuitFault ν → Semantics Effects (Loc ι ν) (World ι ν)
  | answers f => N.failing f
  | mislaid n stored => N.mislaying n stored
  | destination => N.reliable
  | exitLayer => N.reliable

/-- The fault is there in an attempt on the circuit that starts in `w`. -/
def Occurs (N : Net ν) (c : Call) (circuit : CircuitResponse) (nodes : Role → ν) (i : ι)
    (w : World ι ν) : CircuitFault ν → Prop
  | answers f => (∃ hop ∈ circuitRoles c.hops, nodes hop = f.node) ∧ f.endpoint ≠ .key ∧
      (f.endpoint = .setup → f.Fails)
  | mislaid n stored => ∃ hop ∈ circuitRoles c.hops, nodes hop = n ∧
      -- a wrong key does not open what the key of the hop opens
      ∀ key, stored = some key → ∀ keys w', (N.mislaying n stored).Returns (i, .client)
        (setupCircuitWithHops N.X c.circuitID circuit c.hops) w (.ok keys) w' →
        ∀ ct text, decrypt N.X (keys.of hop) ct = .ok text → ∃ err, decrypt N.X key ct = .error err
  | destination => Unanswering w i
  | exitLayer => ¬c.exitLayer.coerced.Executable N.X

/-- The sender of a message sees it: as a set-up that fails, or as an error
    in place of the payload of an answer. -/
def Shows : CircuitFault ν → Prop
  | answers f => f.endpoint = .setup ∨ answerPayload f.answer = none
  | _ => True

end CircuitFault

/-! ## A hop without the key -/

theorem holding_bind {α β : Type} (stored : Option Bytes) (p : Go α) (f : α → Go β) :
    holding stored (p >>= f) = holding stored p >>= fun a => holding stored (f a) := by
  induction p with
  | ret a => rfl
  | op e k ih =>
    cases e with
    | keysGet circuitID => exact ih stored
    | _ => exact congrArg _ (funext ih)
  | rpc q k ih => exact congrArg _ (funext ih)

section

variable {ℓ : Loc ι ν} {addr circuitID payload : Bytes} {stored : Option Bytes}
  (hcid : circuitID ≠ []) (hpayload : payload ≠ [])
  (hwrong : ∀ key, stored = some key → ∃ err, decrypt N.X key payload = .error err)

include hcid hpayload hwrong

omit [DecidableEq ι] [DecidableEq ν] in
/-- A hop of either kind answers with an error, -/
theorem Handler.meets_holding (h : Handler) : M.Meets ℓ (holding stored (h.handleOnion N.X
    ⟨methodPost, addr, (OnionRequest.json ⟨circuitID, payload⟩).encode⟩)) w fun r _ =>
      answerPayload (.ok r) = none := by
  have hreq := not_missing hcid hpayload
  have hbad : answerPayload (.ok (httpError "decryption failed" statusBadRequest)) = none :=
    answerPayload_status (by show statusBadRequest ≠ statusOK; decide)
  simp only [handleOnion, decode_onionRequest, if_neg hreq, ne_eq, not_true_eq_false, if_false,
    perform_eq, op_bind, ret_bind, holding]
  cases stored with
  | none =>
    simp only [log, logPrintf_eq, op_bind, ret_bind, pure_eq, holding]
    apply meets_any
    intro _ w₁
    exact meets_ret (answerPayload_status (by show statusUnauthorized ≠ statusOK; decide))
  | some key =>
    obtain ⟨err, herr⟩ := hwrong key rfl
    simp only [peel, unwrapLayer, herr]
    -- neither is there an exit layer in it
    by_cases hdirect : h.allowDirectExit = true
    · simp only [if_pos hdirect, directExit, executeExitPayload, unwrapExitLayer, herr, pure_eq,
        ret_bind, decryptionFailed, log, logPrintf_eq, op_bind, holding]
      apply meets_any
      intro _ w₁
      exact meets_ret hbad
    · simp only [if_neg hdirect, decryptionFailed, log, logPrintf_eq, op_bind, ret_bind, pure_eq,
        holding]
      apply meets_any
      intro _ w₁
      exact meets_ret hbad

omit [DecidableEq ι] [DecidableEq ν] in
/-- and so does the exit. -/
theorem meets_holding_exit : M.Meets ℓ (holding stored (ExitHandler.handleOnion N.X
    ⟨methodPost, addr, (OnionRequest.json ⟨circuitID, payload⟩).encode⟩)) w fun r _ =>
      answerPayload (.ok r) = none := by
  have hreq := not_missing hcid hpayload
  simp only [ExitHandler.handleOnion, decode_onionRequest, if_neg hreq, ne_eq, not_true_eq_false,
    if_false, perform_eq, op_bind, ret_bind, holding]
  cases stored with
  | none =>
    simp only [logPrintf_eq, op_bind, ret_bind, pure_eq, holding]
    apply meets_any
    intro _ w₁
    exact meets_ret (answerPayload_status (by show statusUnauthorized ≠ statusOK; decide))
  | some key =>
    obtain ⟨err, herr⟩ := hwrong key rfl
    simp only [ExitHandler.execute, executeExitPayload, unwrapExitLayer, herr, pure_eq, ret_bind,
      logPrintf_eq, op_bind, holding]
    apply meets_any
    intro _ w₁
    apply meets_ret
    apply answerPayload_status
    rcases failureAnswer_status (wrap "decrypt exit layer" err) with h | h <;>
      (rw [h]; decide)

end

/-- A node whose key does not open the onion answers with an error. -/
theorem meets_mislaid {n : ν} {stored : Option Bytes} {p : Place ν} {q : Post}
    {circuitID payload : Bytes} (hq : Posted N n circuitID q payload) (hpayload : payload ≠ [])
    (hwrong : ∀ key, stored = some key → ∃ err, decrypt N.X key payload = .error err) :
    (N.mislaying n stored).Meets ((N.mislaying n stored).serve (i, p) q).1
      ((N.mislaying n stored).serve (i, p) q).2 w fun x _ => answerPayload x = none := by
  obtain ⟨cid, hcid, -, hbody⟩ := hq.body
  simp only [Net.mislaying, Net.serve, hq.route, Net.serveAt, perform_eq, op_bind, ret_bind, pure_eq,
    holding]
  apply meets_any
  intro _ w₁
  -- the request is accepted as ever, only the handler finds other keys
  rw [holding_bind, hbody]
  refine meets_bind (R := fun r _ => answerPayload (.ok r) = none) ?_ ?_
  · unfold Net.handle
    cases N.role n with
    | guard => exact Handler.meets_holding hcid hpayload hwrong _
    | relay => exact Handler.meets_holding hcid hpayload hwrong _
    | exit => exact meets_holding_exit hcid hpayload hwrong
  · intro r w₂ hr
    exact meets_ret hr

/-! ## How an attempt ends -/

/-- An attempt on which a hop answers the onion is made again exactly if the
    answer is an error to its sender. -/
theorem retry_iff {X : Externals} {l : List Bytes} {x y : Result Response} {outcome : Outcome}
    (hback : BringsBack X l x y) (hends : EndsWith X keys hops y outcome) :
    (∃ err, outcome = .retry err) ↔ answerPayload x = none := by
  unfold BringsBack at hback
  unfold EndsWith at hends
  -- the hops before the last wrap a payload and drop anything else
  cases hx : answerPayload x with
  | none =>
    rw [hx] at hback
    dsimp only at hback
    rw [hback] at hends
    exact ⟨fun _ => rfl, fun _ => hends⟩
  | some p =>
    rw [hx] at hback
    obtain ⟨p', hy, -⟩ := hback
    rw [hy] at hends
    dsimp only at hends
    constructor
    · rintro ⟨err, rfl⟩
      split at hends <;> cases hends
    · intro h
      cases h

/-- The hops up to the one at `hop` do what the code says, and the client
    gets back what this one answers. -/
theorem meets_attempt_behind (hact : M.act = World.act) (hX : N.X.LawfulAEAD) {c : Call}
    (hhops : c.hops = 1 ∨ c.hops = 3) (hcid : c.circuitID ≠ [])
    (hc : N.Circuit circuit c.hops (nodesAt nodes c.hops)) {hop : Role}
    (hhop : hop ∈ circuitRoles c.hops)
    (hsetup : ∀ q n, N.route q.url = some (n, .setup) →
      M.serve (i, .client) q = N.serve (i, .client) q)
    (hserve : ∀ role ∈ hop.before, ∀ p q, N.route q.url = some (nodes role, .onion) →
      M.serve (i, p) q = N.serve (i, p) q)
    {R : Result Response → Prop} (hlast : ∀ keys w₀ w₁ p q ct text,
      M.Returns (i, .client) (setupCircuitWithHops N.X c.circuitID circuit c.hops) w (.ok keys) w₀ →
      Keyed w₁ c.circuitID (candidates circuit keys c.hops) (nodesAt nodes c.hops) →
      w₁.oracle = w.oracle → Posted N (nodes hop) c.circuitID q ct →
      decrypt N.X (keys.of hop) ct = .ok text →
      (hop = lastHop c.hops → text = c.exitLayer.json.encode) →
      M.Meets (M.serve (i, p) q).1 (M.serve (i, p) q).2 w₁ fun x _ => R x) :
    M.Meets (i, .client) (attemptCircuit N.X c circuit) w fun outcome _ =>
      ∃ x, R x ∧ ((∃ err, outcome = .retry err) ↔ answerPayload x = none) := by
  -- what is kept from the set-up on: the keys, the outside and where the keys come from
  refine (meets_attempt hact hX hhops
    (S := fun keys w₁ => Keyed w₁ c.circuitID (candidates circuit keys c.hops)
        (nodesAt nodes c.hops) ∧ w₁.oracle = w.oracle ∧
      ∃ w₀, M.Returns (i, .client) (setupCircuitWithHops N.X c.circuitID circuit c.hops) w
        (.ok keys) w₀)
    (A := fun keys y => ∃ x, R x ∧ BringsBack N.X (keys.before hop) x y) ?_ ?_ ?_).weaken ?_
  · intro keys w₁ w₂ hq h
    refine ⟨?_, by rw [hq.oracle]; exact h.2.1, h.2.2⟩
    unfold Keyed
    rw [hq.keys]
    exact h.1
  · intro r w₁ hr
    obtain ⟨keys, rfl, hk, hkeyed, horacle⟩ :=
      meets_setup_served hact hsetup hcid hhops hc r w₁ hr
    exact ⟨keys, rfl, hk, hkeyed, horacle, w₁, hr⟩
  · intro keys w₁ payload q hk hw₁ hwrap hq
    obtain ⟨hkeyed, horacle, w₀, hreturns⟩ := hw₁
    have hguard : Role.guard ∈ circuitRoles c.hops := by
      unfold circuitRoles
      split_ifs <;> simp
    have hposted : Posted N (nodes .guard) c.circuitID q payload := by
      subst hq
      exact ⟨(hc.at hguard).1.onionRoute, c.circuitID, hcid, rfl, rfl⟩
    refine meets_chain hact hX hhops hc hk hkeyed hwrap hhop hserve ?_ hposted
    intro w₂ p q' ct hq₂ hq' text hdec hlayer
    refine hlast keys w₀ w₂ p q' ct text hreturns ?_ (by rw [hq₂.oracle]; exact horacle) hq' hdec
      hlayer
    unfold Keyed
    rw [hq₂.keys]
    exact hkeyed
  · intro outcome _ h
    obtain ⟨keys, y, ⟨x, hx, hback⟩, hends⟩ := h
    exact ⟨x, hx, retry_iff hback hends⟩

/-- A set-up that fails is tried again on another circuit. -/
theorem meets_attempt_setup {f : Fault ν} (hfails : f.Fails) (hend : f.endpoint = .setup) {c : Call}
    (hhops : c.hops = 1 ∨ c.hops = 3) (hcid : c.circuitID ≠ [])
    (hc : N.Circuit circuit c.hops (nodesAt nodes c.hops)) {hop : Role}
    (hhop : hop ∈ circuitRoles c.hops) (hnode : nodes hop = f.node) :
    (N.failing f).Meets (i, .client) (attemptCircuit N.X c circuit) w fun outcome _ =>
      ∃ err, outcome = .retry err := by
  have hmem : f.node ∈ nodesAt nodes c.hops := by
    rw [← hnode]
    exact List.mem_map_of_mem hhop
  unfold attemptCircuit setupCircuitWithHops validateHops
  rw [if_pos hhops]
  -- the set-up reaches the faulty hop and fails there
  refine meets_bind (R := fun r _ => ∃ err, r = .error err) ?_ ?_
  · refine meets_bind (meets_of_all (I := fun _ => True) (all_generateKeys_proper c.hops) trivial
      fun _ _ _ _ => trivial) ?_
    intro keys w₁ hkeys
    refine meets_bind (meets_setUpHops hfails hcid (hc.candidates hkeys.1)) ?_
    intro r w₂ hr
    rw [if_pos ⟨hmem, hend⟩] at hr
    obtain ⟨_, -, rfl⟩ := hr
    exact meets_ret ⟨_, rfl⟩
  · intro r w₁ hr
    obtain ⟨err, rfl⟩ := hr
    exact meets_ret ⟨_, rfl⟩

omit [DecidableEq ι] [DecidableEq ν] in
/-- A hop before another is another node. -/
theorem Net.Circuit.before_ne (hc : N.Circuit circuit hops (nodesAt nodes hops)) {hop role : Role}
    (hhop : hop ∈ circuitRoles hops) (hrole : role ∈ hop.before) : nodes role ≠ nodes hop := by
  have hin : role ∈ circuitRoles hops := by
    unfold circuitRoles at hhop ⊢
    by_cases h3 : hops = 3
    · rw [if_pos h3]
      cases role <;> decide
    · rw [if_neg h3, List.mem_singleton] at hhop
      subst hhop
      cases hrole
  intro hsame
  have hroles := (hc.at hin).2
  rw [hsame, (hc.at hhop).2] at hroles
  subst hroles
  revert hrole
  cases hop <;> decide

omit [DecidableEq ι] [DecidableEq ν] in
theorem lastHop_mem (hops : Int) : lastHop hops ∈ circuitRoles hops := by
  unfold lastHop circuitRoles
  split_ifs <;> simp

/-- The last hop fails when the destination or the exit layer does. -/
theorem meets_attempt_execution (hX : N.X.LawfulAEAD) {c : Call}
    (hhops : c.hops = 1 ∨ c.hops = 3) (hcid : c.circuitID ≠ [])
    (hc : N.Circuit circuit c.hops (nodesAt nodes c.hops))
    (hfails : ¬c.exitLayer.coerced.Executable N.X ∨ Unanswering w i) :
    N.reliable.Meets (i, .client) (attemptCircuit N.X c circuit) w fun outcome _ =>
      ∃ err, outcome = .retry err := by
  refine (meets_attempt_behind rfl hX hhops hcid hc (lastHop_mem c.hops) (fun _ _ _ => rfl)
    (fun _ _ _ _ _ => rfl) (R := fun x => answerPayload x = none) ?_).weaken
    fun outcome _ h => ?_
  · intro keys w₀ w₁ p q ct text _ hkeyed horacle hq hdec hlayer
    obtain ⟨cid, hcid', hsame, hbody⟩ := hq.body
    have hdec := hlayer rfl ▸ hdec
    have hstored := hkeyed.at (lastHop_mem c.hops)
    have hrole := (hc.at (lastHop_mem c.hops)).2
    simp only [Net.reliable, Net.serve, hq.route, Net.serveAt, perform_eq, op_bind, ret_bind,
      pure_eq, hbody]
    refine meets_silent (M := N.reliable) rfl (by trivial) ?_
    intro _ w₂ hq₂
    have hfails : ¬c.exitLayer.coerced.Executable N.X ∨ Unanswering w₂ i := by
      refine hfails.imp_right fun h => ?_
      unfold Unanswering
      rw [hq₂.oracle, horacle]
      exact h
    have hstored : w₂.keys (nodes (lastHop c.hops)) (toValid cid) =
        some (keys.of (lastHop c.hops)) := by
      rw [hq₂.keys, hsame]
      exact hstored
    refine meets_bind (R := fun r _ => answerPayload (.ok r) = none) ?_ fun r w₃ hr => meets_ret hr
    unfold Net.handle
    rw [hrole]
    -- of one hop the guard executes the layer itself, of three the exit does
    rcases hhops with h1 | h3
    · rw [h1] at hstored hdec ⊢
      exact meets_directExit_error rfl rfl hcid' hstored hdec hfails
    · rw [h3] at hstored hdec ⊢
      exact meets_exit_error rfl hcid' hstored hdec hfails
  · obtain ⟨x, hx, hiff⟩ := h
    exact hiff.mpr hx

/-- A hop that answers an onion with something else decides the attempt by
    what it answers. -/
theorem meets_attempt_onion (hX : N.X.LawfulAEAD) {f : Fault ν} (hend : f.endpoint = .onion)
    {c : Call} (hhops : c.hops = 1 ∨ c.hops = 3) (hcid : c.circuitID ≠ [])
    (hc : N.Circuit circuit c.hops (nodesAt nodes c.hops)) {hop : Role}
    (hhop : hop ∈ circuitRoles c.hops) (hnode : nodes hop = f.node) :
    (N.failing f).Meets (i, .client) (attemptCircuit N.X c circuit) w fun outcome _ =>
      (∃ err, outcome = .retry err) ↔ answerPayload f.answer = none := by
  refine (meets_attempt_behind (M := N.failing f) rfl hX hhops hcid hc hhop ?_ ?_
    (R := fun x => x = f.answer) ?_).weaken ?_
  · -- the hops are set up as ever
    intro q n hroute
    refine if_neg ?_
    rw [hroute, hend]
    intro h
    cases (Prod.mk.inj (Option.some.inj h)).2
  · -- and the hops before the faulty one forward as ever
    intro role hrole p q hroute
    refine if_neg ?_
    rw [hroute]
    intro h
    have hsame := (Prod.mk.inj (Option.some.inj h)).1
    exact hc.before_ne hhop hrole (hsame.trans hnode.symm)
  · intro keys w₀ w₁ p q ct text _ _ _ hq _ _
    have hserve : (N.failing f).serve (i, p) q = ((i, .node f.node), .ret f.answer) := by
      refine if_pos ?_
      rw [hq.route, hnode, hend]
    rw [hserve]
    exact meets_ret rfl
  · intro outcome _ h
    obtain ⟨x, rfl, hiff⟩ := h
    exact hiff

/-- A hop without the right key makes the client try again. -/
theorem meets_attempt_mislaid (hX : N.X.LawfulAEAD) {c : Call} (hhops : c.hops = 1 ∨ c.hops = 3)
    (hcid : c.circuitID ≠ []) (hc : N.Circuit circuit c.hops (nodesAt nodes c.hops)) {hop : Role}
    (hhop : hop ∈ circuitRoles c.hops) {stored : Option Bytes}
    (hwrong : ∀ key, stored = some key → ∀ keys w₀, (N.mislaying (nodes hop) stored).Returns
      (i, .client) (setupCircuitWithHops N.X c.circuitID circuit c.hops) w (.ok keys) w₀ →
      ∀ ct text, decrypt N.X (keys.of hop) ct = .ok text → ∃ err, decrypt N.X key ct = .error err) :
    (N.mislaying (nodes hop) stored).Meets (i, .client) (attemptCircuit N.X c circuit) w
      fun outcome _ => ∃ err, outcome = .retry err := by
  refine (meets_attempt_behind (M := N.mislaying (nodes hop) stored) rfl hX hhops hcid hc hhop
    ?_ ?_ (R := fun x => answerPayload x = none) ?_).weaken ?_
  · intro q n hroute
    refine if_neg ?_
    rw [hroute]
    intro h
    cases (Prod.mk.inj (Option.some.inj h)).2
  · intro role hrole p q hroute
    refine if_neg ?_
    rw [hroute]
    intro h
    exact hc.before_ne hhop hrole (Prod.mk.inj (Option.some.inj h)).1
  · -- what reaches the hop opens under the client's key, so not under this one
    intro keys w₀ w₁ p q ct text hreturns _ _ hq hdec _
    exact meets_mislaid hq (ne_nil_of_decrypt hdec)
      fun key hkey => hwrong key hkey keys w₀ hreturns ct text hdec
  · intro outcome _ h
    obtain ⟨x, hx, hiff⟩ := h
    exact hiff.mpr hx

/-- An attempt with one fault is made again exactly if the fault shows. -/
theorem meets_attempt_fault (hX : N.X.LawfulAEAD) {c : Call} (hhops : c.hops = 1 ∨ c.hops = 3)
    (hcid : c.circuitID ≠ []) (hc : N.Circuit circuit c.hops (nodesAt nodes c.hops))
    {fault : CircuitFault ν} (hfault : fault.Occurs N c circuit nodes i w) :
    (fault.network N).Meets (i, .client) (attemptCircuit N.X c circuit) w fun outcome _ =>
      (∃ err, outcome = .retry err) ↔ fault.Shows := by
  have hshows {outcome : Outcome} (h : ∃ err, outcome = .retry err) :
      (∃ err, outcome = .retry err) ↔ True := iff_of_true h trivial
  cases fault with
  | answers f =>
    obtain ⟨⟨hop, hhop, hnode⟩, hkey, hfails⟩ := hfault
    cases hend : f.endpoint with
    | setup =>
      refine (meets_attempt_setup (hfails hend) hend hhops hcid hc hhop hnode).weaken ?_
      exact fun outcome _ h => iff_of_true h (.inl hend)
    | onion =>
      have hnot : f.endpoint ≠ .setup := by
        rw [hend]
        intro h
        cases h
      refine (meets_attempt_onion hX hend hhops hcid hc hhop hnode).weaken ?_
      exact fun outcome _ hiff => hiff.trans (or_iff_right hnot).symm
    | key => exact absurd hend hkey
  | mislaid n stored =>
    obtain ⟨hop, hhop, rfl, hwrong⟩ := hfault
    exact (meets_attempt_mislaid hX hhops hcid hc hhop hwrong).weaken fun outcome _ h => hshows h
  | destination =>
    exact (meets_attempt_execution hX hhops hcid hc (.inr hfault)).weaken
      fun outcome _ h => hshows h
  | exitLayer =>
    exact (meets_attempt_execution hX hhops hcid hc (.inl hfault)).weaken
      fun outcome _ h => hshows h

/-! ## Which faults are retried -/

section

variable {X : Externals} {c : Call} {maxAttempts attempt : Int} {left : Nat}
  {events : List RebuildEvent} {τ : List (Interaction Effects)} {res : Result CircuitResult}

/-- Once an attempt has been made, the directory is asked again exactly if
    it is retried. -/
theorem fetches_afterAttempt (hhops : c.hops = 1 ∨ c.hops = 3) {outcome : Outcome}
    (h : Path (afterAttempt X c maxAttempts (left + 1) attempt events circuit outcome) τ res) :
    0 < fetches τ ↔ ∃ err, outcome = .retry err := by
  simp only [afterAttempt, perform_eq, op_bind, ret_bind, pure_eq] at h
  obtain ⟨_, τ₁, rfl, hrest⟩ := path_op.mp h
  rw [fetches_cons_mark]
  -- the next round begins with a fetch, and nothing else fetches
  cases outcome with
  | retry err =>
    obtain ⟨events₁, τ₂, τ₃, rfl, hfinish, hloop⟩ := path_bind.mp hrest
    rw [runAttempts_eq] at hloop
    obtain ⟨events₂, τ₄, τ₅, rfl, hbegin, hround⟩ := path_bind.mp hloop
    simp only [perform_eq, op_bind, ret_bind] at hround
    obtain ⟨_, τ₆, rfl, hafter⟩ := path_op.mp hround
    obtain ⟨fetched, τ₇, τ₈, rfl, hfetch, -⟩ := path_bind.mp hafter
    have hone := fetches_getCircuit hhops hfetch
    rw [fetches_append, fetches_append, fetches_cons_mark, fetches_append, hone]
    constructor
    · exact fun _ => ⟨err, rfl⟩
    · intro _
      omega
  | fail err =>
    obtain ⟨rfl, -⟩ := path_ret.mp hrest
    constructor
    · intro hpos
      cases hpos
    · rintro ⟨_, hout⟩
      cases hout
  | done resp =>
    obtain ⟨events₁, τ₂, τ₃, rfl, hfinish, hret⟩ := path_bind.mp hrest
    obtain ⟨rfl, -⟩ := path_ret.mp hret
    rw [List.append_nil, (bookkeeping_finish hfinish).fetches]
    constructor
    · intro hpos
      cases hpos
    · rintro ⟨_, hout⟩
      cases hout

/-- An error of the directory ends the call. -/
theorem fetches_afterFetch_error {err : Bytes}
    (h : Path (afterFetch X c maxAttempts left attempt events (.error err)) τ res) :
    fetches τ = 0 := by
  obtain ⟨rfl, -⟩ := path_ret.mp h
  rfl

end

/-- **Retries**: when an attempt meets one fault and attempts remain, a fresh
    circuit is fetched exactly if the fault is not the directory's and its
    neighbour on the way to the client sees an error. -/
theorem retried_exactly (hX : N.X.LawfulAEAD) {c : Call} (hhops : c.hops = 1 ∨ c.hops = 3)
    (hcid : c.circuitID ≠ []) (maxAttempts : Int) (left : Nat) (attempt : Int)
    (events : List RebuildEvent) :
    (∀ lastErr lastCircuit,
      runAttempts N.X c maxAttempts (left + 2) attempt events lastErr lastCircuit = (do
        let events ← beginRebuild attempt maxAttempts events lastErr lastCircuit
        perform (.mark .attempt)
        let fetched ← getCircuitWithHops N.X c.directoryURL c.hops
        afterFetch N.X c maxAttempts (left + 1) attempt events fetched)) ∧
    (∀ err τ res, Path (afterFetch N.X c maxAttempts (left + 1) attempt events (.error err)) τ res →
      fetches τ = 0) ∧
    ∀ (circuit : CircuitResponse) (nodes : Role → ν) (fault : CircuitFault ν) (i : ι)
      (w w' : World ι ν) (outcome : Outcome) τ res,
      N.Circuit circuit c.hops (nodesAt nodes c.hops) → fault.Occurs N c circuit nodes i w →
      (fault.network N).Returns (i, .client) (attemptCircuit N.X c circuit) w outcome w' →
      Path (afterAttempt N.X c maxAttempts (left + 1) attempt events circuit outcome) τ res →
      (0 < fetches τ ↔ fault.Shows) := by
  refine ⟨fun lastErr lastCircuit => runAttempts_eq .., ?_, ?_⟩
  · intro err τ res h
    exact fetches_afterFetch_error h
  · intro circuit nodes fault i w w' outcome τ res hc hfault hrun h
    rw [fetches_afterAttempt hhops h]
    exact meets_attempt_fault hX hhops hcid hc hfault outcome w' hrun

namespace Sample

theorem circuit_nodesAt : net.Circuit Sample.circuit 3 (nodesAt (id : Role → Node) 3) :=
  circuit_three

/-- A world whose destinations cannot be reached. -/
def deaf : World Unit Node :=
  { start with oracle := fun _ m => { choice m with
      dest := fun _ => .unreachable (lit "connection refused") } }

theorem deaf_unanswering : Unanswering deaf () := by
  intro n m req resp h
  cases h

/-- A guard that answers an onion without a payload. -/
def vacant : CircuitFault Node := .answers ⟨.guard, .onion, .ok ⟨statusOK, (Json.obj []).encode⟩⟩

/-- The relay is down when the onion reaches it. -/
def unreachable : CircuitFault Node := .answers ⟨.relay, .onion, .error (lit "connection refused")⟩

/-- How an attempt ends in a world. -/
def ends (fault : CircuitFault Node) (w : World Unit Node) : Option Outcome :=
  ((fault.network net).exec 4 ((), .client) (attemptCircuit externals call Sample.circuit) w).map
    (·.1)

/-- What the call returns then, if one more attempt is left. -/
def returned (outcome : Outcome) : Option (Result CircuitResult) :=
  (net.reliable.exec 4 ((), .client)
    (afterAttempt externals call 2 1 1 [] Sample.circuit outcome) deaf).map (·.1)

/-- A run of an attempt that ends so, and a path of what follows. -/
theorem run_of_ends {fault : CircuitFault Node} {w : World Unit Node} {outcome : Outcome}
    (hends : ends fault w = some outcome) (hreturned : (returned outcome).isSome = true) :
    ∃ w' τ res, (fault.network net).Returns ((), .client)
        (attemptCircuit externals call Sample.circuit) w outcome w' ∧
      Path (afterAttempt externals call 2 1 1 [] Sample.circuit outcome) τ res := by
  obtain ⟨⟨_, w'⟩, hexec, rfl⟩ := Option.map_eq_some_iff.mp hends
  obtain ⟨_, hres⟩ := Option.isSome_iff_exists.mp hreturned
  obtain ⟨⟨res, w₁⟩, hafter, -⟩ := Option.map_eq_some_iff.mp hres
  obtain ⟨τ, hτ, -⟩ := (returns_of_exec hafter).path
  exact ⟨w', τ, res, returns_of_exec hexec, hτ⟩

end Sample

/-- A relay that cannot be reached: a fresh circuit is fetched. -/
theorem retried_exactly_sample : ∃ outcome w' τ res,
    (Sample.unreachable.network Sample.net).Returns ((), .client)
      (attemptCircuit Sample.externals Sample.call Sample.circuit) Sample.start outcome w' ∧
    Path (afterAttempt Sample.externals Sample.call 2 1 1 [] Sample.circuit outcome) τ res ∧
    0 < fetches τ := by
  have hends : Sample.ends Sample.unreachable Sample.start = some (.retry (lit ("send onion " ++
      "request via guard g: POST /onion to http://g:1 returned 502: next hop unreachable"))) := by
    decide +kernel
  obtain ⟨w', τ, res, hreturns, hpath⟩ := Sample.run_of_ends hends (by decide +kernel)
  have hoccurs : Sample.unreachable.Occurs Sample.net Sample.call Sample.circuit id ()
      Sample.start := by
    refine ⟨⟨.relay, by decide, rfl⟩, by decide, ?_⟩
    intro h
    cases h
  obtain ⟨-, -, hexactly⟩ := @retried_exactly Unit Sample.Node _ _ Sample.net Sample.lawfulAEAD
    Sample.call (.inr rfl) (by decide) 2 0 1 []
  have hiff := hexactly Sample.circuit id Sample.unreachable () Sample.start w' _ τ res
    Sample.circuit_nodesAt hoccurs hreturns hpath
  exact ⟨_, w', τ, res, hreturns, hpath, hiff.mpr (.inr rfl)⟩

/-- A destination that cannot be reached makes the client take another
    circuit, and a guard that answers without a payload does not. -/
theorem retried_without_hop_fault :
    (Sample.net.Circuit Sample.circuit 3 (nodesAt id 3) ∧
      Sample.layer.Executable Sample.externals ∧ Unanswering Sample.deaf () ∧
      ∃ err w' τ res, Sample.net.reliable.Returns ((), .client)
        (attemptCircuit Sample.externals Sample.call Sample.circuit) Sample.deaf (.retry err) w' ∧
        Path (afterAttempt Sample.externals Sample.call 2 1 1 [] Sample.circuit (.retry err)) τ
          res ∧ 0 < fetches τ) ∧
    ∃ err w' τ res, (Sample.vacant.network Sample.net).Returns ((), .client)
      (attemptCircuit Sample.externals Sample.call Sample.circuit) Sample.start (.fail err) w' ∧
      Path (afterAttempt Sample.externals Sample.call 2 1 1 [] Sample.circuit (.fail err)) τ res ∧
      fetches τ = 0 := by
  refine ⟨⟨Sample.circuit_nodesAt, Sample.layer_executable, Sample.deaf_unanswering, ?_⟩, ?_⟩
  · have hends : Sample.ends .destination Sample.deaf = some (.retry (lit ("send onion " ++
        "request via guard g: POST /onion to http://g:1 returned 502: next hop error"))) := by
      decide +kernel
    obtain ⟨w', τ, res, hreturns, hpath⟩ := Sample.run_of_ends hends (by decide +kernel)
    exact ⟨_, w', τ, res, hreturns, hpath, (fetches_afterAttempt (.inr rfl) hpath).mpr ⟨_, rfl⟩⟩
  · have hends : Sample.ends Sample.vacant Sample.start = some (.fail (lit ("decrypt circuit " ++
        "response: decrypt guard layer: ciphertext too short"))) := by
      decide +kernel
    obtain ⟨w', τ, res, hreturns, hpath⟩ := Sample.run_of_ends hends (by decide +kernel)
    have hnone : ¬0 < fetches τ := by
      intro hpos
      obtain ⟨_, hout⟩ := (fetches_afterAttempt (.inr rfl) hpath).mp hpos
      cases hout
    exact ⟨_, w', τ, res, hreturns, hpath, by omega⟩

end HopVault
