import HopVault.HealthCheck
import HopVault.RetryRace

/-! # The health checker and the nodes

    A rebuild sets up the hops of a new circuit one after the other under
    the circuit ID of the old one. If it breaks off, the client keeps the
    old circuit with its old keys, but a hop that both circuits share may
    already have the new key. As long as no rebuild breaks off in this
    way, client and nodes agree on their keys after every check. -/

namespace HopVault

open Framework Framework.Json Framework.Utf8 Framework.Semantics

variable {ι ν : Type} [DecidableEq ι] [DecidableEq ν] {N : Net ν} {i : ι} {circuitID : Bytes}

/-! ## What a set-up writes -/

/-- From `w` to `w'`, the call has had the keys `new` stored under its
    circuit ID, and nothing else has changed there. -/
structure Wrote (i : ι) (circuitID : Bytes) (w w' : World ι ν) (new : List (ν × Bytes × Bytes)) :
    Prop where
  stores : w'.stores i = w.stores i ++ new
  keys : ∀ n, w'.keys n (toValid circuitID) =
    (lastStored n new).or (w.keys n (toValid circuitID))

omit [DecidableEq ι] in
theorem Wrote.refl (w : World ι ν) : Wrote i circuitID w w [] :=
  ⟨(List.append_nil _).symm, fun _ => rfl⟩

omit [DecidableEq ι] in
theorem Wrote.trans {u v w : World ι ν} {new new' : List (ν × Bytes × Bytes)}
    (h₁ : Wrote i circuitID u v new) (h₂ : Wrote i circuitID v w new') :
    Wrote i circuitID u w (new ++ new') := by
  refine ⟨by rw [h₂.stores, h₁.stores, List.append_assoc], fun n => ?_⟩
  rw [h₂.keys n, h₁.keys n, lastStored_append, Option.or_assoc]

/-- An operation that stores no key. -/
def Effect.Storeless : Effect → Prop
  | .keysStore _ _ => False
  | _ => True

theorem Effect.Plain.storeless {e : Effect} (he : e.Plain) : e.Storeless := by
  cases e <;> trivial

theorem wrote_act {e : Effect} (he : e.Storeless) (ℓ : Loc ι ν) (w : World ι ν) :
    Wrote i circuitID w (World.act ℓ e w).2 [] := by
  have hnil : w.stores i = w.stores i ++ [] := (List.append_nil _).symm
  cases e with
  | keysStore c k => cases he
  | accept ep a b =>
    obtain ⟨j, p⟩ := ℓ
    cases p <;> exact ⟨hnil, fun _ => rfl⟩
  | _ => exact ⟨hnil, fun _ => rfl⟩

section

variable {ℓ : Loc ι ν} {w : World ι ν} {α : Type} {Q : α → World ι ν → Prop}

variable (i circuitID) in
/-- An operation that writes nothing. -/
theorem meets_storeless {e : Effect} (he : e.Storeless) {k : e.Ans → Go α}
    (hk : ∀ x w', Wrote i circuitID w w' [] → N.lossy.Meets ℓ (k x) w' Q) :
    N.lossy.Meets ℓ (.op e k) w Q :=
  meets_op (hk _ _ (wrote_act he ℓ w))

variable (i circuitID) in
/-- A program that makes no calls and writes nothing. -/
theorem meets_plain {p : Go α} {P : Effect → Prop} {T : α → Prop} (h : p.All P (fun _ => False) T)
    (hP : ∀ e, P e → e.Storeless) :
    N.lossy.Meets ℓ p w fun a w' => T a ∧ Wrote i circuitID w w' [] := by
  refine meets_of_all (I := fun w' => Wrote i circuitID w w' []) h (.refl w) fun e he v hv => ?_
  exact hv.trans (wrote_act (hP e he) ℓ v)

/-- What a set-up request may leave behind: nothing, or the key at the node
    it is routed to. -/
def SetUp (N : Net ν) (nodeURL circuitID key : Bytes) (new : List (ν × Bytes × Bytes)) : Prop :=
  ∃ n, N.route (nodeURL ++ lit "/setup") = some (n, .setup) ∧ new = [(n, toValid circuitID, key)]

/-- A node that serves it. -/
theorem meets_handleSetup (hX : N.X.FaithfulOAEP) {n : ν} {addr ct key seed : Bytes}
    {pub : PublicKey} (henc : N.X.encryptOAEP pub seed key = .ok ct) :
    N.lossy.Meets (i, .node n) (handleSetup N.X (N.priv n)
      ⟨methodPost, addr, (KeySetupRequest.json ⟨circuitID, Base64.encode ct⟩).encode⟩) w
      fun r w' => (r.statusCode ≠ statusNoContent ∧ Wrote i circuitID w w' []) ∨
        Wrote i circuitID w w' [(n, toValid circuitID, key)] := by
  have h400 : statusBadRequest ≠ statusNoContent := by decide
  simp only [handleSetup, decode_keySetupRequest, Base64.decode_encode, ne_eq, not_true_eq_false,
    if_false]
  split
  · exact meets_ret (.inl ⟨h400, .refl w⟩)
  · split
    · exact meets_storeless i circuitID (by trivial) fun _ w₁ hw₁ => meets_ret (.inl ⟨h400, hw₁⟩)
    · rename_i key' hdec
      obtain rfl := hX henc ((decryptKey_eq_ok _).mp hdec)
      split
      · exact meets_storeless i circuitID (by trivial) fun _ w₁ hw₁ => meets_ret (.inl ⟨h400, hw₁⟩)
      · refine meets_op (meets_storeless i circuitID (by trivial) fun _ w₁ hw₁ =>
          meets_ret (.inr ?_))
        have hstore : Wrote i circuitID w
            (World.act (i, .node n) (.keysStore (toValid circuitID) key') w).2
            [(n, toValid circuitID, key')] := by
          -- what the store holds is the last key written to it
          refine ⟨Function.update_self .., fun m => ?_⟩
          show Function.update w.keys n _ m (toValid circuitID) = _
          by_cases hm : m = n
          · subst hm
            simp [lastStored]
          · simp [lastStored, hm, Ne.symm hm]
        exact hstore.trans hw₁

/-- A program that makes one exchange whose request or response may be
    lost. -/
theorem meets_lossyExchange {p : Go (Result Response)} {Q : Result Response → World ι ν → Prop}
    (hp : ∀ w₁, Wrote i circuitID w w₁ [] → N.lossy.Meets ℓ p w₁ Q)
    (hrequest : ∀ err w₁, Wrote i circuitID w w₁ [] → Q (.error err) w₁)
    (hresponse : ∀ err r w', Q r w' → Q (.error err) w') :
    N.lossy.Meets ℓ (Net.lossyExchange p) w Q := by
  unfold Net.lossyExchange
  refine meets_storeless i circuitID (by trivial) fun fate w₁ hw₁ => ?_
  cases fate with
  | deliver => exact hp w₁ hw₁
  | loseRequest err => exact meets_ret (hrequest err w₁ hw₁)
  | loseResponse err =>
    show N.lossy.Meets ℓ (p >>= fun _ => Prog.ret (.error err)) w₁ Q
    exact meets_bind (hp w₁ hw₁) fun r w₂ hr => meets_ret (hresponse err r w₂ hr)

/-- A set-up request, whoever it reaches and whatever is lost. -/
theorem meets_postSetup (hX : N.X.FaithfulOAEP) {nodeURL ct key seed : Bytes} {pub : PublicKey}
    (henc : N.X.encryptOAEP pub seed key = .ok ct) {q : Post}
    (hq : q = jsonPost (nodeURL ++ lit "/setup")
      (KeySetupRequest.json ⟨circuitID, Base64.encode ct⟩).encode) :
    N.lossy.Meets (N.lossy.serve (i, .client) q).1 (N.lossy.serve (i, .client) q).2 w fun r w' =>
      ∃ new, Wrote i circuitID w w' new ∧ (new = [] ∨ SetUp N nodeURL circuitID key new) ∧
        ∀ resp, r = .ok resp → resp.statusCode = statusNoContent → new ≠ [] := by
  -- whatever is no 204 may leave the stores as they were
  have hnothing : ∀ {r : Result Response} {w' : World ι ν}, Wrote i circuitID w w' [] →
      (∀ resp, r = .ok resp → resp.statusCode ≠ statusNoContent) →
      ∃ new, Wrote i circuitID w w' new ∧ (new = [] ∨ SetUp N nodeURL circuitID key new) ∧
        ∀ resp, r = .ok resp → resp.statusCode = statusNoContent → new ≠ [] :=
    fun hw hr => ⟨[], hw, .inl rfl, fun resp h h204 => absurd h204 (hr resp h)⟩
  subst hq
  refine meets_lossyExchange (fun w₁ hw₁ => ?_) (fun err w₁ hw₁ => hnothing hw₁ (by simp))
    fun err r w' ⟨new, hw, hnew, _⟩ => ⟨new, hw, hnew, by simp⟩
  show N.lossy.Meets (N.serve _ _).1 (N.serve _ _).2 w₁ _
  unfold Net.serve
  split
  · rename_i n endpoint hroute
    simp only [Net.serveAt, perform_eq, Prog.op_bind, Prog.ret_bind, Prog.pure_eq, jsonPost]
    refine meets_storeless i circuitID (by trivial) fun _ w₂ hw₂ => ?_
    have hw := hw₁.trans hw₂
    by_cases hsetup : endpoint = .setup
    · subst hsetup
      unfold Net.handle
      refine meets_bind (meets_handleSetup hX henc) fun resp w₃ hresp => meets_ret ?_
      rcases hresp with ⟨hstatus, hw₃⟩ | hw₃
      · exact hnothing (hw.trans hw₃) fun r hr => Except.ok.inj hr ▸ hstatus
      · exact ⟨_, hw.trans hw₃, .inr ⟨n, hroute, rfl⟩, fun _ _ _ => by simp⟩
    · -- the other handlers find neither a key nor an onion in it
      have hnode : N.Footprint n endpoint
          (KeySetupRequest.json ⟨circuitID, Base64.encode ct⟩).encode Effect.Storeless
          (fun _ => False) := {
        plain := fun _ he => he.storeless
        dest := fun _ _ => trivial
        answer := fun _ _ _ => trivial
        get := fun _ _ _ => trivial
        setup := fun h => absurd h hsetup
        key := fun _ r _ hr hne => by
          rw [decode_keySetupRequest_as_key, Option.some.injEq] at hr
          exact absurd (by rw [← hr]) hne
        forward := fun _ r _ _ hr hne => by
          rw [decode_keySetupRequest_as_onion, Option.some.injEq] at hr
          exact absurd (by rw [← hr]) hne }
      refine meets_bind (meets_plain i circuitID
        (Net.all_handle hnode _ _) fun _ he => he) fun resp w₃ hresp => meets_ret ?_
      obtain ⟨hanswered, hw₃⟩ := hresp
      refine hnothing (hw.trans hw₃) fun r hr h204 => ?_
      obtain rfl := Except.ok.inj hr
      rcases hanswered.noContent h204 with h | ⟨k, hk, hne⟩
      · exact hsetup h
      · rw [decode_keySetupRequest_as_key, Option.some.injEq] at hk
        exact absurd (by rw [← hk]) hne
  · exact meets_ret (hnothing hw₁ (by simp))

/-- One set-up: without an error it has left its key at the node. -/
theorem meets_sendSetupKey (hX : N.X.FaithfulOAEP) (nodeURL : Bytes) (pub : PublicKey)
    (key : Bytes) :
    N.lossy.Meets (i, .client) (sendSetupKey N.X nodeURL circuitID pub key) w fun r w' =>
      ∃ new, Wrote i circuitID w w' new ∧ (r = .ok () → SetUp N nodeURL circuitID key new) := by
  simp only [sendSetupKey, encryptKey, perform_eq, clientPost_eq, Prog.op_bind, Prog.rpc_bind,
    Prog.ret_bind, Prog.pure_eq]
  refine meets_storeless i circuitID (by trivial) fun seed w₁ hw₁ => ?_
  cases henc : N.X.encryptOAEP pub seed.1 key with
  | error err => exact meets_ret ⟨[], hw₁, by simp⟩
  | ok ct =>
    refine meets_storeless i circuitID (by trivial) fun _ w₂ hw₂ => ?_
    -- only the 204 tells the client that the key is stored
    refine meets_rpc (meets_postSetup hX henc rfl) fun r w₃ hr => ?_
    obtain ⟨new, hw₃, hnew, h204⟩ := hr
    have hw := (hw₁.trans hw₂).trans hw₃
    cases r with
    | error err => exact meets_ret ⟨new, hw, by simp⟩
    | ok resp =>
      dsimp only
      split_ifs with hstatus
      · exact meets_ret ⟨new, hw, by simp⟩
      · refine meets_ret ⟨new, hw, fun _ => hnew.resolve_left ?_⟩
        exact h204 resp rfl (not_not.mp hstatus)

/-- Each candidate has its key, in order. -/
def AllSetUp (N : Net ν) (circuitID : Bytes) (cands : List (NodeRecord × Bytes))
    (new : List (ν × Bytes × Bytes)) : Prop :=
  List.Forall₂ (fun c x => N.route (c.1.nodeURL ++ lit "/setup") = some (x.1, .setup) ∧
    x.2 = (toValid circuitID, c.2)) cands new

theorem meets_setupCandidates (hX : N.X.FaithfulOAEP) (cands : List (NodeRecord × Bytes)) :
    N.lossy.Meets (i, .client) (setupCandidates N.X circuitID cands) w fun r w' =>
      ∃ new, Wrote i circuitID w w' new ∧ (r = .ok () → AllSetUp N circuitID cands new) := by
  induction cands generalizing w with
  | nil => exact meets_ret ⟨[], .refl w, fun _ => .nil⟩
  | cons c cands ih =>
    obtain ⟨node, key⟩ := c
    unfold setupCandidates
    split
    · exact meets_ret ⟨[], .refl w, by simp⟩
    · refine meets_bind (meets_sendSetupKey hX _ _ _) fun r w₁ hr => ?_
      obtain ⟨new, hw₁, hnew⟩ := hr
      cases r with
      | error err => exact meets_ret ⟨new, hw₁, by simp⟩
      | ok _ =>
        -- the writes of the hops add up, in the order of the hops
        obtain ⟨n, hroute, rfl⟩ := hnew rfl
        refine ih.weaken fun r w' hr => ?_
        obtain ⟨rest, hw₂, hrest⟩ := hr
        exact ⟨_, hw₁.trans hw₂, fun hok => .cons ⟨hroute, rfl⟩ (hrest hok)⟩

/-- The set-up of a circuit. -/
theorem meets_setupCircuit (hX : N.X.FaithfulOAEP) (circuit : CircuitResponse) (hops : Int) :
    N.lossy.Meets (i, .client) (setupCircuitWithHops N.X circuitID circuit hops) w fun r w' =>
      ∃ new, Wrote i circuitID w w' new ∧
        ∀ keys, r = .ok keys → AllSetUp N circuitID (candidates circuit keys hops) new := by
  unfold setupCircuitWithHops
  split
  · exact meets_ret ⟨[], .refl w, by simp⟩
  · refine meets_bind (meets_plain i circuitID (all_generateKeys (fun _ he => he.storeless) hops)
      fun _ he => he) fun keys w₁ hw₁ => ?_
    refine meets_bind (meets_setupCandidates hX _) fun r w₂ hr => ?_
    obtain ⟨new, hw₂, hnew⟩ := hr
    have hw := hw₁.2.trans hw₂
    cases r with
    | error err => exact meets_ret ⟨_, hw, by simp⟩
    | ok _ =>
      refine meets_ret ⟨_, hw, fun keys' hkeys => ?_⟩
      obtain rfl := Except.ok.inj hkeys
      exact hnew rfl

/-- Up to the set-up a check writes nothing. -/
theorem meets_circuitToSetUp (directoryURL : Bytes) (state : CircuitState)
    (current : CircuitResponse) :
    N.lossy.Meets ℓ (circuitToSetUp N.X directoryURL state current) w
      fun _ w' => Wrote i circuitID w w' [] := by
  have hall : (circuitToSetUp N.X directoryURL state current).All Effect.Storeless (fun _ => False)
      fun _ => True := by
    unfold circuitToSetUp
    refine Prog.all_bind (all_getHealthyNodes (fun _ => trivial) _) fun r _ => ?_
    cases r with
    | error err => exact ⟨trivial, fun _ => trivial⟩
    | ok nodes =>
      simp only [perform_eq, logPrintf_eq, Prog.op_bind, Prog.ret_bind, Prog.pure_eq]
      refine ⟨trivial, fun ids => ?_⟩
      dsimp only
      split
      · trivial
      · refine ⟨trivial, fun _ => ?_⟩
        refine Prog.all_bind (all_getCircuit (fun _ => trivial) _ _) fun r _ => ?_
        cases r with
        | error err => exact ⟨trivial, fun _ => trivial⟩
        | ok circuit => trivial
  exact (meets_plain i circuitID hall fun _ he => he).weaken fun _ _ h => h.2

end

/-! ## Agreement -/

/-- The client's state, the world, and the nodes that have been restarted
    or written to by others. -/
structure Monitored (ι ν : Type) where
  world : World ι ν
  state : CircuitState
  disturbed : ν → Prop

/-- Every hop of the circuit that nobody has disturbed holds the key that
    the state keeps for it. -/
def Agree (N : Net ν) (m : Monitored ι ν) : Prop :=
  ∀ circuit, m.state.circuit = some circuit →
    ∀ c ∈ candidates circuit m.state.keys m.state.hops,
      ∃ n, N.route (c.1.nodeURL ++ lit "/setup") = some (n, .setup) ∧
        (¬m.disturbed n → m.world.keys n (toValid m.state.circuitID) = some c.2)

/-- One check, or something that happens to other nodes. -/
inductive HealthStep (N : Net ν) (i : ι) (directoryURL : Bytes) :
    Monitored ι ν → Monitored ι ν → Prop
  | check {m : Monitored ι ν} {s' : CircuitState} {w' : World ι ν} :
      N.lossy.Returns (i, .client) (checkAndRebuildCircuit N.X directoryURL m.state) m.world s' w' →
      HealthStep N i directoryURL m { m with state := s', world := w' }
  | disturb {m : Monitored ι ν} {w' : World ι ν} {disturbed' : ν → Prop} :
      (∀ n, ¬disturbed' n → w'.keys n (toValid m.state.circuitID) =
        m.world.keys n (toValid m.state.circuitID)) →
      (∀ n, m.disturbed n → disturbed' n) →
      HealthStep N i directoryURL m { m with world := w', disturbed := disturbed' }

/-- The node of a hop of a circuit. -/
def IsHop (N : Net ν) (circuit : CircuitResponse) (hops : Int) (n : ν) : Prop :=
  ∃ r ∈ circuitHops circuit hops, N.route (r.nodeURL ++ lit "/setup") = some (n, .setup)

/-- If a check sets up a circuit, the set-up either succeeds, over nodes
    that are all different, or breaks off before a hop of the current
    circuit has stored a new key. -/
def SafeRebuild (N : Net ν) (i : ι) (directoryURL : Bytes) (m : Monitored ι ν) : Prop :=
  ∀ current circuit v r v', m.state.ready = true → m.state.circuit = some current →
    N.lossy.Returns (i, .client) (circuitToSetUp N.X directoryURL m.state current) m.world
      (some circuit) v →
    N.lossy.Returns (i, .client)
      (setupCircuitWithHops N.X m.state.circuitID circuit m.state.hops) v r v' →
    match r with
    | .ok _ => ((circuitHops circuit m.state.hops).map fun rec =>
        N.route (rec.nodeURL ++ lit "/setup")).Nodup
    | .error _ => ∀ n, ¬m.disturbed n → IsHop N current m.state.hops n →
        ∀ x ∈ (v'.stores i).drop (v.stores i).length, x.1 ≠ n

omit [DecidableEq ι] [DecidableEq ν] in
/-- Every key has been stored for one of the candidates. -/
theorem AllSetUp.route {cands : List (NodeRecord × Bytes)} {new : List (ν × Bytes × Bytes)}
    (h : AllSetUp N circuitID cands new) : ∀ x ∈ new,
      ∃ c ∈ cands, N.route (c.1.nodeURL ++ lit "/setup") = some (x.1, .setup) := by
  induction h with
  | nil => simp
  | @cons c x cands new hc _ ih =>
    intro y hy
    rcases List.mem_cons.mp hy with rfl | hy
    · exact ⟨c, List.mem_cons_self, hc.1⟩
    · obtain ⟨d, hd, hroute⟩ := ih y hy
      exact ⟨d, List.mem_cons_of_mem _ hd, hroute⟩

omit [DecidableEq ι] in
/-- Over different nodes, each node stores one key last: its own. -/
theorem AllSetUp.lastStored {cands : List (NodeRecord × Bytes)} {new : List (ν × Bytes × Bytes)}
    (h : AllSetUp N circuitID cands new)
    (hnodup : (cands.map fun c => N.route (c.1.nodeURL ++ lit "/setup")).Nodup) :
    ∀ c ∈ cands, ∃ n, N.route (c.1.nodeURL ++ lit "/setup") = some (n, .setup) ∧
      HopVault.lastStored n new = some c.2 := by
  induction h with
  | nil => simp
  | @cons c x cands new hc htail ih =>
    obtain ⟨hroute, hx⟩ := hc
    rw [List.map_cons, List.nodup_cons] at hnodup
    intro d hd
    rcases List.mem_cons.mp hd with rfl | hd
    · refine ⟨x.1, hroute, ?_⟩
      -- nobody stores at this node later
      have hnone : HopVault.lastStored x.1 new = none := by
        refine lastStored_eq_none fun y hy hxy => hnodup.1 ?_
        obtain ⟨e, he, hy⟩ := AllSetUp.route htail y hy
        exact List.mem_map.mpr ⟨e, he, by rw [hy, hroute, hxy]⟩
      rw [HopVault.lastStored, hnone, if_pos rfl, hx]
      rfl
    · obtain ⟨n, hn, hlast⟩ := ih hnodup.2 d hd
      exact ⟨n, hn, by rw [HopVault.lastStored, hlast]; rfl⟩

theorem candidates_records (circuit : CircuitResponse) (keys : SessionKeys) (hops : Int) :
    (candidates circuit keys hops).map (·.1) = circuitHops circuit hops := by
  unfold candidates circuitHops
  split_ifs <;> rfl

omit [DecidableEq ι] [DecidableEq ν] in
/-- Nothing but the keys of the circuit matters. -/
theorem Agree.of_keys {m : Monitored ι ν} (h : Agree N m) {w' : World ι ν} {disturbed' : ν → Prop}
    (hkeys : ∀ current n, m.state.circuit = some current → IsHop N current m.state.hops n →
      ¬disturbed' n → ¬m.disturbed n ∧ w'.keys n (toValid m.state.circuitID) =
        m.world.keys n (toValid m.state.circuitID)) :
    Agree N { m with world := w', disturbed := disturbed' } := by
  intro circuit hcircuit c hc
  obtain ⟨n, hroute, hkey⟩ := h circuit hcircuit c hc
  refine ⟨n, hroute, fun hn => ?_⟩
  have hhop : IsHop N circuit m.state.hops n := by
    refine ⟨c.1, ?_, hroute⟩
    rw [← candidates_records circuit m.state.keys]
    exact List.mem_map_of_mem hc
  obtain ⟨hold, hsame⟩ := hkeys circuit n hcircuit hhop hn
  show w'.keys n (toValid m.state.circuitID) = some c.2
  rw [hsame]
  exact hkey hold

/-- After a set-up over different nodes, client and nodes agree. -/
theorem agree_of_setup (hX : N.X.FaithfulOAEP) {circuit : CircuitResponse} {state : CircuitState}
    {keys : SessionKeys} {v v' w : World ι ν}
    (hsetup : N.lossy.Returns (i, .client)
      (setupCircuitWithHops N.X state.circuitID circuit state.hops) v (.ok keys) v')
    (hnodup : ((circuitHops circuit state.hops).map fun rec =>
      N.route (rec.nodeURL ++ lit "/setup")).Nodup)
    (hkeys : ∀ n, w.keys n (toValid state.circuitID) = v'.keys n (toValid state.circuitID))
    (disturbed : ν → Prop) :
    Agree N ⟨w, { state with circuit := some circuit, keys := keys, ready := true }, disturbed⟩ := by
  obtain ⟨new, hv', hnew⟩ := meets_setupCircuit hX circuit state.hops _ _ hsetup
  intro circuit' hcircuit' c hc
  obtain rfl := Option.some.inj hcircuit'
  rw [← candidates_records circuit keys, List.map_map] at hnodup
  obtain ⟨n, hroute, hlast⟩ := (hnew keys rfl).lastStored hnodup c hc
  refine ⟨n, hroute, fun _ => (hkeys n).trans ((hv'.keys n).trans ?_)⟩
  rw [hlast, Option.some_or]

/-- A safe step keeps client and nodes in agreement. -/
theorem HealthStep.agree (hX : N.X.FaithfulOAEP) {directoryURL : Bytes} {m m' : Monitored ι ν}
    (hagree : Agree N m) (hstep : HealthStep N i directoryURL m m')
    (hsafe : SafeRebuild N i directoryURL m) : Agree N m' := by
  cases hstep with
  | @disturb w' disturbed' hkeys hmono =>
    exact hagree.of_keys fun _ n _ _ hn => ⟨fun h => hn (hmono n h), hkeys n hn⟩
  | @check s' w' hrun =>
    have hsame {w' : World ι ν} (hw : Wrote i m.state.circuitID m.world w' []) :
        Agree N { m with world := w' } :=
      hagree.of_keys fun _ n _ _ hn => ⟨hn, hw.keys n⟩
    unfold checkAndRebuildCircuit at hrun
    split at hrun
    · rename_i current hready hcurrent
      obtain ⟨fetched, v, hfetch, hrun⟩ := returns_bind.mp hrun
      have hv : Wrote i m.state.circuitID m.world v [] := meets_circuitToSetUp _ _ _ _ _ hfetch
      cases fetched with
      | none =>
        obtain ⟨rfl, rfl⟩ := returns_ret.mp hrun
        exact hsame hv
      | some circuit =>
        obtain ⟨r, v', hsetup, hrun⟩ := returns_bind.mp hrun
        have hsafe := hsafe current circuit v r v' hready hcurrent hfetch hsetup
        have hlog (line : Bytes) (n : ν) :
            (World.act (i, .client) (.log line) v').2.keys n (toValid m.state.circuitID) =
              v'.keys n (toValid m.state.circuitID) := rfl
        cases r with
        | error err =>
          -- the state is kept, and so are the keys of its hops
          simp only [logPrintf_eq, Prog.op_bind, Prog.ret_bind, Prog.pure_eq, returns_op,
            returns_ret] at hrun
          obtain ⟨rfl, rfl⟩ := hrun
          obtain ⟨new, hv', -⟩ := meets_setupCircuit hX circuit m.state.hops _ _ hsetup
          refine hagree.of_keys fun current' n hcurrent' hhop hn => ⟨hn, ?_⟩
          obtain rfl := Option.some.inj (hcurrent'.symm.trans hcurrent)
          have hnone : lastStored n new = none := by
            refine lastStored_eq_none fun x hx => hsafe n hn hhop x ?_
            rw [hv'.stores, List.drop_left]
            exact hx
          refine (hlog _ n).trans ((hv'.keys n).trans ?_)
          rw [hnone, Option.none_or]
          exact hv.keys n
        | ok keys =>
          simp only [logPrintf_eq, Prog.op_bind, Prog.ret_bind, Prog.pure_eq, returns_op,
            returns_ret] at hrun
          obtain ⟨rfl, rfl⟩ := hrun
          exact agree_of_setup hX hsetup hsafe (hlog _) m.disturbed
    · obtain ⟨rfl, rfl⟩ := returns_ret.mp hrun
      exact hsame (.refl _)

/-- **Agreement**: over every sequence of checks, whatever the directory
    answers and whichever set-ups fail, as long as no set-up breaks off
    after a hop of the current circuit has stored a new key (and no node is
    named twice in one circuit), every undisturbed hop of the client's
    circuit holds the key the client keeps for it. -/
theorem rebuilds_agree (hX : N.X.FaithfulOAEP) {directoryURL : Bytes} {m m' : Monitored ι ν}
    (hagree : Agree N m) (hrun : Relation.ReflTransGen
      (fun a b => HealthStep N i directoryURL a b ∧ SafeRebuild N i directoryURL a) m m') :
    Agree N m' := by
  induction hrun with
  | refl => exact hagree
  | tail _ hstep ih => exact hstep.1.agree hX ih hstep.2

/-! ## Two rebuilds -/

namespace Sample

/-- The relay is missing in the list of healthy nodes, but the circuit the
    directory hands out has it again. If `breaks`, the relay misses its
    second set-up. -/
def flappingChoice (breaks : Bool) (ℓ : Loc Unit Node) (m : Nat) : Choice :=
  { choice m with
    get := fun url =>
      if url = lit "/nodes" then
        .ok ⟨statusOK, (Json.obj [(lit "guard", .arr [nodeJson (record .guard)]),
          (lit "exit", .arr [nodeJson (record .exit)])]).encode⟩
      else .ok (directory circuit)
    fate :=
      if breaks = true ∧ ℓ.2 = .node .relay ∧ 4 ≤ m then .loseRequest (lit "timeout")
      else .deliver }

def flapping (breaks : Bool) : World Unit Node := { start with oracle := flappingChoice breaks }

/-- The client's state after the set-up of the circuit. -/
def rebuildState (keys : SessionKeys) : CircuitState := ⟨some circuit, keys, lit "c1", 3, true⟩

theorem hops_nodup : ((circuitHops circuit 3).map fun rec =>
    net.route (rec.nodeURL ++ lit "/setup")).Nodup := by
  decide +kernel

/-- The state and the world after the set-up. -/
theorem agree_set_up {breaks : Bool} {keys : SessionKeys} {w : World Unit Node}
    (hsetup : net.lossy.exec 3 ((), .client) (setupCircuitWithHops externals (lit "c1") circuit 3)
      (flapping breaks) = some (.ok keys, w)) :
    Agree net ⟨w, rebuildState keys, fun _ => False⟩ := by
  have hreturns : net.lossy.Returns ((), .client) (setupCircuitWithHops net.X
      (rebuildState keys).circuitID circuit (rebuildState keys).hops) (flapping breaks) (.ok keys) w :=
    returns_of_exec hsetup
  exact agree_of_setup faithfulOAEP hreturns hops_nodup (fun _ => rfl) _

/-- A set-up, and what a check makes of it. -/
def setUpAndCheck {β : Type} (breaks : Bool)
    (f : SessionKeys → World Unit Node → CircuitState → World Unit Node → β) : Option β :=
  match net.lossy.exec 3 ((), .client) (setupCircuitWithHops externals (lit "c1") circuit 3)
    (flapping breaks) with
  | some (.ok keys, w) => (net.lossy.exec 3 ((), .client)
      (checkAndRebuildCircuit externals [] (rebuildState keys)) w).map fun x => f keys w x.1 x.2
  | _ => none

theorem setUpAndCheck_eq_some {β : Type} {breaks : Bool}
    {f : SessionKeys → World Unit Node → CircuitState → World Unit Node → β} {b : β}
    (h : setUpAndCheck breaks f = some b) : ∃ keys w s' w',
      Agree net ⟨w, rebuildState keys, fun _ => False⟩ ∧
      HealthStep net () [] ⟨w, rebuildState keys, fun _ => False⟩ ⟨w', s', fun _ => False⟩ ∧
      f keys w s' w' = b := by
  unfold setUpAndCheck at h
  split at h
  · rename_i keys w hsetup
    obtain ⟨⟨s', w'⟩, hcheck, rfl⟩ := Option.map_eq_some_iff.mp h
    have hstep := HealthStep.check (N := net) (i := ())
      (m := ⟨w, rebuildState keys, fun _ => False⟩) (returns_of_exec hcheck)
    exact ⟨keys, w, s', w', agree_set_up hsetup, hstep, rfl⟩
  · cases h

end Sample

/-- A rebuild over the same nodes gets through, and leaves client and nodes
    in agreement on new keys. -/
theorem rebuilds_agree_sample : ∃ m m' : Monitored Unit Sample.Node,
    m.state.keys ≠ m'.state.keys ∧ HealthStep Sample.net () [] m m' ∧ Agree Sample.net m' := by
  have hplay : Sample.setUpAndCheck false (fun keys w s' _ =>
      (decide (keys ≠ s'.keys), (Sample.net.lossy.exec 3 ((), .client)
        (circuitToSetUp Sample.externals [] (Sample.rebuildState keys) Sample.circuit) w).bind
        fun x => (Sample.net.lossy.exec 3 ((), .client)
          (setupCircuitWithHops Sample.externals (lit "c1") Sample.circuit 3) x.2).map
          fun y => (x.1, y.1.toBool))) = some (true, some (some Sample.circuit, true)) := by
    decide +kernel
  obtain ⟨keys, w, s', w', hagree, hstep, hf⟩ := Sample.setUpAndCheck_eq_some hplay
  obtain ⟨hkeys, hsetup⟩ := Prod.ext_iff.mp hf
  obtain ⟨⟨fetched, v⟩, hfetch, hsetup⟩ := Option.bind_eq_some_iff.mp hsetup
  obtain ⟨⟨r, v'⟩, hsetup, hr⟩ := Option.map_eq_some_iff.mp hsetup
  obtain ⟨rfl, hok⟩ := Prod.ext_iff.mp hr
  refine ⟨_, _, of_decide_eq_true hkeys, hstep, rebuilds_agree Sample.faithfulOAEP hagree
    (.single ⟨hstep, ?_⟩)⟩
  intro current circuit v₁ r₁ v₂ _ hcurrent hfetch₁ hsetup₁
  obtain rfl := Option.some.inj hcurrent
  obtain ⟨hcircuit, rfl⟩ := hfetch₁.unique (returns_of_exec hfetch)
  obtain rfl := Option.some.inj hcircuit
  obtain ⟨rfl, -⟩ := hsetup₁.unique (returns_of_exec hsetup)
  cases r₁ with
  | error err => cases hok
  | ok keys => exact Sample.hops_nodup

/-- The guard has stored its new key when the relay's set-up is lost: the
    client keeps the old circuit with the old key of the guard. -/
theorem rebuild_broken_off : ∃ m m' : Monitored Unit Sample.Node,
    m.state.ready = true ∧ Agree Sample.net m ∧ HealthStep Sample.net () [] m m' ∧
      ¬Agree Sample.net m' := by
  have hplay : Sample.setUpAndCheck true (fun keys _ s' w' =>
      (decide (s' = Sample.rebuildState keys),
        decide (w'.keys .guard (toValid (lit "c1")) = some keys.guardKey))) = some (true, false) := by
    decide +kernel
  obtain ⟨keys, w, s', w', hagree, hstep, hf⟩ := Sample.setUpAndCheck_eq_some hplay
  obtain ⟨hs', hkey⟩ := Prod.ext_iff.mp hf
  obtain rfl := of_decide_eq_true hs'
  refine ⟨_, _, rfl, hagree, hstep, fun hagree' => ?_⟩
  obtain ⟨n, hroute, hheld⟩ := hagree' Sample.circuit rfl (Sample.circuit.guard, keys.guardKey)
    List.mem_cons_self
  have hsame := Option.some.inj ((Sample.honest .guard).setupRoute.symm.trans hroute)
  obtain rfl : n = .guard := (Prod.ext_iff.mp hsame).1.symm
  exact of_decide_eq_false hkey (hheld id)

end HopVault
