import HopVault.Footprint
import HopVault.Framework.Traced
import HopVault.Transparency

/-! # Faults that a call masks

    A call over a network in which some nodes are down. An attempt on a
    circuit with such a hop fails before anything reaches the destination,
    and the call goes on with a fresh circuit; the first circuit without
    one is served. So how a call ends is a matter of the circuits it
    fetches, in order, and of nothing else. -/

namespace HopVault

open Framework Framework.Json Framework.Utf8 Framework.Prog Framework.Semantics

variable {ι ν : Type} [DecidableEq ι] [DecidableEq ν] {N : Net ν}

/-! ## Nodes that are down -/

/-- Nobody listens at the address of the record. -/
def Net.Down (N : Net ν) (rec : NodeRecord) : Prop := N.route (rec.nodeURL ++ lit "/setup") = none

/-- The record of an honest node that can be reached. -/
def Net.Up (N : Net ν) (rec : NodeRecord) : Prop := ∃ n, N.Honest rec n

omit [DecidableEq ν] in
theorem Net.Up.not_down {rec : NodeRecord} (h : N.Up rec) : ¬N.Down rec := by
  obtain ⟨n, hn⟩ := h
  intro hdown
  have := hn.setupRoute
  rw [hdown] at this
  cases this

/-- No destination has been called, and the outside still decides as
    before. -/
structure Uncalled (w w' : World ι ν) : Prop where
  calls : w'.calls = w.calls
  oracle : w'.oracle = w.oracle

namespace Uncalled

omit [DecidableEq ι] [DecidableEq ν] in
theorem refl (w : World ι ν) : Uncalled w w := ⟨rfl, rfl⟩

omit [DecidableEq ι] [DecidableEq ν] in
theorem trans {u v w : World ι ν} (h₁ : Uncalled u v) (h₂ : Uncalled v w) : Uncalled u w :=
  ⟨h₂.calls.trans h₁.calls, h₂.oracle.trans h₁.oracle⟩

end Uncalled

omit [DecidableEq ι] [DecidableEq ν] in
theorem Quiet.uncalled {w w' : World ι ν} (h : Quiet w w') : Uncalled w w' := ⟨h.calls, h.oracle⟩

omit [DecidableEq ι] in
theorem Stored.uncalled {w w' : World ι ν} {n : ν} {c k : Bytes} (h : Stored w w' n c k) :
    Uncalled w w' := ⟨h.calls, h.oracle⟩

variable {i : ι} {w : World ι ν}

/-- A POST to an address at which nobody listens. -/
theorem ends_post_down {α : Type} {p : Place ν} {q : Post} (hroute : N.route q.url = none)
    {k : Result Response → Go α} {Q : α → World ι ν → Prop}
    (hk : N.reliable.Ends (i, p) (k (.error (N.dialError q.url))) w Q) :
    N.reliable.Ends (i, p) (.rpc q k) w Q := by
  refine ends_rpc (R := fun r w₁ => r = (.error (N.dialError q.url) : Result Response) ∧ w₁ = w)
    ?_ ?_
  · show N.reliable.Ends (N.serve (i, p) q).1 (N.serve (i, p) q).2 w _
    simp only [Net.serve, hroute]
    exact ends_ret ⟨rfl, rfl⟩
  · rintro r w₁ ⟨rfl, rfl⟩
    exact hk

/-- A session key for a node that is down. -/
theorem ends_sendSetupKey_down {rec : NodeRecord} (hdown : N.Down rec) (circuitID : Bytes)
    (pub : PublicKey) (key : Bytes) :
    N.reliable.Ends (i, .client) (sendSetupKey N.X rec.nodeURL circuitID pub key) w
      fun r w' => (∃ err, r = .error err) ∧ Quiet w w' := by
  simp only [sendSetupKey, encryptKey, perform_eq, clientPost_eq, op_bind, rpc_bind, ret_bind,
    pure_eq]
  refine ends_silent (by trivial) fun seed w₁ hq₁ => ?_
  cases N.X.encryptOAEP pub seed.1 key with
  | error err => exact ends_ret ⟨⟨_, rfl⟩, hq₁⟩
  | ok ct =>
    refine ends_silent (by trivial) fun _ w₂ hq₂ => ?_
    have hroute : N.route (rec.nodeURL ++ lit "/setup") = none := hdown
    exact ends_post_down hroute (ends_ret ⟨⟨_, rfl⟩, hq₁.trans hq₂⟩)

/-! ## Circuits -/

/-- All hops of the circuit are up, each a node of its own. -/
def Net.Whole (N : Net ν) (circuit : CircuitResponse) (hops : Int) : Prop :=
  ∃ nodes, N.Circuit circuit hops nodes

/-- A hop of the circuit is down. -/
structure Net.Broken (N : Net ν) (circuit : CircuitResponse) (hops : Int) : Prop where
  known : ∀ rec ∈ circuitHops circuit hops, N.Up rec ∨ N.Down rec
  down : ∃ rec ∈ circuitHops circuit hops, N.Down rec

theorem map_candidates (circuit : CircuitResponse) (keys : SessionKeys) (hops : Int) :
    (candidates circuit keys hops).map Prod.fst = circuitHops circuit hops := by
  unfold candidates circuitHops
  split_ifs <;> rfl

/-- Every key of a circuit has the length of a session key. -/
theorem SessionKeys.Proper.length {keys : SessionKeys} {hops : Int} (h : keys.Proper hops)
    (circuit : CircuitResponse) : ∀ c ∈ candidates circuit keys hops, c.2.length = sessionKeySize := by
  unfold candidates
  split_ifs with h3
  · obtain ⟨hrelay, hexit⟩ := h.others h3
    simp [h.guardKey, hrelay, hexit]
  · simp [h.guardKey]

/-- The set-up stops at the first hop that is down. -/
theorem ends_setupCandidates_broken {circuitID : Bytes} (hcid : circuitID ≠ [])
    {cands : List (NodeRecord × Bytes)} (hlen : ∀ c ∈ cands, c.2.length = sessionKeySize)
    (hknown : ∀ c ∈ cands, N.Up c.1 ∨ N.Down c.1) (hbroken : ∃ c ∈ cands, N.Down c.1) :
    N.reliable.Ends (i, .client) (setupCandidates N.X circuitID cands) w
      fun r w' => (∃ err, r = .error err) ∧ Uncalled w w' := by
  -- induction on the hops; those before the first that is down get their keys
  induction cands generalizing w with
  | nil =>
    obtain ⟨c, hc, -⟩ := hbroken
    cases hc
  | cons c cands ih =>
    obtain ⟨rec, key⟩ := c
    unfold setupCandidates
    rcases hknown _ List.mem_cons_self with hup | hdown
    · obtain ⟨n, hn⟩ := hup
      obtain ⟨pub, hpub, hpair⟩ := hn.publicKey
      have hrest : ∃ c ∈ cands, N.Down c.1 := by
        obtain ⟨c, hc, hdown⟩ := hbroken
        rcases List.mem_cons.mp hc with rfl | hc
        · exact absurd hdown (Net.Up.not_down ⟨n, hn⟩)
        · exact ⟨c, hc, hdown⟩
      simp only [hpub]
      refine ends_bind (ends_sendSetupKey hn hcid (hlen _ List.mem_cons_self) hpair)
        fun r w₁ hr => ?_
      obtain ⟨rfl, hstored⟩ := hr
      refine (ih (fun c hc => hlen c (List.mem_cons_of_mem _ hc))
        (fun c hc => hknown c (List.mem_cons_of_mem _ hc)) hrest).weaken fun r w' hr => ?_
      exact ⟨hr.1, hstored.uncalled.trans hr.2⟩
    · cases parsePublicKey N.X rec.publicKey with
      | error err => exact ends_ret ⟨⟨_, rfl⟩, .refl w⟩
      | ok pub =>
        refine ends_bind (ends_sendSetupKey_down hdown circuitID pub key) fun r w₁ hr => ?_
        obtain ⟨⟨err, rfl⟩, hq⟩ := hr
        exact ends_ret ⟨⟨_, rfl⟩, hq.uncalled⟩

/-- An attempt on a circuit with a hop that is down is one to make again. -/
theorem ends_attempt_broken {c : Call} (hhops : validateHops c.hops = .ok ())
    (hcid : c.circuitID ≠ []) {circuit : CircuitResponse} (hbroken : N.Broken circuit c.hops) :
    N.reliable.Ends (i, .client) (attemptCircuit N.X c circuit) w
      fun r w' => (∃ err, r = .retry err) ∧ Uncalled w w' := by
  simp only [attemptCircuit, setupCircuitWithHops, hhops, bind_assoc]
  refine ends_bind (ends_generateKeys c.hops) fun keys w₁ hr => ?_
  obtain ⟨hproper, hq⟩ := hr
  have hmem (rec : NodeRecord) : rec ∈ circuitHops circuit c.hops ↔
      ∃ k, (rec, k) ∈ candidates circuit keys c.hops := by
    rw [← map_candidates circuit keys, List.mem_map]
    simp
  refine ends_bind (ends_setupCandidates_broken hcid (hproper.length circuit) ?_ ?_)
    fun r w₂ hr => ?_
  · intro cand hcand
    exact hbroken.known _ ((hmem cand.1).mpr ⟨cand.2, hcand⟩)
  · obtain ⟨rec, hrec, hdown⟩ := hbroken.down
    obtain ⟨k, hk⟩ := (hmem rec).mp hrec
    exact ⟨(rec, k), hk, hdown⟩
  · obtain ⟨⟨err, rfl⟩, hcalls⟩ := hr
    exact ends_ret ⟨⟨_, rfl⟩, hq.uncalled.trans hcalls⟩

/-! ## What a call fetches -/

/-- The URL at which the client asks for a circuit. -/
def circuitURL (directoryURL : Bytes) (hops : Int) : Bytes :=
  directoryURL ++ lit "/circuit?hops=" ++ Decimal.itoa hops

/-- What the client reads from the directory's answer. -/
def readCircuit (X : Externals) (directoryURL : Bytes) (hops : Int) :
    Result Response → Result CircuitResponse
  | .error err => .error (lit "GET " ++ circuitURL directoryURL hops ++ lit ": " ++ err)
  | .ok resp =>
    if resp.statusCode ≠ statusOK then
      .error (httpStatusError (lit "GET " ++ circuitURL directoryURL hops) resp)
    else
      match decodeStream (CircuitResponse.fields X) .zero resp.body with
      | none => .error (wrap "decode circuit response" (X.jsonError resp.body))
      | some circuit =>
        if circuit.guard.nodeID = [] then .error (lit "decode circuit response: guard node missing")
        else if hops = 3 ∧ (circuit.relay.nodeID = [] ∨ circuit.exit.nodeID = []) then
          .error (lit "decode circuit response: relay or exit node missing for 3-hop circuit")
        else .ok circuit

/-- Fetching is one request to the directory. -/
theorem getCircuit_eq {X : Externals} {hops : Int} (hhops : validateHops hops = .ok ())
    (directoryURL : Bytes) : getCircuitWithHops X directoryURL hops =
      .op (.httpGet (circuitURL directoryURL hops)) fun r =>
        .ret (readCircuit X directoryURL hops r) := by
  unfold getCircuitWithHops readCircuit
  rw [hhops]
  simp only [perform_eq, op_bind, ret_bind]
  congr 1
  funext r
  cases r with
  | error err => rfl
  | ok resp =>
    dsimp only
    by_cases hok : resp.statusCode ≠ statusOK
    · rw [if_pos hok, if_pos hok]
      rfl
    · rw [if_neg hok, if_neg hok]
      cases decodeStream (CircuitResponse.fields X) .zero resp.body with
      | none => rfl
      | some circuit =>
        dsimp only
        split_ifs <;> rfl

/-- A request to the directory. -/
def Effect.Fetches : Effect → Prop
  | .httpGet _ => True
  | _ => False

/-- What a call has fetched, oldest first. -/
def fetchedCircuits (X : Externals) (c : Call) (τ : List (Interaction Effects)) :
    List (Result CircuitResponse) :=
  τ.filterMap fun
    | .op (.httpGet _) r => some (readCircuit X c.directoryURL c.hops r)
    | _ => none

section

variable {X : Externals} {c : Call}

theorem fetchedCircuits_append (τ₁ τ₂ : List (Interaction Effects)) :
    fetchedCircuits X c (τ₁ ++ τ₂) = fetchedCircuits X c τ₁ ++ fetchedCircuits X c τ₂ :=
  List.filterMap_append

/-- Nothing else is fetched. -/
theorem fetchedCircuits_of_within {τ : List (Interaction Effects)}
    (h : ∀ x ∈ τ, Interaction.Within (S := Effects) (fun e => ¬e.Fetches) (fun _ => True) x) :
    fetchedCircuits X c τ = [] := by
  unfold fetchedCircuits
  rw [List.filterMap_eq_nil_iff]
  intro x hx
  have hwithin := h x hx
  cases x with
  | rpc q r => rfl
  | op e x =>
    cases e with
    | httpGet url => exact absurd trivial hwithin
    | _ => rfl

theorem fetchedCircuits_get (url : Bytes) (r : Result Response) (τ : List (Interaction Effects)) :
    fetchedCircuits X c (.op (.httpGet url) r :: τ) =
      readCircuit X c.directoryURL c.hops r :: fetchedCircuits X c τ := rfl

theorem fetchedCircuits_mark (m : Milestone) (τ : List (Interaction Effects)) :
    fetchedCircuits X c (.op (.mark m) () :: τ) = fetchedCircuits X c τ := rfl

theorem not_fetches_plain (e : Effect) (h : e.Plain) : ¬e.Fetches := by
  cases e with
  | httpGet url => cases h
  | _ => exact id

/-- An attempt fetches no circuit. -/
theorem all_attempt_unfetched (circuit : CircuitResponse) :
    (attemptCircuit X c circuit).All (fun e : Effect => ¬e.Fetches) (fun _ => True)
      fun _ => True :=
  all_attemptCircuit (P := fun e : Effect => ¬e.Fetches) (R := fun _ => True)
    ⟨⟨not_fetches_plain, fun _ _ => id, fun _ _ => trivial⟩, fun _ => id, id,
      fun _ _ => trivial⟩ circuit

end

/-! ## The loop -/

/-- An operation whose answer does not matter. -/
theorem does_silent {α : Type} {ℓ : Loc ι ν} {e : Effect} (he : e.Silent) {k : e.Ans → Go α}
    {Q : List (Interaction Effects) → α → World ι ν → Prop}
    (h : ∀ a w', Quiet w w' → N.reliable.Does ℓ (k a) w' fun τ b w₁ => Q (.op e a :: τ) b w₁) :
    N.reliable.Does ℓ (.op e k) w Q :=
  does_op (h _ _ (quiet_act he ℓ w))

/-- A request to the directory. -/
theorem does_fetch {α : Type} {ℓ : Loc ι ν} {url : Bytes} {k : Result Response → Go α}
    {Q : List (Interaction Effects) → α → World ι ν → Prop}
    (h : ∀ w', Quiet w w' → N.reliable.Does ℓ (k ((w.choice ℓ).get url)) w'
      fun τ b w₁ => Q (.op (.httpGet url) ((w.choice ℓ).get url) :: τ) b w₁) :
    N.reliable.Does ℓ (.op (.httpGet url) k) w Q :=
  does_op (h _ (quiet_act (by trivial) ℓ w))

/-- One event for each attempt after the first. -/
theorem ends_beginRebuild {ℓ : Loc ι ν} (attempt maxAttempts : Int) (events : List RebuildEvent)
    (lastErr : Option Bytes) (lastCircuit : Option CircuitResponse) :
    N.reliable.Ends ℓ (beginRebuild attempt maxAttempts events lastErr lastCircuit) w
      fun events' w' =>
        events'.length = (if attempt > 1 then events.length + 1 else events.length) ∧
          Quiet w w' := by
  unfold beginRebuild
  split_ifs
  · simp only [perform_eq, logPrintf_eq, op_bind, ret_bind, pure_eq]
    refine ends_silent (by trivial) fun _ w₁ hq₁ => ?_
    refine ends_silent (by trivial) fun _ w₂ hq₂ => ends_ret ⟨by simp, hq₁.trans hq₂⟩
  · exact ends_ret ⟨rfl, .refl w⟩

theorem ends_finishRebuild {ℓ : Loc ι ν} (success : Bool) (events : List RebuildEvent) :
    N.reliable.Ends ℓ (finishRebuild success events) w
      fun events' w' => events'.length = events.length ∧ Quiet w w' := by
  unfold finishRebuild
  cases hlast : events.getLast? with
  | none => exact ends_ret ⟨rfl, .refl w⟩
  | some evt =>
    have hne : events ≠ [] := by
      rintro rfl
      cases hlast
    have hpos := List.length_pos_iff.mpr hne
    simp only [perform_eq, op_bind, ret_bind, pure_eq]
    refine ends_silent (by trivial) fun _ w₁ hq₁ => ?_
    refine ends_silent (by trivial) fun _ w₂ hq₂ => ends_ret ⟨?_, hq₁.trans hq₂⟩
    simp only [List.length_append, List.length_dropLast, List.length_singleton]
    omega

/-- The assumptions on a call that its circuits do not matter to. -/
structure Call.Ready (c : Call) (N : Net ν) : Prop where
  hops : c.hops = 1 ∨ c.hops = 3
  circuitID : c.circuitID ≠ []
  text : c.exitLayer.Text
  executable : c.exitLayer.Executable N.X
  headers : c.exitLayer.DistinctHeaders

/-- An attempt over hops that are all up is answered by the destination. -/
theorem ends_attempt_whole (hX : N.X.LawfulAEAD) {c : Call} (hc : c.Ready N)
    {D : DestRequest → DestResponse}
    (hD : ∀ n m req, (w.oracle (i, .node n) m).dest req = .answered (D req))
    {circuit : CircuitResponse} (hwhole : N.Whole circuit c.hops) :
    N.reliable.Ends (i, .client) (attemptCircuit N.X c circuit) w fun r w' =>
      ∃ resp, r = .done resp ∧ CalledOnce w w' i c.exitLayer (D c.exitLayer.request) ∧
        resp.statusCode = (D c.exitLayer.request).statusCode ∧
        resp.body = (D c.exitLayer.request).body := by
  obtain ⟨nodes, hcircuit⟩ := hwhole
  have hends := ends_attemptCircuit hX hc.hops hcircuit hc.circuitID
    (hc.text.coerced.symm ▸ hc.executable) fun m k req => ⟨_, hD m k req⟩
  refine hends.weaken fun r w' hr => ?_
  obtain ⟨resp, m, req, rfl, ⟨order, hperm, rfl⟩, ⟨k, hresp⟩, hcalls⟩ := hr
  rw [hc.text.coerced] at hperm hresp hcalls
  rw [hc.headers.request hperm] at hresp hcalls
  obtain rfl : D c.exitLayer.request = resp := by
    rw [hD, DestOutcome.answered.injEq] at hresp
    exact hresp
  exact ⟨_, rfl, hcalls, rfl, rfl⟩

/-- How a call with `left` attempts ends, after `past` attempts, by the
    circuits it fetches. -/
inductive Masks (N : Net ν) (c : Call) (D : DestRequest → DestResponse) (i : ι)
    (past left : Nat) (w w' : World ι ν) :
    List (Result CircuitResponse) → Result CircuitResult → Prop
  /-- The first circuit that is whole is served. -/
  | served (failed : List CircuitResponse) {circuit : CircuitResponse} {result : CircuitResult} :
      failed.length < left → (∀ x ∈ failed, N.Broken x c.hops) → N.Whole circuit c.hops →
      CalledOnce w w' i c.exitLayer (D c.exitLayer.request) →
      result.response.statusCode = (D c.exitLayer.request).statusCode →
      result.response.body = (D c.exitLayer.request).body →
      result.rebuildEvents.length = past + failed.length →
      Masks N c D i past left w w' (failed.map .ok ++ [.ok circuit]) (.ok result)
  /-- The directory has no circuit. -/
  | refused (failed : List CircuitResponse) {err : Bytes} :
      failed.length < left → (∀ x ∈ failed, N.Broken x c.hops) → Uncalled w w' →
      Masks N c D i past left w w' (failed.map .ok ++ [.error err])
        (.error (wrap "get circuit from directory server" err))
  /-- All attempts are used up. -/
  | exhausted (failed : List CircuitResponse) (lastErr : Bytes) :
      failed.length = left → (∀ x ∈ failed, N.Broken x c.hops) → Uncalled w w' →
      Masks N c D i past left w w' (failed.map .ok)
        (.error (lit "all " ++ Decimal.itoa c.attempts ++ lit " circuit attempts failed: " ++
          lastErr))

namespace Masks

variable {c : Call} {D : DestRequest → DestResponse} {past left : Nat} {w w₁ w' : World ι ν}
  {fetched : List (Result CircuitResponse)} {r : Result CircuitResult}

omit [DecidableEq ν] in
/-- One more circuit that is broken, before all others. -/
theorem cons {circuit : CircuitResponse} (hbroken : N.Broken circuit c.hops)
    (hcalls : Uncalled w w₁) (h : Masks N c D i (past + 1) left w₁ w' fetched r) :
    Masks N c D i past (left + 1) w w' (.ok circuit :: fetched) r := by
  have hall {failed : List CircuitResponse} (hfailed : ∀ x ∈ failed, N.Broken x c.hops) :
      ∀ x ∈ circuit :: failed, N.Broken x c.hops := List.forall_mem_cons.mpr ⟨hbroken, hfailed⟩
  cases h with
  | @served failed whole result hlt hfailed hwhole honce hstatus hbody hevents =>
    refine .served (circuit :: failed) ?_ (hall hfailed) hwhole ?_ hstatus hbody ?_
    · rw [List.length_cons]
      omega
    · unfold CalledOnce at honce ⊢
      rw [honce, hcalls.calls]
    · rw [hevents, List.length_cons]
      omega
  | @refused failed err hlt hfailed hquiet =>
    refine .refused (circuit :: failed) ?_ (hall hfailed) (hcalls.trans hquiet)
    rw [List.length_cons]
    omega
  | @exhausted failed lastErr hlen hfailed hquiet =>
    refine .exhausted (circuit :: failed) lastErr ?_ (hall hfailed)
      (hcalls.trans hquiet)
    rw [List.length_cons, hlen]

end Masks

variable {c : Call} {D : DestRequest → DestResponse}

/-- Every circuit the directory hands out to the client is whole or broken. -/
def Net.KnownCircuits (N : Net ν) (c : Call) (w : World ι ν) (i : ι) : Prop :=
  ∀ k circuit, readCircuit N.X c.directoryURL c.hops
      ((w.oracle (i, .client) k).get (circuitURL c.directoryURL c.hops)) = .ok circuit →
    N.Whole circuit c.hops ∨ N.Broken circuit c.hops

/-- What the client reads from some answer the directory has in store. -/
def InStore (X : Externals) (c : Call) (w : World ι ν) (i : ι) (x : Result CircuitResponse) : Prop :=
  ∃ k, x = readCircuit X c.directoryURL c.hops
    ((w.oracle (i, .client) k).get (circuitURL c.directoryURL c.hops))

/-- The loop, at the head of an attempt. -/
theorem does_runAttempts (hX : N.X.LawfulAEAD) (hc : c.Ready N) (left past : Nat)
    (events : List RebuildEvent) (lastErr : Option Bytes) (lastCircuit : Option CircuitResponse)
    (hevents : events.length = past - 1) {w : World ι ν}
    (hD : ∀ n m req, (w.oracle (i, .node n) m).dest req = .answered (D req))
    (hdir : N.KnownCircuits c w i) :
    N.reliable.Does (i, .client)
      (runAttempts N.X c c.attempts left (past + 1) events lastErr lastCircuit) w
      fun τ r w' => Masks N c D i past left w w' (fetchedCircuits N.X c τ) r ∧
        ∀ x ∈ fetchedCircuits N.X c τ, InStore N.X c w i x := by
  have hvalid : validateHops c.hops = .ok () := if_pos hc.hops
  -- induction on the attempts left; the circuits of the past do not matter
  induction left generalizing past events lastErr lastCircuit w with
  | zero => exact does_ret ⟨.exhausted [] _ rfl (by simp) (.refl w),
      by simp [fetchedCircuits]⟩
  | succ left ih =>
    unfold runAttempts
    have hbegin := (ends_beginRebuild (N := N) (ℓ := (i, Place.client)) (w := w) (past + 1)
      c.attempts events lastErr lastCircuit).does
        (all_beginRebuild (R := fun _ => True) not_fetches_plain _ _ _ _ _)
    refine does_bind hbegin fun τ₁ events₁ w₁ hr => ?_
    obtain ⟨⟨hevents₁, hq₁⟩, hunfetched₁⟩ := hr
    have hopen : events₁.length = past := by
      rw [hevents₁, hevents]
      split_ifs <;> omega
    simp only [getCircuit_eq hvalid, perform_eq, op_bind, ret_bind]
    refine does_silent (by trivial) fun _ w₂ hq₂ => ?_
    refine does_fetch fun w₃ hq₃ => ?_
    have hq := (hq₁.trans hq₂).trans hq₃
    -- the answer is the one the outside has decided on
    have hanswer := hdir (w₂.used (i, .client))
    have hstore : InStore N.X c w i (readCircuit N.X c.directoryURL c.hops
        ((w₂.choice (i, .client)).get (circuitURL c.directoryURL c.hops))) :=
      ⟨w₂.used (i, .client), by rw [← (hq₁.trans hq₂).oracle]; rfl⟩
    rw [← (hq₁.trans hq₂).oracle] at hanswer
    rw [show w₂.oracle (i, .client) (w₂.used (i, .client)) = w₂.choice (i, .client) from rfl]
      at hanswer
    cases hread : readCircuit N.X c.directoryURL c.hops
        ((w₂.choice (i, .client)).get (circuitURL c.directoryURL c.hops)) with
    | error err =>
      refine does_ret ?_
      rw [fetchedCircuits_append, fetchedCircuits_of_within hunfetched₁, List.nil_append,
        fetchedCircuits_mark, fetchedCircuits_get, hread]
      rw [hread] at hstore
      exact ⟨.refused [] (Nat.succ_pos left) (by simp) hq.uncalled,
        by simpa [fetchedCircuits] using hstore⟩
    | ok circuit =>
      rw [hread] at hstore
      have hfetched (τ₂ τ₃ τ₄ : List (Interaction Effects))
          (h₂ : ∀ x ∈ τ₂, Interaction.Within (S := Effects) (fun e => ¬e.Fetches) (fun _ => True) x)
          (h₃ : ∀ x ∈ τ₃, Interaction.Within (S := Effects) (fun e => ¬e.Fetches) (fun _ => True) x) :
          fetchedCircuits N.X c (τ₁ ++ .op (.mark .attempt) () ::
            .op (.httpGet (circuitURL c.directoryURL c.hops))
              ((w₂.choice (i, .client)).get (circuitURL c.directoryURL c.hops)) ::
            (τ₂ ++ .op (.mark .ended) () :: (τ₃ ++ τ₄))) =
          .ok circuit :: fetchedCircuits N.X c τ₄ := by
        simp only [fetchedCircuits_append, fetchedCircuits_mark, fetchedCircuits_get,
          fetchedCircuits_of_within hunfetched₁, fetchedCircuits_of_within h₂,
          fetchedCircuits_of_within h₃, hread, List.nil_append]
      rcases hanswer circuit hread with hwhole | hbroken
      · -- the attempt succeeds, and ends the call
        have hattempt := (ends_attempt_whole (i := i) hX hc (fun n m req => hq.oracle ▸ hD n m req)
          hwhole).does (all_attempt_unfetched circuit)
        refine does_bind hattempt fun τ₂ out w₄ hr => ?_
        obtain ⟨⟨resp, rfl, honce, hstatus, hbody⟩, hunfetched₂⟩ := hr
        refine does_silent (by trivial) fun _ w₅ hq₅ => ?_
        have hfinish := (ends_finishRebuild (N := N) (ℓ := (i, Place.client)) (w := w₅) true
          events₁).does (all_finishRebuild (R := fun _ => True)
            not_fetches_plain true events₁)
        refine does_bind hfinish fun τ₃ events₂ w₆ hr => does_ret ?_
        obtain ⟨⟨hevents₂, hq₆⟩, hunfetched₃⟩ := hr
        rw [hfetched τ₂ τ₃ [] hunfetched₂ hunfetched₃]
        refine ⟨?_, by simpa [fetchedCircuits] using hstore⟩
        refine .served [] (Nat.succ_pos left) (by simp) hwhole ?_ hstatus hbody ?_
        · unfold CalledOnce at honce ⊢
          rw [hq₆.calls, hq₅.calls, honce, hq.calls]
        · rw [hevents₂, hopen]
          rfl
      · -- the attempt fails, and another one follows
        have hattempt := (ends_attempt_broken (i := i) (w := w₃) hvalid hc.circuitID hbroken).does
          (all_attempt_unfetched circuit)
        refine does_bind hattempt fun τ₂ out w₄ hr => ?_
        obtain ⟨⟨⟨err, rfl⟩, hcalls⟩, hunfetched₂⟩ := hr
        refine does_silent (by trivial) fun _ w₅ hq₅ => ?_
        have hfinish := (ends_finishRebuild (N := N) (ℓ := (i, Place.client)) (w := w₅) false
          events₁).does (all_finishRebuild (R := fun _ => True)
            not_fetches_plain false events₁)
        refine does_bind hfinish fun τ₃ events₂ w₆ hr => ?_
        obtain ⟨⟨hevents₂, hq₆⟩, hunfetched₃⟩ := hr
        have hpast := hq.uncalled.trans (hcalls.trans (hq₅.trans hq₆).uncalled)
        have hknown : N.KnownCircuits c w₆ i := by
          unfold Net.KnownCircuits
          rw [hpast.oracle]
          exact hdir
        have hnext := ih (past + 1) events₂ (some err) (some circuit)
          (by rw [hevents₂, hopen, Nat.add_sub_cancel]) (hpast.oracle ▸ hD) hknown
        rw [Nat.cast_add, Nat.cast_one] at hnext
        refine hnext.weaken fun τ₄ r w' hr => ?_
        obtain ⟨hmasks, hrest⟩ := hr
        unfold InStore at hrest
        rw [hpast.oracle] at hrest
        rw [hfetched τ₂ τ₃ τ₄ hunfetched₂ hunfetched₃]
        exact ⟨hmasks.cons hbroken hpast, List.forall_mem_cons.mpr ⟨hstore, hrest⟩⟩

/-- The whole call. -/
theorem does_execute (hX : N.X.LawfulAEAD) (hc : c.Ready N) {w : World ι ν}
    (hD : ∀ n m req, (w.oracle (i, .node n) m).dest req = .answered (D req))
    (hdir : N.KnownCircuits c w i) :
    N.reliable.Does (i, .client) (executeRequestWithRebuildTracking N.X c) w
      fun τ r w' => Masks N c D i 0 c.attempts.toNat w w' (fetchedCircuits N.X c τ) r ∧
        ∀ x ∈ fetchedCircuits N.X c τ, InStore N.X c w i x := by
  unfold executeRequestWithRebuildTracking
  rw [show validateHops c.hops = .ok () from if_pos hc.hops]
  exact does_runAttempts hX hc _ 0 [] none none rfl hD hdir

/-- **Fault masking**: over a network in which any nodes may be down, a call
    ends as the circuits it fetches say. The first that is whole is served,
    by one call of the destination with the request of the exit layer, and
    each one before it leaves a rebuild event; if there is none within the
    attempts, or the directory has no circuit, the destination is not
    called. -/
theorem faults_masked (hX : N.X.LawfulAEAD) (hc : c.Ready N) {w : World ι ν}
    (hD : ∀ n m req, (w.oracle (i, .node n) m).dest req = .answered (D req))
    (hdir : N.KnownCircuits c w i) : ∃ τ r w',
      N.reliable.Traces (i, .client) (executeRequestWithRebuildTracking N.X c) w τ r w' ∧
      Masks N c D i 0 c.attempts.toNat w w' (fetchedCircuits N.X c τ) r := by
  refine (does_execute hX hc hD hdir).imp fun τ h => ?_
  obtain ⟨r, w', htrace, hmasks, -⟩ := h
  exact ⟨r, w', htrace, hmasks⟩

namespace Sample

/-- A relay that has been gone for a while. -/
def gone : NodeRecord := ⟨lit "x", [], lit "x", 1, lit "x", NodeRecord.zeroTime, []⟩

def brokenCircuit : CircuitResponse := ⟨record .guard, gone, record .exit⟩

theorem broken : net.Broken brokenCircuit 3 := by
  have hgone : net.Down gone := by
    unfold Net.Down
    decide
  refine ⟨?_, gone, by simp [circuitHops, brokenCircuit], hgone⟩
  intro rec hrec
  have hrec : rec ∈ [record .guard, gone, record .exit] := hrec
  simp only [List.mem_cons, List.not_mem_nil, or_false] at hrec
  rcases hrec with rfl | rfl | rfl
  · exact .inl ⟨_, honest .guard⟩
  · exact .inr hgone
  · exact .inl ⟨_, honest .exit⟩

/-- The directory learns of it after the first request. -/
def faltering : World Unit Node :=
  { start with oracle := fun _ m => { choice m with
      get := fun _ => .ok (directory (if m < 2 then brokenCircuit else Sample.circuit)) } }

/-- A call that may take a second circuit. -/
def patientCall : Call := { call with maxAttempts := 2 }

theorem patientCall_ready : patientCall.Ready net :=
  ⟨.inr rfl, by decide, layer_text, layer_executable, by
    unfold ExitLayer.DistinctHeaders
    decide⟩

theorem faltering_known : net.KnownCircuits patientCall faltering () := by
  intro k circuit hread
  have hwhole : readCircuit externals [] 3 (.ok (directory Sample.circuit)) = .ok Sample.circuit := by
    decide +kernel
  have hbroken : readCircuit externals [] 3 (.ok (directory brokenCircuit)) = .ok brokenCircuit := by
    decide +kernel
  by_cases hk : k < 2
  · have hget : readCircuit externals [] 3 (.ok (directory brokenCircuit)) = .ok circuit := by
      rw [← hread]
      simp only [faltering, if_pos hk]
      rfl
    rw [hbroken, Except.ok.injEq] at hget
    exact .inr (hget ▸ broken)
  · have hget : readCircuit externals [] 3 (.ok (directory Sample.circuit)) = .ok circuit := by
      rw [← hread]
      simp only [faltering, if_neg hk]
      rfl
    rw [hwhole, Except.ok.injEq] at hget
    exact .inl ⟨_, hget ▸ circuit_three⟩

end Sample

theorem faults_masked_sample : ∃ τ r w',
    Sample.net.reliable.Traces ((), .client)
      (executeRequestWithRebuildTracking Sample.externals Sample.patientCall) Sample.faltering τ r w' ∧
    Masks Sample.net Sample.patientCall (fun _ => Sample.response) () 0 2 Sample.faltering w'
      (fetchedCircuits Sample.externals Sample.patientCall τ) r :=
  faults_masked (N := Sample.net) (i := ()) Sample.lawfulAEAD Sample.patientCall_ready
    (fun _ _ _ => rfl) Sample.faltering_known

end HopVault
