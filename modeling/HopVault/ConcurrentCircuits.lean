import HopVault.Framework.Isolation
import HopVault.Footprint
import HopVault.Transparency

/-! # Circuits of many clients at once

    Clients with different circuit IDs share the nodes and nothing in the
    nodes: whatever is done for a client touches only the keys stored
    under its own circuit ID. In every interleaving a client that met no
    transport fault ends as it would have alone. -/

namespace HopVault

open Framework Framework.Json Framework.Utf8

variable {ι ν : Type}

/-! ## The part of a client -/

/-- Two worlds agree on what matters to client `i`, whose circuit ID is
    `circuitID`. -/
structure SameView (i : ι) (circuitID : Bytes) (v w : World ι ν) : Prop where
  keys : ∀ n, v.keys n circuitID = w.keys n circuitID
  calls : v.calls i = w.calls i
  faulty : v.faulty i = w.faulty i
  oracle : ∀ p, v.oracle (i, p) = w.oracle (i, p)
  used : ∀ p, v.used (i, p) = w.used (i, p)

namespace SameView

variable {i : ι} {circuitID : Bytes}

theorem refl (w : World ι ν) : SameView i circuitID w w :=
  ⟨fun _ => rfl, rfl, rfl, fun _ => rfl, fun _ => rfl⟩

theorem trans {u v w : World ι ν} (h₁ : SameView i circuitID u v) (h₂ : SameView i circuitID v w) :
    SameView i circuitID u w :=
  ⟨fun n => (h₁.keys n).trans (h₂.keys n), h₁.calls.trans h₂.calls, h₁.faulty.trans h₂.faulty,
    fun p => (h₁.oracle p).trans (h₂.oracle p), fun p => (h₁.used p).trans (h₂.used p)⟩

variable [DecidableEq ι] [DecidableEq ν]

omit [DecidableEq ι] [DecidableEq ν] in
theorem choice {v w : World ι ν} (h : SameView i circuitID v w) (p : Place ν) :
    v.choice (i, p) = w.choice (i, p) := by
  unfold World.choice
  rw [h.oracle p, h.used p]

/-- Using up a choice of a client's own. -/
theorem tick {v w : World ι ν} (h : SameView i circuitID v w) (p : Place ν) :
    SameView i circuitID (v.tick (i, p)) (w.tick (i, p)) := by
  refine ⟨h.keys, h.calls, h.faulty, h.oracle, fun p' => ?_⟩
  show Function.update v.used (i, p) _ _ = Function.update w.used (i, p) _ _
  by_cases hp : p' = p
  · rw [hp, Function.update_self, Function.update_self, h.used p]
  · have hne : (i, p') ≠ (i, p) := fun he => hp (Prod.ext_iff.mp he).2
    rw [Function.update_of_ne hne, Function.update_of_ne hne, h.used p']

/-- Using up a choice of another client. -/
theorem tick_other {j : ι} (hj : j ≠ i) (w : World ι ν) (p : Place ν) :
    SameView i circuitID w (w.tick (j, p)) := by
  refine ⟨fun _ => rfl, rfl, rfl, fun _ => rfl, fun p' => ?_⟩
  have hne : (i, p') ≠ (j, p) := fun he => hj (Prod.ext_iff.mp he).1.symm
  exact (Function.update_of_ne hne _ _).symm

end SameView

/-- An operation that touches key stores, if at all, under `circuitID`. -/
def Effect.Under (circuitID : Bytes) : Effect → Prop
  | .keysGet c => c = circuitID
  | .keysStore c _ => c = circuitID
  | _ => True

theorem Effect.Plain.under {e : Effect} (h : e.Plain) (circuitID : Bytes) : e.Under circuitID := by
  cases e <;> trivial

section

variable [DecidableEq ι] [DecidableEq ν]

/-- A client's own operation answers the same in worlds that agree. -/
theorem SameView.act {i : ι} {circuitID : Bytes} {v w : World ι ν} (h : SameView i circuitID v w)
    {e : Effect} (he : e.Under circuitID) (p : Place ν) :
    (World.act (i, p) e v).1 = (World.act (i, p) e w).1 ∧
      SameView i circuitID (World.act (i, p) e v).2 (World.act (i, p) e w).2 := by
  have hc := h.choice p
  have ht := h.tick p
  cases e with
  | keysGet c =>
    obtain rfl : c = circuitID := he
    refine ⟨?_, ht⟩
    cases p with
    | node n => exact h.keys n
    | client => rfl
    | nowhere => rfl
  | keysStore c k =>
    obtain rfl : c = circuitID := he
    refine ⟨rfl, ?_⟩
    cases p with
    | client => exact ht
    | nowhere => exact ht
    | node n =>
      refine ⟨fun m => ?_, ht.calls, ht.faulty, ht.oracle, ht.used⟩
      show Function.update v.keys n _ m c = Function.update w.keys n _ m c
      by_cases hm : m = n
      · rw [hm, Function.update_self, Function.update_self, Function.update_self,
          Function.update_self]
      · rw [Function.update_of_ne hm, Function.update_of_ne hm, h.keys m]
  | rand k => exact ⟨congrArg (fun x => x.rand k) hc, ht⟩
  | range m => exact ⟨congrArg (fun x => x.order m) hc, ht⟩
  | now => exact ⟨congrArg Choice.time hc, ht⟩
  | httpGet url => exact ⟨congrArg (fun x => x.get url) hc, ht⟩
  | fate => exact ⟨congrArg Choice.fate hc, ht⟩
  | log line => exact ⟨rfl, ht.keys, ht.calls, ht.faulty, ht.oracle, ht.used⟩
  | mark m => exact ⟨rfl, ht.keys, ht.calls, ht.faulty, ht.oracle, ht.used⟩
  | accept ep a b =>
    refine ⟨rfl, ?_⟩
    cases p <;> exact ⟨ht.keys, ht.calls, ht.faulty, ht.oracle, ht.used⟩
  | clientDo req =>
    have hdest : (v.choice (i, p)).dest req = (w.choice (i, p)).dest req := by rw [hc]
    refine ⟨hdest, ht.keys, ?_, ht.faulty, ht.oracle, ht.used⟩
    show Function.update v.calls i (v.calls i ++ [(req, (v.choice (i, p)).dest req)]) i =
      Function.update w.calls i (w.calls i ++ [(req, (w.choice (i, p)).dest req)]) i
    rw [Function.update_self, Function.update_self, h.calls, hdest]

/-- An operation for another client leaves a client's part alone. -/
theorem SameView.act_other {i j : ι} (hj : j ≠ i) {circuitID other : Bytes} (hc : other ≠ circuitID)
    {e : Effect} (he : e.Under other) (p : Place ν) (w : World ι ν) :
    SameView i circuitID w (World.act (j, p) e w).2 := by
  have ht : SameView i circuitID w (w.tick (j, p)) := tick_other hj w p
  cases e with
  | keysStore c k =>
    obtain rfl : c = other := he
    cases p with
    | client => exact ht
    | nowhere => exact ht
    | node n =>
      refine ⟨fun m => ?_, ht.calls, ht.faulty, ht.oracle, ht.used⟩
      show w.keys m circuitID = Function.update w.keys n _ m circuitID
      by_cases hm : m = n
      · rw [hm, Function.update_self, Function.update_of_ne hc.symm]
        rfl
      · rw [Function.update_of_ne hm]
  | clientDo req =>
    refine ⟨ht.keys, ?_, ht.faulty, ht.oracle, ht.used⟩
    exact (Function.update_of_ne hj.symm _ _).symm
  | accept ep a b =>
    cases p <;> exact ⟨ht.keys, ht.calls, ht.faulty, ht.oracle, ht.used⟩
  | _ => exact ⟨ht.keys, ht.calls, ht.faulty, ht.oracle, ht.used⟩

/-- No operation reports or forgets a fault. -/
theorem faulty_act (ℓ : Loc ι ν) (e : Effect) (w : World ι ν) :
    (World.act ℓ e w).2.faulty = w.faulty := by
  cases e with
  | keysStore c k => obtain ⟨i, p⟩ := ℓ; cases p <;> rfl
  | accept ep a b => obtain ⟨i, p⟩ := ℓ; cases p <;> rfl
  | _ => rfl

/-! ## Isolation -/

/-- Every client with its part of the world: its own records, and the keys
    stored under its circuit ID. -/
def circuitIsolation (N : Net ν) (circuitID : ι → Bytes) :
    Isolation (N.asynchronous (ι := ι)) ι where
  owner := Prod.fst
  agree i := SameView i (circuitID i)
  clean i w := w.faulty i = false
  opOk i e := e.Under (circuitID i)
  reqOk i q := NamesCircuit q.body (circuitID i)

variable {N : Net ν}

omit [DecidableEq ν] in
/-- A node that serves a request for a circuit keeps to that circuit. -/
theorem footprint_under {n : ν} {endpoint : Endpoint} {body circuitID : Bytes}
    (hvalid : Valid circuitID) (h : NamesCircuit body circuitID) :
    N.Footprint n endpoint body (Effect.Under circuitID)
      (fun q => NamesCircuit q.body circuitID) where
  plain _ he := he.under circuitID
  dest _ _ := trivial
  answer _ _ _ := trivial
  get _ r hr := h.onion r hr
  setup _ r _ _ hr _ _ _ := h.setup r hr
  key _ r _ hr _ _ := h.key r hr
  forward _ r _ payload hr _ := by
    have hbody := namesCircuit_onionRequest ⟨r.circuitID, payload⟩
    have htext : toValid r.circuitID = circuitID := by
      rw [h.onion r hr]
      exact hvalid
    rwa [htext] at hbody

theorem circuitIsolation_lawful {circuitID : ι → Bytes} (hvalid : ∀ i, Valid (circuitID i))
    (hinj : Function.Injective circuitID) : (circuitIsolation N circuitID).Lawful where
  refl _ := .refl
  trans := .trans
  act_own he h := h.act he _
  act_other he hne := .act_other hne (fun h => hne (hinj h)) he _ _
  act_clean {ℓ e w} _ hc := by
    have hc : (World.act ℓ e w).2.faulty ℓ.1 = false := hc
    rwa [faulty_act] at hc
  giveUp_own ℓ w hc := by
    have hc : Function.update w.faulty ℓ.1 true ℓ.1 = false := hc
    rw [Function.update_self] at hc
    cases hc
  giveUp_other {i ℓ w} hne := by
    have ht : SameView i (circuitID i) w (w.tick ℓ) := .tick_other hne w ℓ.2
    exact ⟨ht.keys, ht.calls, (Function.update_of_ne hne.symm _ _).symm, ht.oracle, ht.used⟩
  agree_clean h hc := h.faulty.trans hc
  serve_owner ℓ q := by
    show (N.serve ℓ q).1.1 = ℓ.1
    unfold Net.serve
    split <;> rfl
  serve_only {ℓ q} hq := by
    show (N.serve ℓ q).2.All _ _ _
    unfold Net.serve
    split
    · rename_i n endpoint _
      simp only [Net.serveAt, perform_eq, Prog.op_bind, Prog.ret_bind, Prog.pure_eq]
      have hnode : N.Footprint n endpoint q.body _ _ := footprint_under (hvalid ℓ.1) hq
      exact ⟨trivial, fun _ => Prog.all_bind (Net.all_handle hnode _ _) fun _ _ => trivial⟩
    · trivial

omit [DecidableEq ν] in
/-- A client keeps to its circuit ID. -/
theorem clientFootprint_under {circuitID : Bytes} (hvalid : Valid circuitID) :
    ClientFootprint N.X circuitID (Effect.Under circuitID)
      (fun q => NamesCircuit q.body circuitID) where
  plain _ he := he.under circuitID
  posting _ _ := trivial
  established _ := trivial
  sending := trivial
  setup _ ct := by
    have htext : toValid circuitID = circuitID := hvalid
    have hbody := namesCircuit_keySetupRequest circuitID ct
    rwa [htext] at hbody
  onion _ payload := by
    have htext : toValid circuitID = circuitID := hvalid
    have hbody := namesCircuit_onionRequest ⟨circuitID, payload⟩
    rwa [htext] at hbody

/-! ## Concurrent exchanges -/

/-- No step but those of the clients and of the nodes they call. -/
def Undisturbed (_ _ : World ι ν) : Prop := False

/-- Clients with different circuit IDs over circuits of honest nodes, which
    may be shared, and exit layers the exits can execute. -/
structure Clients (N : Net ν) (call : ι → Call) (circuit : ι → CircuitResponse)
    (nodes : ι → List ν) : Prop where
  hops : ∀ i, (call i).hops = 1 ∨ (call i).hops = 3
  circuit : ∀ i, N.Circuit (circuit i) (call i).hops (nodes i)
  nonempty : ∀ i, (call i).circuitID ≠ []
  valid : ∀ i, Valid (call i).circuitID
  distinct : Function.Injective fun i => (call i).circuitID
  text : ∀ i, (call i).exitLayer.Text
  executable : ∀ i, (call i).exitLayer.Executable N.X

/-- The clients before they set up their circuits. -/
def startClients (N : Net ν) (call : ι → Call) (circuit : ι → CircuitResponse) (w : World ι ν) :
    Config Effects (Loc ι ν) (World ι ν) ι Outcome :=
  Isolation.start w (fun i => (i, .client)) fun i => attemptCircuit N.X (call i) (circuit i)

/-- **Circuit isolation**: in every interleaving of the set-ups, forwards,
    destination calls and answers of all clients, a client whose exchange
    is over and met no transport fault has the destination's answer to its
    own exit layer. -/
theorem circuits_isolated (hX : N.X.LawfulAEAD) {call : ι → Call} {circuit : ι → CircuitResponse}
    {nodes : ι → List ν} (hclients : Clients N call circuit nodes) {w₀ : World ι ν}
    (hdest : ∀ i m, Answering w₀ i m) {c : Config Effects (Loc ι ν) (World ι ν) ι Outcome}
    (hreach : Config.Reaches N.asynchronous Undisturbed (startClients N call circuit w₀) c) {i : ι}
    (hclean : c.world.faulty i = false) {out : Outcome} (hres : (c.main i).result? = some out) :
    ∃ resp order m k, out = .done (exitResponse resp).coerced ∧
      order.Perm (call i).exitLayer.headers.entries ∧
      (w₀.oracle (i, .node m) k).dest (destRequest (call i).exitLayer order) = .answered resp ∧
      c.world.calls i = w₀.calls i ++
        [(destRequest (call i).exitLayer order, .answered resp)] := by
  -- what the client would get by itself
  have hsolo := ends_attemptCircuit hX (hclients.hops i) (hclients.circuit i) (hclients.nonempty i)
    ((hclients.text i).coerced.symm ▸ hclients.executable i) (hdest i)
  obtain ⟨alone, wf, hret, resp, m, req, rfl, ⟨order, hperm, rfl⟩, ⟨k, hresp⟩, hcalls⟩ := hsolo
  rw [(hclients.text i).coerced] at hperm hresp hcalls
  -- and what it gets among the others
  have hlawful := circuitIsolation_lawful (N := N) hclients.valid hclients.distinct
  obtain ⟨hout, hview⟩ := Isolation.isolated hlawful (fun _ _ h => h.elim) (fun _ => rfl)
    (fun j => all_attemptCircuit (clientFootprint_under (hclients.valid j)) (circuit j)) hreach hclean
    hres hret
  refine ⟨resp, order, m, k, hout, hperm, hresp, ?_⟩
  have hsame : wf.calls i = c.world.calls i := hview.calls
  rw [← hsame, hcalls, Function.update_self]

end

/-! ## Two clients of the sample -/

/-- The calls of two clients over the same three nodes. -/
def Sample.clientCall (b : Bool) : Call :=
  { Sample.call with circuitID := if b then lit "c1" else lit "c2" }

theorem Sample.clients : Clients Sample.net Sample.clientCall (fun _ => Sample.circuit)
    (fun _ => [.guard, .relay, .exit]) where
  hops _ := .inr rfl
  circuit _ := Sample.circuit_three
  nonempty b := by cases b <;> decide
  valid b := by cases b <;> (show toValid _ = _; decide +kernel)
  distinct := by
    intro a b h
    revert h
    cases a <;> cases b <;> decide
  text _ := Sample.layer_text
  executable _ := Sample.layer_executable

/-- In turns, one move each, both clients get through. -/
theorem circuits_isolated_sample : ∃ c resp,
    Config.Reaches Sample.net.asynchronous Undisturbed
      (startClients Sample.net Sample.clientCall (fun _ => Sample.circuit) Sample.start) c ∧
    (c.main true).result? = some (.done (exitResponse resp).coerced) := by
  let moves : List (Move Bool) := (List.range 51).flatMap fun _ => [.main true, .main false]
  have hplay : ((startClients Sample.net Sample.clientCall (fun _ => Sample.circuit)
      Sample.start).play Sample.net.asynchronous moves).map
        (fun c => ((c.main true).result?.isSome, c.world.faulty true)) = some (true, false) := by
    decide +kernel
  obtain ⟨c, hc, hres⟩ := Option.map_eq_some_iff.mp hplay
  obtain ⟨hsome, hclean⟩ := Prod.ext_iff.mp hres
  obtain ⟨out, hout⟩ := Option.isSome_iff_exists.mp hsome
  have hreach := Config.reaches_of_play (E := Undisturbed) hc
  obtain ⟨resp, order, m, k, rfl, -⟩ := circuits_isolated Sample.lawfulAEAD Sample.clients
    (fun _ _ _ _ => ⟨_, rfl⟩) hreach hclean hout
  exact ⟨c, resp, hreach, hout⟩

end HopVault
