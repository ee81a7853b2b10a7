import HopVault.Observation
import HopVault.ExitPaths
import HopVault.Transparency

/-! # Secrecy of the destination

    Guard and relay learn nothing of the destination. Two exchanges over
    the same circuit, with the same keys and nonces, may carry different
    exit layers and get different answers from the destination: as long as
    the exit's answers do not differ openly, all that the guard and all
    that the relay observes looks the same.

    The two runs are compared step by step. They go the same way at every
    place but the exit, and what differs in them is always sealed under the
    exit's key. -/

namespace HopVault

open Framework Framework.Json Framework.Prog Framework.Semantics Framework.Utf8

/-! ## Wires -/

/-- Where something happens: at a party, or with the transport of what it
    posts. -/
inductive Station (L : Type) where
  | party (ℓ : L)
  | wire (ℓ : L)
  deriving DecidableEq

/-- The transport carries a POST, or loses the request or the response. -/
def carry (q : Post) : Go (Result Response) := do
  match ← perform .fate with
  | .deliver => Prog.call (S := Effects) q
  | .loseRequest err => return .error err
  | .loseResponse err => do
    let _ ← Prog.call (S := Effects) q
    return .error err

section

variable {ι ν : Type} [DecidableEq ι] [DecidableEq ν]

/-- The network in which every exchange may fail. What a node does and
    answers is kept apart from what the transport makes of it. -/
def Net.wired (N : Net ν) : Semantics Effects (Station (Loc ι ν)) (World ι ν) where
  act
    | .party ℓ | .wire ℓ => World.act ℓ
  serve
    | .party ℓ, q => (.wire ℓ, carry q)
    | .wire ℓ, q => (.party (N.serve ℓ q).1, (N.serve ℓ q).2)

/-! ## What is observed -/

variable (X : Externals)

/-- What a node sees of an exchange it served: all its interactions, and
    what it answered. -/
def seeExchange (circuitID : Bytes) (keys : List Bytes) (depth : Nat)
    (x : ServedCall Effects (Station (Loc ι ν))) : List View × Result (Int × BodySight) :=
  (x.trace.map (view X circuitID keys depth), seeResult X keys depth x.answer)

/-- What a node has seen of the exchanges it served. -/
def observation (circuitID : Bytes) (keys : List Bytes) (depth : Nat) (ℓ : Loc ι ν)
    (xs : List (ServedCall Effects (Station (Loc ι ν)))) :
    List (List View × Result (Int × BodySight)) :=
  (xs.filter fun x => x.loc = .party ℓ).map (seeExchange X circuitID keys depth)

/-! ## Two runs -/

/-- The worlds are the same but for the keys of the exit, what the outside
    decides for it, and the records. -/
structure Twins (exit : ν) (w₁ w₂ : World ι ν) : Prop where
  keys : ∀ n ≠ exit, w₁.keys n = w₂.keys n
  oracle : ∀ ℓ : Loc ι ν, ℓ.2 ≠ .node exit → w₁.oracle ℓ = w₂.oracle ℓ
  used : ∀ ℓ : Loc ι ν, ℓ.2 ≠ .node exit → w₁.used ℓ = w₂.used ℓ

/-- The exit's answers do not differ openly: they are the same, or both
    bring a payload of the same length. -/
inductive AnswersAgree : Result Response → Result Response → Prop
  | same (r : Result Response) : AnswersAgree r r
  | answers {ct₁ ct₂ : Bytes} (h : ct₁.length = ct₂.length) :
      AnswersAgree (.ok (onionAnswer ct₁)) (.ok (onionAnswer ct₂))

/-- An exchange of the client: an onion is built for the exit layer, and
    sent to the guard. -/
def exchange (keys : SessionKeys) (exitLayer : ExitLayer) (circuit : CircuitResponse)
    (circuitID : Bytes) : Go (Result OnionResponse) := do
  let addrs := circuitHopAddresses circuit 3
  match ← buildOnionWithHops X keys exitLayer addrs.1 addrs.2 3 with
  | .error err => return .error err
  | .ok payload => sendOnion X circuit.guard.nodeURL circuitID payload

variable {X} {exit : ν} {u v w w₁ w₂ : World ι ν}

namespace Twins

omit [DecidableEq ι] [DecidableEq ν]

theorem symm (h : Twins exit w₁ w₂) : Twins exit w₂ w₁ :=
  ⟨fun n hn => (h.keys n hn).symm, fun ℓ hℓ => (h.oracle ℓ hℓ).symm,
    fun ℓ hℓ => (h.used ℓ hℓ).symm⟩

theorem trans (h₁ : Twins exit u v) (h₂ : Twins exit v w) : Twins exit u w :=
  ⟨fun n hn => (h₁.keys n hn).trans (h₂.keys n hn),
    fun ℓ hℓ => (h₁.oracle ℓ hℓ).trans (h₂.oracle ℓ hℓ),
    fun ℓ hℓ => (h₁.used ℓ hℓ).trans (h₂.used ℓ hℓ)⟩

end Twins

/-- An operation uses up one choice of its place, and decides nothing for the
    outside. -/
theorem act_choices (ℓ : Loc ι ν) (e : Effect) (w : World ι ν) :
    (World.act ℓ e w).2.oracle = w.oracle ∧
      (World.act ℓ e w).2.used = Function.update w.used ℓ (w.used ℓ + 1) := by
  obtain ⟨i, p⟩ := ℓ
  cases e with
  | keysStore c key => cases p <;> exact ⟨rfl, rfl⟩
  | accept endpoint peer body => cases p <;> exact ⟨rfl, rfl⟩
  | _ => exact ⟨rfl, rfl⟩

/-- It changes the keys of no other node. -/
theorem act_keys {ℓ : Loc ι ν} {n : ν} (hℓ : ℓ.2 ≠ .node n) (e : Effect) (w : World ι ν) :
    (World.act ℓ e w).2.keys n = w.keys n := by
  obtain ⟨i, p⟩ := ℓ
  cases e with
  | keysStore c key =>
    cases p with
    | client => rfl
    | nowhere => rfl
    | node m =>
      have hne : n ≠ m := fun h => hℓ (by rw [h])
      exact Function.update_of_ne hne _ _
  | accept endpoint peer body => cases p <;> rfl
  | _ => rfl

namespace Twins

omit [DecidableEq ι] [DecidableEq ν] in
theorem choice (h : Twins exit w₁ w₂) {ℓ : Loc ι ν} (hℓ : ℓ.2 ≠ .node exit) :
    w₁.choice ℓ = w₂.choice ℓ := by
  unfold World.choice
  rw [h.oracle ℓ hℓ, h.used ℓ hℓ]

/-- Operations that change the keys of the nodes alike keep worlds twins. -/
theorem step (h : Twins exit w₁ w₂) {ℓ : Loc ι ν} {e₁ e₂ : Effect}
    (hkeys : ∀ n ≠ exit, (World.act ℓ e₁ w₁).2.keys n = (World.act ℓ e₂ w₂).2.keys n) :
    Twins exit (World.act ℓ e₁ w₁).2 (World.act ℓ e₂ w₂).2 := by
  have h₁ := act_choices ℓ e₁ w₁
  have h₂ := act_choices ℓ e₂ w₂
  refine ⟨hkeys, ?_, ?_⟩
  · intro ℓ' hℓ'
    rw [h₁.1, h₂.1, h.oracle ℓ' hℓ']
  · intro ℓ' hℓ'
    rw [h₁.2, h₂.2]
    by_cases heq : ℓ' = ℓ
    · subst heq
      rw [Function.update_self, Function.update_self, h.used ℓ' hℓ']
    · rw [Function.update_of_ne heq, Function.update_of_ne heq, h.used ℓ' hℓ']

/-- The same operation, anywhere but at the exit. -/
theorem act (h : Twins exit w₁ w₂) {ℓ : Loc ι ν} (hℓ : ℓ.2 ≠ .node exit) (e : Effect) :
    (World.act ℓ e w₁).1 = (World.act ℓ e w₂).1 ∧
      Twins exit (World.act ℓ e w₁).2 (World.act ℓ e w₂).2 := by
  -- both worlds make the same choices away from the exit
  have hc := h.choice hℓ
  constructor
  · obtain ⟨i, p⟩ := ℓ
    cases e with
    | keysGet c =>
      cases p with
      | client => rfl
      | nowhere => rfl
      | node n => exact congrFun (h.keys n fun heq => hℓ (by rw [heq])) c
    | log | mark | accept | keysStore => rfl
    | rand n => exact congrArg (fun c : Choice => c.rand n) hc
    | range m => exact congrArg (fun c : Choice => c.order m) hc
    | clientDo req => exact congrArg (fun c : Choice => c.dest req) hc
    | now => exact congrArg Choice.time hc
    | httpGet url => exact congrArg (fun c : Choice => c.get url) hc
    | fate => exact congrArg Choice.fate hc
  · -- the only effect on a key table is to store a key, at the party's own node
    refine h.step fun n hn => ?_
    by_cases hat : ℓ.2 = .node n
    · obtain ⟨i, p⟩ := ℓ
      obtain rfl : p = .node n := hat
      cases e with
      | keysStore c key =>
        show Function.update w₁.keys n _ n = Function.update w₂.keys n _ n
        rw [Function.update_self, Function.update_self]
        show Function.update (w₁.keys n) c _ = Function.update (w₂.keys n) c _
        rw [h.keys n hn]
      | _ => exact h.keys n hn
    · rw [act_keys hat, act_keys hat, h.keys n hn]

/-- Messages that are not the same. -/
theorem accept (h : Twins exit w₁ w₂) (ℓ : Loc ι ν) (endpoint : Option Endpoint)
    (peer body₁ body₂ : Bytes) : Twins exit (World.act ℓ (.accept endpoint peer body₁) w₁).2
      (World.act ℓ (.accept endpoint peer body₂) w₂).2 := by
  refine h.step fun n hn => ?_
  obtain ⟨i, p⟩ := ℓ
  cases p <;> exact h.keys n hn

/-- What the exit does concerns the exit alone. -/
theorem exit_act (i : ι) (e : Effect) (w : World ι ν) :
    Twins exit w (World.act (i, .node exit) e w).2 := by
  have hact := act_choices (i, .node exit) e w
  refine ⟨?_, ?_, ?_⟩
  · intro n hn
    exact (act_keys (fun h => hn (by cases h; rfl)) e w).symm
  · intro ℓ hℓ
    rw [hact.1]
  · intro ℓ hℓ
    rw [hact.2, Function.update_of_ne fun h => hℓ (by rw [h])]

end Twins

/-! ## The comparison -/

variable (X) in
/-- Twin worlds are compared: whoever does not hold the key `k` sees the
    same at every node but the exit, if the exit's answers for the call
    agree. -/
def comparison (exit : ν) (k circuitID : Bytes) (i : ι) :
    Comparison Effects (Station (Loc ι ν)) (World ι ν) where
  worlds := Twins exit
  alike s x₁ x₂ := ∀ n ≠ exit, s = .party (i, .node n) → ∀ keys depth, k ∉ keys →
    view X circuitID keys depth x₁ = view X circuitID keys depth x₂
  exchanged x₁ x₂ := x₁.loc = x₂.loc ∧ ∀ n ≠ exit, x₁.loc = .party (i, .node n) →
    ∀ keys depth, k ∉ keys →
      seeExchange X circuitID keys depth x₁ = seeExchange X circuitID keys depth x₂
  given x₁ x₂ := x₁.loc = .party (i, .node exit) → x₂.loc = .party (i, .node exit) →
    AnswersAgree x₁.answer x₂.answer

variable {N : Net ν} {k circuitID : Bytes} {i : ι} {α : Type}

/-- A place that is not the exit. -/
def Station.Elsewhere (exit : ν) : Station (Loc ι ν) → Prop
  | .party ℓ | .wire ℓ => ℓ.2 ≠ .node exit

/-- The same operation on each side. -/
theorem lockstep_same_op {s : Station (Loc ι ν)} (hs : s.Elsewhere exit) {e : Effect}
    {f₁ f₂ : e.Ans → Go α} {Q : α → α → Prop}
    (hf : ∀ a, (comparison N.X exit k circuitID i).Lockstep N.wired s (f₁ a) (f₂ a) Q) :
    (comparison N.X exit k circuitID i).Lockstep N.wired s (.op e f₁) (.op e f₂) Q := by
  refine Comparison.lockstep_op (P := Eq) ?_ ?_
  · intro w₁ w₂ hw
    cases s with
    | party ℓ => exact Twins.act hw hs e
    | wire ℓ => exact Twins.act hw hs e
  · rintro a _ rfl
    exact ⟨fun _ _ _ _ _ _ => rfl, hf a⟩

/-- The same program on each side, if it makes no call. -/
theorem lockstep_same {s : Station (Loc ι ν)} (hs : s.Elsewhere exit) {p : Go α}
    {P : Effect → Prop} {T : α → Prop} (hp : p.All P (fun _ => False) T) {Q : α → α → Prop}
    (hQ : ∀ a, T a → Q a a) :
    (comparison N.X exit k circuitID i).Lockstep N.wired s p p Q := by
  induction p with
  | ret a => exact Comparison.lockstep_ret (hQ a hp)
  | op e f ih => exact lockstep_same_op hs fun a => ih a (hp.2 a)
  | rpc q f ih => exact hp.1.elim

/-- A message received on each side. -/
theorem lockstep_accept {s : Station (Loc ι ν)} {endpoint : Option Endpoint}
    {peer body₁ body₂ : Bytes} (hbody : ∀ keys depth, k ∉ keys →
      view N.X circuitID keys depth (.op (.accept endpoint peer body₁) ()) =
        view N.X circuitID keys depth (.op (.accept endpoint peer body₂) ()))
    {f₁ f₂ : Unit → Go α} {Q : α → α → Prop}
    (hf : (comparison N.X exit k circuitID i).Lockstep N.wired s (f₁ ()) (f₂ ()) Q) :
    (comparison N.X exit k circuitID i).Lockstep N.wired s
      (.op (.accept endpoint peer body₁) f₁) (.op (.accept endpoint peer body₂) f₂) Q := by
  refine Comparison.lockstep_op (P := fun _ _ => True) ?_ ?_
  · intro w₁ w₂ hw
    cases s with
    | party ℓ => exact ⟨trivial, Twins.accept hw ℓ endpoint peer body₁ body₂⟩
    | wire ℓ => exact ⟨trivial, Twins.accept hw ℓ endpoint peer body₁ body₂⟩
  · intro _ _ _
    exact ⟨fun _ _ _ => hbody, hf⟩

/-- The transport treats the two POSTs alike. -/
theorem served_carry {ℓ : Loc ι ν} (hℓ : ℓ.2 ≠ .node exit) {q₁ q₂ : Post}
    {R : Result Response → Result Response → Prop}
    (hcall : (comparison N.X exit k circuitID i).Served N.wired
      (.party (N.serve ℓ q₁).1, (N.serve ℓ q₁).2) (.party (N.serve ℓ q₂).1, (N.serve ℓ q₂).2) R)
    (hsame : ∀ r, R r r) : (comparison N.X exit k circuitID i).Served N.wired
      (N.wired.serve (.party ℓ) q₁) (N.wired.serve (.party ℓ) q₂) R := by
  have hwire : (Station.wire ℓ).Elsewhere exit := hℓ
  refine Comparison.served_of_lockstep (M := N.wired) (ℓ := .wire ℓ) (R := R) ?_ ?_
  · unfold carry
    -- the network decides the fate of a message alike in both runs
    refine lockstep_same_op hwire fun fate => ?_
    cases fate with
    | deliver =>
      refine Comparison.lockstep_rpc hcall fun r₁ r₂ hr => ⟨?_, Comparison.lockstep_ret hr⟩
      rintro n hn ⟨⟩
    | loseRequest err => exact Comparison.lockstep_ret (hsame _)
    | loseResponse err =>
      refine Comparison.lockstep_rpc hcall fun r₁ r₂ hr => ⟨?_, Comparison.lockstep_ret (hsame _)⟩
      rintro n hn ⟨⟩
  · intro τ₁ τ₂ r₁ r₂ _ _
    refine ⟨rfl, ?_⟩
    rintro n hn ⟨⟩

/-! ## Encryption -/

/-- Both fail with the same error, or the results are related by `R`. -/
inductive Matched (R : Bytes → Bytes → Prop) : Result Bytes → Result Bytes → Prop
  | error (err : Bytes) : Matched R (.error err) (.error err)
  | ok {ct₁ ct₂ : Bytes} (h : R ct₁ ct₂) : Matched R (.ok ct₁) (.ok ct₂)

/-- Two plaintexts are encrypted with the same nonce. -/
theorem lockstep_encrypt {s : Station (Loc ι ν)} (hs : s.Elsewhere exit)
    (key plaintext₁ plaintext₂ : Bytes) :
    (comparison N.X exit k circuitID i).Lockstep N.wired s (encrypt N.X key plaintext₁)
      (encrypt N.X key plaintext₂) (Matched fun ct₁ ct₂ => newCipher key = .ok () ∧
        ∃ nonce, nonce.length = nonceSize ∧ ct₁ = nonce ++ N.X.gcmSeal key nonce plaintext₁ ∧
          ct₂ = nonce ++ N.X.gcmSeal key nonce plaintext₂) := by
  unfold encrypt
  cases hkey : newCipher key with
  | error err => exact Comparison.lockstep_ret (.error _)
  | ok _ =>
    exact lockstep_same_op hs fun nonce =>
      Comparison.lockstep_ret (.ok ⟨rfl, nonce.1, nonce.2, rfl, rfl⟩)

/-! ## Forwarding nodes -/

variable (N exit k circuitID i) in
/-- Onions of the call that are related by `R` are answered alike by the
    node, and look the same to it. -/
def Discreet (n : ν) (R : Bytes → Bytes → Prop) : Prop :=
  ∀ {addr url contentType c ct₁ ct₂ : Bytes}, c = circuitID ∨ c = toValid circuitID → R ct₁ ct₂ →
    (comparison N.X exit k circuitID i).Served N.wired
      (.party (i, .node n),
        N.serveAt n .onion addr ⟨url, contentType, (OnionRequest.json ⟨c, ct₁⟩).encode⟩)
      (.party (i, .node n),
        N.serveAt n .onion addr ⟨url, contentType, (OnionRequest.json ⟨c, ct₂⟩).encode⟩)
      (AlikeResults N.X k)

/-- A POST to a discreet node. -/
theorem served_post {n : ν} {R : Bytes → Bytes → Prop} (hn : Discreet exit N k circuitID i n R)
    {p : Place ν} (hp : p ≠ .node exit) {url contentType : Bytes}
    (hroute : N.route url = some (n, .onion)) {c ct₁ ct₂ : Bytes}
    (hc : c = circuitID ∨ c = toValid circuitID) (h : R ct₁ ct₂) :
    (comparison N.X exit k circuitID i).Served N.wired
      (N.wired.serve (.party (i, p)) ⟨url, contentType, (OnionRequest.json ⟨c, ct₁⟩).encode⟩)
      (N.wired.serve (.party (i, p)) ⟨url, contentType, (OnionRequest.json ⟨c, ct₂⟩).encode⟩)
      (AlikeResults N.X k) := by
  refine served_carry hp ?_ .same
  simp only [Net.serve, hroute]
  exact hn hc h

/-- The answer of the next hop is passed on alike. -/
theorem lockstep_returnPath {s : Station (Loc ι ν)} (hs : s.Elsewhere exit) (h : Handler)
    (key nextHop : Bytes) {r₁ r₂ : Result Response} (hr : AlikeResults N.X k r₁ r₂) :
    (comparison N.X exit k circuitID i).Lockstep N.wired s (h.returnPath N.X key nextHop r₁)
      (h.returnPath N.X key nextHop r₂) fun a₁ a₂ => AlikeResults N.X k (.ok a₁) (.ok a₂) := by
  cases hr with
  | same =>
    exact lockstep_same hs (Handler.all_returnPath (P := fun _ => True) (fun _ _ => trivial) h key
      nextHop r₁) fun a _ => .same (.ok a)
  | @answers ct₁ ct₂ hct =>
    have hok (ct : Bytes) : ¬(onionAnswer ct).statusCode ≠ statusOK := fun h => h rfl
    simp only [Handler.returnPath, if_neg (hok _), decode_onionAnswer]
    refine Comparison.lockstep_bind (lockstep_encrypt hs key ct₁ ct₂) fun r₁ r₂ hr => ?_
    cases hr with
    | error err => exact lockstep_same_op hs fun _ => Comparison.lockstep_ret (.same _)
    | ok hsealed =>
      obtain ⟨hkey, nonce, hnonce, rfl, rfl⟩ := hsealed
      exact Comparison.lockstep_ret (.answers (.wrapped hkey hnonce hct))

/-- The response to a POST is received alike. -/
theorem lockstep_acceptResponse (hX : N.X.IdealAEAD) {s : Station (Loc ι ν)} (hs : s.Elsewhere exit)
    (url : Bytes) {r₁ r₂ : Result Response} (hr : AlikeResults N.X k r₁ r₂) :
    (comparison N.X exit k circuitID i).Lockstep N.wired s (acceptResponse url r₁)
      (acceptResponse url r₂) fun _ _ => True := by
  cases hr with
  | same =>
    cases r₁ with
    | error err => exact Comparison.lockstep_ret trivial
    | ok resp => exact lockstep_same_op hs fun _ => Comparison.lockstep_ret trivial
  | answers h =>
    refine lockstep_accept (fun keys depth hk => ?_) (Comparison.lockstep_ret trivial)
    simp only [view, h.response hX hk]

/-- Two payloads related by `R` are forwarded alike to a discreet node. -/
theorem lockstep_forward (hX : N.X.IdealAEAD) {p : Place ν} (hp : p ≠ .node exit) (h : Handler)
    {next : ν} {R : Bytes → Bytes → Prop} (hnext : Discreet exit N k circuitID i next R)
    (hR : ∀ ct₁ ct₂, R ct₁ ct₂ → AlikeOnions N.X k ct₁ ct₂) {nextHop : Bytes}
    (hroute : N.route (nextHopURL nextHop) = some (next, .onion)) (prevHop key : Bytes)
    {c payload₁ payload₂ ct₁ ct₂ : Bytes} (hc : c = circuitID ∨ c = toValid circuitID)
    (hct : R ct₁ ct₂) : (comparison N.X exit k circuitID i).Lockstep N.wired (.party (i, p))
      (h.forward N.X prevHop ⟨c, payload₁⟩ key ⟨nextHop, ct₁⟩)
      (h.forward N.X prevHop ⟨c, payload₂⟩ key ⟨nextHop, ct₂⟩)
      fun a₁ a₂ => AlikeResults N.X k (.ok a₁) (.ok a₂) := by
  have hs : (Station.party (i, p)).Elsewhere exit := hp
  simp only [Handler.forward, Handler.log, logPrintf_eq, clientPost_eq, op_bind, rpc_bind, ret_bind]
  refine lockstep_same_op hs fun _ =>
    Comparison.lockstep_rpc (served_post hnext hp hroute hc hct) fun r₁ r₂ hr => ⟨?_, ?_⟩
  · intro n hn _ keys depth hk
    simp only [view, (hR _ _ hct).request hX hk hc, hr.sight hX hk]
  · exact Comparison.lockstep_bind (lockstep_acceptResponse hX hs _ hr) fun _ _ _ =>
      lockstep_returnPath hs h key nextHop hr

omit [DecidableEq ι] [DecidableEq ν] in
/-- A payload that opens neither to a layer nor to an exit layer is refused. -/
theorem Handler.peel_refused (h : Handler) {prevHop key err err' : Bytes} {req : OnionRequest}
    (hlayer : unwrapLayer X key req.payload = .error err)
    (hexit : unwrapExitLayer X key req.payload = .error err') :
    h.peel X prevHop req key = h.decryptionFailed prevHop req.circuitID err := by
  simp only [Handler.peel, hlayer, Handler.directExit, executeExitPayload, hexit, pure_eq, ret_bind]
  exact ite_self _

/-- A forwarding node peels layers for a discreet next hop alike, whatever
    key it holds for the circuit. -/
theorem lockstep_peel (hX : N.X.IdealAEAD) {p : Place ν} (hp : p ≠ .node exit) (h : Handler)
    {next : ν} {R : Bytes → Bytes → Prop} (hnext : Discreet exit N k circuitID i next R)
    (hR : ∀ ct₁ ct₂, R ct₁ ct₂ → AlikeOnions N.X k ct₁ ct₂ ∧ ct₁ ≠ [] ∧ ct₂ ≠ []) {nextHop : Bytes}
    (hhop : toValid nextHop = nextHop) (hne : nextHop ≠ [])
    (hroute : N.route (nextHopURL nextHop) = some (next, .onion)) (prevHop held : Bytes)
    {key c ct₁ ct₂ : Bytes} (hc : c = circuitID ∨ c = toValid circuitID)
    (hct : Layered N.X key nextHop R ct₁ ct₂) :
    (comparison N.X exit k circuitID i).Lockstep N.wired (.party (i, p))
      (h.peel N.X prevHop ⟨c, ct₁⟩ held) (h.peel N.X prevHop ⟨c, ct₂⟩ held)
      fun a₁ a₂ => AlikeResults N.X k (.ok a₁) (.ok a₂) := by
  have hs : (Station.party (i, p)).Elsewhere exit := hp
  obtain ⟨hkey, nonce, payload₁, payload₂, hnonce, hpayload, rfl, rfl⟩ := hct
  obtain ⟨halike, hne₁, hne₂⟩ := hR _ _ hpayload
  by_cases heq : held = key
  · -- the party holds the key: it reads the same next hop and forwards the payloads
    have hopen {payload : Bytes} (hp : payload ≠ []) : unwrapLayer N.X held
        (nonce ++ N.X.gcmSeal key nonce (Layer.json ⟨nextHop, payload⟩).encode) =
          .ok ⟨nextHop, payload⟩ := by
      apply unwrapLayer_layer _ hne hhop hp
      rw [decrypt_seal hX hkey hnonce, if_pos heq]
    simp only [Handler.peel, hopen hne₁, hopen hne₂]
    exact lockstep_forward hX hp h hnext (fun _ _ h => (hR _ _ h).1) hroute prevHop held hc hpayload
  · -- a key of another circuit tells nothing
    have hrefused (plaintext : Bytes) : h.peel N.X prevHop
        ⟨c, nonce ++ N.X.gcmSeal key nonce plaintext⟩ held =
          h.decryptionFailed prevHop c (wrap "decrypt onion layer" (refusal held)) := by
      have hlayer : unwrapLayer N.X held (nonce ++ N.X.gcmSeal key nonce plaintext) =
          .error (wrap "decrypt onion layer" (refusal held)) := by
        simp only [unwrapLayer, decrypt_seal hX hkey hnonce, if_neg heq]
      have hexit : unwrapExitLayer N.X held (nonce ++ N.X.gcmSeal key nonce plaintext) =
          .error (wrap "decrypt exit layer" (refusal held)) := by
        simp only [unwrapExitLayer, decrypt_seal hX hkey hnonce, if_neg heq]
      exact h.peel_refused hlayer hexit
    rw [hrefused, hrefused]
    exact lockstep_same_op hs fun _ => Comparison.lockstep_ret (.same _)

/-- A forwarding node handles onions for a discreet next hop alike. -/
theorem lockstep_handleOnion (hX : N.X.IdealAEAD) {p : Place ν} (hp : p ≠ .node exit) (h : Handler)
    {next : ν} {R : Bytes → Bytes → Prop} (hnext : Discreet exit N k circuitID i next R)
    (hR : ∀ ct₁ ct₂, R ct₁ ct₂ → AlikeOnions N.X k ct₁ ct₂ ∧ ct₁ ≠ [] ∧ ct₂ ≠ []) {nextHop : Bytes}
    (hhop : toValid nextHop = nextHop) (hne : nextHop ≠ [])
    (hroute : N.route (nextHopURL nextHop) = some (next, .onion)) (addr : Bytes)
    {key c ct₁ ct₂ : Bytes} (hc : c = circuitID ∨ c = toValid circuitID)
    (hct : Layered N.X key nextHop R ct₁ ct₂) :
    (comparison N.X exit k circuitID i).Lockstep N.wired (.party (i, p))
      (h.handleOnion N.X ⟨methodPost, addr, (OnionRequest.json ⟨c, ct₁⟩).encode⟩)
      (h.handleOnion N.X ⟨methodPost, addr, (OnionRequest.json ⟨c, ct₂⟩).encode⟩)
      fun a₁ a₂ => AlikeResults N.X k (.ok a₁) (.ok a₂) := by
  have hs : (Station.party (i, p)).Elsewhere exit := hp
  have hpost : ¬methodPost ≠ methodPost := fun h => h rfl
  have htext : toValid c = circuitID ∨ toValid c = toValid circuitID := by
    right
    -- the ID is the client's own, or has been through a node's JSON already
    rcases hc with rfl | rfl
    · rfl
    · exact toValid_toValid circuitID
  obtain ⟨hne₁, hne₂⟩ := hct.ne_nil
  simp only [Handler.handleOnion, if_neg hpost, decode_onionRequest, hne₁, hne₂, or_false]
  by_cases hcid : toValid c = []
  · simp only [if_pos hcid]
    exact lockstep_same_op hs fun _ => Comparison.lockstep_ret (.same _)
  · simp only [if_neg hcid, perform_eq, op_bind, ret_bind]
    -- both runs look the circuit up in the same table of keys
    refine lockstep_same_op hs fun found => ?_
    cases found with
    | none => exact lockstep_same_op hs fun _ => Comparison.lockstep_ret (.same _)
    | some held =>
      exact lockstep_peel hX hp h hnext hR hhop hne hroute addr held htext hct

/-- A node that handles two onions alike answers the POSTs alike. -/
theorem served_at (hX : N.X.IdealAEAD) {n : ν} {addr url contentType c ct₁ ct₂ : Bytes}
    (hc : c = circuitID ∨ c = toValid circuitID)
    (halike : AlikeOnions N.X k ct₁ ct₂)
    (hhandle : (comparison N.X exit k circuitID i).Lockstep N.wired (.party (i, .node n))
      (N.handle n .onion ⟨methodPost, addr, (OnionRequest.json ⟨c, ct₁⟩).encode⟩)
      (N.handle n .onion ⟨methodPost, addr, (OnionRequest.json ⟨c, ct₂⟩).encode⟩)
      fun a₁ a₂ => AlikeResults N.X k (.ok a₁) (.ok a₂)) :
    (comparison N.X exit k circuitID i).Served N.wired
      (.party (i, .node n),
        N.serveAt n .onion addr ⟨url, contentType, (OnionRequest.json ⟨c, ct₁⟩).encode⟩)
      (.party (i, .node n),
        N.serveAt n .onion addr ⟨url, contentType, (OnionRequest.json ⟨c, ct₂⟩).encode⟩)
      (AlikeResults N.X k) := by
  refine Comparison.served_of_lockstep (M := N.wired) (R := AlikeResults N.X k) ?_ ?_
  · simp only [Net.serveAt, perform_eq, op_bind, ret_bind]
    refine lockstep_accept (fun keys depth hk => ?_) (Comparison.lockstep_bind hhandle ?_)
    · simp only [view, halike.request hX hk hc]
    · -- the onions and the answers are alike, so every node's record of them is
      intro a₁ a₂ ha
      exact Comparison.lockstep_ret ha
  · intro τ₁ τ₂ r₁ r₂ hτ hr
    refine ⟨rfl, ?_⟩
    rintro m hm hloc keys depth hk
    have htrace :
        τ₁.map (view N.X circuitID keys depth) = τ₂.map (view N.X circuitID keys depth) := by
      rw [← List.forall₂_eq_eq_eq, List.forall₂_map_left_iff, List.forall₂_map_right_iff]
      exact hτ.imp fun _ _ h => h m hm hloc keys depth hk
    simp only [seeExchange, htrace, hr.sight hX hk]

/-- Guard and relay are discreet about what is under the key if the next hop
    is. -/
theorem discreet_forwarder (hX : N.X.IdealAEAD) {n next : ν} (hn : n ≠ exit)
    (hrole : N.role n = .guard ∨ N.role n = .relay) {rec : NodeRecord} (hrec : N.Honest rec next)
    {R : Bytes → Bytes → Prop} (hnext : Discreet exit N k circuitID i next R)
    (hR : ∀ ct₁ ct₂, R ct₁ ct₂ → AlikeOnions N.X k ct₁ ct₂ ∧ ct₁ ≠ [] ∧ ct₂ ≠ []) (key : Bytes) :
    Discreet exit N k circuitID i n (Layered N.X key rec.addr R) := by
  intro addr url contentType c ct₁ ct₂ hc hct
  have hp : Place.node n ≠ .node exit := fun h => hn (by cases h; rfl)
  have hroute : N.route (nextHopURL rec.addr) = some (next, .onion) := by
    rw [nextHopURL_addr]
    exact hrec.onionRoute
  refine served_at hX hc (hct.alike hrec.addr fun _ _ h => (hR _ _ h).1) ?_
  rcases hrole with hrole | hrole
  · simp only [Net.handle, hrole]
    exact lockstep_handleOnion hX hp _ hnext hR hrec.addr (addr_ne_nil rec) hroute addr hc hct
  · simp only [Net.handle, hrole]
    exact lockstep_handleOnion hX hp _ hnext hR hrec.addr (addr_ne_nil rec) hroute addr hc hct

/-! ## The exit -/

omit [DecidableEq ι] [DecidableEq ν] in
/-- What an answer of the exit brings is sealed under the key of the request
    it answers. -/
theorem exit_answer_sealed (hX : X.IdealAEAD) {nonce plaintext addr c ct : Bytes}
    (hk : newCipher k = .ok ()) (hnonce : nonce.length = nonceSize) {τ : List (Interaction Effects)}
    (h : Path (ExitHandler.handleOnion X ⟨methodPost, addr,
      (OnionRequest.json ⟨c, nonce ++ X.gcmSeal k nonce plaintext⟩).encode⟩) τ (onionAnswer ct)) :
    ∃ nonce' plaintext', nonce'.length = nonceSize ∧
      ct = nonce' ++ X.gcmSeal k nonce' plaintext' := by
  have hstatus {resp : Response} (h : onionAnswer ct = resp) : resp.statusCode = statusOK := by
    rw [← h]
    rfl
  have hne : nonce ++ X.gcmSeal k nonce plaintext ≠ [] :=
    List.append_ne_nil_of_left_ne_nil (List.ne_nil_of_length_pos (by rw [hnonce]; decide)) _
  have hpost : ¬methodPost ≠ methodPost := fun h => h rfl
  have hgo := h
  simp only [ExitHandler.handleOnion, if_neg hpost, decode_onionRequest, hne, or_false] at hgo
  by_cases hcid : toValid c = []
  · rw [if_pos hcid] at hgo
    cases hstatus (path_ret.mp hgo).2
  · rw [if_neg hcid] at hgo
    obtain ⟨found, τ', rfl, hfound⟩ := path_op.mp hgo
    cases found with
    | none =>
      obtain ⟨_, τ'', -, hret⟩ := path_op.mp hfound
      cases hstatus (path_ret.mp hret).2
    | some key =>
      have hasks : Asks ⟨methodPost, addr, (OnionRequest.json
          ⟨c, nonce ++ X.gcmSeal k nonce plaintext⟩).encode⟩
          ⟨toValid c, nonce ++ X.gcmSeal k nonce plaintext⟩ :=
        ⟨rfl, decode_onionRequest _, hcid, hne⟩
      obtain ⟨_, out, hexit, -, hresp⟩ := (path_exitOnion hasks).mp h
      cases hexit with
      | unread | unbuilt | unsent | unfinished =>
        -- no failure answers 200
        rcases failureAnswer_status _ with hfail | hfail <;> cases hfail.symm.trans (hstatus hresp)
      | answered hlayer hbuild order nonce' =>
        -- the exit seals its answer under the key that opened the request
        obtain ⟨_, hdec, -⟩ := (unwrapExitLayer_eq_ok.mp hlayer).reads
        rw [decrypt_seal hX hk hnonce] at hdec
        split_ifs at hdec with heq
        have hct := congrArg
          (fun r : Response => decodeStream OnionResponse.fields .zero r.body) hresp
        simp only [exitAnswer, decode_onionAnswer, Option.some.injEq, OnionResponse.mk.injEq] at hct
        subst heq
        exact ⟨nonce'.1, _, nonce'.2, hct⟩

/-- The exit's own doing leaves the worlds twins. -/
theorem twins_of_exit {p : Go α} {P : Effect → Prop} {T : α → Prop}
    (hp : p.All P (fun _ => False) T) {τ : List (Interaction Effects)}
    {xs : List (ServedCall Effects (Station (Loc ι ν)))} {a : α}
    (h : N.wired.Observed (.party (i, .node exit)) p w τ xs a v) : Twins exit w v := by
  refine (meets_of_all (I := Twins exit w) hp ⟨?_, ?_, ?_⟩ ?_ a v h.returns).2
  · exact fun _ _ => rfl
  · exact fun _ _ => rfl
  · exact fun _ _ => rfl
  · intro e _ u hu
    exact hu.trans (Twins.exit_act i e u)

/-- The exit is discreet if its answers agree. -/
theorem discreet_exit (hX : N.X.IdealAEAD) (hrole : N.role exit = .exit) :
    Discreet exit N k circuitID i exit (Sealed N.X k) := by
  intro addr url contentType c ct₁ ct₂ hc hct
  -- the exit calls nobody, so only its own answer is there to compare
  have hall (ct : Bytes) : (N.serveAt exit .onion addr ⟨url, contentType,
      (OnionRequest.json ⟨c, ct⟩).encode⟩).All (fun _ => True) (fun _ => False) fun _ => True := by
    simp only [Net.serveAt, Net.handle, hrole, perform_eq, op_bind, ret_bind]
    exact ⟨trivial, fun _ => all_bind
      (all_exitHandleOnion (fun _ _ => trivial) _ _ (fun _ => trivial) fun _ _ => trivial)
      fun _ _ => trivial⟩
  -- its answer is the answer of a path of the handler
  have hpath (ct : Bytes) {w v : World ι ν} {τ : List (Interaction Effects)}
      {xs : List (ServedCall Effects (Station (Loc ι ν)))} {ct' : Bytes}
      (h : N.wired.Observed (.party (i, .node exit)) (N.serveAt exit .onion addr ⟨url, contentType,
        (OnionRequest.json ⟨c, ct⟩).encode⟩) w τ xs (.ok (onionAnswer ct')) v) :
      ∃ τ', Path (ExitHandler.handleOnion N.X
        ⟨methodPost, addr, (OnionRequest.json ⟨c, ct⟩).encode⟩) τ' (onionAnswer ct') := by
    have hserve := h.path
    simp only [Net.serveAt, Net.handle, hrole, perform_eq, op_bind, ret_bind] at hserve
    obtain ⟨_, τ', -, hserved⟩ := path_op.mp hserve
    obtain ⟨resp, τ₁, τ₂, -, hhandle, hret⟩ := path_bind.mp hserved
    obtain ⟨-, heq⟩ := path_ret.mp hret
    cases heq
    exact ⟨τ₁, hhandle⟩
  intro w₁ w₂ hw τ₁ xs₁ r₁ v₁ τ₂ xs₂ r₂ v₂ h₁ h₂ _ hanswers
  -- honest answers are equal refusals, or sealed and of one length
  have hr : AlikeResults N.X k r₁ r₂ := by
    cases hanswers rfl rfl with
    | same => exact .same _
    | answers hlen =>
      obtain ⟨hk, -, ⟨nonce₁, plaintext₁, hnonce₁, rfl⟩, nonce₂, plaintext₂, hnonce₂, rfl⟩ := hct
      obtain ⟨τ₁', hpath₁⟩ := hpath _ h₁
      obtain ⟨τ₂', hpath₂⟩ := hpath _ h₂
      exact .answers (.sealed ⟨hk, hlen, exit_answer_sealed hX hk hnonce₁ hpath₁,
        exit_answer_sealed hX hk hnonce₂ hpath₂⟩)
  obtain rfl := h₁.exchanges_nil (hall _)
  obtain rfl := h₂.exchanges_nil (hall _)
  refine ⟨.nil, ⟨rfl, ?_⟩, hr, ?_⟩
  · intro n hn hloc
    cases hloc
    exact absurd rfl hn
  · exact ((twins_of_exit (hall _) h₁).symm.trans hw).trans (twins_of_exit (hall _) h₂)

/-! ## The client -/

theorem lockstep_wrapLayer {s : Station (Loc ι ν)} (hs : s.Elsewhere exit) (key nextHop : Bytes)
    (name : String) {R : Bytes → Bytes → Prop} {payload₁ payload₂ : Bytes}
    (h : R payload₁ payload₂) : (comparison N.X exit k circuitID i).Lockstep N.wired s
      (wrapLayer N.X key nextHop payload₁ name) (wrapLayer N.X key nextHop payload₂ name)
      (Matched (Layered N.X key nextHop R)) := by
  unfold wrapLayer
  refine Comparison.lockstep_bind (lockstep_encrypt hs key _ _) fun r₁ r₂ hr => ?_
  cases hr with
  | error err => exact Comparison.lockstep_ret (.error _)
  | ok hsealed =>
    obtain ⟨hkey, nonce, hnonce, rfl, rfl⟩ := hsealed
    exact Comparison.lockstep_ret (.ok ⟨hkey, nonce, _, _, hnonce, h, rfl, rfl⟩)

/-- Onions for exit layers whose texts have the same length differ only in
    what is under the exit's key. -/
theorem lockstep_buildOnion (hX : N.X.IdealAEAD) {s : Station (Loc ι ν)} (hs : s.Elsewhere exit)
    (keys : SessionKeys) {layer₁ layer₂ : ExitLayer}
    (hlength : layer₁.json.encode.length = layer₂.json.encode.length) (relayAddr exitAddr : Bytes) :
    (comparison N.X exit keys.exitKey circuitID i).Lockstep N.wired s
      (buildOnionWithHops N.X keys layer₁ relayAddr exitAddr 3)
      (buildOnionWithHops N.X keys layer₂ relayAddr exitAddr 3)
      (Matched (Layered N.X keys.guardKey relayAddr
        (Layered N.X keys.relayKey exitAddr (Sealed N.X keys.exitKey)))) := by
  have h31 : ¬(3 : Int) = 1 := by decide
  simp only [buildOnionWithHops, validateHops, or_true, if_true, if_neg h31]
  refine Comparison.lockstep_bind (lockstep_encrypt hs keys.exitKey _ _) fun r₁ r₂ hr => ?_
  cases hr with
  | error err => exact Comparison.lockstep_ret (.error _)
  | ok hsealed =>
    -- the innermost seal: exit layers of one length give ciphertexts of one length
    obtain ⟨hkey, nonce, hnonce, rfl, rfl⟩ := hsealed
    have hct : Sealed N.X keys.exitKey
        (nonce ++ N.X.gcmSeal keys.exitKey nonce layer₁.json.encode)
        (nonce ++ N.X.gcmSeal keys.exitKey nonce layer₂.json.encode) :=
      ⟨hkey, by rw [List.length_append, List.length_append, hX.length hlength],
        ⟨nonce, _, hnonce, rfl⟩, nonce, _, hnonce, rfl⟩
    refine Comparison.lockstep_bind (lockstep_wrapLayer hs _ _ _ hct) fun r₁ r₂ hr => ?_
    cases hr with
    | error err => exact Comparison.lockstep_ret (.error _)
    | ok hrelay => exact lockstep_wrapLayer hs _ _ _ hrelay

/-- Once its onion is posted the client only reads the response. -/
theorem sendOnion_posts (X : Externals) (guardURL circuitID payload : Bytes) :
    ∃ read : Result Response → Go (Result OnionResponse),
      sendOnion X guardURL circuitID payload = .rpc ⟨guardURL ++ lit "/onion",
        lit "application/json", (OnionRequest.json ⟨circuitID, payload⟩).encode⟩ read ∧
      ∀ r, (read r).All (fun _ => False) (fun _ => False) fun _ => True := by
  simp only [sendOnion, clientPost_eq, rpc_bind, ret_bind, pure_eq]
  refine ⟨_, rfl, fun r => ?_⟩
  cases r with
  | error err => trivial
  | ok resp =>
    dsimp only
    split_ifs
    · trivial
    · split <;> trivial

/-- The two exchanges go the same way as far as the nodes are concerned. -/
theorem lockstep_exchange (hX : N.X.IdealAEAD) {circuit : CircuitResponse} {guard relay : ν}
    (hc : N.Circuit circuit 3 [guard, relay, exit]) (keys : SessionKeys) {layer₁ layer₂ : ExitLayer}
    (hlength : layer₁.json.encode.length = layer₂.json.encode.length) :
    (comparison N.X exit keys.exitKey circuitID i).Lockstep N.wired (.party (i, .client))
      (exchange N.X keys layer₁ circuit circuitID) (exchange N.X keys layer₂ circuit circuitID)
      fun _ _ => True := by
  have hclient : (Station.party (i, (Place.client : Place ν))).Elsewhere exit := by
    intro h
    cases h
  -- three different nodes, in the roles of the circuit
  obtain ⟨hguardRole, hrelayRole, hexitRole⟩ : N.role guard = .guard ∧ N.role relay = .relay ∧
      N.role exit = .exit := by simpa [circuitRoles] using hc.roles
  obtain ⟨⟨hgr, hge⟩, hre⟩ : (guard ≠ relay ∧ guard ≠ exit) ∧ relay ≠ exit := by
    simpa using hc.nodup
  cases hc.honest with
  | cons hguard hothers =>
    cases hothers with
    | cons hrelay hlast =>
      cases hlast with
      | cons hexit _ =>
        have hsealed : ∀ ct₁ ct₂, Sealed N.X keys.exitKey ct₁ ct₂ →
            AlikeOnions N.X keys.exitKey ct₁ ct₂ ∧ ct₁ ≠ [] ∧ ct₂ ≠ [] :=
          fun _ _ h => ⟨.sealed h, h.ne_nil⟩
        have hlayered : ∀ ct₁ ct₂, Layered N.X keys.relayKey circuit.exit.addr
            (Sealed N.X keys.exitKey) ct₁ ct₂ →
            AlikeOnions N.X keys.exitKey ct₁ ct₂ ∧ ct₁ ≠ [] ∧ ct₂ ≠ [] :=
          fun _ _ h => ⟨h.alike hexit.addr fun _ _ h => .sealed h, h.ne_nil⟩
        -- from the exit backwards: each node shows nothing if the next one does not
        have hdiscreet : Discreet exit N keys.exitKey circuitID i guard
            (Layered N.X keys.guardKey circuit.relay.addr
              (Layered N.X keys.relayKey circuit.exit.addr (Sealed N.X keys.exitKey))) :=
          discreet_forwarder hX hge (.inl hguardRole) hrelay
            (discreet_forwarder hX hre (.inr hrelayRole) hexit (discreet_exit hX hexitRole)
              hsealed _)
            hlayered _
        refine Comparison.lockstep_bind (lockstep_buildOnion hX hclient keys hlength _ _)
          fun r₁ r₂ hr => ?_
        cases hr with
        | error err => exact Comparison.lockstep_ret trivial
        | @ok ct₁ ct₂ honion =>
          -- the client posts the onion once and reads what comes back
          obtain ⟨read₁, heq₁, hread₁⟩ := sendOnion_posts N.X circuit.guard.nodeURL circuitID ct₁
          obtain ⟨read₂, heq₂, hread₂⟩ := sendOnion_posts N.X circuit.guard.nodeURL circuitID ct₂
          simp only [heq₁, heq₂]
          refine Comparison.lockstep_rpc (served_post hdiscreet hclient hguard.onionRoute (.inl rfl)
            honion) fun r₁ r₂ _ => ⟨?_, ?_⟩
          · -- no node sees the client's own interactions
            rintro n hn ⟨⟩
          · exact Comparison.lockstep_of_all (hread₁ r₁) (hread₂ r₂) fun _ _ _ _ => trivial

/-! ## Secrecy -/

/-- Runs that compare look the same to a node other than the exit. -/
theorem observation_eq {xs₁ xs₂ : List (ServedCall Effects (Station (Loc ι ν)))}
    (h : List.Forall₂ (comparison X exit k circuitID i).exchanged xs₁ xs₂) {n : ν} (hn : n ≠ exit)
    {ks : List Bytes} (hk : k ∉ ks) (depth : Nat) :
    observation X circuitID ks depth (i, .node n) xs₁ =
      observation X circuitID ks depth (i, .node n) xs₂ := by
  unfold observation
  induction h with
  | nil => rfl
  | @cons x₁ x₂ xs₁ xs₂ hx _ ih =>
    obtain ⟨hloc, hsee⟩ := hx
    by_cases hat : x₁.loc = .party (i, .node n)
    · rw [List.filter_cons_of_pos (by simpa using hat),
        List.filter_cons_of_pos (by simpa using hloc ▸ hat), List.map_cons, List.map_cons, ih,
        hsee n hn hat ks depth hk]
    · rw [List.filter_cons_of_neg (by simpa using hat),
        List.filter_cons_of_neg (by simpa using hloc ▸ hat), ih]

/-- Two exchanges over the same circuit of honest nodes, with the same keys
    and nonces and the same faults of the transport, for exit layers whose
    texts have the same length: if the exit's answers agree in the two runs,
    then guard and relay observe the same, after every ciphertext under a
    key they do not hold is replaced by its length. -/
theorem destination_secret (hX : N.X.IdealAEAD) {circuit : CircuitResponse} {guard relay : ν}
    (hc : N.Circuit circuit 3 [guard, relay, exit]) (keys : SessionKeys)
    {exitLayer₁ exitLayer₂ : ExitLayer}
    (hlength : exitLayer₁.json.encode.length = exitLayer₂.json.encode.length)
    (hw : Twins exit w₁ w₂) {τ₁ τ₂ : List (Interaction Effects)}
    {xs₁ xs₂ : List (ServedCall Effects (Station (Loc ι ν)))} {r₁ r₂ : Result OnionResponse}
    {v₁ v₂ : World ι ν}
    (h₁ : N.wired.Observed (.party (i, .client)) (exchange N.X keys exitLayer₁ circuit circuitID)
      w₁ τ₁ xs₁ r₁ v₁)
    (h₂ : N.wired.Observed (.party (i, .client)) (exchange N.X keys exitLayer₂ circuit circuitID)
      w₂ τ₂ xs₂ r₂ v₂)
    (hanswers : ∀ x₁ ∈ xs₁, ∀ x₂ ∈ xs₂, x₁.loc = .party (i, .node exit) →
      x₂.loc = .party (i, .node exit) → AnswersAgree x₁.answer x₂.answer)
    {n : ν} (hn : n = guard ∨ n = relay) {held : List Bytes} (hheld : keys.exitKey ∉ held)
    (depth : Nat) :
    observation N.X circuitID held depth (i, .node n) xs₁ =
      observation N.X circuitID held depth (i, .node n) xs₂ := by
  have hne : n ≠ exit := by
    obtain ⟨⟨-, hge⟩, hre⟩ : (guard ≠ relay ∧ guard ≠ exit) ∧ relay ≠ exit := by
      simpa using hc.nodup
    rcases hn with rfl | rfl
    · exact hge
    · exact hre
  obtain ⟨-, hxs, -⟩ := lockstep_exchange hX hc keys hlength w₁ w₂ hw _ _ _ _ _ _ _ _ h₁ h₂
    hanswers
  exact observation_eq hxs hne hheld depth

end

namespace Sample

/-- A stand-in for AES-GCM that puts the key in front of the plaintext, and
    the length of the key in front of that, so that no key opens what was
    sealed with a longer one. -/
def ideal : Externals :=
  { externals with
    gcmSeal key _ plaintext := UInt8.ofNat key.length :: (key ++ plaintext)
    gcmOpen key _ data := gcmOpen (UInt8.ofNat key.length :: key) data }

/-- AES keys of different lengths begin differently. -/
theorem length_of_newCipher {key key' : Bytes} (hkey : newCipher key = .ok ())
    (hkey' : newCipher key' = .ok ())
    (h : UInt8.ofNat key'.length = UInt8.ofNat key.length) : key'.length = key.length := by
  have hlength {key : Bytes} (hkey : newCipher key = .ok ()) :
      key.length = 16 ∨ key.length = 24 ∨ key.length = 32 := by
    unfold newCipher at hkey
    split_ifs at hkey with h
    exact h
  have hnat := congrArg UInt8.toNat h
  rw [UInt8.toNat_ofNat', UInt8.toNat_ofNat'] at hnat
  rcases hlength hkey with h | h | h <;> rcases hlength hkey' with h' | h' | h' <;> omega

theorem ideal_idealAEAD : ideal.IdealAEAD where
  lawful {key nonce} _ _ plaintext := by
    show gcmOpen (_ :: key) (_ :: (key ++ plaintext)) = some plaintext
    unfold gcmOpen
    rw [← List.cons_append, if_pos (isPrefixOf_append _ _), List.drop_left]
  foreign {key key' nonce} plaintext hkey hkey' _ hne := by
    show gcmOpen (_ :: key') (_ :: (key ++ plaintext)) = none
    refine if_neg fun h => hne ?_
    obtain ⟨hhead, hprefix⟩ := List.cons_prefix_cons.mp (List.isPrefixOf_iff_prefix.mp h)
    have hlen := length_of_newCipher hkey hkey' hhead
    exact (List.prefix_iff_eq_take.mp hprefix).trans (by rw [hlen, List.take_left])
  length {key nonce plaintext₁ plaintext₂} h := by
    show (_ :: (key ++ plaintext₁)).length = (_ :: (key ++ plaintext₂)).length
    simp [h]

/-- The deployment with that cipher. -/
def idealNet : Net Node := { net with X := ideal }

theorem idealNet_circuit : idealNet.Circuit circuit 3 [.guard, .relay, .exit] := by
  have hhonest (n : Node) : idealNet.Honest (record n) n :=
    ⟨(honest n).setupRoute, (honest n).onionRoute, (honest n).publicKey, (honest n).addr⟩
  exact ⟨.cons (hhonest .guard) (.cons (hhonest .relay) (.cons (hhonest .exit) .nil)),
    by decide, rfl⟩

/-- Every node holds its key, and the destination answers with `body`. -/
def answering (body : Bytes) : World Unit Node :=
  { start with
    keys n _ := some (match n with
      | .guard => keys.guardKey
      | .relay => keys.relayKey
      | .exit => keys.exitKey)
    oracle ℓ m := { choice m with
      dest := fun _ => .answered ⟨200, .empty, if ℓ.2 = .node .exit then body else []⟩ } }

theorem answering_twins (body₁ body₂ : Bytes) :
    Twins .exit (answering body₁) (answering body₂) := by
  refine ⟨fun _ _ => rfl, fun ℓ hℓ => ?_, fun _ _ => rfl⟩
  simp only [answering, if_neg hℓ]

/-- A request to a destination with this URL. -/
def visit (url : Bytes) : ExitLayer := ⟨url, lit "GET", .empty, []⟩

/-- The exit's answers when the client visits `url` and gets `body`. -/
def answersSeen (url body : Bytes) : Option (List (Result Response)) :=
  (idealNet.wired.observe 6 (.party ((), .client))
    (exchange ideal keys (visit url) circuit (lit "c1")) (answering body)).map fun o =>
      (o.2.1.filter fun x => x.loc = .party ((), .node .exit)).map (·.answer)

/-- The payload that brings `body` back. -/
def exitPayload (body : Bytes) : Bytes :=
  List.replicate nonceSize 4 ++
    ideal.gcmSeal keys.exitKey [] (exitResponse ⟨200, .empty, body⟩).json.encode

/-- So it is observed. -/
theorem observed_of_answersSeen {url body : Bytes}
    (h : answersSeen url body = some [.ok (onionAnswer (exitPayload body))]) : ∃ τ xs r v,
    idealNet.wired.Observed (.party ((), .client))
      (exchange ideal keys (visit url) circuit (lit "c1")) (answering body) τ xs r v ∧
    ∀ x ∈ xs, x.loc = .party ((), .node .exit) →
      x.answer = .ok (onionAnswer (exitPayload body)) := by
  unfold answersSeen at h
  obtain ⟨⟨τ, xs, r, v⟩, hrun, hanswers⟩ := Option.map_eq_some_iff.mp h
  refine ⟨τ, xs, r, v, observed_of_observe hrun, fun x hx hloc => ?_⟩
  have hmem : x.answer ∈ (xs.filter fun x => x.loc = .party ((), .node .exit)).map (·.answer) :=
    List.mem_map_of_mem (List.mem_filter.mpr ⟨hx, by simpa using hloc⟩)
  rw [hanswers] at hmem
  exact List.mem_singleton.mp hmem

end Sample

/-- One client visits `http://d` and reads `ok`, the other visits
    `http://e` and reads `no`; the relay cannot tell. -/
theorem destination_secret_sample : ∃ τ₁ xs₁ r₁ v₁ τ₂ xs₂ r₂ v₂,
    Sample.idealNet.wired.Observed (.party ((), .client)) (exchange Sample.ideal Sample.keys
      (Sample.visit (lit "http://d")) Sample.circuit (lit "c1")) (Sample.answering (lit "ok"))
      τ₁ xs₁ r₁ v₁ ∧
    Sample.idealNet.wired.Observed (.party ((), .client)) (exchange Sample.ideal Sample.keys
      (Sample.visit (lit "http://e")) Sample.circuit (lit "c1")) (Sample.answering (lit "no"))
      τ₂ xs₂ r₂ v₂ ∧
    observation Sample.ideal (lit "c1") [Sample.keys.relayKey] 2 ((), .node .relay) xs₁ =
      observation Sample.ideal (lit "c1") [Sample.keys.relayKey] 2 ((), .node .relay) xs₂ := by
  obtain ⟨τ₁, xs₁, r₁, v₁, h₁, hanswer₁⟩ :=
    @Sample.observed_of_answersSeen (lit "http://d") (lit "ok") (by decide +kernel)
  obtain ⟨τ₂, xs₂, r₂, v₂, h₂, hanswer₂⟩ :=
    @Sample.observed_of_answersSeen (lit "http://e") (lit "no") (by decide +kernel)
  refine ⟨τ₁, xs₁, r₁, v₁, τ₂, xs₂, r₂, v₂, h₁, h₂, ?_⟩
  refine destination_secret Sample.ideal_idealAEAD Sample.idealNet_circuit Sample.keys
    (by decide +kernel) (Sample.answering_twins _ _) h₁ h₂ ?_ (.inr rfl) (by decide) 2
  intro x₁ hx₁ x₂ hx₂ hloc₁ hloc₂
  rw [hanswer₁ x₁ hx₁ hloc₁, hanswer₂ x₂ hx₂ hloc₂]
  exact .answers (by decide +kernel)

end HopVault
