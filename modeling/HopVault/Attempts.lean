import HopVault.Footprint
import HopVault.Framework.RetryLoop
import Mathlib.Algebra.Group.Prod

/-! # How the attempts of the client end

    The loop of `ExecuteRequestWithRebuildTracking` as a retry loop: an
    attempt ends in one of six ways, two of which are followed by another
    attempt, and each way has its number of circuits requested from the
    directory and of onions sent. -/

namespace HopVault

open Framework Framework.Json Framework.Prog Framework.Semantics

/-! ## Outcomes -/

/-- How an attempt ends. -/
inductive AttemptOutcome where
  | directoryError
  | setupError
  | buildError
  | sendError
  | decryptError
  | success
  deriving DecidableEq, Repr

namespace AttemptOutcome

/-- A circuit is requested in every attempt, an onion sent when there is
    one and keys for it. -/
def cost : AttemptOutcome → Nat × Nat
  | directoryError | setupError | buildError => (1, 0)
  | sendError | decryptError | success => (1, 1)

/-- The failures `ExecuteRequestWithRebuildTracking` goes on from. -/
def isRetried : AttemptOutcome → Bool
  | setupError | sendError => true
  | _ => false

def isSuccess : AttemptOutcome → Bool
  | success => true
  | _ => false

end AttemptOutcome

/-- Circuits requested from the directory, and onions sent. -/
def clientCost : Effect → Nat × Nat
  | .httpGet _ => (1, 0)
  | .mark .sending => (0, 1)
  | _ => 0

/-- An exchange itself is neither. -/
def exchangeCost (_ : Post) : Nat × Nat := 0

/-! ## The loop with its outcomes -/

variable (X : Externals)

/-- `attemptCircuit`, with the step that decided it. -/
def stagedCircuit (c : Call) (circuit : CircuitResponse) : Go (AttemptOutcome × Outcome) := do
  match ← setupCircuitWithHops X c.circuitID circuit c.hops with
  | .error err => return (.setupError, .retry (wrap "establish session keys" err))
  | .ok keys =>
    perform (.mark (.established (sessionKeysAt circuit keys c.hops)))
    let addrs := circuitHopAddresses circuit c.hops
    match ← buildOnionWithHops X keys c.exitLayer addrs.1 addrs.2 c.hops with
    | .error err => return (.buildError, .fail (wrap "build onion payload" err))
    | .ok payload =>
      perform (.mark .sending)
      match ← sendOnion X circuit.guard.nodeURL c.circuitID payload with
      | .error err =>
        return (.sendError, .retry (lit "send onion request via guard " ++ circuit.guard.nodeID ++
          lit ": " ++ err))
      | .ok onionResp =>
        match decryptResponseWithHops X keys onionResp.payload c.hops with
        | .error err => return (.decryptError, .fail (wrap "decrypt circuit response" err))
        | .ok exitResp => return (.success, .done exitResp)

/-- To name the step changes nothing. -/
theorem stagedCircuit_forget (c : Call) (circuit : CircuitResponse) :
    (stagedCircuit X c circuit >>= fun r => .ret r.2) = attemptCircuit X c circuit := by
  unfold stagedCircuit attemptCircuit
  -- the two programs differ in what they return only, so they are followed together
  rw [bind_assoc]
  congr 1
  funext r
  cases r with
  | error err => rfl
  | ok keys =>
    simp only [bind_assoc]
    congr 1
    funext _
    congr 1
    funext r
    cases r with
    | error err => rfl
    | ok payload =>
      simp only [perform_eq, op_bind, ret_bind, bind_assoc]
      congr 1
      funext _
      congr 1
      funext r
      cases r with
      | error err => rfl
      | ok onionResp =>
        dsimp only
        cases decryptResponseWithHops X keys onionResp.payload c.hops with
        | error err => rfl
        | ok exitResp => rfl

/-- What the loop carries from one attempt to the next. -/
structure LoopState where
  attempt : Int
  events : List RebuildEvent
  lastErr : Option Bytes
  lastCircuit : Option CircuitResponse

/-- The loop's body. -/
def loopBody (c : Call) (maxAttempts : Int) (s : LoopState) :
    Go (AttemptOutcome × (Result CircuitResult ⊕ LoopState)) := do
  let events ← beginRebuild s.attempt maxAttempts s.events s.lastErr s.lastCircuit
  perform (.mark .attempt)
  match ← getCircuitWithHops X c.directoryURL c.hops with
  | .error err =>
    return (.directoryError, .inl (.error (wrap "get circuit from directory server" err)))
  | .ok circuit =>
    let r ← stagedCircuit X c circuit
    perform (.mark .ended)
    match r.2 with
    | .retry err =>
      let events ← finishRebuild false events
      return (r.1, .inr ⟨s.attempt + 1, events, some err, some circuit⟩)
    | .fail err => return (r.1, .inl (.error err))
    | .done exitResp =>
      let events ← finishRebuild true events
      return (r.1, .inl (.ok ⟨exitResp, events⟩))

/-- The error when all attempts are used up. -/
def attemptsExhausted (maxAttempts : Int) (s : LoopState) : Result CircuitResult :=
  .error (lit "all " ++ Decimal.itoa maxAttempts ++ lit " circuit attempts failed: " ++
    s.lastErr.getD [])

/-- The loop is the retry loop of its body. -/
theorem runAttempts_eq_retry (c : Call) (maxAttempts : Int) (left : Nat) (s : LoopState) :
    runAttempts X c maxAttempts left s.attempt s.events s.lastErr s.lastCircuit =
      retry (loopBody X c maxAttempts) (attemptsExhausted maxAttempts) left s := by
  -- induction on the attempts left; the loop's variables are the state
  induction left generalizing s with
  | zero => rfl
  | succ left ih =>
    unfold runAttempts retry loopBody
    simp only [perform_eq, op_bind, ret_bind, bind_assoc]
    congr 1
    funext events
    congr 1
    funext _
    congr 1
    funext r
    cases r with
    | error err => rfl
    | ok circuit =>
      dsimp only
      rw [← stagedCircuit_forget, bind_assoc]
      simp only [ret_bind, bind_assoc, op_bind]
      congr 1
      funext r
      obtain ⟨outcome, out⟩ := r
      congr 1
      funext _
      cases out with
      | retry err =>
        simp only [bind_assoc, pure_eq, ret_bind]
        congr 1
        funext events
        exact ih ⟨s.attempt + 1, events, some err, some circuit⟩
      | fail err => rfl
      | done exitResp => simp only [bind_assoc, pure_eq, ret_bind]

/-! ## What an attempt costs -/

section

variable {X} {L W : Type} {M : Semantics Effects L W} {ℓ : L} {w w' : W} {n : Nat × Nat}

/-- What serves a POST requests no circuit and sends no client's onion. -/
def Bystanders (M : Semantics Effects L W) : Prop :=
  ∀ ℓ q, (M.serve ℓ q).2.All (fun e => clientCost e = 0) (fun _ => True) fun _ => True

theorem clientCost_plain (e : Effect) (h : e.Plain) : clientCost e = 0 := by
  cases e with
  | httpGet url => cases h
  | mark m => cases h
  | _ => rfl

/-- The parts of an attempt that request no circuit and send no onion. -/
theorem counts_free (hM : Bystanders M) {α : Type} {p : Go α} {T : α → Prop} {a : α}
    (hp : p.All (fun e => clientCost e = 0) (fun _ => True) T)
    (h : M.Counts clientCost exchangeCost ℓ p w a w' n) : n = 0 :=
  h.free hp (fun _ he => he) (fun _ _ => rfl) fun ℓ q _ => hM ℓ q

/-- The directory is asked for one circuit. -/
theorem counts_getCircuit (hM : Bystanders M) {directoryURL : Bytes} {hops : Int}
    (hhops : hops = 1 ∨ hops = 3) {r : Result CircuitResponse}
    (h : M.Counts clientCost exchangeCost ℓ (getCircuitWithHops X directoryURL hops) w r w' n) :
    n = (1, 0) := by
  unfold getCircuitWithHops validateHops at h
  rw [if_pos hhops] at h
  simp only [perform_eq, op_bind, ret_bind] at h
  obtain ⟨m, hrest, rfl⟩ := counts_op.mp h
  -- the fetch itself is booked, and nothing after it is
  have hfree : m = 0 := by
    refine counts_free hM (T := fun _ => True) ?_ hrest
    cases (M.act ℓ (.httpGet (directoryURL ++ lit "/circuit?hops=" ++ Decimal.itoa hops)) w).1 with
    | error err => trivial
    | ok resp =>
      dsimp only
      split_ifs
      · trivial
      · split
        · trivial
        · split_ifs <;> trivial
  rw [hfree]
  rfl

/-- The ways through an attempt once there is a circuit, with the onions
    each sends. -/
inductive Staged : AttemptOutcome × Outcome → Nat × Nat → Prop
  | setup (err : Bytes) : Staged (.setupError, .retry err) 0
  | build (err : Bytes) : Staged (.buildError, .fail err) 0
  | send (err : Bytes) : Staged (.sendError, .retry err) (0, 1)
  | decrypt (err : Bytes) : Staged (.decryptError, .fail err) (0, 1)
  | success (resp : ExitResponse) : Staged (.success, .done resp) (0, 1)

theorem counts_stagedCircuit (hM : Bystanders M) {c : Call} {circuit : CircuitResponse}
    {r : AttemptOutcome × Outcome}
    (h : M.Counts clientCost exchangeCost ℓ (stagedCircuit X c circuit) w r w' n) :
    Staged r n := by
  have hsetup : SetupFootprint X c.circuitID (fun e => clientCost e = 0) fun _ => True :=
    ⟨clientCost_plain, fun _ _ => rfl, fun _ _ => trivial⟩
  unfold stagedCircuit at h
  obtain ⟨keys, w₁, n₁, m₁, hfst, hsnd, rfl⟩ := counts_bind.mp h
  -- setting up is free: it makes no exchange with the destination
  obtain rfl := counts_free hM (all_setupCircuit hsetup _ _) hfst
  cases keys with
  | error err =>
    obtain ⟨rfl, -, rfl⟩ := counts_ret.mp hsnd
    exact .setup _
  | ok keys =>
    simp only [perform_eq, op_bind, ret_bind] at hsnd
    obtain ⟨m₂, hbuild, rfl⟩ := counts_op.mp hsnd
    obtain ⟨payload, w₂, n₂, m₃, hfst, hsent, rfl⟩ := counts_bind.mp hbuild
    obtain rfl := counts_free hM (all_buildOnion clientCost_plain _ _ _ _ _) hfst
    cases payload with
    | error err =>
      obtain ⟨rfl, -, rfl⟩ := counts_ret.mp hsent
      exact .build _
    | ok payload =>
      -- the onion is sent, whatever comes of it
      obtain ⟨m₄, hpost, rfl⟩ := counts_op.mp hsent
      obtain ⟨resp, w₃, n₃, m₅, hfst, hend, rfl⟩ := counts_bind.mp hpost
      obtain rfl := counts_free hM (all_sendOnion (fun _ _ => trivial) _ _) hfst
      cases resp with
      | error err =>
        obtain ⟨rfl, -, rfl⟩ := counts_ret.mp hend
        exact .send _
      | ok onionResp =>
        dsimp only at hend
        cases hdec : decryptResponseWithHops X keys onionResp.payload c.hops with
        | error err =>
          rw [hdec] at hend
          obtain ⟨rfl, -, rfl⟩ := counts_ret.mp hend
          exact .decrypt _
        | ok exitResp =>
          rw [hdec] at hend
          obtain ⟨rfl, -, rfl⟩ := counts_ret.mp hend
          exact .success _

/-- The ways through the loop's body: what it costs, whether the loop goes
    on, and whether it has succeeded. -/
def BodyEnds (r : AttemptOutcome × (Result CircuitResult ⊕ LoopState)) (n : Nat × Nat) : Prop :=
  n = r.1.cost ∧
  match r.2 with
  | .inl b => r.1.isRetried = false ∧ ((∃ result, b = .ok result) ↔ r.1.isSuccess = true)
  | .inr _ => r.1.isRetried = true ∧ r.1.isSuccess = false

theorem counts_loopBody (hM : Bystanders M) {c : Call} (hhops : c.hops = 1 ∨ c.hops = 3)
    {maxAttempts : Int} {s : LoopState} {r : AttemptOutcome × (Result CircuitResult ⊕ LoopState)}
    (h : M.Counts clientCost exchangeCost ℓ (loopBody X c maxAttempts s) w r w' n) :
    BodyEnds r n := by
  unfold loopBody at h
  obtain ⟨events, w₁, n₁, m₁, hbegin, hattempt, rfl⟩ := counts_bind.mp h
  obtain rfl := counts_free hM (all_beginRebuild clientCost_plain _ _ _ _ _) hbegin
  simp only [perform_eq, op_bind, ret_bind] at hattempt
  obtain ⟨m₂, hfetch, rfl⟩ := counts_op.mp hattempt
  obtain ⟨circuit, w₂, n₂, m₃, hget, hrest, rfl⟩ := counts_bind.mp hfetch
  obtain rfl := counts_getCircuit hM hhops hget
  cases circuit with
  | error err =>
    -- a fetch that fails ends the loop
    obtain ⟨rfl, -, rfl⟩ := counts_ret.mp hrest
    refine ⟨rfl, rfl, ?_⟩
    exact iff_of_false (by rintro ⟨result, hres⟩; cases hres) Bool.false_ne_true
  | ok circuit =>
    obtain ⟨staged, w₃, n₃, m₄, hstaged, hend, rfl⟩ := counts_bind.mp hrest
    obtain ⟨m₅, hfinish, rfl⟩ := counts_op.mp hend
    -- the loop goes on after a failed set-up or send, and stops at all else
    cases counts_stagedCircuit hM hstaged with
    | setup err | send err =>
      obtain ⟨events, w₄, n₄, m₆, hmark, hret, rfl⟩ := counts_bind.mp hfinish
      obtain rfl := counts_free hM (all_finishRebuild clientCost_plain _ _) hmark
      obtain ⟨rfl, -, rfl⟩ := counts_ret.mp hret
      exact ⟨rfl, rfl, rfl⟩
    | success resp =>
      obtain ⟨events, w₄, n₄, m₆, hmark, hret, rfl⟩ := counts_bind.mp hfinish
      obtain rfl := counts_free hM (all_finishRebuild clientCost_plain _ _) hmark
      obtain ⟨rfl, -, rfl⟩ := counts_ret.mp hret
      exact ⟨rfl, rfl, iff_of_true ⟨_, rfl⟩ rfl⟩
    | build err | decrypt err =>
      obtain ⟨rfl, -, rfl⟩ := counts_ret.mp hfinish
      exact ⟨rfl, rfl, iff_of_false (by rintro ⟨result, hres⟩; cases hres) Bool.false_ne_true⟩

/-- What the loop's body does, by the outcome of its attempt. -/
theorem loopBody_spec (hM : Bystanders M) {c : Call} (hhops : c.hops = 1 ∨ c.hops = 3)
    (maxAttempts : Int) :
    AttemptSpec M clientCost exchangeCost ℓ (loopBody X c maxAttempts)
      (attemptsExhausted maxAttempts) AttemptOutcome.isRetried AttemptOutcome.isSuccess
      AttemptOutcome.cost (fun r => ∃ result, r = .ok result) where
  cost h := (counts_loopBody hM hhops h).1
  final h := (counts_loopBody hM hhops h).2
  next h := (counts_loopBody hM hhops h).2
  exhausted s := by
    rintro ⟨result, h⟩
    cases h

end

/-! ## Whole calls -/

/-- `ExecuteRequestWithRebuildTracking`, with the outcomes of its attempts. -/
def tracedRequest (c : Call) : Go (List AttemptOutcome × Result CircuitResult) :=
  match validateHops c.hops with
  | .error err => return ([], .error err)
  | .ok () => retryTraced (loopBody X c c.attempts) (attemptsExhausted c.attempts) c.attempts.toNat
      ⟨1, [], none, none⟩

/-- It is the call, and the outcomes are noted down. -/
theorem tracedRequest_forget (c : Call) :
    (tracedRequest X c >>= fun p => .ret p.2) = executeRequestWithRebuildTracking X c := by
  unfold tracedRequest executeRequestWithRebuildTracking
  cases validateHops c.hops with
  | error err => rfl
  | ok _ =>
    dsimp only
    rw [retryTraced_forget]
    exact (runAttempts_eq_retry X c c.attempts c.attempts.toNat ⟨1, [], none, none⟩).symm

/-- A call whose attempts end as the sequence says makes those it asks
    for, requests and sends what they need, and returns a response exactly
    if one of them succeeds. -/
theorem counts_tracedRequest {X : Externals} {L W : Type} {M : Semantics Effects L W} {ℓ : L}
    {w w' : W} {n : Nat × Nat} (hM : Bystanders M) {c : Call} (hhops : c.hops = 1 ∨ c.hops = 3)
    {as : List AttemptOutcome} {res : Result CircuitResult} {o : Nat → AttemptOutcome}
    (h : M.Counts clientCost exchangeCost ℓ (tracedRequest X c) w (as, res) w' n)
    (hfollows : Follows as o) :
    as = attempts AttemptOutcome.isRetried c.attempts.toNat o ∧
    n = (as.map AttemptOutcome.cost).sum ∧
    ((∃ result, res = .ok result) ↔ ∃ a ∈ as, a.isSuccess = true) := by
  unfold tracedRequest validateHops at h
  rw [if_pos hhops] at h
  exact counts_retryTraced (loopBody_spec hM hhops c.attempts) h hfollows

/-- No handler of a node requests circuits or sends a client's onion. -/
theorem bystanders_reliable {ι ν : Type} [DecidableEq ι] [DecidableEq ν] (N : Net ν) :
    Bystanders (L := Loc ι ν) N.reliable := by
  intro ℓ q
  show (N.serve ℓ q).2.All _ _ _
  unfold Net.serve
  cases N.route q.url with
  | none => trivial
  | some target =>
    obtain ⟨n, endpoint⟩ := target
    have hfoot : N.Footprint n endpoint q.body (fun e => clientCost e = 0) fun _ => True :=
      ⟨clientCost_plain, fun _ _ => rfl, fun _ _ _ => rfl, fun _ _ _ => rfl,
        fun _ _ _ _ _ _ _ _ => rfl, fun _ _ _ _ _ _ => rfl, fun _ _ _ _ _ _ => trivial⟩
    refine ⟨rfl, fun _ => ?_⟩
    show All _ _ _ (N.handle n endpoint ⟨methodPost, N.remoteAddr ℓ.2, q.body⟩ >>= fun resp =>
      .ret (.ok resp : Result Response))
    exact all_bind (Net.all_handle hfoot methodPost (N.remoteAddr ℓ.2)) fun _ _ => trivial

end HopVault
