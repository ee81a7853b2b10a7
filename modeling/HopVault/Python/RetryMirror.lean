import HopVault.Attempts
import HopVault.Python.CircuitClient
import HopVault.Sample

/-! # The two retry drivers

    The docstring of `execute_circuit` says that it retries on set-up and
    send failures and mirrors the driver of the Go client. It retries on
    every failure. The two request the same number of circuits, send the
    same number of onions and agree on success exactly when none of the
    first two attempts ends in a failure the Go driver gives up on. -/

namespace HopVault.Python

open Framework Framework.Json Framework.Prog Framework.Semantics

/-! ## The loop with its outcomes -/

variable (P : Libs) (X : Externals)

/-- `tryCircuit`, with the step that decided it. -/
def stagedTry (directoryURL circuitID : Bytes) (exitLayer : Json) (hops : Int) :
    Go (AttemptOutcome × Result Timed) := do
  match ← getCircuit P directoryURL hops with
  | .error exc => return (.directoryError, .error exc)
  | .ok circuit =>
    let t0 ← perform .now
    match ← setupCircuit P X circuit circuitID hops with
    | .error exc => return (.setupError, .error exc)
    | .ok keys =>
      let setupDone ← perform .now
      match ← buildOnion P X keys exitLayer circuit hops with
      | .error exc => return (.buildError, .error exc)
      | .ok payload =>
        match guardURL P circuit with
        | .error exc => return (.buildError, .error exc)
        | .ok url =>
          let t1 ← perform .now
          perform (.mark .sending)
          match ← sendOnion P url circuitID payload with
          | .error exc => return (.sendError, .error exc)
          | .ok onionResp =>
            let requestDone ← perform .now
            match readAnswer P X keys onionResp hops with
            | .error exc => return (.decryptError, .error exc)
            | .ok exitResp => return (.success, .ok ⟨exitResp, setupDone - t0, requestDone - t1⟩)

/-- To name the step changes nothing. -/
theorem stagedTry_forget (directoryURL circuitID : Bytes) (exitLayer : Json) (hops : Int) :
    (stagedTry P X directoryURL circuitID exitLayer hops >>= fun r => .ret r.2) =
      tryCircuit P X directoryURL circuitID exitLayer hops := by
  -- the two programs differ in what they return only, so they are followed together
  unfold stagedTry tryCircuit
  simp only [perform_eq, op_bind, ret_bind, bind_assoc]
  congr 1
  funext r
  cases r with
  | error exc => rfl
  | ok circuit =>
    dsimp only [op_bind]
    congr 1
    funext t0
    rw [bind_assoc]
    congr 1
    funext r
    cases r with
    | error exc => rfl
    | ok keys =>
      dsimp only [op_bind]
      congr 1
      funext setupDone
      rw [bind_assoc]
      congr 1
      funext r
      cases r with
      | error exc => rfl
      | ok payload =>
        dsimp only
        cases guardURL P circuit with
        | error exc => rfl
        | ok url =>
          dsimp only [op_bind]
          congr 1
          funext t1
          congr 1
          funext _
          rw [bind_assoc]
          congr 1
          funext r
          cases r with
          | error exc => rfl
          | ok onionResp =>
            dsimp only [op_bind]
            congr 1
            funext requestDone
            cases readAnswer P X keys onionResp hops with
            | error exc => rfl
            | ok exitResp => rfl

/-- The body of the loop; what it carries along is the last exception. -/
def attemptBody (directoryURL circuitID : Bytes) (exitLayer : Json) (hops : Int) (_ : Bytes) :
    Go (AttemptOutcome × (Result Timed ⊕ Bytes)) := do
  let r ← stagedTry P X directoryURL circuitID exitLayer hops
  match r.2 with
  | .ok result => return (r.1, .inl (.ok result))
  | .error exc => return (r.1, .inr exc)

/-- The exception when all attempts are used up. -/
def circuitAttemptsFailed (lastErr : Bytes) : Result Timed :=
  .error (lit "all " ++ Decimal.itoa maxCircuitAttempts ++ lit " circuit attempts failed: " ++
    lastErr)

/-- The loop is the retry loop of its body. -/
theorem circuitAttempts_eq_retry (directoryURL circuitID : Bytes) (exitLayer : Json) (hops : Int)
    (left : Nat) (lastErr : Bytes) :
    circuitAttempts P X directoryURL circuitID exitLayer hops left lastErr =
      retry (attemptBody P X directoryURL circuitID exitLayer hops) circuitAttemptsFailed left
        lastErr := by
  induction left generalizing lastErr with
  | zero => rfl
  | succ left ih =>
    unfold circuitAttempts retry attemptBody
    rw [← stagedTry_forget]
    simp only [bind_assoc, ret_bind]
    congr 1
    funext r
    obtain ⟨outcome, result⟩ := r
    cases result with
    | ok result => rfl
    | error exc => exact ih exc

/-- `execute_circuit`, with the outcomes of its attempts. -/
def tracedExecute (directoryURL circuitID : Bytes) (exitLayer : Json) (hops : Int) :
    Go (List AttemptOutcome × Result Timed) :=
  retryTraced (attemptBody P X directoryURL circuitID exitLayer hops) circuitAttemptsFailed
    maxCircuitAttempts (lit "None")

/-- It is the call, and the outcomes are noted down. -/
theorem tracedExecute_forget (directoryURL circuitID : Bytes) (exitLayer : Json) (hops : Int) :
    (tracedExecute P X directoryURL circuitID exitLayer hops >>= fun p => .ret p.2) =
      executeCircuit P X directoryURL circuitID exitLayer hops := by
  unfold tracedExecute executeCircuit
  rw [retryTraced_forget, circuitAttempts_eq_retry]

/-! ## What an attempt costs -/

section

variable {P X} {T : Type}

/-- The operations of a program request no circuit and send no onion. -/
abbrev Free (p : Go T) : Prop := p.All (fun e => clientCost e = 0) (fun _ => True) fun _ => True

theorem free_aesEncrypt (key : Option Bytes) (plaintext : Bytes) :
    Free (aesEncrypt P X key plaintext) := by
  refine ⟨rfl, fun nonce => ?_⟩
  dsimp only [ret_bind]
  cases aesgcm P key <;> trivial

theorem free_buildOnion (keys : Keys) (exitLayer circuit : Json) (hops : Int) :
    Free (buildOnion P X keys exitLayer circuit hops) := by
  unfold buildOnion
  by_cases hhops : hops = 1
  · rw [if_pos hhops]
    exact free_aesEncrypt _ _
  · rw [if_neg hhops]
    -- from the inside out; every failure ends the program
    apply all_bind (free_aesEncrypt _ _)
    intro r _
    cases r with
    | error exc => trivial
    | ok exitCT =>
      dsimp only
      cases hopAddresses P circuit with
      | error exc => trivial
      | ok addrs =>
        apply all_bind (free_aesEncrypt _ _)
        intro r _
        cases r with
        | error exc => trivial
        | ok relayCT => exact free_aesEncrypt _ _

theorem free_sendSetupKey (url circuitID : Bytes) (pem : Json) (key : Bytes) :
    Free (sendSetupKey P X url circuitID pem key) := by
  unfold sendSetupKey
  apply all_bind (T := fun _ => True)
  · -- the key is encrypted first
    unfold rsaEncryptKey
    cases loadPublicKey P pem with
    | error exc => trivial
    | ok pub =>
      simp only [perform_eq, op_bind, ret_bind]
      refine ⟨rfl, fun seed => ?_⟩
      dsimp only
      cases X.encryptOAEP pub seed.1 key <;> trivial
  · intro r _
    cases r with
    | error exc => trivial
    | ok encrypted =>
      -- the one call is a post to the node
      simp only [clientPost_eq, rpc_bind, ret_bind]
      refine ⟨trivial, fun resp => ?_⟩
      cases resp with
      | error exc => trivial
      | ok resp =>
        dsimp only
        split_ifs <;> trivial

theorem free_setupCandidates (circuitID : Bytes) (nodes : List (Json × Bytes)) :
    Free (setupCandidates P X circuitID nodes) := by
  induction nodes with
  | nil => trivial
  | cons node rest ih =>
    obtain ⟨node, key⟩ := node
    unfold setupCandidates
    cases nodeContact P node with
    | error exc => trivial
    | ok contact =>
      apply all_bind (free_sendSetupKey _ _ _ _)
      intro r _
      cases r with
      | error exc => trivial
      | ok _ => exact ih

theorem free_setupCircuit (circuit : Json) (circuitID : Bytes) (hops : Int) :
    Free (setupCircuit P X circuit circuitID hops) := by
  unfold setupCircuit
  -- the keys are drawn, then each candidate is set up in turn
  apply all_bind (T := fun _ => True)
  · unfold generateKeys
    simp only [perform_eq, op_bind, ret_bind]
    refine ⟨rfl, fun guardKey => ?_⟩
    dsimp only
    by_cases hhops : hops = 3
    · rw [if_pos hhops]
      exact ⟨rfl, fun _ => ⟨rfl, fun _ => trivial⟩⟩
    · rw [if_neg hhops]
      trivial
  · intro keys _
    dsimp only
    cases candidates P circuit keys hops with
    | error exc => trivial
    | ok nodes =>
      apply all_bind (free_setupCandidates circuitID nodes)
      intro r _
      cases r <;> trivial

theorem free_sendOnion (url circuitID payload : Bytes) : Free (sendOnion P url circuitID payload) := by
  unfold sendOnion
  simp only [clientPost_eq, rpc_bind, ret_bind]
  refine ⟨trivial, fun resp => ?_⟩
  cases resp with
  | error exc => trivial
  | ok resp =>
    dsimp only
    split_ifs
    · trivial
    · cases P.responseJson resp.body <;> trivial

variable {L W : Type} {M : Semantics Effects L W} {ℓ : L} {w w' : W} {n : Nat × Nat}

/-- The directory is asked for one circuit. -/
theorem counts_getCircuit (hM : Bystanders M) {directoryURL : Bytes} {hops : Int} {r : Result Json}
    (h : M.Counts clientCost exchangeCost ℓ (getCircuit P directoryURL hops) w r w' n) :
    n = (1, 0) := by
  unfold getCircuit at h
  simp only [perform_eq, op_bind, ret_bind] at h
  obtain ⟨m, hrest, rfl⟩ := counts_op.mp h
  -- the fetch itself is booked, and nothing after it is
  have hfree : m = 0 := by
    refine counts_free hM (T := fun _ => True) ?_ hrest
    cases (M.act ℓ (.httpGet (P.prepareURL (directoryURL ++ lit "/circuit") hops)) w).1 with
    | error exc => trivial
    | ok resp =>
      dsimp only
      split_ifs
      · trivial
      · cases P.responseJson resp.body <;> trivial
  rw [hfree]
  rfl

/-- The ways through an attempt, with what each costs. -/
def TryEnds (r : AttemptOutcome × Result Timed) (n : Nat × Nat) : Prop :=
  n = r.1.cost ∧ ((∃ result, r.2 = .ok result) ↔ r.1.isSuccess = true)

theorem tryEnds_error {outcome : AttemptOutcome} (h : outcome.isSuccess = false) (exc : Bytes) :
    TryEnds (outcome, .error exc) outcome.cost := by
  refine ⟨rfl, iff_of_false ?_ (by simp [h])⟩
  rintro ⟨result, hres⟩
  cases hres

theorem counts_stagedTry (hM : Bystanders M) {directoryURL circuitID : Bytes} {exitLayer : Json}
    {hops : Int} {r : AttemptOutcome × Result Timed}
    (h : M.Counts clientCost exchangeCost ℓ (stagedTry P X directoryURL circuitID exitLayer hops)
      w r w' n) : TryEnds r n := by
  unfold stagedTry at h
  -- every attempt fetches one circuit
  obtain ⟨circuit, w₁, n₁, m₁, hget, hrest, rfl⟩ := counts_bind.mp h
  obtain rfl := counts_getCircuit hM hget
  cases circuit with
  | error exc =>
    obtain ⟨rfl, -, rfl⟩ := counts_ret.mp hrest
    exact tryEnds_error rfl exc
  | ok circuit =>
    simp only [perform_eq, op_bind, ret_bind] at hrest
    obtain ⟨m₂, hsetup, rfl⟩ := counts_op.mp hrest
    obtain ⟨keys, w₂, n₂, m₃, hfst, hkeys, rfl⟩ := counts_bind.mp hsetup
    obtain rfl := counts_free hM (free_setupCircuit _ _ _) hfst
    cases keys with
    | error exc =>
      obtain ⟨rfl, -, rfl⟩ := counts_ret.mp hkeys
      exact tryEnds_error rfl exc
    | ok keys =>
      obtain ⟨m₄, hbuild, rfl⟩ := counts_op.mp hkeys
      obtain ⟨payload, w₃, n₃, m₅, hfst, hpayload, rfl⟩ := counts_bind.mp hbuild
      -- neither set-up nor encryption exchanges anything with the destination
      obtain rfl := counts_free hM (free_buildOnion _ _ _ _) hfst
      cases payload with
      | error exc =>
        obtain ⟨rfl, -, rfl⟩ := counts_ret.mp hpayload
        exact tryEnds_error rfl exc
      | ok payload =>
        dsimp only at hpayload
        cases hurl : guardURL P circuit with
        | error exc =>
          rw [hurl] at hpayload
          obtain ⟨rfl, -, rfl⟩ := counts_ret.mp hpayload
          exact tryEnds_error rfl exc
        | ok url =>
          -- the onion is sent, whatever comes of it
          rw [hurl] at hpayload
          obtain ⟨m₆, hmark, rfl⟩ := counts_op.mp hpayload
          obtain ⟨m₇, hsend, rfl⟩ := counts_op.mp hmark
          obtain ⟨resp, w₄, n₄, m₈, hfst, hresp, rfl⟩ := counts_bind.mp hsend
          obtain rfl := counts_free hM (free_sendOnion _ _ _) hfst
          cases resp with
          | error exc =>
            obtain ⟨rfl, -, rfl⟩ := counts_ret.mp hresp
            exact tryEnds_error rfl exc
          | ok onionResp =>
            obtain ⟨m₉, hread, rfl⟩ := counts_op.mp hresp
            dsimp only at hread
            cases hans : readAnswer P X keys onionResp hops with
            | error exc =>
              rw [hans] at hread
              obtain ⟨rfl, -, rfl⟩ := counts_ret.mp hread
              exact tryEnds_error rfl exc
            | ok exitResp =>
              rw [hans] at hread
              obtain ⟨rfl, -, rfl⟩ := counts_ret.mp hread
              exact ⟨rfl, iff_of_true ⟨_, rfl⟩ rfl⟩

/-- What the loop's body does, by the outcome of its attempt: every
    failure is followed by another attempt. -/
theorem attemptBody_spec (hM : Bystanders M) (directoryURL circuitID : Bytes) (exitLayer : Json)
    (hops : Int) :
    AttemptSpec M clientCost exchangeCost ℓ (attemptBody P X directoryURL circuitID exitLayer hops)
      circuitAttemptsFailed (fun a => !a.isSuccess) AttemptOutcome.isSuccess AttemptOutcome.cost
      (fun r => ∃ result, r = .ok result) := by
  -- an attempt costs what its outcome says, and is final exactly on a success
  have hbody {s : Bytes} {w w' : W} {r : AttemptOutcome × (Result Timed ⊕ Bytes)} {n : Nat × Nat}
      (h : M.Counts clientCost exchangeCost ℓ
        (attemptBody P X directoryURL circuitID exitLayer hops s) w r w' n) :
      n = r.1.cost ∧ match r.2 with
        | .inl b => r.1.isSuccess = true ∧ ∃ result, b = .ok result
        | .inr _ => r.1.isSuccess = false := by
    obtain ⟨⟨outcome, result⟩, w₁, n₁, n₂, htry, hend, rfl⟩ := counts_bind.mp h
    obtain ⟨rfl, hok⟩ := counts_stagedTry hM htry
    cases result with
    | ok result =>
      obtain ⟨rfl, -, rfl⟩ := counts_ret.mp hend
      exact ⟨rfl, hok.mp ⟨_, rfl⟩, _, rfl⟩
    | error exc =>
      obtain ⟨rfl, -, rfl⟩ := counts_ret.mp hend
      refine ⟨rfl, ?_⟩
      by_contra hsuccess
      obtain ⟨result, hres⟩ := hok.mpr (by simpa using hsuccess)
      cases hres
  constructor
  · intro s w r w' n h
    exact (hbody h).1
  · intro s w a b w' n h
    obtain ⟨-, hgood, hok⟩ := hbody h
    exact ⟨by simpa using hgood, iff_of_true hok hgood⟩
  · intro s w a s' w' n h
    obtain ⟨-, hbad⟩ := hbody h
    exact ⟨by simpa using hbad, hbad⟩
  · rintro s ⟨result, hres⟩
    cases hres

end

/-! ## The two drivers on one sequence of outcomes -/

/-- A failure the Go driver gives up on. -/
def isFinalFailure (a : AttemptOutcome) : Bool := !a.isRetried && !a.isSuccess

/-- Neither of the first two attempts, when it is reached, ends in a
    failure the Go driver gives up on. -/
def Mirrors (o : Nat → AttemptOutcome) : Prop :=
  ∀ k < 2, (∀ j < k, (o j).isRetried = true) → isFinalFailure (o k) = false

theorem isRetried_imp (a : AttemptOutcome) : a.isRetried = true → (!a.isSuccess) = true := by
  cases a <;> decide

theorem isFinalFailure_eq_false (a : AttemptOutcome) :
    isFinalFailure a = false ↔ (!a.isSuccess) = a.isRetried := by
  cases a <;> decide

/-- The two drivers make the same attempts. -/
theorem attempts_eq_iff_mirrors (o : Nat → AttemptOutcome) :
    attempts AttemptOutcome.isRetried 3 o = attempts (fun a => !a.isSuccess) 3 o ↔ Mirrors o := by
  rw [attempts_eq_iff isRetried_imp]
  constructor
  · intro h k hk hreached
    exact (isFinalFailure_eq_false _).mpr (h k (by omega) hreached)
  · intro h k hk hreached
    exact (isFinalFailure_eq_false _).mp (h k (by omega) hreached)

/-- So many attempts request so many circuits. -/
theorem sum_cost_fst (as : List AttemptOutcome) :
    (as.map AttemptOutcome.cost).sum.1 = as.length := by
  induction as with
  | nil => rfl
  | cons a as ih =>
    have ha : a.cost.1 = 1 := by cases a <;> rfl
    rw [List.map_cons, List.sum_cons, Prod.fst_add, ih, ha, List.length_cons, Nat.add_comm]

/-- A call of the Go client with three attempts, and one of the Python
    client, whose attempts end as one sequence says: they request the same
    number of circuits, send the same number of onions, and both succeed
    or both fail, exactly if none of the first two attempts that are made
    ends in a directory, build or decryption error. -/
theorem retry_mirrors_iff {X : Externals} {P : Libs} {L₁ W₁ L₂ W₂ : Type}
    {M₁ : Semantics Effects L₁ W₁} {M₂ : Semantics Effects L₂ W₂} (hM₁ : Bystanders M₁)
    (hM₂ : Bystanders M₂) {c : Call} (hhops : c.hops = 1 ∨ c.hops = 3) (hmax : c.maxAttempts = 3)
    {directoryURL circuitID : Bytes} {exitLayer : Json} {o : Nat → AttemptOutcome} {ℓ₁ : L₁}
    {w₁ w₁' : W₁} {as₁ : List AttemptOutcome} {res₁ : Result CircuitResult} {n₁ : Nat × Nat}
    (hgo : M₁.Counts clientCost exchangeCost ℓ₁ (tracedRequest X c) w₁ (as₁, res₁) w₁' n₁)
    (hfollows₁ : Follows as₁ o) {ℓ₂ : L₂} {w₂ w₂' : W₂} {as₂ : List AttemptOutcome}
    {res₂ : Result Timed} {n₂ : Nat × Nat}
    (hpython : M₂.Counts clientCost exchangeCost ℓ₂
      (tracedExecute P X directoryURL circuitID exitLayer c.hops) w₂ (as₂, res₂) w₂' n₂)
    (hfollows₂ : Follows as₂ o) :
    (n₁ = n₂ ∧ ((∃ result, res₁ = .ok result) ↔ ∃ result, res₂ = .ok result)) ↔ Mirrors o := by
  obtain ⟨has₁, hn₁, hok₁⟩ := counts_tracedRequest hM₁ hhops hgo hfollows₁
  obtain ⟨has₂, hn₂, hok₂⟩ :=
    counts_retryTraced (attemptBody_spec hM₂ directoryURL circuitID exitLayer c.hops) hpython
      hfollows₂
  have hthree : c.attempts.toNat = 3 := by
    unfold Call.attempts
    rw [hmax]
    rfl
  rw [hthree] at has₁
  rw [← attempts_eq_iff_mirrors, ← has₁]
  -- the Go loop never goes on where the Python loop stops
  have hfront : as₁ <+: as₂ := by
    rw [has₁, has₂]
    exact attempts_prefix isRetried_imp 3 o
  constructor
  · rintro ⟨hn, -⟩
    -- the number of circuits is the number of attempts
    have hlength : as₁.length = as₂.length := by
      rw [← sum_cost_fst, ← sum_cost_fst, ← hn₁, ← hn₂, hn]
    rw [hfront.eq_of_length hlength]
    exact has₂
  · intro hsame
    have heq : as₁ = as₂ := hsame.trans has₂.symm
    refine ⟨by rw [hn₁, hn₂, heq], ?_⟩
    rw [hok₁, hok₂, heq]

/-! ## Runs of both over the sample network -/

namespace Sample

open HopVault.Sample

/-- Libraries that read what the nodes and the directory send. -/
def libs : Libs where
  prepareURL url hops := url ++ lit "?hops=" ++ Decimal.itoa hops
  responseJson := Json.parse
  responseText body := body
  loadPublicKey := some
  formatFloat l := l
  floatIsZero _ := false
  repr _ := []
  raised operation _ := lit operation

/-- The directory cannot be reached at the `k`-th choice of a location. -/
def flaky (k : Nat) : World Unit Node :=
  { start with
    oracle _ m :=
      { choice m with
        get url := if m = k then .error (lit "connection refused") else (choice m).get url } }

/-- The request as a dict. -/
def dict : Json :=
  .obj [(lit "url", .str layer.url), (lit "method", .str layer.method), (lit "headers", .obj []),
    (lit "body", .null)]

/-- A call of the Go client with the default number of attempts. -/
def goCall : Call := { HopVault.Sample.call with hops := 1, maxAttempts := 3 }

/-- The first circuit has a guard that is gone, and the guard of the second
    cannot reach the destination. -/
def troubled (k : Nat) : World Unit Node :=
  { start with
    oracle _ m :=
      { choice m with
        get url :=
          if m = k then .ok (directory { circuit with guard := { record .guard with host := lit "x" } })
          else (choice m).get url
        dest req :=
          if m < 7 then .unreachable (lit "connection refused") else (choice m).dest req } }

/-- What an execution returns is what the client counts. -/
theorem counts_of_exec {α : Type} {fuel : Nat} {p : Go (List AttemptOutcome × α)}
    {w : World Unit Node} {as : List AttemptOutcome}
    (hexec : (net.reliable.exec fuel ((), .client) p w).map (fun out => out.1.1) = some as) :
    ∃ res w' n, net.reliable.Counts clientCost exchangeCost ((), .client) p w (as, res) w' n := by
  obtain ⟨⟨⟨as', res⟩, w'⟩, hret, rfl⟩ := Option.map_eq_some_iff.mp hexec
  obtain ⟨n, hn⟩ := (returns_of_exec hret).counts clientCost exchangeCost
  exact ⟨res, w', n, hn⟩

-- the Go client asks with its second operation, the Python client with its first
theorem go_flaky : ∃ res w' n,
    net.reliable.Counts clientCost exchangeCost ((), .client) (tracedRequest externals goCall)
      (flaky 1) ([.directoryError], res) w' n :=
  @counts_of_exec _ 3 _ _ _ (by decide +kernel)

theorem python_flaky : ∃ res w' n,
    net.reliable.Counts clientCost exchangeCost ((), .client)
      (tracedExecute libs externals [] (lit "c1") dict 1) (flaky 0)
      ([.directoryError, .success], res) w' n :=
  @counts_of_exec _ 3 _ _ _ (by decide +kernel)

theorem go_troubled : ∃ res w' n,
    net.reliable.Counts clientCost exchangeCost ((), .client) (tracedRequest externals goCall)
      (troubled 1) ([.setupError, .sendError, .success], res) w' n :=
  @counts_of_exec _ 3 _ _ _ (by decide +kernel)

theorem python_troubled : ∃ res w' n,
    net.reliable.Counts clientCost exchangeCost ((), .client)
      (tracedExecute libs externals [] (lit "c1") dict 1) (troubled 0)
      ([.setupError, .sendError, .success], res) w' n :=
  @counts_of_exec _ 3 _ _ _ (by decide +kernel)

end Sample

/-- The first attempt of both finds the directory unreachable. The Go
    client gives up; the Python client fetches a second circuit over which
    it succeeds. -/
theorem retry_mirrors_counterexample : ∃ (o : Nat → AttemptOutcome) (as₁ as₂ : List AttemptOutcome)
    (res₁ : Result CircuitResult) (res₂ : Result Timed)
    (w₁ w₂ w₁' w₂' : World Unit HopVault.Sample.Node),
    Sample.goCall.maxAttempts = 3 ∧ Sample.goCall.hops = 1 ∧
    HopVault.Sample.net.reliable.Counts clientCost exchangeCost ((), .client)
      (tracedRequest HopVault.Sample.externals Sample.goCall) w₁ (as₁, res₁) w₁' (1, 0) ∧
    Follows as₁ o ∧ (¬∃ result, res₁ = .ok result) ∧
    HopVault.Sample.net.reliable.Counts clientCost exchangeCost ((), .client)
      (tracedExecute Sample.libs HopVault.Sample.externals [] (lit "c1") Sample.dict
        Sample.goCall.hops) w₂ (as₂, res₂) w₂' (2, 1) ∧
    Follows as₂ o ∧ ∃ result, res₂ = .ok result := by
  obtain ⟨res₁, w₁', n₁, hrun₁⟩ := Sample.go_flaky
  obtain ⟨res₂, w₂', n₂, hrun₂⟩ := Sample.python_flaky
  have hM : Bystanders (L := Loc Unit HopVault.Sample.Node) HopVault.Sample.net.reliable :=
    bystanders_reliable _
  have hfollows₁ : Follows [AttemptOutcome.directoryError]
      fun k => if k = 0 then .directoryError else .success :=
    follows_cons.mpr ⟨rfl, fun k hk => absurd hk (by simp)⟩
  have hfollows₂ : Follows [AttemptOutcome.directoryError, .success]
      fun k => if k = 0 then .directoryError else .success :=
    follows_cons.mpr ⟨rfl, follows_cons.mpr ⟨rfl, fun k hk => absurd hk (by simp)⟩⟩
  obtain ⟨-, hn₁, hok₁⟩ := counts_tracedRequest hM (.inl rfl) hrun₁ hfollows₁
  obtain ⟨-, hn₂, hok₂⟩ := counts_retryTraced (attemptBody_spec hM [] _ _ _) hrun₂ hfollows₂
  obtain rfl : n₁ = (1, 0) := hn₁.trans (by decide)
  obtain rfl : n₂ = (2, 1) := hn₂.trans (by decide)
  refine ⟨_, _, _, res₁, res₂, _, _, w₁', w₂', rfl, rfl, hrun₁, hfollows₁, ?_, hrun₂,
    hfollows₂, hok₂.mpr (by decide)⟩
  intro hok
  exact absurd (hok₁.mp hok) (by decide)

/-- A circuit that cannot be set up, one over which the destination is out
    of reach, and one over which both succeed: two onions over three
    circuits. -/
theorem retry_mirrors_iff_sample : ∃ (as₁ as₂ : List AttemptOutcome) (res₁ : Result CircuitResult)
    (res₂ : Result Timed) (w₁ w₂ w₁' w₂' : World Unit HopVault.Sample.Node) (n₁ n₂ : Nat × Nat),
    HopVault.Sample.net.reliable.Counts clientCost exchangeCost ((), .client)
      (tracedRequest HopVault.Sample.externals Sample.goCall) w₁ (as₁, res₁) w₁' n₁ ∧
    HopVault.Sample.net.reliable.Counts clientCost exchangeCost ((), .client)
      (tracedExecute Sample.libs HopVault.Sample.externals [] (lit "c1") Sample.dict
        Sample.goCall.hops) w₂ (as₂, res₂) w₂' n₂ ∧
    as₁ = [.setupError, .sendError, .success] ∧ n₁ = (3, 2) ∧ (∃ result, res₁ = .ok result) ∧
    n₁ = n₂ ∧ ((∃ result, res₁ = .ok result) ↔ ∃ result, res₂ = .ok result) := by
  obtain ⟨res₁, w₁', n₁, hrun₁⟩ := Sample.go_troubled
  obtain ⟨res₂, w₂', n₂, hrun₂⟩ := Sample.python_troubled
  have hfollows : Follows [AttemptOutcome.setupError, .sendError, .success]
      fun k => if k = 0 then .setupError else if k = 1 then .sendError else .success :=
    follows_cons.mpr ⟨rfl, follows_cons.mpr ⟨rfl, follows_cons.mpr
      ⟨rfl, fun k hk => absurd hk (by simp)⟩⟩⟩
  obtain ⟨-, hn₁, hok₁⟩ := counts_tracedRequest (bystanders_reliable _) (.inl rfl) hrun₁ hfollows
  refine ⟨_, _, res₁, res₂, _, _, w₁', w₂', n₁, n₂, hrun₁, hrun₂, rfl, hn₁.trans (by decide),
    hok₁.mpr (by decide), ?_⟩
  refine (retry_mirrors_iff (bystanders_reliable _) (bystanders_reliable _) (.inl rfl) rfl hrun₁
    hfollows hrun₂ hfollows).mpr ?_
  -- both failures are ones that both drivers retry
  intro k hk _
  rcases Nat.lt_succ_iff_lt_or_eq.mp hk with hk | rfl
  · rw [Nat.lt_one_iff.mp hk]
    rfl
  · rfl

end HopVault.Python
