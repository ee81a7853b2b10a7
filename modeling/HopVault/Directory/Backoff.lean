import HopVault.Directory.Node
import HopVault.Framework.History

/-! # Registration with back-off

    `StartWithBackoff` of `shared/node/registration.go`: a node registers
    until it succeeds once, waits longer after each failure, up to a
    minute, and starts its heartbeats. The context may be cancelled at any
    time; the loop sees it only while it waits. -/

namespace HopVault.Directory.Backoff

open Framework Framework.Decimal

/-! ## Durations -/

/-- `time.Second`, in nanoseconds. -/
def second : Int64 := 1000000000

def maxBackoff : Int64 := 60 * second

/-- What the back-off becomes after a wait. -/
def nextBackoff (backoff : Int64) : Int64 :=
  let backoff := backoff * 2
  if maxBackoff < backoff then maxBackoff else backoff

/-- `fmtFrac`: the last `prec` digits after a point, without the zeros at
    their end. -/
def fmtFrac (v prec : Nat) : Bytes :=
  let ds := digits (v % 10 ^ prec)
  let padded := List.replicate (prec - ds.length) 48 ++ ds
  match (padded.reverse.dropWhile (· == 48)).reverse with
  | [] => []
  | ds => 46 :: ds

/-- `Duration.String`. -/
def durationString (d : Int64) : Bytes :=
  let u := d.toInt.natAbs
  let seconds := u / 10 ^ 9
  let text :=
    if u = 0 then lit "0s"
    else if u < 10 ^ 3 then digits u ++ lit "ns"
    else if u < 10 ^ 6 then digits (u / 10 ^ 3) ++ fmtFrac u 3 ++ lit "µs"
    else if u < 10 ^ 9 then digits (u / 10 ^ 6) ++ fmtFrac u 6 ++ lit "ms"
    else
      (if 3600 ≤ seconds then digits (seconds / 3600) ++ lit "h" else []) ++
      (if 60 ≤ seconds then digits (seconds / 60 % 60) ++ lit "m" else []) ++
      digits (seconds % 60) ++ fmtFrac u 9 ++ lit "s"
  if d < 0 then 45 :: text else text

example : durationString maxBackoff = lit "1m0s" := by decide +kernel

/-! ## The schedule -/

/-- `min(2^n, 60)` seconds. -/
def wait (n : Nat) : Int64 := Int64.ofNat (min (2 ^ n) 60 * 10 ^ 9)

theorem toInt_wait (n : Nat) : (wait n).toInt = min (2 ^ n) 60 * 10 ^ 9 := by
  unfold wait
  rw [Int64.toInt_ofNat_of_lt (by omega)]
  push_cast
  rfl

/-- From the seventh wait on the cap counts. -/
theorem wait_of_le {n : Nat} (h : 6 ≤ n) : wait n = maxBackoff := by
  have hpow : 2 ^ 6 ≤ 2 ^ n := Nat.pow_le_pow_right (by decide) h
  have hmin : min (2 ^ n) 60 = 60 := by omega
  unfold wait
  rw [hmin]
  decide

theorem wait_zero : wait 0 = second := by decide

theorem nextBackoff_wait (n : Nat) : nextBackoff (wait n) = wait (n + 1) := by
  by_cases h : n < 6
  · have hall : ∀ n : Fin 6, nextBackoff (wait n) = wait (n + 1) := by decide
    exact hall ⟨n, h⟩
  · rw [wait_of_le (by omega), wait_of_le (by omega)]
    decide

/-- Before the cap is applied, twice a wait is still far from the largest
    duration. -/
theorem wait_double (n : Nat) : (wait n * 2).toInt = (wait n).toInt * 2 := by
  by_cases h : n < 6
  · have hall : ∀ n : Fin 6, (wait n * 2).toInt = (wait n).toInt * 2 := by decide
    exact hall ⟨n, h⟩
  · rw [wait_of_le (by omega)]
    decide

/-! ## The loop -/

/-- Where the loop stands. -/
inductive Point where
  /-- About to call `Register`. -/
  | register
  /-- `Register` has returned an error. -/
  | failed (err : Bytes)
  /-- About to wait. -/
  | logged
  /-- In the `select`. -/
  | waiting
  /-- `Register` has succeeded. -/
  | registered
  /-- About to call `StartHeartbeat`. -/
  | starting
  | returned
  deriving DecidableEq, Repr

structure Loop where
  point : Point
  backoff : Int64
  /-- The context has been cancelled. -/
  cancelled : Bool
  deriving DecidableEq, Repr

def start (cancelled : Bool) : Loop := ⟨.register, second, cancelled⟩

inductive Event where
  /-- The context is cancelled from outside. -/
  | cancel
  /-- `Register` returns, with or without an error. -/
  | register (outcome : Option Bytes)
  | log (line : Bytes)
  /-- The `select` begins, with a timer for this long. -/
  | wait (backoff : Int64)
  /-- The timer fires. -/
  | elapsed
  /-- `ctx.Done()` is received. -/
  | done
  | startHeartbeat
  deriving DecidableEq, Repr

variable (cfg : NodeRegistration)

def registeredLine : Bytes :=
  lit "[" ++ cfg.nodeType ++ lit "] registered with directory server (nodeId=" ++ cfg.nodeID ++
    lit " host=" ++ cfg.host ++ lit " port=" ++ itoa cfg.port.toInt ++ lit ")"

def failedLine (err : Bytes) (backoff : Int64) : Bytes :=
  lit "[" ++ cfg.nodeType ++ lit "] registration failed: " ++ err ++ lit " — retrying in " ++
    durationString backoff

/-- One step of the loop, or the cancellation of its context. -/
inductive Step : Loop → Event → Loop → Prop
  | cancel {s : Loop} : Step s .cancel { s with cancelled := true }
  | failed {backoff : Int64} {cancelled : Bool} (err : Bytes) :
      Step ⟨.register, backoff, cancelled⟩ (.register (some err)) ⟨.failed err, backoff, cancelled⟩
  | logFailed {backoff : Int64} {cancelled : Bool} {err : Bytes} :
      Step ⟨.failed err, backoff, cancelled⟩ (.log (failedLine cfg err backoff))
        ⟨.logged, backoff, cancelled⟩
  | wait {backoff : Int64} {cancelled : Bool} :
      Step ⟨.logged, backoff, cancelled⟩ (.wait backoff) ⟨.waiting, backoff, cancelled⟩
  | elapsed {backoff : Int64} {cancelled : Bool} :
      Step ⟨.waiting, backoff, cancelled⟩ .elapsed ⟨.register, nextBackoff backoff, cancelled⟩
  | done {backoff : Int64} : Step ⟨.waiting, backoff, true⟩ .done ⟨.returned, backoff, true⟩
  | registered {backoff : Int64} {cancelled : Bool} :
      Step ⟨.register, backoff, cancelled⟩ (.register none) ⟨.registered, backoff, cancelled⟩
  | logRegistered {backoff : Int64} {cancelled : Bool} :
      Step ⟨.registered, backoff, cancelled⟩ (.log (registeredLine cfg))
        ⟨.starting, backoff, cancelled⟩
  | startHeartbeat {backoff : Int64} {cancelled : Bool} :
      Step ⟨.starting, backoff, cancelled⟩ .startHeartbeat ⟨.returned, backoff, cancelled⟩

/-! ## What a run does -/

/-- What the loop does itself. -/
def actions (h : List Event) : List Event := h.filter (· ≠ .cancel)

@[simp] theorem actions_nil : actions [] = [] := rfl

@[simp] theorem actions_append (h₁ h₂ : List Event) :
    actions (h₁ ++ h₂) = actions h₁ ++ actions h₂ := List.filter_append ..

theorem mem_actions {h : List Event} {e : Event} (he : e ≠ .cancel) : e ∈ actions h ↔ e ∈ h := by
  simp [actions, he]

/-- One round, after `n` others. -/
def round (n : Nat) (err : Bytes) : List Event :=
  [.register (some err), .log (failedLine cfg err (wait n)), .wait (wait n), .elapsed]

/-- Rounds that fail with these errors, after `n` others. -/
def rounds : Nat → List Bytes → List Event
  | _, [] => []
  | n, err :: errs => round cfg n err ++ rounds (n + 1) errs

theorem rounds_snoc (n : Nat) (errs : List Bytes) (err : Bytes) :
    rounds cfg n (errs ++ [err]) = rounds cfg n errs ++ round cfg (n + errs.length) err := by
  induction errs generalizing n with
  | nil => simp [rounds]
  | cons e errs ih =>
    rw [List.cons_append, rounds, ih, rounds, List.append_assoc, List.length_cons,
      Nat.add_right_comm, Nat.add_assoc n]

/-- In a round nothing is started. -/
theorem not_mem_rounds {e : Event} (he : e = .startHeartbeat ∨ e = .register none ∨ e = .done)
    (n : Nat) (errs : List Bytes) : e ∉ rounds cfg n errs := by
  induction errs generalizing n with
  | nil => simp [rounds]
  | cons err errs ih =>
    rw [rounds, List.mem_append, not_or]
    refine ⟨?_, ih _⟩
    rcases he with rfl | rfl | rfl <;> simp [round]

/-- What follows `n` rounds, up to a point of the loop. -/
inductive Ending (n : Nat) : Point → List Event → Prop
  | register : Ending n .register []
  | failed (err : Bytes) : Ending n (.failed err) [.register (some err)]
  | logged (err : Bytes) :
      Ending n .logged [.register (some err), .log (failedLine cfg err (wait n))]
  | waiting (err : Bytes) :
      Ending n .waiting
        [.register (some err), .log (failedLine cfg err (wait n)), .wait (wait n)]
  | stopped (err : Bytes) :
      Ending n .returned
        [.register (some err), .log (failedLine cfg err (wait n)), .wait (wait n), .done]
  | registered : Ending n .registered [.register none]
  | starting : Ending n .starting [.register none, .log (registeredLine cfg)]
  | started :
      Ending n .returned [.register none, .log (registeredLine cfg), .startHeartbeat]

/-- The loop has gone through rounds that failed, and `errs` are their
    errors. -/
structure Script (errs : List Bytes) (h : List Event) (s : Loop) : Prop where
  shape : ∃ ending, actions h = rounds cfg 0 errs ++ ending ∧
    Ending cfg errs.length s.point ending
  backoff : s.backoff = wait errs.length

variable {cfg}

/-- **Step**: every step goes on with the script. -/
theorem Script.step {errs : List Bytes} {h : List Event} {s s' : Loop} {e : Event}
    (hs : Script cfg errs h s) (hstep : Step cfg s e s') :
    ∃ errs', Script cfg errs' (h ++ [e]) s' := by
  obtain ⟨⟨ending, hactions, hending⟩, hbackoff⟩ := hs
  -- a step of the loop adds itself to the ending
  have hsnoc (he : actions [e] = [e]) :
      actions (h ++ [e]) = rounds cfg 0 errs ++ (ending ++ [e]) := by
    rw [actions_append, hactions, he, List.append_assoc]
  cases hstep with
  | cancel =>
    -- a cancellation is no action of the loop
    refine ⟨errs, ⟨ending, ?_, hending⟩, hbackoff⟩
    rw [actions_append, hactions]
    exact List.append_nil _
  | failed err =>
    cases hending
    exact ⟨errs, ⟨_, hsnoc rfl, .failed err⟩, hbackoff⟩
  | logFailed =>
    obtain rfl : _ = wait _ := hbackoff
    cases hending
    exact ⟨errs, ⟨_, hsnoc rfl, .logged _⟩, rfl⟩
  | wait =>
    obtain rfl : _ = wait _ := hbackoff
    cases hending
    exact ⟨errs, ⟨_, hsnoc rfl, .waiting _⟩, rfl⟩
  | elapsed =>
    obtain rfl : _ = wait _ := hbackoff
    -- the wait ends a round, so the doubling of the next one is due
    cases hending with
    | waiting err =>
      -- the round is over
      refine ⟨errs ++ [err], ⟨[], ?_, .register⟩, ?_⟩
      · rw [hsnoc rfl, rounds_snoc, Nat.zero_add, List.append_nil]
        rfl
      · rw [List.length_append, List.length_singleton]
        exact nextBackoff_wait _
  | done =>
    cases hending with
    | waiting err => exact ⟨errs, ⟨_, hsnoc rfl, .stopped err⟩, hbackoff⟩
  | registered =>
    cases hending
    exact ⟨errs, ⟨_, hsnoc rfl, .registered⟩, hbackoff⟩
  | logRegistered =>
    cases hending
    exact ⟨errs, ⟨_, hsnoc rfl, .starting⟩, hbackoff⟩
  | startHeartbeat =>
    cases hending
    exact ⟨errs, ⟨_, hsnoc rfl, .started⟩, hbackoff⟩

/-- **Run**: so does every run. -/
theorem script_of_run {cancelled : Bool} {h : List Event} {s : Loop}
    (hrun : Steps (Step cfg) (start cancelled) h s) : ∃ errs, Script cfg errs h s := by
  induction hrun with
  | nil => exact ⟨[], ⟨[], rfl, .register⟩, wait_zero.symm⟩
  | snoc _ hstep ih =>
    obtain ⟨errs, hs⟩ := ih
    exact hs.step hstep

/-- Nothing follows a return. -/
theorem actions_of_returned {h : List Event} {s s' : Loop} (hrun : Steps (Step cfg) s h s')
    (hs : s.point = .returned) : actions h = [] ∧ s'.point = .returned := by
  induction hrun with
  | nil => exact ⟨rfl, hs⟩
  | snoc _ hstep ih =>
    obtain ⟨hactions, hpoint⟩ := ih
    cases hstep with
    | cancel => exact ⟨by rw [actions_append, hactions]; rfl, hpoint⟩
    | _ => cases hpoint

/-- After a successful registration come its log line and the heartbeats. -/
theorem actions_of_registered {h : List Event} {s s' : Loop} (hrun : Steps (Step cfg) s h s')
    (hs : s.point = .registered) :
    s'.point = .registered ∧ actions h = [] ∨
    s'.point = .starting ∧ actions h = [.log (registeredLine cfg)] ∨
    s'.point = .returned ∧ actions h = [.log (registeredLine cfg), .startHeartbeat] := by
  -- three points are left once Register has succeeded, and only a cancellation keeps one
  induction hrun with
  | nil => exact .inl ⟨hs, rfl⟩
  | snoc _ hstep ih =>
    rw [actions_append]
    rcases ih with ⟨hpoint, hactions⟩ | ⟨hpoint, hactions⟩ | ⟨hpoint, hactions⟩
    · cases hstep with
      | cancel => exact .inl ⟨hpoint, by rw [hactions]; rfl⟩
      | logRegistered => exact .inr (.inl ⟨rfl, by rw [hactions]; rfl⟩)
      | _ => cases hpoint
    · cases hstep with
      | cancel => exact .inr (.inl ⟨hpoint, by rw [hactions]; rfl⟩)
      | startHeartbeat => exact .inr (.inr ⟨rfl, by rw [hactions]; rfl⟩)
      | _ => cases hpoint
    · cases hstep with
      | cancel => exact .inr (.inr ⟨hpoint, by rw [hactions]; rfl⟩)
      | _ => cases hpoint

/-- Until it has returned the loop can go on. -/
theorem can_step {s : Loop} (h : s.point ≠ .returned) : ∃ e s', e ≠ .cancel ∧ Step cfg s e s' := by
  obtain ⟨point, backoff, cancelled⟩ := s
  cases point with
  | register => exact ⟨_, _, by simp, .registered⟩
  | failed err => exact ⟨_, _, by simp, .logFailed⟩
  | logged => exact ⟨_, _, by simp, .wait⟩
  | waiting => exact ⟨_, _, by simp, .elapsed⟩
  | registered => exact ⟨_, _, by simp, .logRegistered⟩
  | starting => exact ⟨_, _, by simp, .startHeartbeat⟩
  | returned => exact absurd rfl h

variable (cfg) in
/-- Whatever the errors are, they can be gone through. -/
theorem run_rounds (errs : List Bytes) (cancelled : Bool) :
    Steps (Step cfg) (start cancelled) (rounds cfg 0 errs)
      ⟨.register, wait errs.length, cancelled⟩ := by
  induction errs using List.reverseRecOn with
  | nil =>
    rw [List.length_nil, wait_zero]
    exact .nil
  | append_singleton errs err ih =>
    rw [rounds_snoc, Nat.zero_add, List.length_append, List.length_singleton, ← nextBackoff_wait]
    have hround : Steps (Step cfg) ⟨.register, wait errs.length, cancelled⟩
        (round cfg errs.length err) ⟨.register, nextBackoff (wait errs.length), cancelled⟩ :=
      (((Steps.single (.failed err)).snoc .logFailed).snoc .wait).snoc .elapsed
    exact ih.append hround

/-! ## Events of a run -/

section

variable {cancelled : Bool} {h₁ h₂ : List Event} {e : Event} {s : Loop}

/-- Before an event the loop has followed the script, and after it the loop
    goes on from where the event has led. -/
theorem script_at (hrun : Steps (Step cfg) (start cancelled) (h₁ ++ e :: h₂) s) :
    ∃ s₁ s₂ errs ending, Step cfg s₁ e s₂ ∧ Steps (Step cfg) s₂ h₂ s ∧
      actions h₁ = rounds cfg 0 errs ++ ending ∧ Ending cfg errs.length s₁.point ending := by
  obtain ⟨s₁, s₂, hrun₁, hstep, hrun₂⟩ := hrun.of_append_cons
  obtain ⟨errs, hs⟩ := script_of_run hrun₁
  obtain ⟨ending, hactions, hending⟩ := hs.shape
  exact ⟨s₁, s₂, errs, ending, hstep, hrun₂, hactions, hending⟩

/-- The heartbeats are started after a success, and that is the end. -/
theorem actions_around_startHeartbeat
    (hrun : Steps (Step cfg) (start cancelled) (h₁ ++ .startHeartbeat :: h₂) s) :
    (∃ errs, actions h₁ = rounds cfg 0 errs ++ [.register none, .log (registeredLine cfg)]) ∧
      actions h₂ = [] := by
  obtain ⟨s₁, s₂, errs, ending, hstep, hrun₂, hactions, hending⟩ := script_at hrun
  cases hstep
  cases hending
  exact ⟨⟨errs, hactions⟩, (actions_of_returned hrun₂ rfl).1⟩

/-- A success comes after rounds that failed, and is followed by its log line
    and the heartbeats. -/
theorem actions_around_success
    (hrun : Steps (Step cfg) (start cancelled) (h₁ ++ .register none :: h₂) s) :
    (∃ errs, actions h₁ = rounds cfg 0 errs) ∧
      actions h₂ <+: [.log (registeredLine cfg), .startHeartbeat] ∧
      (s.point = .returned → .startHeartbeat ∈ h₂) := by
  obtain ⟨s₁, s₂, errs, ending, hstep, hrun₂, hactions, hending⟩ := script_at hrun
  cases hstep
  cases hending
  rw [List.append_nil] at hactions
  refine ⟨⟨errs, hactions⟩, ?_⟩
  -- the log line and the heartbeat loop follow, in this order
  rcases actions_of_registered hrun₂ rfl with ⟨hp, ha⟩ | ⟨hp, ha⟩ | ⟨hp, ha⟩
  · constructor
    · rw [ha]
      exact List.nil_prefix
    · intro hreturned
      rw [hp] at hreturned
      cases hreturned
  · constructor
    · rw [ha]
      exact ⟨[.startHeartbeat], rfl⟩
    · intro hreturned
      rw [hp] at hreturned
      cases hreturned
  · constructor
    · rw [ha]
    · intro _
      rw [← mem_actions (by simp), ha]
      simp

/-- A wait that sees the cancellation is the end, and no heartbeats have been
    started. -/
theorem actions_around_done
    (hrun : Steps (Step cfg) (start cancelled) (h₁ ++ .done :: h₂) s) :
    .startHeartbeat ∉ h₁ ∧ actions h₂ = [] := by
  obtain ⟨s₁, s₂, errs, ending, hstep, hrun₂, hactions, hending⟩ := script_at hrun
  cases hstep
  refine ⟨?_, (actions_of_returned hrun₂ rfl).1⟩
  rw [← mem_actions (by simp), hactions, List.mem_append, not_or]
  refine ⟨not_mem_rounds cfg (.inl rfl) 0 errs, ?_⟩
  -- the round that the cancellation breaks off starts nothing either
  cases hending
  simp

end

/-- **The back-off schedule.** A run goes through rounds that fail, the
    `n`-th of which waits `min(2^(n-1), 60)` seconds, and ends with a round
    that succeeds or whose wait sees the cancellation. -/
theorem backoff_schedule {cancelled : Bool} {h : List Event} {s : Loop}
    (hrun : Steps (Step cfg) (start cancelled) h s) :
    (∃ errs ending, actions h = rounds cfg 0 errs ++ ending ∧
      Ending cfg errs.length s.point ending) ∧
    -- the durations, and that no doubling overflows
    (∀ n, (wait n).toInt = min (2 ^ n) 60 * 10 ^ 9 ∧
      (wait n * 2).toInt = (wait n).toInt * 2) ∧
    -- the heartbeats are started once, by the first success
    (∀ h₁ h₂, h = h₁ ++ .startHeartbeat :: h₂ →
      (∃ errs, actions h₁ = rounds cfg 0 errs ++ [.register none, .log (registeredLine cfg)]) ∧
      actions h₂ = []) ∧
    (∀ h₁ h₂, h = h₁ ++ .register none :: h₂ →
      (∃ errs, actions h₁ = rounds cfg 0 errs) ∧
      actions h₂ <+: [.log (registeredLine cfg), .startHeartbeat] ∧
      (s.point = .returned → .startHeartbeat ∈ h₂)) ∧
    -- a cancellation that the wait sees is the end
    (∀ h₁ h₂, h = h₁ ++ .done :: h₂ → .startHeartbeat ∉ h₁ ∧ actions h₂ = []) ∧
    (s.point ≠ .returned → ∃ e s', e ≠ .cancel ∧ Step cfg s e s') := by
  refine ⟨?_, fun n => ⟨toInt_wait n, wait_double n⟩, ?_, ?_, ?_, can_step⟩
  · obtain ⟨errs, hs⟩ := script_of_run hrun
    exact ⟨errs, hs.shape⟩
  · intro h₁ h₂ hsplit
    exact actions_around_startHeartbeat (hsplit ▸ hrun)
  · intro h₁ h₂ hsplit
    exact actions_around_success (hsplit ▸ hrun)
  · intro h₁ h₂ hsplit
    exact actions_around_done (hsplit ▸ hrun)

namespace Sample

def retryTest : NodeRegistration :=
  ⟨lit "retry-test", lit "guard", lit "127.0.0.1", 8080, lit "pub"⟩

/-- Two failures, as in the repository's test, and the third try succeeds. -/
def history : List Event :=
  rounds retryTest 0 [lit "not ready", lit "not ready"] ++
    [.register none, .log (registeredLine retryTest), .startHeartbeat, .cancel]

theorem run_history : Steps (Step retryTest) (start false) history ⟨.returned, wait 2, true⟩ := by
  have hfailed := run_rounds retryTest [lit "not ready", lit "not ready"] false
  have hlast : Steps (Step retryTest) ⟨.register, wait 2, false⟩
      [.register none, .log (registeredLine retryTest), .startHeartbeat, .cancel]
      ⟨.returned, wait 2, true⟩ :=
    (((Steps.single .registered).snoc .logRegistered).snoc .startHeartbeat).snoc .cancel
  exact hfailed.append hlast

end Sample

theorem backoff_schedule_sample :
    (∃ errs, actions (rounds Sample.retryTest 0 [lit "not ready", lit "not ready"] ++
      [.register none, .log (registeredLine Sample.retryTest)]) =
        rounds Sample.retryTest 0 errs ++ [.register none, .log (registeredLine Sample.retryTest)]) ∧
    actions [.cancel] = [] :=
  (backoff_schedule Sample.run_history).2.2.1 _ [.cancel] (by simp [Sample.history])

end HopVault.Directory.Backoff
