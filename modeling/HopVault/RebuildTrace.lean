import HopVault.Attempts
import HopVault.Framework.Path
import HopVault.Sample

/-! # The trace of the retry loop

    What `ExecuteRequestWithRebuildTracking` does and returns, attempt by
    attempt: the circuits it fetches and the rebuild events it records. The
    event of an attempt is appended when the attempt begins, from the error
    and the circuit of the attempt before, and completed when it ends. -/

namespace HopVault

open Framework Framework.Json Framework.Prog

/-! ## Attempts -/

/-- How an attempt ends, with the error of the step that failed and the
    circuit the attempt was made on. -/
inductive AttemptEnd where
  | directory (err : Bytes)
  | setup (circuit : CircuitResponse) (err : Bytes)
  | build (err : Bytes)
  | send (circuit : CircuitResponse) (err : Bytes)
  | decrypt (err : Bytes)
  | success (resp : ExitResponse)

namespace AttemptEnd

/-- A set-up or send failure. -/
def isRetried : AttemptEnd → Bool
  | setup _ _ | send _ _ => true
  | _ => false

/-- The error of the attempt, as the loop wraps it. -/
def text : AttemptEnd → Bytes
  | directory err => wrap "get circuit from directory server" err
  | setup _ err => wrap "establish session keys" err
  | build err => wrap "build onion payload" err
  | send circuit err => lit "send onion request via guard " ++ circuit.guard.nodeID ++ lit ": " ++ err
  | decrypt err => wrap "decrypt circuit response" err
  | success _ => []

/-- The circuit a failed attempt leaves behind. -/
def circuit : AttemptEnd → Option CircuitResponse
  | setup circuit _ | send circuit _ => some circuit
  | _ => none

end AttemptEnd

variable (X : Externals)

/-- What is done in an attempt that ends this way, step by step. -/
inductive Attempt (c : Call) : List (Interaction Effects) → AttemptEnd → Prop
  | directory {τ : List (Interaction Effects)} {err : Bytes}
      (hget : Path (getCircuitWithHops X c.directoryURL c.hops) τ (.error err)) :
      Attempt c τ (.directory err)
  | setup {τ₁ τ₂ : List (Interaction Effects)} {circuit : CircuitResponse} {err : Bytes}
      (hget : Path (getCircuitWithHops X c.directoryURL c.hops) τ₁ (.ok circuit))
      (hsetup : Path (setupCircuitWithHops X c.circuitID circuit c.hops) τ₂ (.error err)) :
      Attempt c (τ₁ ++ τ₂) (.setup circuit err)
  | build {τ₁ τ₂ τ₃ : List (Interaction Effects)} {circuit : CircuitResponse} {keys : SessionKeys}
      {err : Bytes}
      (hget : Path (getCircuitWithHops X c.directoryURL c.hops) τ₁ (.ok circuit))
      (hsetup : Path (setupCircuitWithHops X c.circuitID circuit c.hops) τ₂ (.ok keys))
      (hbuild : Path (buildOnionWithHops X keys c.exitLayer (circuitHopAddresses circuit c.hops).1
        (circuitHopAddresses circuit c.hops).2 c.hops) τ₃ (.error err)) :
      Attempt c (τ₁ ++ (τ₂ ++ .op (.mark (.established (sessionKeysAt circuit keys c.hops))) () :: τ₃))
        (.build err)
  | send {τ₁ τ₂ τ₃ τ₄ : List (Interaction Effects)} {circuit : CircuitResponse} {keys : SessionKeys}
      {payload err : Bytes}
      (hget : Path (getCircuitWithHops X c.directoryURL c.hops) τ₁ (.ok circuit))
      (hsetup : Path (setupCircuitWithHops X c.circuitID circuit c.hops) τ₂ (.ok keys))
      (hbuild : Path (buildOnionWithHops X keys c.exitLayer (circuitHopAddresses circuit c.hops).1
        (circuitHopAddresses circuit c.hops).2 c.hops) τ₃ (.ok payload))
      (hsend : Path (sendOnion X circuit.guard.nodeURL c.circuitID payload) τ₄ (.error err)) :
      Attempt c (τ₁ ++ (τ₂ ++ .op (.mark (.established (sessionKeysAt circuit keys c.hops))) () ::
        (τ₃ ++ .op (.mark .sending) () :: τ₄))) (.send circuit err)
  | opened {τ₁ τ₂ τ₃ τ₄ : List (Interaction Effects)} {circuit : CircuitResponse} {keys : SessionKeys}
      {payload : Bytes} {resp : OnionResponse} {e : AttemptEnd}
      (hget : Path (getCircuitWithHops X c.directoryURL c.hops) τ₁ (.ok circuit))
      (hsetup : Path (setupCircuitWithHops X c.circuitID circuit c.hops) τ₂ (.ok keys))
      (hbuild : Path (buildOnionWithHops X keys c.exitLayer (circuitHopAddresses circuit c.hops).1
        (circuitHopAddresses circuit c.hops).2 c.hops) τ₃ (.ok payload))
      (hsend : Path (sendOnion X circuit.guard.nodeURL c.circuitID payload) τ₄ (.ok resp))
      (hend : match decryptResponseWithHops X keys resp.payload c.hops with
        | .error err => e = .decrypt err
        | .ok answer => e = .success answer) :
      Attempt c (τ₁ ++ (τ₂ ++ .op (.mark (.established (sessionKeysAt circuit keys c.hops))) () ::
        (τ₃ ++ .op (.mark .sending) () :: τ₄))) e

/-- An operation of the loop itself. -/
def Effect.Recording (e : Effect) : Prop := e.Plain ∨ ∃ m, e = .mark m

/-- The loop's own operations only. -/
def Bookkeeping (τ : List (Interaction Effects)) : Prop :=
  ∀ x ∈ τ, Interaction.Within (S := Effects) Effect.Recording (fun _ => False) x

/-- The attempts made, with nothing but bookkeeping between them. -/
inductive Attempted (c : Call) : List (Interaction Effects) → List AttemptEnd → Prop
  | nil : Attempted c [] []
  | cons {before attempt after rest : List (Interaction Effects)} {e : AttemptEnd}
      {ends : List AttemptEnd} (hbefore : Bookkeeping before) (hattempt : Attempt X c attempt e)
      (hafter : Bookkeeping after) (hrest : Attempted c rest ends) :
      Attempted c (before ++ attempt ++ after ++ rest) (e :: ends)

variable {X} {c : Call} {circuit : CircuitResponse} {τ : List (Interaction Effects)}

/-! ## One attempt -/

/-- What becomes of the loop after an attempt. -/
def AttemptEnd.outcome : AttemptEnd → Outcome
  | success resp => .done resp
  | e => if e.isRetried then .retry e.text else .fail e.text

/-- From the fetched circuit on an attempt goes one of five ways. -/
theorem attempt_of_staged {τ₁ τ₂ : List (Interaction Effects)} {r : AttemptOutcome × Outcome}
    (hget : Path (getCircuitWithHops X c.directoryURL c.hops) τ₁ (.ok circuit))
    (hstaged : Path (stagedCircuit X c circuit) τ₂ r) :
    ∃ e, Attempt X c (τ₁ ++ τ₂) e ∧ r.2 = e.outcome ∧ (e.isRetried = true → e.circuit = some circuit) := by
  simp only [stagedCircuit, perform_eq, op_bind, ret_bind, pure_eq] at hstaged
  -- the path is cut stage by stage, and ends at the first that fails
  obtain ⟨keys, σ₁, τ₃, rfl, hsetup, hrest⟩ := path_bind.mp hstaged
  cases keys with
  | error err =>
    obtain ⟨rfl, rfl⟩ := path_ret.mp hrest
    rw [List.append_nil]
    exact ⟨_, .setup hget hsetup, rfl, fun _ => rfl⟩
  | ok keys =>
    obtain ⟨_, τ₄, rfl, hbuilding⟩ := path_op.mp hrest
    obtain ⟨payload, σ₂, τ₅, rfl, hbuild, hrest⟩ := path_bind.mp hbuilding
    cases payload with
    | error err =>
      obtain ⟨rfl, rfl⟩ := path_ret.mp hrest
      rw [List.append_nil]
      exact ⟨_, .build hget hsetup hbuild, rfl, fun h => by cases h⟩
    | ok payload =>
      obtain ⟨_, τ₆, rfl, hsending⟩ := path_op.mp hrest
      obtain ⟨resp, σ₃, τ₇, rfl, hsend, hrest⟩ := path_bind.mp hsending
      cases resp with
      | error err =>
        obtain ⟨rfl, rfl⟩ := path_ret.mp hrest
        rw [List.append_nil]
        exact ⟨_, .send hget hsetup hbuild hsend, rfl, fun _ => rfl⟩
      | ok resp =>
        dsimp only at hrest
        cases hdec : decryptResponseWithHops X keys resp.payload c.hops with
        | error err =>
          rw [hdec] at hrest
          obtain ⟨rfl, rfl⟩ := path_ret.mp hrest
          rw [List.append_nil]
          exact ⟨.decrypt err, .opened hget hsetup hbuild hsend (by rw [hdec]), rfl,
            fun h => by cases h⟩
        | ok answer =>
          rw [hdec] at hrest
          obtain ⟨rfl, rfl⟩ := path_ret.mp hrest
          rw [List.append_nil]
          exact ⟨.success answer, .opened hget hsetup hbuild hsend (by rw [hdec]), rfl,
            fun h => by cases h⟩

/-! ## Rebuild events -/

/-- The event at the place `i` is that of attempt `i + 2`, and tells of the
    failure of the attempt before. -/
structure TellsOf (i : Nat) (e : AttemptEnd) (evt : RebuildEvent) : Prop where
  attempt : evt.attempt = i + 2
  failed : (evt.failedHop, evt.failedNodeID) = identifyFailedHop (some e.text) e.circuit
  cause : evt.cause = e.text

/-- The lists have the same length, and `R` relates what is in the same
    place. -/
def AtEach {α β : Type} (R : Nat → α → β → Prop) (as : List α) (bs : List β) : Prop :=
  as.length = bs.length ∧ ∀ i a b, as[i]? = some a → bs[i]? = some b → R i a b

theorem AtEach.snoc {α β : Type} {R R' : Nat → α → β → Prop} {as : List α} {bs : List β} {a : α}
    {b : β} (h : AtEach R as bs) (hold : ∀ i a b, i < as.length → R i a b → R' i a b)
    (hlast : R' as.length a b) : AtEach R' (as ++ [a]) (bs ++ [b]) := by
  obtain ⟨hlength, hat⟩ := h
  refine ⟨by simp [hlength], ?_⟩
  intro i a' b' ha hb
  -- a place before the end, or the end itself
  by_cases hi : i < as.length
  · rw [List.getElem?_append_left hi] at ha
    rw [List.getElem?_append_left (hlength ▸ hi)] at hb
    exact hold i a' b' hi (hat i a' b' ha hb)
  · have hi' : i < as.length + 1 := by
      have hlt := (List.getElem?_eq_some_iff.mp ha).1
      simpa using hlt
    obtain rfl : i = as.length := by omega
    rw [List.getElem?_concat_length] at ha
    rw [hlength, List.getElem?_concat_length] at hb
    cases ha
    cases hb
    exact hlast

/-- The events recorded after these failures: each is complete, and only the
    last one is a success, if any. -/
def Recorded (success : Bool) (ends : List AttemptEnd) (events : List RebuildEvent) : Prop :=
  AtEach (fun i e evt => TellsOf i e evt ∧ evt.rebuildDoneAt.isSome = true ∧
    evt.success = (success && decide (i + 1 = ends.length))) ends events

/-- The events while an attempt runs: the one of its own is open. -/
inductive Open : List AttemptEnd → List RebuildEvent → Prop
  | first : Open [] []
  | rebuild {past : List AttemptEnd} {last : AttemptEnd} {events : List RebuildEvent}
      {evt : RebuildEvent} (hpast : Recorded false past events) (hevt : TellsOf past.length last evt) :
      Open (past ++ [last]) (events ++ [evt])

/-- What the loop knows when it has made these attempts. -/
inductive Head : List AttemptEnd → LoopState → Prop
  | first : Head [] ⟨1, [], none, none⟩
  | after {past : List AttemptEnd} {last : AttemptEnd} {events : List RebuildEvent}
      (hpast : Recorded false past events) :
      Head (past ++ [last]) ⟨past.length + 2, events, some last.text, last.circuit⟩

theorem Head.attempt {past : List AttemptEnd} {s : LoopState} (h : Head past s) :
    s.attempt = past.length + 1 := by
  cases h with
  | first => rfl
  | after _ =>
    rw [List.length_append, List.length_singleton]
    push_cast
    omega

/-- Each event is opened before its attempt. -/
theorem path_beginRebuild {ends : List AttemptEnd} {s : LoopState} (hhead : Head ends s)
    {maxAttempts : Int} {events : List RebuildEvent}
    (h : Path (beginRebuild s.attempt maxAttempts s.events s.lastErr s.lastCircuit) τ events) :
    Open ends events := by
  unfold beginRebuild at h
  cases hhead with
  | first =>
    rw [if_neg (by decide)] at h
    obtain ⟨-, rfl⟩ := path_ret.mp h
    exact .first
  | @after past last events' hpast =>
    have hlater : ((past.length : Int) + 2 > 1) := by omega
    rw [if_pos hlater] at h
    obtain ⟨t, τ₁, -, hlog⟩ := path_op.mp h
    obtain ⟨_, τ₂, -, hret⟩ := path_op.mp hlog
    obtain ⟨-, rfl⟩ := path_ret.mp hret
    exact .rebuild hpast ⟨rfl, rfl, rfl⟩

/-- And completed after it. -/
theorem path_finishRebuild {ends : List AttemptEnd} {events events' : List RebuildEvent}
    (hopen : Open ends events) {success : Bool}
    (h : Path (finishRebuild success events) τ events') : Recorded success ends events' := by
  unfold finishRebuild at h
  -- the first attempt is no rebuild and has no event to close
  cases hopen with
  | first =>
    obtain ⟨-, rfl⟩ := path_ret.mp h
    exact ⟨rfl, by simp⟩
  | @rebuild past last events evt hpast hevt =>
    rw [List.getLast?_concat] at h
    obtain ⟨doneAt, τ₁, -, hlater⟩ := path_op.mp h
    obtain ⟨later, τ₂, -, hret⟩ := path_op.mp hlater
    obtain ⟨-, rfl⟩ := path_ret.mp hret
    rw [List.dropLast_concat]
    apply hpast.snoc
    · intro i e evt' hi hold
      refine ⟨hold.1, hold.2.1, ?_⟩
      -- an event before the last is none of a success
      have hnot : ¬i + 1 = (past ++ [last]).length := by
        rw [List.length_append, List.length_singleton]
        omega
      rw [hold.2.2, decide_eq_false hnot, Bool.and_false]
      rfl
    · exact ⟨⟨hevt.attempt, hevt.failed, hevt.cause⟩, rfl, by simp⟩

/-! ## The loop -/

/-- What an attempt that is not made again makes the call return. -/
def CallReturns (past : List AttemptEnd) (e : AttemptEnd) (res : Result CircuitResult) : Prop :=
  match e with
  | .success resp => ∃ events, Recorded true past events ∧ res = .ok ⟨resp, events⟩
  | e => res = .error e.text

/-- An attempt is made again, ends the call with its error, or succeeds. -/
theorem AttemptEnd.kinds (e : AttemptEnd) :
    (e.isRetried = true ∧ e.outcome = .retry e.text) ∨
    (e.isRetried = false ∧ e.outcome = .fail e.text ∧
      ∀ past res, CallReturns past e res ↔ res = .error e.text) ∨
    (e.isRetried = false ∧ ∃ resp, e = .success resp) := by
  cases e with
  | directory err => exact .inr (.inl ⟨rfl, rfl, fun _ _ => Iff.rfl⟩)
  | setup circuit err => exact .inl ⟨rfl, rfl⟩
  | build err => exact .inr (.inl ⟨rfl, rfl, fun _ _ => Iff.rfl⟩)
  | send circuit err => exact .inl ⟨rfl, rfl⟩
  | decrypt err => exact .inr (.inl ⟨rfl, rfl, fun _ _ => Iff.rfl⟩)
  | success resp => exact .inr (.inr ⟨rfl, resp, rfl⟩)

theorem Bookkeeping.append {τ₁ τ₂ : List (Interaction Effects)} (h₁ : Bookkeeping τ₁)
    (h₂ : Bookkeeping τ₂) : Bookkeeping (τ₁ ++ τ₂) := by
  intro x hx
  rcases List.mem_append.mp hx with hx | hx
  · exact h₁ x hx
  · exact h₂ x hx

theorem bookkeeping_mark (m : Milestone) : Bookkeeping [.op (.mark m) ()] := by
  intro x hx
  rw [List.mem_singleton.mp hx]
  exact .inr ⟨m, rfl⟩

theorem bookkeeping_begin {attempt maxAttempts : Int} {events events' : List RebuildEvent}
    {lastErr : Option Bytes} {lastCircuit : Option CircuitResponse}
    (h : Path (beginRebuild attempt maxAttempts events lastErr lastCircuit) τ events') :
    Bookkeeping τ := (h.of_all (all_beginRebuild (fun _ he => .inl he) _ _ _ _ _)).2

theorem bookkeeping_finish {success : Bool} {events events' : List RebuildEvent}
    (h : Path (finishRebuild success events) τ events') : Bookkeeping τ :=
  (h.of_all (all_finishRebuild (fun _ he => .inl he) _ _)).2

/-- The loop after a round: at its end, or at the head of the next one. -/
def Continues (past : List AttemptEnd) (e : AttemptEnd) : Result CircuitResult ⊕ LoopState → Prop
  | .inl res => e.isRetried = false ∧ CallReturns past e res
  | .inr s => e.isRetried = true ∧ Head (past ++ [e]) s

/-- One round of the loop: an attempt, and the bookkeeping around it. -/
theorem path_loopBody {maxAttempts : Int} {past : List AttemptEnd} {s : LoopState}
    (hhead : Head past s) {r : AttemptOutcome × (Result CircuitResult ⊕ LoopState)}
    (h : Path (loopBody X c maxAttempts s) τ r) :
    ∃ e before attempt after, τ = before ++ attempt ++ after ∧ Bookkeeping before ∧
      Attempt X c attempt e ∧ Bookkeeping after ∧ Continues past e r.2 := by
  simp only [loopBody, perform_eq, op_bind, ret_bind, pure_eq] at h
  obtain ⟨events, τ₁, τ₂, rfl, hbegin, hrest⟩ := path_bind.mp h
  obtain ⟨_, τ₃, rfl, hfetch⟩ := path_op.mp hrest
  obtain ⟨fetched, τ₄, τ₅, rfl, hget, hrest⟩ := path_bind.mp hfetch
  have hopen := path_beginRebuild hhead hbegin
  have hbefore := (bookkeeping_begin hbegin).append (bookkeeping_mark .attempt)
  cases fetched with
  | error err =>
    obtain ⟨rfl, rfl⟩ := path_ret.mp hrest
    refine ⟨.directory err, _, τ₄, [], ?_, hbefore, .directory hget, by simp [Bookkeeping], rfl, rfl⟩
    simp
  | ok circuit =>
    obtain ⟨staged, τ₆, τ₇, rfl, hstaged, hend⟩ := path_bind.mp hrest
    obtain ⟨_, τ₈, rfl, hfinish⟩ := path_op.mp hend
    obtain ⟨e, hattempt, hout, hcircuit⟩ := attempt_of_staged hget hstaged
    refine ⟨e, _, _, .op (.mark .ended) () :: τ₈, by simp, hbefore, hattempt, ?_⟩
    have hafter (hτ : Bookkeeping τ₈) : Bookkeeping (.op (.mark .ended) () :: τ₈) :=
      (bookkeeping_mark .ended).append hτ
    rw [hout] at hfinish
    -- retried, returned as an error, or returned as the answer
    rcases e.kinds with ⟨hretried, hkind⟩ | ⟨hnot, hkind, hreturned⟩ | ⟨hnot, resp, rfl⟩
    · rw [hkind] at hfinish
      obtain ⟨events', τ₉, τ₁₀, rfl, hdone, hret⟩ := path_bind.mp hfinish
      obtain ⟨rfl, rfl⟩ := path_ret.mp hret
      rw [List.append_nil] at hafter
      refine ⟨by rw [List.append_nil]; exact hafter (bookkeeping_finish hdone), hretried, ?_⟩
      have hnext : s.attempt + 1 = past.length + 2 := by
        rw [hhead.attempt]
        omega
      rw [hnext, ← hcircuit hretried]
      exact .after (path_finishRebuild hopen hdone)
    · rw [hkind] at hfinish
      obtain ⟨rfl, rfl⟩ := path_ret.mp hfinish
      exact ⟨hafter (by simp [Bookkeeping]), hnot, (hreturned _ _).mpr rfl⟩
    · obtain ⟨events', τ₉, τ₁₀, rfl, hdone, hret⟩ := path_bind.mp hfinish
      obtain ⟨rfl, rfl⟩ := path_ret.mp hret
      rw [List.append_nil] at hafter
      refine ⟨by rw [List.append_nil]; exact hafter (bookkeeping_finish hdone), hnot, events',
        path_finishRebuild hopen hdone, rfl⟩

/-- How the loop ends: with an attempt that is not made again, or when there
    are none left. -/
inductive LoopEnds (maxAttempts : Int) (past : List AttemptEnd) : Nat → List AttemptEnd →
    Result CircuitResult → Prop
  | stopped {n : Nat} {more : List AttemptEnd} {e : AttemptEnd} {res : Result CircuitResult}
      (hmore : ∀ e ∈ more, e.isRetried = true) (hn : more.length < n) (he : e.isRetried = false)
      (hres : CallReturns (past ++ more) e res) : LoopEnds maxAttempts past n (more ++ [e]) res
  | exhausted {more : List AttemptEnd} (hmore : ∀ e ∈ more, e.isRetried = true) :
      LoopEnds maxAttempts past more.length more (.error (lit "all " ++ Decimal.itoa maxAttempts ++
        lit " circuit attempts failed: " ++ (((past ++ more).getLast?.map AttemptEnd.text).getD [])))

/-- What the head of the loop knows of the last error. -/
theorem Head.lastErr {past : List AttemptEnd} {s : LoopState} (h : Head past s) :
    s.lastErr = past.getLast?.map AttemptEnd.text := by
  cases h with
  | first => rfl
  | after _ =>
    rw [List.getLast?_concat]
    rfl

/-- The rounds of the loop from its head on. The induction is on the
    attempts that are left. -/
theorem path_loop {maxAttempts : Int} {n : Nat} {past : List AttemptEnd} {s : LoopState}
    (hhead : Head past s) {res : Result CircuitResult}
    (h : Path (retry (loopBody X c maxAttempts) (attemptsExhausted maxAttempts) n s) τ res) :
    ∃ more, Attempted X c τ more ∧ LoopEnds maxAttempts past n more res := by
  induction n generalizing past s τ with
  | zero =>
    obtain ⟨rfl, rfl⟩ := path_ret.mp h
    refine ⟨[], .nil, ?_⟩
    unfold attemptsExhausted
    rw [hhead.lastErr]
    have hend := @LoopEnds.exhausted maxAttempts past [] (by simp)
    rw [List.append_nil] at hend
    exact hend
  | succ n ih =>
    rcases path_retry_succ h with ⟨a, hbody⟩ | ⟨a, s', τ₁, τ₂, rfl, hbody, hrest⟩
    · obtain ⟨e, before, attempt, after, rfl, hbefore, hattempt, hafter, he, hres⟩ :=
        path_loopBody hhead hbody
      refine ⟨[e], ?_, ?_⟩
      · have hone := Attempted.cons hbefore hattempt hafter .nil
        rw [List.append_nil] at hone
        exact hone
      · rw [← List.append_nil past] at hres
        exact LoopEnds.stopped (by simp) (by simp) he hres
    · obtain ⟨e, before, attempt, after, rfl, hbefore, hattempt, hafter, he, hhead'⟩ :=
        path_loopBody hhead hbody
      -- a retried attempt, and then the rest of the loop
      obtain ⟨more, hattempted, hends⟩ := ih hhead' hrest
      refine ⟨e :: more, .cons hbefore hattempt hafter hattempted, ?_⟩
      have hpast (l : List AttemptEnd) : past ++ [e] ++ l = past ++ e :: l := by simp
      cases hends with
      | stopped hmore hn he' hres =>
        rw [hpast] at hres
        exact LoopEnds.stopped (List.forall_mem_cons.mpr ⟨he, hmore⟩)
          (by rw [List.length_cons]; omega) he' hres
      | exhausted hmore =>
        rw [hpast]
        exact LoopEnds.exhausted (List.forall_mem_cons.mpr ⟨he, hmore⟩)

/-! ## Circuits fetched -/

/-- A request to the directory. -/
def isFetch : Interaction Effects → Bool
  | .op (.httpGet _) _ => true
  | _ => false

def fetches (τ : List (Interaction Effects)) : Nat := τ.countP isFetch

theorem fetches_append (τ₁ τ₂ : List (Interaction Effects)) :
    fetches (τ₁ ++ τ₂) = fetches τ₁ + fetches τ₂ := List.countP_append

theorem fetches_cons_mark (m : Milestone) (τ : List (Interaction Effects)) :
    fetches (.op (.mark m) () :: τ) = fetches τ := List.countP_cons_of_neg (by simp [isFetch])

/-- An operation that does not ask the directory. -/
def Effect.Offline : Effect → Prop
  | .httpGet _ => False
  | _ => True

theorem Effect.Plain.offline {e : Effect} (he : e.Plain) : e.Offline := by
  cases e <;> first | exact he | trivial

theorem fetches_of_offline {R : Post → Prop}
    (h : ∀ x ∈ τ, Interaction.Within (S := Effects) Effect.Offline R x) : fetches τ = 0 := by
  unfold fetches
  rw [List.countP_eq_zero]
  intro x hx
  have hwithin := h x hx
  cases x with
  | rpc q a => simp [isFetch]
  | op e a =>
    cases e with
    | httpGet url => cases hwithin
    | _ => simp [isFetch]

theorem fetches_of_all {α : Type} {p : Go α} {a : α} {T : α → Prop} (h : Path p τ a)
    (hp : p.All Effect.Offline (fun _ => True) T) : fetches τ = 0 :=
  fetches_of_offline (h.of_all hp).2

theorem Bookkeeping.fetches (h : Bookkeeping τ) : fetches τ = 0 := by
  apply fetches_of_offline (R := fun _ => False)
  intro x hx
  have hwithin := h x hx
  cases x with
  | rpc q a => exact hwithin
  | op e a =>
    rcases hwithin with he | ⟨m, rfl⟩
    · exact Effect.Plain.offline he
    · trivial

/-- A circuit is fetched with one request. -/
theorem fetches_getCircuit (hhops : c.hops = 1 ∨ c.hops = 3) {r : Result CircuitResponse}
    (h : Path (getCircuitWithHops X c.directoryURL c.hops) τ r) : fetches τ = 1 := by
  simp only [getCircuitWithHops, validateHops, if_pos hhops, perform_eq, op_bind, ret_bind] at h
  obtain ⟨answer, τ', rfl, hrest⟩ := path_op.mp h
  -- past the GET the answer is only read
  have hnone : fetches τ' = 0 := by
    refine fetches_of_all (T := fun _ => True) hrest ?_
    cases answer with
    | error err => trivial
    | ok resp =>
      dsimp only
      split_ifs
      · trivial
      · split
        · trivial
        · split_ifs <;> trivial
  unfold fetches at hnone ⊢
  rw [List.countP_cons_of_pos rfl, hnone]

/-- And an attempt fetches one. -/
theorem Attempt.fetches (hhops : c.hops = 1 ∨ c.hops = 3) {e : AttemptEnd} (h : Attempt X c τ e) :
    fetches τ = 1 := by
  have hsetupPrint : SetupFootprint X c.circuitID Effect.Offline fun _ => True :=
    ⟨fun _ he => Effect.Plain.offline he, fun _ _ => trivial, fun _ _ => trivial⟩
  have hsetupNone {circuit : CircuitResponse} {τ : List (Interaction Effects)}
      {r : Result SessionKeys} (h : Path (setupCircuitWithHops X c.circuitID circuit c.hops) τ r) :
      HopVault.fetches τ = 0 := fetches_of_all h (all_setupCircuit hsetupPrint _ _)
  have hbuildNone {keys : SessionKeys} {relayAddr exitAddr : Bytes}
      {τ : List (Interaction Effects)} {r : Result Bytes}
      (h : Path (buildOnionWithHops X keys c.exitLayer relayAddr exitAddr c.hops) τ r) :
      HopVault.fetches τ = 0 :=
    fetches_of_all h (all_buildOnion (fun _ he => Effect.Plain.offline he) _ _ _ _ _)
  have hsendNone {guardURL payload : Bytes} {τ : List (Interaction Effects)}
      {r : Result OnionResponse} (h : Path (sendOnion X guardURL c.circuitID payload) τ r) :
      HopVault.fetches τ = 0 := fetches_of_all h (all_sendOnion (fun _ _ => trivial) _ _)
  -- an attempt is its one fetch and stages that fetch nothing
  cases h with
  | directory hget => exact fetches_getCircuit hhops hget
  | setup hget hsetup =>
    rw [fetches_append, fetches_getCircuit hhops hget, hsetupNone hsetup]
  | build hget hsetup hbuild =>
    rw [fetches_append, fetches_append, fetches_cons_mark, fetches_getCircuit hhops hget,
      hsetupNone hsetup, hbuildNone hbuild]
  | send hget hsetup hbuild hsend =>
    rw [fetches_append, fetches_append, fetches_cons_mark, fetches_append, fetches_cons_mark,
      fetches_getCircuit hhops hget, hsetupNone hsetup, hbuildNone hbuild, hsendNone hsend]
  | opened hget hsetup hbuild hsend _ =>
    rw [fetches_append, fetches_append, fetches_cons_mark, fetches_append, fetches_cons_mark,
      fetches_getCircuit hhops hget, hsetupNone hsetup, hbuildNone hbuild, hsendNone hsend]

/-- As many circuits are fetched as attempts are made. -/
theorem Attempted.fetches (hhops : c.hops = 1 ∨ c.hops = 3) {ends : List AttemptEnd}
    (h : Attempted X c τ ends) : fetches τ = ends.length := by
  induction h with
  | nil => rfl
  | cons hbefore hattempt hafter _ ih =>
    rw [fetches_append, fetches_append, fetches_append, hbefore.fetches, hattempt.fetches hhops,
      hafter.fetches, ih, List.length_cons]
    omega

/-! ## Whole calls -/

/-- What a call of at most `m` attempts does when they end as the sequence
    says. -/
structure Traced (c : Call) (o : Nat → AttemptEnd) (τ : List (Interaction Effects))
    (res : Result CircuitResult) : Prop where
  /-- The first attempt that is not made again decides. -/
  decided : ∀ j < c.attempts.toNat, (∀ k < j, (o k).isRetried = true) → (o j).isRetried = false →
    fetches τ = j + 1 ∧ CallReturns ((List.range j).map o) (o j) res
  /-- Without one the last error is returned. -/
  exhausted : (∀ k < c.attempts.toNat, (o k).isRetried = true) →
    fetches τ = c.attempts.toNat ∧ res = .error (lit "all " ++ Decimal.itoa c.attempts ++
      lit " circuit attempts failed: " ++ (o (c.attempts.toNat - 1)).text)

/-- A call makes at least one attempt. -/
theorem Call.attempts_pos (c : Call) : 0 < c.attempts.toNat := by
  unfold Call.attempts defaultMaxCircuitAttempts
  split_ifs <;> omega

/-- The end of the loop, told by the sequence. -/
theorem traced_of_ends {ends : List AttemptEnd} {res : Result CircuitResult}
    (hfetches : fetches τ = ends.length)
    (hends : LoopEnds c.attempts [] c.attempts.toNat ends res) {o : Nat → AttemptEnd}
    (hfollows : Follows ends o) : Traced c o τ res := by
  have hpos := c.attempts_pos
  generalize hm : c.attempts.toNat = m at hends
  cases hends with
  | @stopped _ more e _ hmore hn he hres =>
    obtain ⟨hfollowsMore, hlast⟩ := follows_snoc.mp hfollows
    have hretried (k : Nat) (hk : k < more.length) : (o k).isRetried = true := by
      rw [← hfollowsMore k hk]
      exact hmore _ (List.getElem_mem hk)
    constructor
    · intro j hj hbefore hstop
      -- the first attempt that is not retried is the last one made
      have hsame : j = more.length := by
        rcases Nat.lt_trichotomy j more.length with hlt | heq | hgt
        · rw [hretried j hlt] at hstop
          cases hstop
        · exact heq
        · rw [hlast, hbefore _ hgt] at he
          cases he
      rw [hsame, hfetches, ← hfollowsMore.eq_map, ← hlast, List.length_append, List.length_singleton]
      exact ⟨rfl, hres⟩
    · intro hall
      rw [hlast, hall _ (hm ▸ hn)] at he
      cases he
  | exhausted hmore =>
    have hretried (k : Nat) (hk : k < ends.length) : (o k).isRetried = true := by
      rw [← hfollows k hk]
      exact hmore _ (List.getElem_mem hk)
    constructor
    · intro j hj _ hstop
      rw [hretried j (hm ▸ hj)] at hstop
      cases hstop
    · intro _
      have hlast : ([] ++ ends).getLast? = some (o (ends.length - 1)) := by
        rw [List.nil_append, List.getLast?_eq_getElem?, List.getElem?_eq_getElem (by omega)]
        rw [hfollows _ (by omega)]
      rw [hm, hfetches, hlast]
      exact ⟨rfl, rfl⟩

/-- **Trace of the loop**: a call goes through attempts, with nothing but
    bookkeeping between them, and however these end, the circuits it
    fetches, the events it records and what it returns are as they say. -/
theorem rebuild_trace (hhops : c.hops = 1 ∨ c.hops = 3) {res : Result CircuitResult}
    (h : Path (executeRequestWithRebuildTracking X c) τ res) :
    ∃ ends, Attempted X c τ ends ∧ ∀ o, Follows ends o → Traced c o τ res := by
  unfold executeRequestWithRebuildTracking validateHops at h
  rw [if_pos hhops] at h
  dsimp only at h
  have hloop := runAttempts_eq_retry X c c.attempts c.attempts.toNat ⟨1, [], none, none⟩
  dsimp only at hloop
  rw [hloop] at h
  obtain ⟨ends, hattempted, hends⟩ := path_loop .first h
  exact ⟨ends, hattempted, fun o hfollows => traced_of_ends (hattempted.fetches hhops) hends hfollows⟩

namespace Sample

/-- The world in which the first exchange with a node is lost. -/
def losing : World Unit Node :=
  { start with oracle := fun _ m =>
      { choice m with fate := if m = 0 then .loseRequest (lit "timeout") else .deliver } }

/-- A call over one hop, with a second attempt. -/
def callOne : Call := ⟨[], lit "c1", layer, 1, 2⟩

/-- What shows of a result. -/
def shown : Result CircuitResult → Option (List (Int × Bytes × Bool))
  | .error _ => none
  | .ok result => some (result.rebuildEvents.map fun evt => (evt.attempt, evt.cause, evt.success))

/-- Its first attempt fails at the set-up, and the second succeeds. -/
theorem path_losing : ∃ τ res, Path (executeRequestWithRebuildTracking externals callOne) τ res ∧
    shown res = some [(2, lit ("establish session keys: setup key for node g: POST /setup to " ++
      "http://g:1: timeout"), true)] := by
  have hexec : (net.lossy.exec 3 ((), .client) (executeRequestWithRebuildTracking externals callOne)
      losing).map (fun x => shown x.1) = some (some [(2, lit ("establish session keys: setup key " ++
        "for node g: POST /setup to http://g:1: timeout"), true)]) := by
    decide +kernel
  obtain ⟨⟨res, w'⟩, hrun, hshown⟩ := Option.map_eq_some_iff.mp hexec
  obtain ⟨τ, hpath, -⟩ := (Semantics.returns_of_exec hrun).path
  exact ⟨τ, res, hpath, hshown⟩

end Sample

/-- A call whose first attempt fails and whose second succeeds. -/
theorem rebuild_trace_sample : ∃ τ res ends,
    Path (executeRequestWithRebuildTracking Sample.externals Sample.callOne) τ res ∧
    Sample.shown res = some [(2, lit ("establish session keys: setup key for node g: POST /setup " ++
      "to http://g:1: timeout"), true)] ∧
    Attempted Sample.externals Sample.callOne τ ends ∧
    ∀ o, Follows ends o → Traced Sample.callOne o τ res := by
  obtain ⟨τ, res, hpath, hshown⟩ := Sample.path_losing
  obtain ⟨ends, hattempted, htraced⟩ := rebuild_trace (.inl rfl) hpath
  exact ⟨τ, res, ends, hpath, hshown, hattempted, htraced⟩

end HopVault
