import HopVault.Directory.Node
import HopVault.Python.RequestLog
import HopVault.Python.SetUp

/-! # The user of Experiment 3

    `FailureRecoveryUser` of `experiments/experiment3/locustfile.py` keeps a
    circuit from task to task, and rebuilds it after a failure or when the
    health checker has raised an alarm. Each task is reported twice: to
    locust as an event, and in the request log as a row. -/

namespace HopVault.Python

open Framework Framework.Utf8 Framework.Json Framework.Prog

/-! ## Operations -/

/-- What locust is told of a request. -/
structure RequestEvent where
  requestType : Bytes
  name : Bytes
  responseTime : Int
  responseLength : Nat
  exc : Option Bytes
  deriving DecidableEq, Repr

/-- What a user does beside the client. -/
inductive UserOp where
  | checkNeedsRebuild
  | setCircuitNodes (nodeIDs : List Json)
  /-- The poll thread of the health checker is started. -/
  | start
  /-- A row of the log; the answer is the time of the clock. -/
  | logCsvRow (status : Bytes) (latencyMs : ℚ) (circuitRebuilt : Bool) (rebuildDurationMs : ℚ)
  /-- `events.request.fire`. -/
  | fire (event : RequestEvent)

namespace UserOp

abbrev Ans : UserOp → Type
  | checkNeedsRebuild => Bool
  | logCsvRow .. => Nat
  | _ => Unit

end UserOp

/-- The interactions of a user. -/
abbrev UserEffects : Sig := Effects.plus UserOp UserOp.Ans

/-- A program of a user. -/
abbrev Locust (α : Type) : Type := Prog UserEffects α

/-- What the client does. -/
def client {α : Type} (p : Go α) : Locust α := p.inner

def act (o : UserOp) : Locust o.Ans := outer (S := Effects) o

/-- The environment variables. -/
structure UserConfig where
  directoryURL : Bytes
  echoServerURL : Bytes
  hops : Int
  healthCheck : Bool

/-- The attributes of a user. -/
structure User where
  /-- `None` is `null`. -/
  circuit : Json
  keys : Option Keys
  circuitID : Bytes
  /-- There is a health checker. -/
  healthChecker : Bool

variable (P : Libs) (X : Externals) (cfg : UserConfig)

/-- `(time.monotonic() - start) * 1000`. -/
def millis (start now : Int) : ℚ := (now - start) / 10 ^ 6

/-- `str(uuid.uuid4())`. -/
def newCircuitID : Go Bytes := do
  let b ← perform (.rand 16)
  return Directory.generateNodeID b.1

namespace User

/-! ## Circuits -/

/-- Fetch a new circuit and perform key exchange. -/
def setupCircuit (u : User) : Locust (Result Unit × User) := do
  match ← client (getCircuit P cfg.directoryURL cfg.hops) with
  | .error exc => return (.error exc, u)
  | .ok circuit =>
    let circuitID ← client newCircuitID
    let u := { u with circuit := circuit, circuitID := circuitID }
    match ← client (Python.setupCircuit P X circuit circuitID cfg.hops) with
    | .error exc => return (.error exc, u)
    | .ok keys => return (.ok (), { u with keys := some keys })

/-- The IDs of the hops. -/
def circuitNodeIDs (circuit : Json) : Result (List Json) := do
  let guard ← subscript P (← subscript P circuit "guard") "nodeId"
  if cfg.hops = 3 then
    let relay ← subscript P (← subscript P circuit "relay") "nodeId"
    let exit ← subscript P (← subscript P circuit "exit") "nodeId"
    return [guard, relay, exit]
  else return [guard]

/-- A value that can be in a `set`. -/
def hashable : Json → Bool
  | arr _ | obj _ => false
  | _ => true

def updateHealthCheckerNodes (u : User) : Locust (Result Unit) :=
  if !u.healthChecker || !truth P u.circuit then return .ok ()
  else
    match circuitNodeIDs P cfg u.circuit with
    | .error exc => return .error exc
    | .ok ids =>
      if ids.all hashable then do
        act (.setCircuitNodes ids)
        return .ok ()
      else return .error (P.raised "set" (arr ids))

/-- Discard current circuit and build a fresh one. -/
def rebuildCircuit (u : User) : Locust (Result Unit × User) := do
  match ← setupCircuit P X cfg { u with circuit := null, keys := none } with
  | (.error exc, u) => return (.error exc, u)
  | (.ok (), u) =>
    let r ← updateHealthCheckerNodes P cfg u
    return (r, u)

/-- `on_start`; `none` for a user that is not started. -/
def onStart : Locust (Option User) := do
  let circuitID ← client newCircuitID
  match ← setupCircuit P X cfg ⟨null, none, circuitID, false⟩ with
  | (.error _, _) => return none
  | (.ok (), u) =>
    if cfg.healthCheck then
      let u := { u with healthChecker := true }
      match ← updateHealthCheckerNodes P cfg u with
      | .error _ => return none
      | .ok () =>
        act .start
        return some u
    else return some u

/-! ## Tasks -/

/-- The request to the echo server. -/
def exitLayer : Json :=
  obj [(lit "url", str cfg.echoServerURL), (lit "method", str (lit "GET")), (lit "headers", obj []),
    (lit "body", null)]

/-- A request over the circuit, whatever state that is in. -/
def exchange (u : User) : Go (Result Json) :=
  match u.keys with
  | none => do
    -- an attempt to encrypt without a key
    match ← aesEncrypt P X none (dumpsCompact (exitLayer cfg)) with
    | .error exc => return .error exc
    | .ok _ => return .error (P.raised "AESGCM" null)
  | some keys => do
    match ← buildOnion P X keys (exitLayer cfg) u.circuit cfg.hops with
    | .error exc => return .error exc
    | .ok payload =>
      match guardURL P u.circuit with
      | .error exc => return .error exc
      | .ok url =>
        match ← sendOnion P url u.circuitID payload with
        | .error exc => return .error exc
        | .ok onionResp => return readAnswer P X keys onionResp cfg.hops

/-- `len` of a value. -/
def len : Json → Result Nat
  | str s => .ok (segs s).length
  | arr xs => .ok xs.length
  | obj ms => .ok (ms.map (·.1)).dedup.length
  | value => .error (P.raised "len" value)

/-- `len(exit_resp.get("body", "") or "")`. -/
def responseLength (exitResp : Json) : Result Nat := do
  let body ← dictGet P exitResp "body" (str [])
  len P (if truth P body then body else str [])

/-- The event of a request. -/
def requestEvent (responseTime : ℚ) (responseLength : Nat) (exc : Option Bytes) : RequestEvent :=
  ⟨lit "circuit_request", Decimal.itoa cfg.hops ++ lit "-hop-failure-recovery",
    truncate responseTime, responseLength, exc⟩

/-- The status of a request that failed, after a rebuild or an attempt at
    one. -/
def rebuildStatus : Result Unit → Bytes
  | .ok () => lit "failed_rebuilt"
  | .error _ => lit "failed_rebuild_failed"

/-- The handler of an exception after `t0`. A task ends with `true` when it
    is to be rescheduled. -/
def recover (u : User) (t0 : Int) (exc : Bytes) : Locust (Bool × User) := do
  let t ← client (perform .now)
  let tRebuild ← client (perform .now)
  let (r, u) ← rebuildCircuit P X cfg u
  let tRebuilt ← client (perform .now)
  let _ ← act (.logCsvRow (rebuildStatus r) (millis t0 t + millis tRebuild tRebuilt) true
    (millis tRebuild tRebuilt))
  act (.fire (requestEvent cfg (millis t0 t) 0 (some exc)))
  return (true, u)

/-- The part of a task after a rebuild, if there is one. -/
def request (u : User) (circuitRebuilt : Bool) (rebuildDurationMs : ℚ) : Locust (Bool × User) := do
  let t0 ← client (perform .now)
  match ← client (exchange P X cfg u) with
  | .error exc => recover P X cfg u t0 exc
  | .ok exitResp =>
    let t ← client (perform .now)
    let _ ← act (.logCsvRow (lit "success") (millis t0 t) circuitRebuilt rebuildDurationMs)
    -- the row is in the log before the response is looked at
    match responseLength P exitResp with
    | .error exc => recover P X cfg u t0 exc
    | .ok n =>
      act (.fire (requestEvent cfg (millis t0 t) n none))
      return (false, u)

/-- `self._health_checker and self._health_checker.check_needs_rebuild()`. -/
def needsRebuild (u : User) : Locust Bool :=
  if u.healthChecker then act .checkNeedsRebuild else return false

def sendRequest (u : User) : Locust (Bool × User) := do
  if ← needsRebuild u then
    let tRebuild ← client (perform .now)
    let (r, u) ← rebuildCircuit P X cfg u
    let tRebuilt ← client (perform .now)
    match r with
    | .error exc =>
      let _ ← act (.logCsvRow (lit "rebuild_failed") (millis tRebuild tRebuilt) true
        (millis tRebuild tRebuilt))
      act (.fire (requestEvent cfg (millis tRebuild tRebuilt) 0 (some exc)))
      return (true, u)
    | .ok () => request P X cfg u true (millis tRebuild tRebuilt)
  else request P X cfg u false 0

end User

/-! ## What a user has done -/

/-- The past of a user. -/
abbrev UserPast : Type := List (Interaction UserEffects)

/-- The part of it that is the client's. -/
def clientPast (τ : UserPast) : Past := τ.filterMap Interaction.project

/-- The row of the log. -/
@[simp] def UserOp.row : (o : UserOp) → o.Ans → Option Logged
  | logCsvRow status latencyMs circuitRebuilt rebuildDurationMs, now =>
    some ⟨now, status, latencyMs, circuitRebuilt, rebuildDurationMs⟩
  | _, _ => none

/-- The event that locust counts. -/
@[simp] def UserOp.event : UserOp → Option RequestEvent
  | fire event => some event
  | _ => none

def rowOf : Interaction UserEffects → Option Logged
  | .op (.inr o) x => o.row x
  | _ => none

def eventOf : Interaction UserEffects → Option RequestEvent
  | .op (.inr o) _ => o.event
  | _ => none

def rows (τ : UserPast) : List Logged := τ.filterMap rowOf

def fired (τ : UserPast) : List RequestEvent := τ.filterMap eventOf

/-- A circuit is fetched. -/
def Asks (x : Interaction UserEffects) : Prop := ∃ y, x = y.inner ∧ IsFetch y

/-- The user learns of an alarm. -/
def Alarm (x : Interaction UserEffects) : Prop := x = .op (.inr .checkNeedsRebuild) true

/-- No alarm has been seen since a circuit was last fetched. -/
def Heeded (past : UserPast) : Prop := ¬SinceLast Asks Alarm past

/-- What a user may post. -/
def UserAllowed (past : UserPast) (q : Post) : Prop :=
  Allowed P X cfg.hops (User.exitLayer cfg) (clientPast past) q ∧ Heeded past

/-- A user between two tasks: the keys it has are those of its circuit. -/
structure Ready (hops : Int) (past : UserPast) (u : User) : Prop where
  setUp : ∀ keys, u.keys = some keys →
    SetUp P X hops (clientPast past) u.circuit u.circuitID keys
  heeded : Heeded past

/-- The report of a task: the rows, the event, and whether the task is
    rescheduled. -/
inductive Report : List Logged → List RequestEvent → Bool → Prop
  | success {now n : Nat} {latencyMs rebuildDurationMs : ℚ} {circuitRebuilt : Bool} :
      Report [⟨now, lit "success", latencyMs, circuitRebuilt, rebuildDurationMs⟩]
        [User.requestEvent cfg latencyMs n none] false
  /-- A task that fails is logged as a rebuild. -/
  | failure {now : Nat} {status exc : Bytes} {latencyMs responseTime rebuildDurationMs : ℚ} :
      status ≠ lit "success" → Report [⟨now, status, latencyMs, true, rebuildDurationMs⟩]
        [User.requestEvent cfg responseTime 0 (some exc)] true
  /-- A response that is not understood is logged as a success before. -/
  | malformed {now now' : Nat} {status exc : Bytes} {circuitRebuilt : Bool}
      {latencyMs latencyMs' responseTime rebuildDurationMs rebuildDurationMs' : ℚ} :
      status ≠ lit "success" →
      Report [⟨now, lit "success", latencyMs, circuitRebuilt, rebuildDurationMs⟩,
          ⟨now', status, latencyMs', true, rebuildDurationMs'⟩]
        [User.requestEvent cfg responseTime 0 (some exc)] true

variable {P X cfg}

@[simp] theorem clientPast_append (τ τ' : UserPast) :
    clientPast (τ ++ τ') = clientPast τ ++ clientPast τ' :=
  List.filterMap_append

@[simp] theorem clientPast_inner (τ : Past) :
    clientPast (τ.map Interaction.inner) = τ := filterMap_project_inner τ

@[simp] theorem rows_append (τ τ' : UserPast) : rows (τ ++ τ') = rows τ ++ rows τ' :=
  List.filterMap_append

@[simp] theorem fired_append (τ τ' : UserPast) : fired (τ ++ τ') = fired τ ++ fired τ' :=
  List.filterMap_append

@[simp] theorem rows_nil : rows [] = [] := rfl

@[simp] theorem fired_nil : fired [] = [] := rfl

@[simp] theorem rows_cons (x : Interaction UserEffects) (τ : UserPast) :
    rows (x :: τ) = (rowOf x).toList ++ rows τ := by
  unfold rows
  cases h : rowOf x <;> simp [h]

@[simp] theorem fired_cons (x : Interaction UserEffects) (τ : UserPast) :
    fired (x :: τ) = (eventOf x).toList ++ fired τ := by
  unfold fired
  cases h : eventOf x <;> simp [h]

/-- The client reports nothing. -/
@[simp] theorem rowOf_inner (x : Interaction Effects) : rowOf x.inner = none := by
  cases x <;> rfl

@[simp] theorem eventOf_inner (x : Interaction Effects) : eventOf x.inner = none := by
  cases x <;> rfl

@[simp] theorem rows_inner (τ : Past) : rows (τ.map Interaction.inner) = [] := by
  induction τ with
  | nil => rfl
  | cons x τ ih => simp [ih]

@[simp] theorem fired_inner (τ : Past) : fired (τ.map Interaction.inner) = [] := by
  induction τ with
  | nil => rfl
  | cons x τ ih => simp [ih]

/-! ### Alarms -/

theorem not_alarm_inner (x : Interaction Effects) : ¬Alarm x.inner := by
  intro h
  cases x <;> cases h

theorem Heeded.append {past τ : UserPast} (h : Heeded past) (hτ : ∀ x ∈ τ, ¬Alarm x) :
    Heeded (past ++ τ) :=
  fun hs => h (sinceLast_append hs hτ).1

theorem Heeded.inner {past : UserPast} (h : Heeded past) (τ : Past) :
    Heeded (past ++ τ.map .inner) := by
  refine h.append fun x hx => ?_
  obtain ⟨y, -, rfl⟩ := List.mem_map.mp hx
  exact not_alarm_inner y

/-- A request to the directory answers the alarms before it. -/
theorem heeded_fetch (past : UserPast) (url : Bytes) (answer : Result Response) :
    Heeded (past ++ [Interaction.op (S := Effects) (.httpGet url) answer].map .inner) := by
  intro hs
  rw [List.map_singleton, sinceLast_snoc] at hs
  rcases hs with hx | ⟨hx, -⟩
  · exact not_alarm_inner _ hx
  · exact hx ⟨_, rfl, trivial⟩

/-! ### Circuits -/

variable {past : UserPast}

/-- Nothing has been reported, and the user is ready. -/
structure Prepared (P : Libs) (X : Externals) (hops : Int) (past past' : UserPast) (u : User) :
    Prop where
  rows : rows past' = rows past
  fired : fired past' = fired past
  ready : Ready P X hops past' u

theorem userAllowed_inner (h : Heeded past) (τ : Past) (q : Post)
    (hq : Allowed P X cfg.hops (User.exitLayer cfg) (clientPast past ++ τ) q) :
    UserAllowed P X cfg (past ++ τ.map .inner) q :=
  ⟨by simpa using hq, h.inner τ⟩

theorem safe_newCircuitID {A : Past → Post → Prop} {past : Past} :
    newCircuitID.Safe A past fun past' _ => Grown past (fun _ => True) past' := by
  unfold newCircuitID
  simp only [perform_eq, op_bind, ret_bind, safe_op, pure_eq]
  exact fun b => grown_singleton (fun h => h) trivial

/-- Whatever comes of it, a user without keys that sets up a circuit is
    ready afterwards. -/
theorem safe_userSetupCircuit {u : User} (hkeys : u.keys = none) :
    (User.setupCircuit P X cfg u).Safe (UserAllowed P X cfg) past fun past' r =>
      Prepared P X cfg.hops past past' r.2 := by
  unfold User.setupCircuit client
  refine safe_bind ((safe_getCircuit (A := fun _ _ => False)).lift fun _ _ h => h.elim) ?_
  rintro _ (exc | circuit) ⟨τ, rfl, url, answer, hτ, hread⟩ <;>
    obtain rfl := List.append_cancel_left hτ
  · refine ⟨by simp, by simp, fun keys h => ?_, heeded_fetch _ _ _⟩
    rw [hkeys] at h
    cases h
  · have hfetched : Fetched P cfg.hops (clientPast past ++ [.op (.httpGet url) answer]) circuit [] :=
      fetched_last (hread circuit rfl)
    have hheeded := heeded_fetch past url answer
    dsimp only
    refine safe_bind ((safe_newCircuitID (A := fun _ _ => False)).lift fun _ _ h => h.elim) ?_
    rintro _ circuitID ⟨τ, rfl, _, hτ, hquiet, -⟩
    obtain rfl := List.append_cancel_left hτ
    -- from here on nothing is fetched
    have hsetup := @safe_setupCircuit P X _ _ circuit (User.exitLayer cfg) circuitID _
      (hfetched.extend hquiet)
    refine safe_bind (Safe.lift (by simpa [clientPast] using hsetup) fun τ' q h =>
      userAllowed_inner (hheeded.inner τ) τ' q h) ?_
    rintro _ r ⟨τ', rfl, hset⟩
    have hready (u' : User) (hu' : ∀ keys, u'.keys = some keys → r = .ok keys ∧
        u'.circuit = circuit ∧ u'.circuitID = circuitID) :
        Prepared P X cfg.hops past (past ++ [Interaction.op (S := Effects) (.httpGet url) answer].map
          .inner ++ τ.map .inner ++ τ'.map .inner) u' := by
      refine ⟨by simp, by simp, fun keys h => ?_, (hheeded.inner τ).inner τ'⟩
      obtain ⟨hr, hcircuit, hid⟩ := hu' keys h
      rw [hcircuit, hid]
      simpa [clientPast] using hset keys hr
    cases r with
    | error exc =>
      exact hready _ fun keys h => by rw [hkeys] at h; cases h
    | ok keys =>
      exact hready _ fun keys' h => by cases h; exact ⟨rfl, rfl, rfl⟩

theorem Ready.inner {hops : Int} {u : User} (h : Ready P X hops past u) {τ : Past} (hτ : NoFetch τ) :
    Ready P X hops (past ++ τ.map .inner) u :=
  ⟨fun keys hkeys => by simpa using (h.setUp keys hkeys).extend hτ, h.heeded.inner τ⟩

/-- What a user does beside the client, other than to learn of an alarm. -/
theorem Ready.act {hops : Int} {u : User} (h : Ready P X hops past u) {o : UserOp} {x : o.Ans}
    (hx : ¬Alarm (.op (.inr o) x)) : Ready P X hops (past ++ [.op (.inr o) x]) u := by
  refine ⟨fun keys hkeys => ?_, h.heeded.append fun y hy => List.mem_singleton.mp hy ▸ hx⟩
  rw [clientPast_append]
  exact (h.setUp keys hkeys).extend noFetch_nil

theorem safe_updateHealthCheckerNodes {u : User} (h : Ready P X cfg.hops past u) :
    (User.updateHealthCheckerNodes P cfg u).Safe (UserAllowed P X cfg) past fun past' _ =>
      Prepared P X cfg.hops past past' u := by
  unfold User.updateHealthCheckerNodes
  by_cases hskip : (!u.healthChecker || !truth P u.circuit) = true
  · rw [if_pos hskip]
    exact ⟨rfl, rfl, h⟩
  · rw [if_neg hskip]
    cases User.circuitNodeIDs P cfg u.circuit with
    | error exc => exact ⟨rfl, rfl, h⟩
    | ok ids =>
      dsimp only
      by_cases hids : ids.all User.hashable = true
      · rw [if_pos hids]
        exact fun _ => ⟨by simp [rowOf], by simp [eventOf], h.act (by rintro ⟨⟩)⟩
      · rw [if_neg hids]
        exact ⟨rfl, rfl, h⟩

theorem safe_rebuildCircuit (u : User) :
    (User.rebuildCircuit P X cfg u).Safe (UserAllowed P X cfg) past fun past' r =>
      Prepared P X cfg.hops past past' r.2 := by
  unfold User.rebuildCircuit
  refine safe_bind (safe_userSetupCircuit rfl) ?_
  rintro past₁ ⟨exc | ⟨⟩, u⟩ h₁
  · exact h₁
  · refine safe_bind (safe_updateHealthCheckerNodes h₁.ready) ?_
    rintro past₂ r h₂
    exact ⟨h₂.rows.trans h₁.rows, h₂.fired.trans h₁.fired, h₂.ready⟩

/-- A user that starts is ready. -/
theorem safe_onStart : (User.onStart P X cfg).Safe (UserAllowed P X cfg) [] fun past' r =>
    rows past' = [] ∧ fired past' = [] ∧ ∀ u, r = some u → Ready P X cfg.hops past' u := by
  unfold User.onStart client
  refine safe_bind ((safe_newCircuitID (A := fun _ _ => False)).lift fun _ _ h => h.elim) ?_
  rintro _ circuitID ⟨τ, rfl, -⟩
  refine safe_bind (safe_userSetupCircuit rfl) ?_
  rintro past₁ ⟨exc | ⟨⟩, u⟩ ⟨hrows, hfired, hready⟩
  · exact ⟨by simp [hrows], by simp [hfired], by simp⟩
  · dsimp only
    by_cases hcheck : cfg.healthCheck = true
    · rw [if_pos hcheck]
      have hready : Ready P X cfg.hops past₁ { u with healthChecker := true } :=
        ⟨hready.setUp, hready.heeded⟩
      refine safe_bind (safe_updateHealthCheckerNodes hready) ?_
      rintro past₂ (exc | ⟨⟩) ⟨hrows', hfired', hready'⟩
      · exact ⟨by simp [hrows, hrows'], by simp [hfired, hfired'], by simp⟩
      · intro _
        refine ⟨by simp [hrows, hrows', rowOf], by simp [hfired, hfired', eventOf], fun u' hu' => ?_⟩
        cases hu'
        exact hready'.act (by rintro ⟨⟩)
    · rw [if_neg hcheck]
      exact ⟨by simp [hrows], by simp [hfired], fun u' hu' => by cases hu'; exact hready⟩

/-! ### Tasks -/

section

variable {A : UserPast → Post → Prop} {α : Type} {Q : UserPast → α → Prop}

theorem safe_client_perform {e : Effect} {f : e.Ans → Locust α}
    (h : ∀ x, (f x).Safe A (past ++ [.op (.inl e) x]) Q) :
    (client (perform e) >>= f).Safe A past Q := h

theorem safe_act {o : UserOp} {f : o.Ans → Locust α}
    (h : ∀ x, (f x).Safe A (past ++ [.op (.inr o) x]) Q) : (act o >>= f).Safe A past Q := h

end

/-- A task has been reported, `before` of its rows already. -/
def Finished (P : Libs) (X : Externals) (cfg : UserConfig) (past : UserPast) (before : List Logged)
    (past' : UserPast) (r : Bool × User) : Prop :=
  ∃ rs es, rows past' = rows past ++ rs ∧ fired past' = fired past ++ es ∧
    Report cfg (before ++ rs) es r.1 ∧ Ready P X cfg.hops past' r.2

/-- The rows that were there already are part of the report. -/
theorem Finished.after {past₁ past₂ : UserPast} {before : List Logged} {r : Bool × User}
    (hrows : rows past₁ = rows past ++ before) (hfired : fired past₁ = fired past)
    (h : Finished P X cfg past₁ before past₂ r) : Finished P X cfg past [] past₂ r := by
  obtain ⟨rs, es, hrs, hes, hreport, hready⟩ := h
  exact ⟨before ++ rs, es, by rw [hrs, hrows, List.append_assoc], by rw [hes, hfired], hreport, hready⟩

/-- A failure is reported, after the row of a success if there is one. -/
theorem safe_recover {u : User} {t0 : Int} {exc : Bytes} {before : List Logged}
    (hbefore : before = [] ∨ ∃ now latencyMs circuitRebuilt rebuildDurationMs,
      before = [⟨now, lit "success", latencyMs, circuitRebuilt, rebuildDurationMs⟩]) :
    (User.recover P X cfg u t0 exc).Safe (UserAllowed P X cfg) past
      (Finished P X cfg past before) := by
  unfold User.recover
  refine safe_client_perform fun t => safe_client_perform fun tRebuild => ?_
  refine safe_bind (safe_rebuildCircuit u) ?_
  rintro past₁ ⟨r, u'⟩ ⟨hrows, hfired, hready⟩
  refine safe_client_perform fun tRebuilt => safe_act fun now => safe_act fun _ => ?_
  refine ⟨_, _, by simp [hrows, rowOf]; rfl, by simp [hfired, eventOf]; rfl, ?_,
    ((hready.inner (noFetch_now tRebuilt)).act (by rintro ⟨⟩)).act (by rintro ⟨⟩)⟩
  have hstatus : User.rebuildStatus r ≠ lit "success" := by
    have hrebuilt : lit "failed_rebuilt" ≠ lit "success" := by decide
    have hfailed : lit "failed_rebuild_failed" ≠ lit "success" := by decide
    cases r with
    | error _ => exact hfailed
    | ok _ => exact hrebuilt
  rcases hbefore with rfl | ⟨now', latencyMs', circuitRebuilt, rebuildDurationMs', rfl⟩
  · exact .failure hstatus
  · exact .malformed hstatus

/-- A request over a circuit that is set up; without keys there is none. -/
theorem safe_exchange {u : User} {past : Past} (h : ∀ keys, u.keys = some keys →
    SetUp P X cfg.hops past u.circuit u.circuitID keys) :
    (User.exchange P X cfg u).Safe (Allowed P X cfg.hops (User.exitLayer cfg)) past fun past' _ =>
      Grown past (fun _ => True) past' := by
  unfold User.exchange
  cases hkeys : u.keys with
  | none =>
    refine safe_bind safe_aesEncrypt ?_
    rintro _ (exc | ct) ⟨τ, rfl, hτ, -⟩ <;> exact ⟨τ, rfl, hτ, trivial⟩
  | some keys =>
    refine safe_bind safe_buildOnion ?_
    rintro _ (exc | payload) ⟨τ, rfl, hτ, hsealed⟩
    · exact ⟨τ, rfl, hτ, trivial⟩
    · cases hguard : guardURL P u.circuit with
      | error exc => exact ⟨τ, rfl, hτ, trivial⟩
      | ok url =>
        have hset := (h keys hkeys).extend hτ
        refine safe_bind (safe_sendOnion (.onion hset hguard (hsealed payload rfl))) ?_
        rintro _ (exc | onionResp) ⟨τ', rfl, hτ', -⟩ <;>
          exact ⟨τ ++ τ', List.append_assoc .., hτ.append hτ', trivial⟩

/-- A request is reported. -/
theorem safe_request {u : User} {circuitRebuilt : Bool} {rebuildDurationMs : ℚ}
    (h : Ready P X cfg.hops past u) :
    (User.request P X cfg u circuitRebuilt rebuildDurationMs).Safe (UserAllowed P X cfg) past
      (Finished P X cfg past []) := by
  unfold User.request
  refine safe_client_perform fun t0 => ?_
  have h₀ := h.inner (noFetch_now t0)
  refine safe_bind ((safe_exchange h₀.setUp).lift (userAllowed_inner h₀.heeded)) ?_
  rintro _ (exc | exitResp) ⟨τ, rfl, _, hτ, hquiet, -⟩ <;> obtain rfl := List.append_cancel_left hτ
  · refine (safe_recover (.inl rfl)).weaken fun past' r => Finished.after ?_ ?_
    · simp [rowOf, Interaction.inner]
    · simp [eventOf, Interaction.inner]
  · have h₁ := h₀.inner hquiet
    refine safe_client_perform fun t => safe_act fun now => ?_
    cases User.responseLength P exitResp with
    | error exc =>
      refine (safe_recover (.inr ⟨now, millis t0 t, circuitRebuilt, rebuildDurationMs, rfl⟩)).weaken
        fun past' r => Finished.after ?_ ?_
      · simp [rowOf, Interaction.inner]
      · simp [eventOf, Interaction.inner]
    | ok n =>
      refine safe_act fun _ => ⟨[⟨now, lit "success", millis t0 t, circuitRebuilt, rebuildDurationMs⟩],
        [User.requestEvent cfg (millis t0 t) n none], ?_, ?_, .success,
        ((h₁.inner (noFetch_now t)).act (by rintro ⟨⟩)).act (by rintro ⟨⟩)⟩
      · simp [rowOf, Interaction.inner]
      · simp [eventOf, Interaction.inner]

/-- A task is reported, and keeps the user ready. -/
theorem safe_sendRequest {u : User} (h : Ready P X cfg.hops past u) :
    (User.sendRequest P X cfg u).Safe (UserAllowed P X cfg) past
      (Finished P X cfg past []) := by
  have hneeds : (User.needsRebuild u).Safe (UserAllowed P X cfg) past fun past' b =>
      rows past' = rows past ∧ fired past' = fired past ∧ (b = false → Ready P X cfg.hops past' u) := by
    unfold User.needsRebuild
    by_cases hchecker : u.healthChecker = true
    · rw [if_pos hchecker]
      intro b
      refine ⟨by simp [rowOf], by simp [eventOf], fun hb => ?_⟩
      cases hb
      exact h.act (by rintro ⟨⟩)
    · rw [if_neg hchecker]
      exact ⟨rfl, rfl, fun _ => h⟩
  unfold User.sendRequest
  refine safe_bind hneeds ?_
  rintro past₁ (_ | _) ⟨hrows, hfired, hready⟩
  · refine (safe_request (hready rfl)).weaken fun past' r => Finished.after ?_ hfired
    rw [hrows, List.append_nil]
  · -- an alarm, and a rebuild
    simp only [if_true]
    refine safe_client_perform fun tRebuild => ?_
    refine safe_bind (safe_rebuildCircuit u) ?_
    rintro past₂ ⟨exc | ⟨⟩, u'⟩ ⟨hrows', hfired', hready'⟩
    · refine safe_client_perform fun tRebuilt => safe_act fun now => safe_act fun _ => ?_
      refine ⟨[⟨now, lit "rebuild_failed", millis tRebuild tRebuilt, true, millis tRebuild tRebuilt⟩],
        [User.requestEvent cfg (millis tRebuild tRebuilt) 0 (some exc)], ?_, ?_, .failure (by decide),
        ((hready'.inner (noFetch_now tRebuilt)).act (by rintro ⟨⟩)).act (by rintro ⟨⟩)⟩
      · simp [hrows', hrows, rowOf]
      · simp [hfired', hfired, eventOf]
    · refine safe_client_perform fun tRebuilt => ?_
      refine (safe_request (hready'.inner (noFetch_now tRebuilt))).weaken fun past' r =>
        Finished.after ?_ ?_
      · simp [hrows', hrows, rowOf, Interaction.inner]
      · simp [hfired', hfired, eventOf, Interaction.inner]

/-! ## Whole runs -/

variable (P X cfg) in
/-- A user that has started, and its tasks: what each has done, and whether
    it was rescheduled. -/
def UserRun (start : UserPast) (tasks : List (UserPast × Bool)) : Prop :=
  ∃ u₀ u, (User.onStart P X cfg).Path start (some u₀) ∧
    Rounds (User.sendRequest P X cfg) u₀ tasks u

/-- What holds along a run. -/
theorem UserRun.spec {start : UserPast} {tasks : List (UserPast × Bool)}
    (hrun : UserRun P X cfg start tasks) :
    CallsAllowed (UserAllowed P X cfg) [] (start ++ tasks.flatMap Prod.fst) ∧
      rows start = [] ∧ ∀ t ∈ tasks, Report cfg (rows t.1) (fired t.1) t.2 := by
  obtain ⟨u₀, u, hstart, hrounds⟩ := hrun
  obtain ⟨⟨hrows, -, hready⟩, hcalls⟩ := safe_onStart.of_path hstart
  have htask (past : UserPast) (u : User) (h : Ready P X cfg.hops past u) :
      (User.sendRequest P X cfg u).Safe (UserAllowed P X cfg) past fun past' r =>
        Ready P X cfg.hops past' r.2 ∧ ∀ τ, past' = past ++ τ → Report cfg (rows τ) (fired τ) r.1 := by
    refine (safe_sendRequest h).weaken ?_
    rintro _ r ⟨rs, es, hrs, hes, hreport, hready⟩
    refine ⟨hready, ?_⟩
    rintro τ rfl
    rw [rows_append] at hrs
    rw [fired_append] at hes
    rwa [List.append_cancel_left hrs, List.append_cancel_left hes]
  obtain ⟨-, hcalls', hreports⟩ := Rounds.safe htask hrounds (hready u₀ rfl)
  exact ⟨hcalls.append (by simpa using hcalls'), hrows, hreports⟩

/-- **A circuit kept in use**: over all the tasks of a user, whatever it is
    answered, an onion is sent only to the guard of the circuit fetched last,
    after all its hops have accepted the keys, and nothing is posted between
    an alarm of the health checker and the next circuit. -/
theorem user_setup_before_use {start : UserPast} {tasks : List (UserPast × Bool)}
    (hrun : UserRun P X cfg start tasks) :
    CallsAllowed (UserAllowed P X cfg) [] (start ++ tasks.flatMap Prod.fst) :=
  hrun.spec.1

/-- A task has one row, and a second one if it is logged as a success and
    fails then. -/
theorem Report.counts {rs : List Logged} {es : List RequestEvent} {rescheduled : Bool}
    (h : Report cfg rs es rescheduled) :
    es.length = 1 ∧ es.countP (·.exc.isSome) = rescheduled.toNat ∧
      rs.countP (fun e => e.status != lit "success") = rescheduled.toNat ∧
      rs.length = 1 + (decide (1 < rs.length)).toNat ∧
      ∀ e ∈ rs, e.status ≠ lit "success" → e.circuitRebuilt = true := by
  cases h with
  | success => simp [User.requestEvent]
  | failure hstatus => simp [User.requestEvent, hstatus]
  | malformed hstatus => simp [User.requestEvent, hstatus]

/-- The books of some tasks: each has an event and a row, and the failures
    among the events are those among the rows, and the tasks that are
    rescheduled. -/
structure Balanced (tasks : List (UserPast × Bool)) (entries : List Logged)
    (events : List RequestEvent) : Prop where
  requests : events.length = tasks.length
  failures : events.countP (·.exc.isSome) = tasks.countP (·.2)
  loss : entries.countP (fun e => e.status != lit "success") = tasks.countP (·.2)
  /-- More rows than that are of responses that were not understood. -/
  length : entries.length = tasks.length + tasks.countP fun t => 1 < (rows t.1).length
  rebuilt : ∀ e ∈ entries, e.status ≠ lit "success" → e.circuitRebuilt = true

theorem balanced {tasks : List (UserPast × Bool)}
    (h : ∀ t ∈ tasks, Report cfg (rows t.1) (fired t.1) t.2) :
    Balanced tasks (tasks.flatMap fun t => rows t.1) (tasks.flatMap fun t => fired t.1) := by
  induction tasks with
  | nil => exact ⟨rfl, rfl, rfl, rfl, by simp⟩
  | cons t tasks ih =>
    obtain ⟨ht, htasks⟩ := List.forall_mem_cons.mp h
    obtain ⟨hevent, hfailure, hrow, hlength, hrebuilt⟩ := ht.counts
    obtain ⟨hrequests, hfailures, hloss, hlengths, hrebuilts⟩ := ih htasks
    have hb (b : Bool) (n : Nat) : b.toNat + n = n + if b = true then 1 else 0 := by
      cases b <;> simp [Nat.add_comm]
    constructor
    · rw [List.flatMap_cons, List.length_append, List.length_cons, hevent, hrequests, Nat.add_comm]
    · rw [List.flatMap_cons, List.countP_append, List.countP_cons, hfailure, hfailures, hb]
    · rw [List.flatMap_cons, List.countP_append, List.countP_cons, hrow, hloss, hb]
    · rw [List.flatMap_cons, List.length_append, List.length_cons, List.countP_cons, hlengths]
      have hmore := hb (decide (1 < (rows t.1).length)) 0
      omega
    · intro e he hstatus
      rw [List.flatMap_cons, List.mem_append] at he
      exact he.elim (fun he => hrebuilt e he hstatus) fun he => hrebuilts e he hstatus

theorem rows_flatMap (tasks : List (UserPast × Bool)) :
    rows (tasks.flatMap Prod.fst) = tasks.flatMap fun t => rows t.1 := by
  induction tasks with
  | nil => rfl
  | cons t tasks ih => rw [List.flatMap_cons, rows_append, ih, List.flatMap_cons]

/-- The tasks of several users. -/
def allTasks (runs : List (UserPast × List (UserPast × Bool))) : List (UserPast × Bool) :=
  runs.flatMap Prod.snd

/-- **The books balance**: whatever users ran, and in whatever order their
    rows reached the log, the requests the charts count as lost are as many
    as the failures locust counts; every one of them is in the charts as a
    rebuild. -/
theorem loss_is_failures {runs : List (UserPast × List (UserPast × Bool))}
    (hruns : ∀ run ∈ runs, UserRun P X cfg run.1 run.2) {entries : List Logged}
    (hentries : entries.Perm (runs.flatMap fun run => rows (run.1 ++ run.2.flatMap Prod.fst)))
    (killTs : Int) :
    Balanced (allTasks runs) entries ((allTasks runs).flatMap fun t => fired t.1) ∧
      computeRequestLoss (entries.map Logged.loaded) =
        ((allTasks runs).flatMap fun t => fired t.1).countP (·.exc.isSome) ∧
      computeRequestLoss (entries.map Logged.loaded) ≤
        (computeRebuildOffsets (entries.map Logged.loaded) killTs).length := by
  have hreports : ∀ t ∈ allTasks runs, Report cfg (rows t.1) (fired t.1) t.2 := by
    intro t ht
    obtain ⟨run, hrun, ht⟩ := List.mem_flatMap.mp ht
    exact (hruns run hrun).spec.2.2 t ht
  -- a user logs nothing before its first task
  have hrows : (runs.flatMap fun run => rows (run.1 ++ run.2.flatMap Prod.fst)) =
      (allTasks runs).flatMap fun t => rows t.1 := by
    unfold allTasks
    rw [List.flatMap_assoc]
    refine List.flatMap_congr fun run hrun => ?_
    rw [rows_append, (hruns run hrun).spec.2.1, List.nil_append, rows_flatMap]
  rw [hrows] at hentries
  have hbalanced := balanced hreports
  have hmine : Balanced (allTasks runs) entries ((allTasks runs).flatMap fun t => fired t.1) := by
    refine ⟨hbalanced.requests, hbalanced.failures, ?_, ?_, fun e he => ?_⟩
    · rw [hentries.countP_eq, hbalanced.loss]
    · rw [hentries.length_eq, hbalanced.length]
    · exact hbalanced.rebuilt e (hentries.mem_iff.mp he)
  have hloss : computeRequestLoss (entries.map Logged.loaded) =
      entries.countP fun e => e.status != lit "success" := List.countP_map
  refine ⟨hmine, by rw [hloss, hmine.loss, hmine.failures], ?_⟩
  rw [hloss]
  unfold computeRebuildOffsets
  rw [List.length_map, ← List.countP_eq_length_filter, List.countP_map]
  refine List.countP_mono_left fun e he hstatus => ?_
  exact hmine.rebuilt e he (by simpa using hstatus)

namespace Sample

open HopVault.Sample

def userConfig : UserConfig := ⟨lit "http://d", lit "http://e", 3, true⟩

/-- A layer under the key of zeros that is always drawn. -/
def zeroSealed (text : Bytes) : Bytes := List.replicate 12 0 ++ (List.replicate 32 0 ++ text)

/-- What the guard returns: a response without a body, through all hops. -/
def guardAnswer : Response :=
  ⟨200, (obj [(lit "payload",
    str (Base64.encode (zeroSealed (zeroSealed (zeroSealed (lit "{}"))))))]).encode⟩

/-- The answers to a user: there is always an alarm. -/
def userAnswers : (e : UserEffects.Op) → UserEffects.Ans e
  | .inl (.log _) => ()
  | .inl (.rand n) => (choice 0).rand n
  | .inl (.keysGet _) => none
  | .inl (.keysStore _ _) => ()
  | .inl (.range m) => (choice 0).order m
  | .inl (.clientDo req) => (choice 0).dest req
  | .inl .now => (choice 0).time
  | .inl (.httpGet url) => (choice 0).get url
  | .inl .fate => (choice 0).fate
  | .inl (.mark _) => ()
  | .inl (.accept _ _ _) => ()
  | .inr .checkNeedsRebuild => true
  | .inr (.setCircuitNodes _) => ()
  | .inr .start => ()
  | .inr (.logCsvRow _ _ _ _) => (0 : Nat)
  | .inr (.fire _) => ()

/-- The nodes accept their keys, and an onion is answered so. -/
def nodeAnswers (onion : Result Response) (q : Post) : Result Response :=
  if q.url = (record .guard).nodeURL ++ lit "/onion" then onion else .ok ⟨204, []⟩

def started : UserPast × Option User :=
  (User.onStart libs externals userConfig).answered userAnswers (nodeAnswers (.ok guardAnswer))

theorem started_isSome : started.2.isSome = true := by decide +kernel

/-- A task of the user, which rebuilds the circuit first. -/
def task : UserPast × (Bool × User) :=
  (User.sendRequest libs externals userConfig (started.2.get started_isSome)).answered userAnswers
    (nodeAnswers (.ok guardAnswer))

theorem task_succeeds : task.2.1 = false := by decide +kernel

/-- The next one finds the guard gone. -/
def failing : UserPast × (Bool × User) :=
  (User.sendRequest libs externals userConfig task.2.2).answered userAnswers
    (nodeAnswers (.error (lit "connection refused")))

theorem failing_fails : failing.2.1 = true := by decide +kernel

/-- A user with two tasks. -/
theorem userRun_two {s : UserPast × Option User} {t t' : UserPast × (Bool × User)}
    (hs : (User.onStart libs externals userConfig).Path s.1 s.2) (hsome : s.2.isSome = true)
    (ht : (User.sendRequest libs externals userConfig (s.2.get hsome)).Path t.1 t.2)
    (ht' : (User.sendRequest libs externals userConfig t.2.2).Path t'.1 t'.2) :
    UserRun libs externals userConfig s.1 [(t.1, t.2.1), (t'.1, t'.2.1)] :=
  ⟨s.2.get hsome, t'.2.2, by rwa [Option.some_get], (Steps.single ht).snoc ht'⟩

def userTasks : List (UserPast × Bool) := [(task.1, task.2.1), (failing.1, failing.2.1)]

theorem userRun : UserRun libs externals userConfig started.1 userTasks :=
  userRun_two (path_answered _ _ _) started_isSome (path_answered _ _ _) (path_answered _ _ _)

end Sample

/-- A circuit of three hops is set up, rebuilt and used, and rebuilt again
    when its guard has gone. -/
theorem user_setup_before_use_sample : Sample.userTasks.map (·.2) = [false, true] ∧
    CallsAllowed (UserAllowed Sample.libs HopVault.Sample.externals Sample.userConfig) []
      (Sample.started.1 ++ Sample.userTasks.flatMap Prod.fst) := by
  refine ⟨?_, user_setup_before_use Sample.userRun⟩
  unfold Sample.userTasks
  rw [List.map_cons, List.map_singleton, Sample.task_succeeds, Sample.failing_fails]

/-- Two users with two tasks each, one of which fails, and the log in
    reverse. -/
theorem loss_is_failures_sample :
    let runs := [(Sample.started.1, Sample.userTasks), (Sample.started.1, Sample.userTasks)]
    let entries := (runs.flatMap fun run => rows (run.1 ++ run.2.flatMap Prod.fst)).reverse
    Balanced (allTasks runs) entries ((allTasks runs).flatMap fun t => fired t.1) ∧
      computeRequestLoss (entries.map Logged.loaded) = 2 ∧
      2 ≤ (computeRebuildOffsets (entries.map Logged.loaded) 0).length := by
  intro runs entries
  have hruns : ∀ run ∈ runs, UserRun Sample.libs HopVault.Sample.externals Sample.userConfig
      run.1 run.2 := by
    intro run hrun
    simp only [runs, List.mem_cons, List.not_mem_nil, or_false, or_self] at hrun
    exact hrun ▸ Sample.userRun
  obtain ⟨hbalanced, hloss, hrebuilt⟩ := loss_is_failures hruns (List.reverse_perm _) 0
  have hfailures : ((allTasks runs).flatMap fun t => fired t.1).countP (·.exc.isSome) = 2 := by
    rw [hbalanced.failures]
    simp [allTasks, runs, Sample.userTasks, Sample.task_succeeds, Sample.failing_fails]
  rw [hfailures] at hloss
  exact ⟨hbalanced, hloss, hloss ▸ hrebuilt⟩

end HopVault.Python
