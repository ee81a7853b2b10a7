import HopVault.Framework.Budget
import HopVault.Framework.Rely
import HopVault.Footprint
import HopVault.Sample

/-! # How often a call is executed

    A client retries from what it sees at the guard, and an onion whose
    answer is lost has been executed all the same. What does hold, in
    every interleaving and whichever exchanges fail: the destination is
    called at most once for each onion posted, an attempt posts at most
    one, and a call that returns a response has been executed. -/

namespace HopVault

open Framework Framework.Json

variable {ι ν : Type} [DecidableEq ι] [DecidableEq ν]

/-- What others may do meanwhile: anything that is not done for call `i`.
    They may also restart nodes, which then have no keys. -/
def OthersMove (i : ι) (w w' : World ι ν) : Prop :=
  w'.calls i = w.calls i ∧ w'.journal i = w.journal i

/-- The destination requests made for call `i`. -/
def execs (i : ι) (w : World ι ν) : Nat := (w.calls i).length

/-! ## What a call costs -/

/-- What is booked for call `i`: executions count `a`, onions sent `b` and
    attempts `c`. -/
def booked (i : ι) (a b c : Int) (w : World ι ν) : Int :=
  a * execs i w + b * (w.journal i).sent + c * (w.journal i).attempt

/-- What an operation adds to it. -/
def charge (i : ι) (a b c : Int) (ℓ : Loc ι ν) (e : Effect) : Int :=
  if ℓ.1 = i then
    match e with
    | .clientDo _ => a
    | .mark .sending => b
    | .mark .attempt => c
    | _ => 0
  else 0

variable {N : Net ν} {i : ι} {a b c : Int} {price : Post → Nat}

theorem booked_act (ℓ : Loc ι ν) (e : Effect) (w : World ι ν) :
    booked i a b c (World.act ℓ e w).2 = booked i a b c w + charge i a b c ℓ e := by
  obtain ⟨j, p⟩ := ℓ
  -- only the own client's requests and marks are booked, each by one
  by_cases hj : j = i
  · subst hj
    cases e with
    | clientDo req =>
      simp only [booked, charge, World.act, World.tick, execs, Function.update_self, if_true,
        List.length_append, List.length_singleton]
      push_cast
      ring
    | mark m =>
      simp only [booked, charge, World.act, World.tick, execs, Function.update_self, if_true]
      cases m <;> simp only [Journal.mark] <;> push_cast <;> ring
    | keysStore k v =>
      cases p <;> simp [booked, charge, World.act, World.tick, execs, World.keysStore]
    | accept ep x y => cases p <;> simp [booked, charge, World.act, World.tick, execs, World.accept]
    | _ => simp [booked, charge, World.act, World.tick, execs]
  · have hi : i ≠ j := Ne.symm hj
    cases e with
    | keysStore k v =>
      cases p <;> simp [booked, charge, World.act, World.tick, execs, World.keysStore, hj]
    | accept ep x y =>
      cases p <;> simp [booked, charge, World.act, World.tick, execs, World.accept, hj]
    | _ => simp [booked, charge, World.act, World.tick, execs, hj, hi]

/-- A ledger of executions, onions sent and attempts. -/
def ledger (N : Net ν) (i : ι) (a b c : Int) (price : Post → Nat) :
    Budget (N.asynchronous (ι := ι)) where
  spent := booked i a b c
  cost := charge i a b c
  price := price

theorem ledger_lawful
    (hserve : ∀ ℓ q, (ledger N i a b c price).Covers (N.serve ℓ q).1 (price q) (N.serve ℓ q).2) :
    (ledger N i a b c price).Lawful (OthersMove i) where
  act ℓ e w := (booked_act ℓ e w).le
  giveUp _ _ := le_refl _
  env {w w'} h := by
    simp only [ledger, booked, execs, h.1, h.2]
    exact le_refl _
  serve := hserve

/-- An operation that is not booked. -/
def Effect.Free : Effect → Prop
  | .clientDo _ => False
  | .mark .sending => False
  | .mark .attempt => False
  | _ => True

theorem Effect.Plain.free {e : Effect} (he : e.Plain) : e.Free := by
  cases e <;> trivial

omit [DecidableEq ν] in
theorem Effect.Free.charge {e : Effect} (he : e.Free) (ℓ : Loc ι ν) :
    HopVault.charge i a b c ℓ e = 0 := by
  unfold HopVault.charge
  split_ifs
  · cases e with
    | mark m => cases m <;> first | rfl | cases he
    | clientDo req => cases he
    | _ => rfl
  · rfl

omit [DecidableEq ν] in
/-- What any other operation costs at most. -/
theorem charge_le {e : Effect} {x : Int} (hx : 0 ≤ x)
    (he : charge i a b c (i, (Place.client : Place ν)) e ≤ x) (ℓ : Loc ι ν) :
    charge i a b c ℓ e ≤ x := by
  unfold charge at he ⊢
  rw [if_pos rfl] at he
  split_ifs
  · exact he
  · exact hx

theorem covers_op_free {ℓ : Loc ι ν} {n : Nat} {α : Type} {e : Effect} {k : e.Ans → Go α}
    (he : e.Free) (hk : ∀ x, (ledger N i a b c price).Covers ℓ n (k x)) :
    (ledger N i a b c price).Covers ℓ n (.op e k) :=
  Budget.covers_free (he.charge ℓ) hk

/-- A program that is free throughout. -/
theorem covers_of_free {ℓ : Loc ι ν} {n : Nat} {α : Type} {p : Go α} {R : Post → Prop}
    {T : α → Prop} (h : p.All Effect.Free R T) (hR : ∀ q, R q → price q = 0) :
    (ledger N i a b c price).Covers ℓ n p :=
  (Budget.covers_of_all h (fun _ he => (he.charge ℓ).le) hR).mono (Nat.zero_le n)

/-! ## Executions by nodes -/

/-- A body that a node handles as an onion may be executed once. -/
def onionPrice (body : Bytes) : Nat :=
  match decodeStream OnionRequest.fields .zero body with
  | some r => if r.circuitID = [] ∨ r.payload = [] then 0 else 1
  | none => 0

theorem onionPrice_le (body : Bytes) : onionPrice body ≤ 1 := by
  unfold onionPrice
  split
  · split_ifs <;> decide
  · decide

theorem onionPrice_eq_one {body : Bytes} {r : OnionRequest}
    (hr : decodeStream OnionRequest.fields .zero body = some r)
    (hne : ¬(r.circuitID = [] ∨ r.payload = [])) : onionPrice body = 1 := by
  unfold onionPrice
  rw [hr]
  exact if_neg hne

/-- Executions, booked against the onions that allow them. -/
abbrev execLedger (N : Net ν) (i : ι) : Budget (N.asynchronous (ι := ι)) :=
  ledger N i 1 (-1) 0 fun q => onionPrice q.body

section

variable {X : Externals} {ℓ : Loc ι ν}

theorem covers_log {n : Nat} {line : Bytes} {α : Type} {k : Unit → Go α}
    (hk : (execLedger N i).Covers ℓ n (k ())) : (execLedger N i).Covers ℓ n (.op (.log line) k) :=
  covers_op_free (by trivial) fun _ => hk

theorem covers_executeExitRequest (layer : ExitLayer) :
    (execLedger N i).Covers ℓ 1 (executeExitRequest X layer) := by
  unfold executeExitRequest
  split
  · exact Budget.covers_ret
  · refine covers_op_free (by trivial) fun order => ?_
    have hcharge : charge i 1 (-1) 0 ℓ (.clientDo (destRequest layer order.1)) ≤ 1 :=
      charge_le (by decide) (by simp [charge]) ℓ
    refine Budget.covers_op.mpr ⟨0, by rw [Nat.cast_zero, add_zero]; exact hcharge, fun out => ?_⟩
    cases out <;> exact Budget.covers_ret

theorem covers_executeExitPayload (key payload : Bytes) :
    (execLedger N i).Covers ℓ 1 (executeExitPayload X key payload) := by
  unfold executeExitPayload
  split
  · exact Budget.covers_ret
  · refine Budget.Covers.bind (m := 1) (n := 0) (covers_executeExitRequest _) fun r => ?_
    cases r with
    | error err => exact Budget.covers_ret
    | ok resp =>
      have hfree := all_encryptExitResponse (X := X) (P := Effect.Free) (R := fun _ => False)
        (fun _ he => he.free)
      refine Budget.Covers.bind (m := 0) (n := 0)
        (covers_of_free (hfree _ _) (fun _ h => h.elim)) fun r => ?_
      cases r <;> exact Budget.covers_ret

/-- The exit executes an onion at most once. -/
theorem covers_exitHandleOnion (method addr body : Bytes) :
    (execLedger N i).Covers ℓ (onionPrice body)
      (ExitHandler.handleOnion X ⟨method, addr, body⟩) := by
  unfold ExitHandler.handleOnion
  split
  · exact Budget.covers_ret
  · split
    · exact covers_log Budget.covers_ret
    · rename_i r hr
      split
      · exact Budget.covers_ret
      · -- a request that is not empty is worth one execution
        rename_i hne
        rw [onionPrice_eq_one hr hne]
        refine covers_op_free (by trivial) fun key => ?_
        cases key with
        | none => exact covers_log Budget.covers_ret
        | some key =>
          show (execLedger N i).Covers ℓ 1 (ExitHandler.execute X r key)
          unfold ExitHandler.execute
          refine Budget.Covers.bind (m := 1) (n := 0) (covers_executeExitPayload _ _) fun r => ?_
          cases r <;> exact covers_log Budget.covers_ret

namespace Handler

variable (h : Handler)

theorem covers_directExit (prevHop : Bytes) (req : OnionRequest) (key err : Bytes) :
    (execLedger N i).Covers ℓ 1 (h.directExit X prevHop req key err) := by
  unfold directExit
  refine Budget.Covers.bind (m := 1) (n := 0) (covers_executeExitPayload _ _) fun r => ?_
  cases r <;> exact covers_log Budget.covers_ret

/-- A hop executes an onion itself or hands it on, but not both. -/
theorem covers_peel (prevHop : Bytes) (req : OnionRequest) (key : Bytes) :
    (execLedger N i).Covers ℓ 1 (h.peel X prevHop req key) := by
  unfold peel
  split
  · split
    · exact covers_directExit h _ _ _ _
    · exact covers_log Budget.covers_ret
  · rename_i layer _
    refine covers_log (Budget.covers_rpc.mpr ⟨0, onionPrice_le _, fun resp => ?_⟩)
    have hreturn : (execLedger N i).Covers ℓ 0 (h.returnPath X key layer.nextHop resp) :=
      covers_of_free (all_returnPath (R := fun _ => False) (fun _ he => he.free) h _ _ _)
        fun _ h => h.elim
    cases resp with
    | error err => exact hreturn
    | ok resp => exact covers_op_free (by trivial) fun _ => hreturn

theorem covers_handleOnion (method addr body : Bytes) :
    (execLedger N i).Covers ℓ (onionPrice body)
      (h.handleOnion X ⟨method, addr, body⟩) := by
  unfold handleOnion
  split
  · exact Budget.covers_ret
  · split
    · exact covers_log Budget.covers_ret
    · rename_i r hr
      split
      · exact covers_log Budget.covers_ret
      · rename_i hne
        rw [onionPrice_eq_one hr hne]
        refine covers_op_free (by trivial) fun key => ?_
        cases key with
        | none => exact covers_log Budget.covers_ret
        | some key => exact covers_peel h _ _ _

end Handler

/-- A node keeps to the price of the request it serves. -/
theorem covers_handle (n : ν) (endpoint : Endpoint) (method addr body : Bytes) :
    (execLedger N i).Covers ℓ (onionPrice body)
      (N.handle n endpoint ⟨method, addr, body⟩) := by
  have hplain : ∀ e : Effect, e.Plain → e.Free := fun _ he => he.free
  unfold Net.handle
  cases endpoint with
  | setup =>
    exact covers_of_free (all_handleSetup (R := fun _ => False) hplain _ _ _
      fun _ _ _ _ _ _ _ => trivial) fun _ h => h.elim
  | key =>
    -- the key endpoint does nothing that is booked
    have hkey (label : Bytes) := all_handleKeyAs (R := fun _ => False) hplain label method addr
      body fun _ _ _ _ _ => trivial
    cases N.role n <;> exact covers_of_free (hkey _) fun _ h => h.elim
  | onion =>
    cases N.role n with
    | guard => exact Handler.covers_handleOnion _ _ _ _
    | relay => exact Handler.covers_handleOnion _ _ _ _
    | exit => exact covers_exitHandleOnion _ _ _

end

theorem execLedger_lawful : (execLedger N i).Lawful (OthersMove i) := by
  refine ledger_lawful fun ℓ q => ?_
  unfold Net.serve
  split
  · simp only [Net.serveAt, perform_eq, Prog.op_bind, Prog.ret_bind, Prog.pure_eq]
    refine covers_op_free (by trivial) fun _ => ?_
    exact Budget.Covers.bind (n := 0) (covers_handle _ _ _ _ _) fun _ => Budget.covers_ret
  · exact Budget.covers_ret

/-! ## Onions and attempts -/

/-- Nodes neither send for the client nor begin its attempts. -/
theorem journalLedger_lawful :
    (ledger N i 0 b c fun _ => 0).Lawful (OthersMove i) := by
  refine ledger_lawful fun ℓ q => ?_
  -- requests to the destination are not booked here
  have hcost : ∀ e : Effect, (e.Free ∨ ∃ req, e = .clientDo req) →
      (ledger N i 0 b c fun _ => 0).cost (N.serve ℓ q).1 e ≤ 0 := by
    rintro e (he | ⟨req, rfl⟩)
    · exact (he.charge _).le
    · have hcharge : charge i 0 b c (i, (Place.client : Place ν)) (.clientDo req) ≤ 0 := by
        simp [charge]
      exact charge_le (le_refl 0) hcharge _
  refine Budget.covers_of_all (P := fun e => e.Free ∨ ∃ req, e = .clientDo req)
    (R := fun _ => True) (T := fun _ => True) ?_ hcost fun _ _ => rfl
  unfold Net.serve
  split
  · rename_i n endpoint _
    have hnode : N.Footprint n endpoint q.body
        (fun e => e.Free ∨ ∃ req, e = .clientDo req) (fun _ => True) := {
      plain := fun _ he => .inl he.free
      dest := fun _ req => .inr ⟨req, rfl⟩
      answer := fun _ _ _ => .inl trivial
      get := fun _ _ _ => .inl trivial
      setup := fun _ _ _ _ _ _ _ _ => .inl trivial
      key := fun _ _ _ _ _ _ => .inl trivial
      forward := fun _ _ _ _ _ _ => trivial }
    simp only [Net.serveAt, perform_eq, Prog.op_bind, Prog.ret_bind, Prog.pure_eq]
    exact ⟨.inl trivial, fun _ => Prog.all_bind (Net.all_handle hnode _ _) fun _ _ => trivial⟩
  · trivial

/-! ## The client -/

/-- A set-up request carries no onion. -/
theorem onionPrice_keySetupRequest (r : KeySetupRequest) : onionPrice r.json.encode = 0 := by
  unfold onionPrice
  rw [decode_keySetupRequest_as_onion]
  exact if_pos (.inr rfl)

theorem covers_sendOnion {ℓ : Loc ι ν} {k : Nat} (guardURL circuitID payload : Bytes)
    (honion : ∀ url (r : OnionRequest), price (jsonPost url r.json.encode) ≤ k) :
    (ledger N i a b c price).Covers ℓ k (sendOnion N.X guardURL circuitID payload) := by
  simp only [sendOnion, clientPost_eq, Prog.rpc_bind, Prog.ret_bind, Prog.pure_eq]
  refine Budget.covers_rpc.mpr ⟨0, honion _ _, fun r => ?_⟩
  cases r with
  | error err => exact Budget.covers_ret
  | ok resp =>
    dsimp only
    split_ifs
    · exact Budget.covers_ret
    · split <;> exact Budget.covers_ret

/-- What one attempt costs, if setting up a circuit costs nothing: the
    onion it sends. -/
theorem covers_attemptCircuit {n k : Nat} {call : Call} (circuit : CircuitResponse)
    (hsetup : ∀ url (r : KeySetupRequest), price (jsonPost url r.json.encode) = 0)
    (honion : ∀ url (r : OnionRequest), price (jsonPost url r.json.encode) ≤ k) (hn : b + k ≤ n) :
    (ledger N i a b c price).Covers (i, .client) n (attemptCircuit N.X call circuit) := by
  have hplain : ∀ e : Effect, e.Plain → e.Free := fun _ he => he.free
  simp only [attemptCircuit, perform_eq, Prog.op_bind, Prog.ret_bind, Prog.pure_eq]
  -- the set-up is free, then the mark and the onion are paid for
  rw [← Nat.zero_add n]
  refine Budget.Covers.bind (covers_of_free (all_setupCircuit (R := fun q => price q = 0)
    { plain := hplain
      posting := fun _ _ => trivial
      setup := fun _ _ => hsetup _ _ } _ _) fun _ h => h) fun r => ?_
  · cases r with
    | error err => exact Budget.covers_ret
    | ok keys =>
      refine covers_op_free (by trivial) fun _ => ?_
      rw [← Nat.zero_add n]
      refine Budget.Covers.bind
        (covers_of_free (all_buildOnion (R := fun _ => False) hplain _ _ _ _ _) fun _ h => h.elim)
        fun r => ?_
      cases r with
      | error err => exact Budget.covers_ret
      | ok payload =>
        have hcost : (ledger N i a b c price).cost (i, Place.client) (.mark .sending) = b := by
          simp [ledger, charge]
        refine Budget.covers_op.mpr ⟨k, by rw [hcost]; exact hn, fun _ => ?_⟩
        rw [← Nat.add_zero k]
        refine Budget.Covers.bind (covers_sendOnion _ _ _ honion) fun r => ?_
        cases r with
        | error err => exact Budget.covers_ret
        | ok resp =>
          dsimp only
          split <;> exact Budget.covers_ret

/-- What the loop costs, if an attempt costs `m` with its beginning. -/
theorem covers_runAttempts {n m : Nat} {call : Call} (maxAttempts : Int)
    (hattempt : ∀ circuit, (ledger N i a b c price).Covers (i, .client) n
      (attemptCircuit N.X call circuit)) (hm : c + n ≤ m) (left : Nat) (attempt : Int)
    (events : List RebuildEvent) (lastErr : Option Bytes) (lastCircuit : Option CircuitResponse) :
    (ledger N i a b c price).Covers (i, .client) (left * m)
      (runAttempts N.X call maxAttempts left attempt events lastErr lastCircuit) := by
  have hplain : ∀ e : Effect, e.Plain → e.Free := fun _ he => he.free
  -- induction on the attempts left, each with a budget of m
  induction left generalizing attempt events lastErr lastCircuit with
  | zero => exact Budget.covers_ret
  | succ left ih =>
    simp only [runAttempts, perform_eq, Prog.op_bind, Prog.ret_bind, Prog.pure_eq]
    have hlast : ∀ success events, (ledger N i a b c price).Covers (i, .client) 0
        (finishRebuild success events) := fun success events =>
      covers_of_free (all_finishRebuild (R := fun _ => False) hplain success events) fun _ h => h.elim
    have hcost : (ledger N i a b c price).cost (i, Place.client) (.mark .attempt) = c := by
      simp [ledger, charge]
    -- one attempt pays for its mark and for what it does; the rest is for the later ones
    have hsum : (left + 1) * m = 0 + (m + left * m) := by ring
    rw [hsum]
    refine Budget.Covers.bind (covers_of_free (all_beginRebuild (R := fun _ => False) hplain
      attempt maxAttempts events lastErr lastCircuit) fun _ h => h.elim) fun events => ?_
    refine Budget.covers_op.mpr ⟨n + left * m, by rw [hcost]; push_cast; linarith, fun _ => ?_⟩
    rw [← Nat.zero_add (n + left * m)]
    refine Budget.Covers.bind
      (covers_of_free (all_getCircuit (R := fun _ => False) (fun _ => trivial) _ _) fun _ h => h.elim) fun r => ?_
    cases r with
    | error err => exact Budget.covers_ret
    | ok circuit =>
      refine Budget.Covers.bind (hattempt circuit) fun outcome => ?_
      refine covers_op_free (by trivial) fun _ => ?_
      rw [← Nat.zero_add (left * m)]
      cases outcome with
      | retry err => exact Budget.Covers.bind (hlast _ _) fun _ => ih _ _ _ _
      | fail err => exact Budget.covers_ret
      | done resp => exact Budget.Covers.bind (hlast _ _) fun _ => Budget.covers_ret

/-- What a whole call costs. -/
theorem covers_executeRequest {k n m : Nat} {call : Call}
    (hsetup : ∀ url (r : KeySetupRequest), price (jsonPost url r.json.encode) = 0)
    (honion : ∀ url (r : OnionRequest), price (jsonPost url r.json.encode) ≤ k) (hn : b + k ≤ n)
    (hm : c + n ≤ m) :
    (ledger N i a b c price).Covers (i, .client) (call.attempts.toNat * m)
      (executeRequestWithRebuildTracking N.X call) := by
  unfold executeRequestWithRebuildTracking
  split
  · exact Budget.covers_ret
  · exact covers_runAttempts _ (fun circuit => covers_attemptCircuit circuit hsetup honion hn) hm _ _ _ _ _

/-! ## An answer means an execution -/

/-- Executions are never taken back, and whoever works for call `i` answers
    with 200 only after one. -/
def execRely (N : Net ν) (i : ι) : Rely (N.asynchronous (ι := ι)) where
  le _ v w := execs i v ≤ execs i w
  shared _ := True
  inv _ := True
  pre ℓ _ _ := ℓ.1 = i
  post _ _ v r w := ∀ resp, r = .ok resp → resp.statusCode = statusOK → execs i v < execs i w

theorem execRely_ordered : (execRely N i).Ordered :=
  ⟨fun _ _ => le_refl _, le_trans⟩

theorem execs_act (ℓ : Loc ι ν) (e : Effect) (w : World ι ν) :
    execs i w ≤ execs i (World.act ℓ e w).2 := by
  -- executions alone, booked
  have h := booked_act (i := i) (a := 1) (b := 0) (c := 0) ℓ e w
  have hcharge : (0 : Int) ≤ charge i 1 0 0 ℓ e := by
    unfold charge
    split_ifs
    · split <;> decide
    · decide
  simp only [booked] at h
  omega

/-- The call has been executed since `w₀`, if this is an answer with 200. -/
def ExecutedIfOK (i : ι) (w₀ w : World ι ν) (r : Response) : Prop :=
  r.statusCode = statusOK → execs i w₀ < execs i w

omit [DecidableEq ι] [DecidableEq ν] in
/-- An error answer says nothing. -/
theorem executedIfOK_of_error {w₀ w : World ι ν} {r : Response} (h : r.statusCode ≠ statusOK) :
    ExecutedIfOK i w₀ w r := fun h200 => absurd h200 h

section

variable {α : Type} {p : Place ν} {w₀ w : World ι ν}
  {Q : World ι ν → α → Prop}

theorem ok_op {e : Effect} {k : e.Ans → Go α}
    (hk : ∀ x w', execs i w ≤ execs i w' → (execRely N i).Ok (i, p) (k x) Q w') :
    (execRely N i).Ok (i, p) (.op e k) Q w := fun w' hle _ =>
  ⟨fun _ _ => execs_act _ e w', trivial, hk _ _ (le_trans hle (execs_act _ e w'))⟩

/-- A destination request is an execution. -/
theorem ok_clientDo {req : DestRequest} {k : DestOutcome → Go α}
    (hk : ∀ x w', execs i w < execs i w' → (execRely N i).Ok (i, p) (k x) Q w') :
    (execRely N i).Ok (i, p) (.op (.clientDo req) k) Q w := by
  intro w' hle _
  have hgrow : execs i (World.act (i, p) (.clientDo req) w').2 = execs i w' + 1 := by
    simp [World.act, World.tick, execs]
  exact ⟨fun _ _ => execs_act _ _ w', trivial, hk _ _ (hgrow ▸ Nat.lt_succ_of_le hle)⟩

theorem ok_rpc {q : Post} {k : Result Response → Go α}
    (hk : ∀ r w', execs i w ≤ execs i w' → (∀ resp, r = .ok resp → ExecutedIfOK i w w' resp) →
      (execRely N i).Ok (i, p) (k r) Q w') :
    (execRely N i).Ok (i, p) (.rpc q k) Q w := fun _ hle _ =>
  ⟨rfl, fun r v hle₂ _ hpost => hk r v (le_trans hle hle₂) fun resp hr h200 =>
    lt_of_le_of_lt hle (hpost resp hr h200)⟩

/-- A program whose result says nothing about executions. -/
theorem ok_of_all {q : Go α} {P : Effect → Prop} {R : Post → Prop} {T : α → Prop}
    (h : q.All P R T) (hret : ∀ a, T a → ∀ w', execs i w ≤ execs i w' → Q w' a) :
    (execRely N i).Ok (i, p) q Q w :=
  Rely.Ok.of_all (I := fun v => execs i w ≤ execs i v) h (le_refl _)
    (fun _ _ hv hle _ => le_trans hv hle)
    (fun e _ v hv _ => ⟨fun _ _ => execs_act _ e v, trivial, le_trans hv (execs_act _ e v)⟩)
    (fun _ _ _ _ _ => rfl) fun a ha v hv _ => hret a ha v hv

variable {X : Externals}

theorem ok_executeExitRequest (layer : ExitLayer) :
    (execRely N i).Ok (i, p) (executeExitRequest X layer)
      (fun w' r => ∀ x, r = .ok x → execs i w < execs i w') w := by
  unfold executeExitRequest
  split
  · exact fun w' _ _ x hx => by cases hx
  · refine ok_op fun order w₁ hw₁ => ok_clientDo fun out w₂ hw₂ => ?_
    have hlt : execs i w < execs i w₂ := lt_of_le_of_lt hw₁ hw₂
    cases out <;> exact fun w' hle _ _ _ => lt_of_lt_of_le hlt hle

theorem ok_executeExitPayload (key payload : Bytes) :
    (execRely N i).Ok (i, p) (executeExitPayload X key payload)
      (fun w' r => ∀ x, r = .ok x → execs i w < execs i w') w := by
  unfold executeExitPayload
  split
  · exact fun w' _ _ x hx => by cases hx
  · refine (ok_executeExitRequest _).bind execRely_ordered (fun r w₁ _ hr => ?_) trivial
    cases r with
    | error err => exact fun w' _ _ x hx => by cases hx
    | ok resp =>
      have hlt := hr resp rfl
      refine (ok_of_all (Q := fun w' _ => execs i w < execs i w')
        (all_encryptExitResponse (P := fun _ => True) (R := fun _ => True) (fun _ _ => trivial) _ _)
        fun _ _ w' hle => lt_of_lt_of_le hlt hle).bind execRely_ordered (fun r w₂ _ hr => ?_) trivial
      cases r <;> exact fun w' hle _ _ _ => lt_of_lt_of_le hr hle

/-- An error answer, perhaps after a log line. -/
theorem ok_httpError {msg : String} {code : Int} (h : code ≠ statusOK) :
    (execRely N i).Ok (i, p) (.ret (httpError msg code)) (ExecutedIfOK i w₀) w :=
  fun _ _ _ => executedIfOK_of_error h

theorem ok_logError {line : Bytes} {msg : String} {code : Int} (h : code ≠ statusOK) :
    (execRely N i).Ok (i, p) (logPrintf line >>= fun _ => .ret (httpError msg code))
      (ExecutedIfOK i w₀) w :=
  ok_op fun _ _ _ => ok_httpError h

theorem ok_exitHandleOnion (r : ServerRequest) :
    (execRely N i).Ok (i, p) (ExitHandler.handleOnion X r) (ExecutedIfOK i w) w := by
  unfold ExitHandler.handleOnion
  split
  · exact ok_httpError (by decide)
  · split
    · exact ok_logError (by decide)
    · split
      · exact ok_httpError (by decide)
      · refine ok_op fun key w₁ hw₁ => ?_
        cases key with
        | none => exact ok_logError (by decide)
        | some key =>
          show (execRely N i).Ok (i, p) (ExitHandler.execute X _ key) _ _
          unfold ExitHandler.execute
          -- an answer of 200 stands for an execution of the payload
          refine (ok_executeExitPayload _ _).bind execRely_ordered (fun r w₂ _ hr => ?_) trivial
          cases r with
          | error err =>
            refine ok_op fun _ w₃ _ => fun w' _ _ => executedIfOK_of_error ?_
            unfold ExitHandler.failureAnswer
            split_ifs <;> decide
          | ok x =>
            refine ok_op fun _ w₃ hw₃ => fun w' hle _ _ => ?_
            exact lt_of_le_of_lt hw₁ (lt_of_lt_of_le (hr x rfl) (le_trans hw₃ hle))

namespace Handler

variable (h : Handler)

theorem ok_directExit (prevHop : Bytes) (req : OnionRequest) (key err : Bytes) :
    (execRely N i).Ok (i, p) (h.directExit X prevHop req key err) (ExecutedIfOK i w) w := by
  unfold directExit
  refine (ok_executeExitPayload _ _).bind execRely_ordered (fun r w₁ _ hr => ?_) trivial
  cases r with
  | error err => exact ok_logError (by decide)
  | ok x => exact ok_op fun _ w₂ hw₂ => fun w' hle _ _ => lt_of_lt_of_le (hr x rfl) (le_trans hw₂ hle)

/-- What the next hop's answer says, this hop's answer says too. -/
theorem ok_returnPath {key nextHop : Bytes} {resp : Result Response}
    (hresp : ∀ r, resp = .ok r → ExecutedIfOK i w₀ w r) :
    (execRely N i).Ok (i, p) (h.returnPath X key nextHop resp) (ExecutedIfOK i w₀) w := by
  unfold returnPath
  cases resp with
  | error err => exact ok_logError (by decide)
  | ok r =>
    dsimp only
    split
    · exact ok_logError (by decide)
    · rename_i hstatus
      -- a 200 of the next hop stands for an execution further on
      have hlt := hresp r rfl (not_not.mp hstatus)
      split
      · exact ok_logError (by decide)
      · refine (ok_of_all (Q := fun w' _ => execs i w₀ < execs i w')
          (all_encrypt (P := fun _ => True) (R := fun _ => True) (fun _ _ => trivial) _ _)
          fun _ _ w' hle => lt_of_lt_of_le hlt hle).bind execRely_ordered (fun r w₂ _ hr => ?_)
          trivial
        cases r with
        | error err => exact ok_logError (by decide)
        | ok ct => exact fun w' hle _ _ => lt_of_lt_of_le hr hle

theorem ok_peel (prevHop : Bytes) (req : OnionRequest) (key : Bytes) :
    (execRely N i).Ok (i, p) (h.peel X prevHop req key) (ExecutedIfOK i w) w := by
  unfold peel
  -- the onion is executed here, or forwarded if it opens as a layer
  split
  · split
    · exact ok_directExit h _ _ _ _
    · exact ok_logError (by decide)
  · rename_i layer _
    refine ok_op fun _ w₁ hw₁ => ok_rpc fun resp w₂ _ hresp => ?_
    have hreturn {w₃ : World ι ν} (hw₃ : execs i w₂ ≤ execs i w₃) :
        (execRely N i).Ok (i, p) (h.returnPath X key layer.nextHop resp) (ExecutedIfOK i w) w₃ :=
      ok_returnPath h fun r hr h200 =>
        lt_of_le_of_lt hw₁ (lt_of_lt_of_le (hresp r hr h200) hw₃)
    cases resp with
    | error err => exact hreturn (le_refl _)
    | ok resp => exact ok_op fun _ w₃ hw₃ => hreturn hw₃

theorem ok_handleOnion (r : ServerRequest) :
    (execRely N i).Ok (i, p) (h.handleOnion X r) (ExecutedIfOK i w) w := by
  unfold handleOnion
  split
  · exact ok_httpError (by decide)
  · split
    · exact ok_logError (by decide)
    · split
      · exact ok_logError (by decide)
      · refine ok_op fun key w₁ hw₁ => ?_
        cases key with
        | none => exact ok_logError (by decide)
        | some key =>
          refine (ok_peel h _ _ key).weaken fun r w' _ hr h200 => ?_
          exact lt_of_le_of_lt hw₁ (hr h200)

end Handler

/-- No handler answers with 200 before an execution. -/
theorem ok_handle (n : ν) (endpoint : Endpoint) (r : ServerRequest) :
    (execRely N i).Ok (i, p) (N.handle n endpoint r) (ExecutedIfOK i w) w := by
  unfold Net.handle
  cases endpoint with
  | setup =>
    exact ok_of_all (all_handleSetup (P := fun _ => True) (R := fun _ => True) (fun _ _ => trivial) _ _ _
      fun _ _ _ _ _ _ _ => trivial) fun _ hr _ _ => executedIfOK_of_error hr
  | key =>
    have hkey (label : Bytes) := all_handleKeyAs (P := fun _ => True) (R := fun _ => False)
      (fun _ _ => trivial) label r.method r.remoteAddr r.body fun _ _ _ _ _ => trivial
    -- the key endpoint answers no 200 either
    cases N.role n <;> exact ok_of_all (hkey _) fun _ hr _ _ => executedIfOK_of_error hr.1
  | onion =>
    cases N.role n with
    | guard => exact Handler.ok_handleOnion _ _
    | relay => exact Handler.ok_handleOnion _ _
    | exit => exact ok_exitHandleOnion _

theorem execRely_lawful : (execRely N i).Lawful (OthersMove i) where
  toOrdered := execRely_ordered
  giveUp _ := ⟨fun _ => le_refl _, trivial⟩
  post_giveUp _ _ _ hr := by cases hr
  env {w w'} h _ := ⟨fun _ => (congrArg List.length h.1).ge, trivial⟩
  serve_shared _ _ := trivial
  serve {ℓ q w} _ hℓ := by
    obtain ⟨j, p⟩ := ℓ
    obtain rfl : j = i := hℓ
    show (execRely N j).Ok (N.serve (j, p) q).1 (N.serve (j, p) q).2 _ w
    unfold Net.serve
    split
    · simp only [Net.serveAt, perform_eq, Prog.op_bind, Prog.ret_bind, Prog.pure_eq]
      refine ok_op fun _ w₁ hw₁ => ?_
      refine (ok_handle _ _ _).bind execRely_ordered (fun resp w₂ _ hresp => ?_) trivial
      rintro w' hle - r ⟨⟩ h200
      exact lt_of_le_of_lt hw₁ (lt_of_lt_of_le (hresp h200) hle)
    · exact fun _ _ _ _ hr => by cases hr

/-! ## The client's answer -/

theorem ok_sendOnion (guardURL circuitID payload : Bytes) :
    (execRely N i).Ok (i, p) (sendOnion X guardURL circuitID payload)
      (fun w' r => execs i w ≤ execs i w' ∧ ∀ x, r = .ok x → execs i w < execs i w') w := by
  simp only [sendOnion, clientPost_eq, Prog.rpc_bind, Prog.ret_bind, Prog.pure_eq]
  refine ok_rpc fun r w₁ hw₁ hresp => ?_
  have hfail : ∀ {err : Bytes}, (execRely N i).Ok (i, p) (.ret (.error err : Result OnionResponse))
      (fun w' r => execs i w ≤ execs i w' ∧ ∀ x, r = .ok x → execs i w < execs i w') w₁ :=
    fun _ hle _ => ⟨le_trans hw₁ hle, fun _ hx => by cases hx⟩
  cases r with
  | error err => exact hfail
  | ok resp =>
    dsimp only
    split
    · exact hfail
    · rename_i hstatus
      -- the client takes a result only from a 200
      have hlt := hresp resp rfl (not_not.mp hstatus)
      split
      · exact hfail
      · exact fun _ hle _ => ⟨le_trans hw₁ hle, fun _ _ => lt_of_lt_of_le hlt hle⟩

/-- An attempt that ends with a response has been executed. -/
theorem ok_attemptCircuit (call : Call) (circuit : CircuitResponse) (hw : execs i w₀ ≤ execs i w) :
    (execRely N i).Ok (i, p) (attemptCircuit X call circuit)
      (fun w' out => execs i w₀ ≤ execs i w' ∧ ∀ resp, out = .done resp → execs i w₀ < execs i w')
      w := by
  have hplain : ∀ e : Effect, e.Plain → True := fun _ _ => trivial
  -- no failure is an answer
  have hfail : ∀ {w₁ : World ι ν} {out : Outcome}, execs i w₀ ≤ execs i w₁ →
      (∀ resp, out ≠ .done resp) → (execRely N i).Ok (i, p) (.ret out) (fun w' out =>
        execs i w₀ ≤ execs i w' ∧ ∀ resp, out = .done resp → execs i w₀ < execs i w') w₁ :=
    fun h hout _ hle _ => ⟨le_trans h hle, fun resp hr => absurd hr (hout resp)⟩
  simp only [attemptCircuit, perform_eq, Prog.op_bind, Prog.ret_bind, Prog.pure_eq]
  refine (ok_of_all (Q := fun w' _ => execs i w₀ ≤ execs i w')
    (all_setupCircuit (P := fun _ => True) (R := fun _ => True) ⟨hplain, fun _ _ => trivial,
      fun _ _ => trivial⟩ _ _) fun _ _ _ hle => le_trans hw hle).bind execRely_ordered
    (fun r w₁ _ hw₁ => ?_) trivial
  cases r with
  | error err => exact hfail hw₁ (by simp)
  | ok keys =>
    refine ok_op fun _ w₂ hw₂ => ?_
    refine (ok_of_all (Q := fun w' _ => execs i w₀ ≤ execs i w')
      (all_buildOnion (P := fun _ => True) (R := fun _ => True) hplain _ _ _ _ _)
      fun _ _ _ hle => le_trans hw₁ (le_trans hw₂ hle)).bind execRely_ordered
      (fun r w₃ _ hw₃ => ?_) trivial
    cases r with
    | error err => exact hfail hw₃ (by simp)
    | ok payload =>
      refine ok_op fun _ w₄ hw₄ => ?_
      refine (ok_sendOnion _ _ _).bind execRely_ordered (fun r w₅ _ hr => ?_) trivial
      have hw₅ := le_trans hw₃ (le_trans hw₄ hr.1)
      cases r with
      | error err => exact hfail hw₅ (by simp)
      | ok resp =>
        have hlt := lt_of_le_of_lt (le_trans hw₃ hw₄) (hr.2 resp rfl)
        dsimp only
        split
        · exact hfail hw₅ (by simp)
        · exact fun _ hle _ => ⟨le_trans hw₅ hle, fun _ _ => lt_of_lt_of_le hlt hle⟩

/-- A loop that returns a response has executed it. -/
theorem ok_runAttempts (call : Call) (maxAttempts : Int) (left : Nat) (attempt : Int)
    (events : List RebuildEvent) (lastErr : Option Bytes) (lastCircuit : Option CircuitResponse)
    (hw : execs i w₀ ≤ execs i w) :
    (execRely N i).Ok (i, p) (runAttempts X call maxAttempts left attempt events lastErr lastCircuit)
      (fun w' r => ∀ res, r = .ok res → execs i w₀ < execs i w') w := by
  have hplain : ∀ e : Effect, e.Plain → True := fun _ _ => trivial
  -- induction on the attempts left; the executions so far are never taken back
  induction left generalizing attempt events lastErr lastCircuit w with
  | zero => exact fun _ _ _ _ hx => by cases hx
  | succ left ih =>
    simp only [runAttempts, perform_eq, Prog.op_bind, Prog.ret_bind, Prog.pure_eq]
    refine (ok_of_all (Q := fun w' _ => execs i w₀ ≤ execs i w')
      (all_beginRebuild (P := fun _ => True) (R := fun _ => True) hplain _ _ _ _ _)
      fun _ _ _ hle => le_trans hw hle).bind execRely_ordered (fun events w₁ _ hw₁ => ?_) trivial
    refine ok_op fun _ w₂ hw₂ => ?_
    refine (ok_of_all (Q := fun w' _ => execs i w₀ ≤ execs i w')
      (all_getCircuit (P := fun _ => True) (R := fun _ => True) (fun _ => trivial) _ _)
      fun _ _ _ hle => le_trans hw₁ (le_trans hw₂ hle)).bind execRely_ordered
      (fun r w₃ _ hw₃ => ?_) trivial
    cases r with
    | error err => exact fun _ _ _ _ hx => by cases hx
    | ok circuit =>
      refine (ok_attemptCircuit call circuit hw₃).bind execRely_ordered
        (fun out w₄ _ hout => ?_) trivial
      refine ok_op fun _ w₅ hw₅ => ?_
      cases out with
      | fail err => exact fun _ _ _ _ hx => by cases hx
      | retry err =>
        refine (ok_of_all (Q := fun w' _ => execs i w₀ ≤ execs i w')
          (all_finishRebuild (P := fun _ => True) (R := fun _ => True) hplain _ _)
          fun _ _ _ hle => le_trans hout.1 (le_trans hw₅ hle)).bind execRely_ordered
          (fun events w₆ _ hw₆ => ih _ _ _ _ hw₆) trivial
      | done resp =>
        -- the one way to a result is a completed attempt
        have hlt := lt_of_lt_of_le (hout.2 resp rfl) hw₅
        refine (ok_of_all (Q := fun w' _ => execs i w₀ < execs i w')
          (all_finishRebuild (P := fun _ => True) (R := fun _ => True) hplain _ _)
          fun _ _ _ hle => lt_of_lt_of_le hlt hle).bind execRely_ordered
          (fun events w₆ _ hw₆ => ?_) trivial
        exact fun _ hle _ _ _ => lt_of_lt_of_le hw₆ hle

theorem ok_executeRequest (call : Call) :
    (execRely N i).Ok (i, p) (executeRequestWithRebuildTracking X call)
      (fun w' r => ∀ res, r = .ok res → execs i w < execs i w') w := by
  unfold executeRequestWithRebuildTracking
  split
  · exact fun _ _ _ _ hx => by cases hx
  · exact ok_runAttempts call _ _ _ _ _ _ (le_refl _)

end

/-! ## One call -/

/-- A call of the client that nothing has been done for yet. -/
def startCall (N : Net ν) (i : ι) (call : Call) (w : World ι ν) :
    Config Effects (Loc ι ν) (World ι ν) Unit (Result CircuitResult) :=
  ⟨w, fun _ => .run (i, .client) (executeRequestWithRebuildTracking N.X call), []⟩

/-- **Executions of a call**: in every interleaving, whatever crashes, is
    lost or comes late, there are at most as many executions as onions
    posted, as many onions as attempts and no more attempts than allowed;
    and a call that returns a response has been executed, exactly once if
    it posted a single onion. -/
theorem execs_bounded {call : Call} {w₀ : World ι ν} (hcalls : w₀.calls i = [])
    (hjournal : w₀.journal i = .zero) {c : Config Effects (Loc ι ν) (World ι ν) Unit
      (Result CircuitResult)}
    (hreach : Config.Reaches N.asynchronous (OthersMove i) (startCall N i call w₀) c) :
    (c.world.calls i).length ≤ (c.world.journal i).sent ∧
      (c.world.journal i).sent ≤ (c.world.journal i).attempt ∧
      (c.world.journal i).attempt ≤ call.attempts.toNat ∧
      ∀ res, (c.main ()).result? = some (.ok res) → 1 ≤ (c.world.calls i).length ∧
        ((c.world.journal i).sent = 1 → (c.world.calls i).length = 1) := by
  have hsetup : ∀ url (r : KeySetupRequest), onionPrice (jsonPost url r.json.encode).body = 0 :=
    fun _ r => onionPrice_keySetupRequest r
  have hzero : ∀ a b c : Int, booked i a b c w₀ = 0 := by
    intro a b c
    simp [booked, execs, hcalls, hjournal, Journal.zero]
  -- the three ledgers
  have hexec := Budget.sound execLedger_lawful (covers_executeRequest (m := 0) (n := 0)
    (k := 1) hsetup (fun _ _ => onionPrice_le _) (by decide) (by decide)) hreach
  have hsent := Budget.sound (journalLedger_lawful (b := 1) (c := -1))
    (covers_executeRequest (m := 0) (n := 1) (k := 0) (fun _ _ => rfl)
      (fun _ _ => le_refl _) (by decide) (by decide)) hreach
  have hattempt := Budget.sound (journalLedger_lawful (b := 0) (c := 1))
    (covers_executeRequest (m := 1) (n := 0) (k := 0) (fun _ _ => rfl)
      (fun _ _ => le_refl _) (by decide) (by decide)) hreach
  obtain ⟨-, hdone⟩ := Rely.sound execRely_lawful (Function.injective_of_subsingleton _) trivial
    (fun _ => ok_executeRequest call) hreach
  simp only [ledger, hzero] at hexec hsent hattempt
  simp only [booked, execs] at hexec hsent hattempt
  have h₁ : (c.world.calls i).length ≤ (c.world.journal i).sent := by omega
  refine ⟨h₁, by omega, by omega, fun res hres => ?_⟩
  -- a result presupposes an execution, and the ledgers allow no more than were sent
  have hlt := hdone () _ hres res rfl
  simp only [execs, hcalls, List.length_nil] at hlt
  exact ⟨hlt, fun hone => by omega⟩

/-- A call over three hops that may try twice. -/
def Sample.longCall : Call := { Sample.call with maxAttempts := 2 }

/-- The client gives up waiting while the first attempt sets up its circuit,
    and the second attempt gets through: two attempts, one onion, one
    execution and a response. -/
theorem execs_bounded_sample : ∃ c res,
    Config.Reaches Sample.net.asynchronous (OthersMove ()) (startCall Sample.net () Sample.longCall
      Sample.start) c ∧
    (c.main ()).result? = some (.ok res) ∧ (c.world.journal ()).attempt = 2 ∧
    (c.world.journal ()).sent = 1 ∧ (c.world.calls ()).length = 1 := by
  let moves : List (Move Unit) :=
    List.replicate 8 (.main ()) ++ .timeout () 0 :: List.replicate 59 (.main ())
  have hplay : ((startCall Sample.net () Sample.longCall Sample.start).play Sample.net.asynchronous
      moves).map (fun c => ((c.main ()).result?.any fun r => r.toOption.isSome,
        (c.world.journal ()).attempt, (c.world.journal ()).sent)) = some (true, 2, 1) := by
    decide +kernel
  obtain ⟨c, hc, hres⟩ := Option.map_eq_some_iff.mp hplay
  obtain ⟨hok, hjournal⟩ := Prod.ext_iff.mp hres
  obtain ⟨hattempt, hsent⟩ := Prod.ext_iff.mp hjournal
  have hreach := Config.reaches_of_play (E := OthersMove ()) hc
  obtain ⟨-, -, -, hexecuted⟩ := execs_bounded rfl rfl hreach
  obtain ⟨r, hr, hsome⟩ := (Option.any_eq_true _ _).mp hok
  cases r with
  | error err => cases hsome
  | ok res => exact ⟨c, res, hreach, hr, hattempt, hsent, (hexecuted res hr).2 hsent⟩

/-- A call over one hop that may try twice. -/
def Sample.retryCall : Call := { Sample.call with hops := 1, maxAttempts := 2 }

/-- The guard executes the onion of the first attempt, the client gives up
    waiting for the answer, and the second attempt is executed as well:
    the call returns a response after two executions. -/
theorem executed_twice : ∃ c,
    Config.Reaches Sample.net.asynchronous (OthersMove ()) (startCall Sample.net () Sample.retryCall
      Sample.start) c ∧
    (∃ res, (c.main ()).result? = some (.ok res)) ∧ (c.world.calls ()).length = 2 := by
  let moves : List (Move Unit) :=
    List.replicate 18 (.main ()) ++ .timeout () 0 :: List.replicate 27 (.main ())
  have hplay : ((startCall Sample.net () Sample.retryCall Sample.start).play Sample.net.asynchronous
      moves).map (fun c => ((c.main ()).result?.any fun r => r.toOption.isSome,
        (c.world.calls ()).length)) = some (true, 2) := by
    decide +kernel
  obtain ⟨c, hc, hres⟩ := Option.map_eq_some_iff.mp hplay
  obtain ⟨hok, hlength⟩ := Prod.ext_iff.mp hres
  refine ⟨c, Config.reaches_of_play hc, ?_, hlength⟩
  obtain ⟨r, hr, hsome⟩ := (Option.any_eq_true _ _).mp hok
  cases r with
  | error err => cases hsome
  | ok res => exact ⟨res, hr⟩

end HopVault
