import HopVault.Python.HonestRun

/-! # A deployment used from Python

    `execute_circuit` against the directory server and the nodes. How it
    ends is told by the circuits it fetches, as the Go client would read
    them: the first that is whole is served. It goes on where the Go client
    gives up, when the directory has no circuit. -/

namespace HopVault.Python

open Framework Framework.Utf8 Framework.Json Framework.Prog Framework.Semantics

variable {ι ν : Type}

/-! ## What is fetched -/

/-- What the directory has answered, oldest first. -/
def fetchedAnswers (τ : List (Interaction Effects)) : List (Result Response) :=
  τ.filterMap fun
    | .op (.httpGet _) r => some r
    | _ => none

/-- What `get_circuit` has read in these answers. -/
def readCircuits (P : Libs) (hops : Int) (τ : List (Interaction Effects)) : List (Result Json) :=
  (fetchedAnswers τ).map (readCircuit P hops)

theorem fetchedAnswers_append (τ₁ τ₂ : List (Interaction Effects)) :
    fetchedAnswers (τ₁ ++ τ₂) = fetchedAnswers τ₁ ++ fetchedAnswers τ₂ :=
  List.filterMap_append

/-- Nothing else is fetched. -/
theorem fetchedAnswers_of_within {τ : List (Interaction Effects)}
    (h : ∀ x ∈ τ, Interaction.Within (S := Effects) (fun e => ¬e.Fetches) (fun _ => True) x) :
    fetchedAnswers τ = [] := by
  unfold fetchedAnswers
  rw [List.filterMap_eq_nil_iff]
  intro x hx
  have hwithin := h x hx
  cases x with
  | rpc q r => rfl
  | op e x =>
    cases e with
    | httpGet url => exact absurd trivial hwithin
    | _ => rfl

/-- What the Go client would read in the same answers. -/
theorem fetchedCircuits_eq (X : Externals) (call : Call) (τ : List (Interaction Effects)) :
    fetchedCircuits X call τ =
      (fetchedAnswers τ).map (HopVault.readCircuit X call.directoryURL call.hops) := by
  unfold fetchedCircuits fetchedAnswers
  rw [List.map_filterMap]
  refine List.filterMap_congr fun x _ => ?_
  cases x with
  | rpc q r => rfl
  | op e r => cases e <;> rfl

/-! ## Footprint -/

section

variable {P : Libs} {X : Externals}

theorem unfetched_of_free {T : Type} {p : Go T} (h : Free p) :
    p.All (fun e : Effect => ¬e.Fetches) (fun _ => True) fun _ => True := by
  induction p with
  | ret a => trivial
  | op e k ih =>
    refine ⟨fun hfetches => ?_, fun a => ih a (h.2 a)⟩
    cases e with
    | httpGet url => cases h.1
    | _ => cases hfetches
  | rpc q k ih => exact ⟨trivial, fun r => ih r (h.2 r)⟩

/-- An attempt fetches no second circuit. -/
theorem unfetched_overCircuit (circuitID : Bytes) (exitLayer : Json) (hops : Int) (circuit : Json) :
    (overCircuit P X circuitID exitLayer hops circuit).All (fun e : Effect => ¬e.Fetches)
      (fun _ => True) fun _ => True := by
  simp only [overCircuit, perform_eq, op_bind, ret_bind, pure_eq]
  refine ⟨id, fun t0 => ?_⟩
  apply all_bind (unfetched_of_free (free_setupCircuit circuit circuitID hops))
  rintro (exc | keys) -
  · trivial
  · refine ⟨id, fun setupDone => ?_⟩
    apply all_bind (unfetched_of_free (free_buildOnion keys exitLayer circuit hops))
    rintro (exc | payload) -
    · trivial
    · cases guardURL P circuit with
      | error exc => trivial
      | ok url =>
        refine ⟨id, fun t1 => ⟨id, fun _ => ?_⟩⟩
        apply all_bind (unfetched_of_free (free_sendOnion url circuitID payload))
        rintro (exc | onionResp) -
        · trivial
        · refine ⟨id, fun requestDone => ?_⟩
          cases readAnswer P X keys onionResp hops <;> trivial

end

/-! ## An attempt -/

section

variable [DecidableEq ι] [DecidableEq ν] {N : Net ν} {i : ι} {w w' : World ι ν} {call : Call}
  {D : DestRequest → DestResponse} {P : Libs}

/-- The answer of the directory in store for the `k`-th choice, if that is a
    request for a circuit. -/
def answerAt (P : Libs) (call : Call) (w : World ι ν) (i : ι) (k : Nat) : Result Response :=
  (w.oracle (i, .client) k).get (circuitURL P call.directoryURL call.hops)

/-- What the Go client would read in it. -/
def goReading (X : Externals) (P : Libs) (call : Call) (w : World ι ν) (i : ι) (k : Nat) :
    Result CircuitResponse :=
  HopVault.readCircuit X call.directoryURL call.hops (answerAt P call w i k)

/-- Both clients read the same in every answer, and know every circuit. -/
def KnownReadings (N : Net ν) (P : Libs) (call : Call) (w : World ι ν) (i : ι) : Prop :=
  ∀ k, SameReading P call.hops (readCircuit P call.hops (answerAt P call w i k))
      (goReading N.X P call w i k) ∧
    ∀ c, goReading N.X P call w i k = .ok c → N.Whole c call.hops ∨ N.Broken c call.hops

/-- How an attempt ends, by what the Go client would have read in the answer
    of the directory. -/
inductive Attempted (N : Net ν) (call : Call) (D : DestRequest → DestResponse) (i : ι)
    (w w' : World ι ν) : Result CircuitResponse → Result Timed → Prop
  | served {c : CircuitResponse} {timed : Timed} : N.Whole c call.hops →
      CalledOnce w w' i call.exitLayer (D call.exitLayer.request) →
      SameResponse timed.exitResp (exitResponse (D call.exitLayer.request)).coerced →
      Attempted N call D i w w' (.ok c) (.ok timed)
  | failed {x : Result CircuitResponse} {exc : Bytes} :
      (∀ c, x = .ok c → N.Broken c call.hops) → Uncalled w w' →
      Attempted N call D i w w' x (.error exc)

/-- One attempt of `execute_circuit`. -/
theorem does_tryCircuit (hP : P.Agrees N) (hX : N.X.LawfulAEAD) (hcall : call.Ready N)
    (hvalid : Valid call.circuitID) {dict : Json} (hdict : SameLayer dict call.exitLayer)
    (hD : ∀ n m req, (w.oracle (i, .node n) m).dest req = .answered (D req))
    (hdir : KnownReadings N P call w i) :
    N.reliable.Does (i, .client) (tryCircuit P N.X call.directoryURL call.circuitID dict call.hops) w
      fun τ r w' => ∃ k, fetchedAnswers τ = [answerAt P call w i k] ∧
        Attempted N call D i w w' (goReading N.X P call w i k) r := by
  rw [tryCircuit_eq]
  refine does_fetch fun w₁ hq₁ => ?_
  obtain ⟨hreading, hknown⟩ := hdir (w.used (i, .client))
  have hanswer : (w.choice (i, .client)).get (circuitURL P call.directoryURL call.hops) =
      answerAt P call w i (w.used (i, .client)) := rfl
  rw [hanswer]
  -- what follows the answer fetches nothing
  have hfetched {τ : List (Interaction Effects)}
      (h : ∀ x ∈ τ, Interaction.Within (S := Effects) (fun e => ¬e.Fetches) (fun _ => True) x) :
      fetchedAnswers (.op (.httpGet (circuitURL P call.directoryURL call.hops))
        (answerAt P call w i (w.used (i, .client))) :: τ) =
      [answerAt P call w i (w.used (i, .client))] :=
    congrArg (_ :: ·) (fetchedAnswers_of_within h)
  cases hgo : goReading N.X P call w i (w.used (i, .client)) with
  | error err =>
    rw [hgo] at hreading
    obtain ⟨exc, hread⟩ := hreading.of_error
    rw [hread]
    refine does_ret ⟨_, hfetched (by simp), ?_⟩
    rw [hgo]
    exact .failed (by simp) hq₁.uncalled
  | ok c =>
    rw [hgo] at hreading
    obtain ⟨circuit, hread, hsame⟩ := hreading.of_ok
    have hunfetched := unfetched_overCircuit (P := P) (X := N.X) call.circuitID dict call.hops circuit
    rw [hread]
    rcases hknown c hgo with hwhole | hbroken
    · refine ((ends_overCircuit hP hX hcall hvalid hdict (fun n m req => hq₁.oracle ▸ hD n m req)
        hsame hwhole).does hunfetched).weaken fun τ r w₂ hr => ?_
      obtain ⟨⟨timed, rfl, honce, hresp⟩, hτ⟩ := hr
      refine ⟨_, hfetched hτ, hgo ▸ .served hwhole ?_ hresp⟩
      unfold CalledOnce at honce ⊢
      rw [honce, hq₁.calls]
    · refine ((ends_overCircuit_broken hP hcall hvalid dict hsame hbroken).does
        hunfetched).weaken fun τ r w₂ hr => ?_
      obtain ⟨⟨⟨exc, rfl⟩, hcalls⟩, hτ⟩ := hr
      refine ⟨_, hfetched hτ, hgo ▸ .failed (fun c' hc' => ?_) (hq₁.uncalled.trans hcalls)⟩
      exact Except.ok.inj hc' ▸ hbroken

end

/-! ## The loop -/

/-- How a call with `left` attempts ends, by what the Go client would have
    read where this one has fetched a circuit. -/
inductive Retries [DecidableEq ι] (N : Net ν) (call : Call) (D : DestRequest → DestResponse) (i : ι)
    (left : Nat) (w w' : World ι ν) : List (Result CircuitResponse) → Result Timed → Prop
  /-- The first circuit that is whole is served. -/
  | served (failed : List (Result CircuitResponse)) {c : CircuitResponse} {timed : Timed} :
      failed.length < left → (∀ x ∈ failed, ∀ c, x = .ok c → N.Broken c call.hops) →
      N.Whole c call.hops → CalledOnce w w' i call.exitLayer (D call.exitLayer.request) →
      SameResponse timed.exitResp (exitResponse (D call.exitLayer.request)).coerced →
      Retries N call D i left w w' (failed ++ [.ok c]) (.ok timed)
  /-- All attempts are used up. -/
  | exhausted (failed : List (Result CircuitResponse)) (lastErr : Bytes) :
      failed.length = left → (∀ x ∈ failed, ∀ c, x = .ok c → N.Broken c call.hops) →
      Uncalled w w' → Retries N call D i left w w' failed (circuitAttemptsFailed lastErr)

section

variable [DecidableEq ι] [DecidableEq ν] {N : Net ν} {i : ι} {w w₁ w' : World ι ν} {call : Call}
  {D : DestRequest → DestResponse} {P : Libs} {left : Nat}

omit [DecidableEq ν] in
/-- One more attempt that fails, before all others. -/
theorem Retries.cons {fetched : List (Result CircuitResponse)} {r : Result Timed}
    {x : Result CircuitResponse} (hx : ∀ c, x = .ok c → N.Broken c call.hops)
    (hcalls : Uncalled w w₁) (h : Retries N call D i left w₁ w' fetched r) :
    Retries N call D i (left + 1) w w' (x :: fetched) r := by
  cases h with
  | @served failed c timed hlt hfailed hwhole honce hresp =>
    refine .served (x :: failed) ?_ (List.forall_mem_cons.mpr ⟨hx, hfailed⟩) hwhole ?_ hresp
    · rw [List.length_cons]
      omega
    · unfold CalledOnce at honce ⊢
      rw [honce, hcalls.calls]
  | exhausted _ lastErr hlen hfailed hquiet =>
    refine .exhausted (x :: fetched) lastErr ?_ (List.forall_mem_cons.mpr ⟨hx, hfailed⟩)
      (hcalls.trans hquiet)
    rw [List.length_cons, hlen]

/-- The loop of `execute_circuit`. -/
theorem does_circuitAttempts (hP : P.Agrees N) (hX : N.X.LawfulAEAD) (hcall : call.Ready N)
    (hvalid : Valid call.circuitID) {dict : Json} (hdict : SameLayer dict call.exitLayer)
    (left : Nat) (lastErr : Bytes)
    (hD : ∀ n m req, (w.oracle (i, .node n) m).dest req = .answered (D req))
    (hdir : KnownReadings N P call w i) :
    N.reliable.Does (i, .client) (circuitAttempts P N.X call.directoryURL call.circuitID dict
      call.hops left lastErr) w fun τ r w' =>
        Retries N call D i left w w' (fetchedCircuits N.X call τ) r ∧
          ∀ answer ∈ fetchedAnswers τ, ∃ k, answer = answerAt P call w i k := by
  simp only [fetchedCircuits_eq]
  -- induction on the attempts left; only the last error is passed on
  induction left generalizing lastErr w with
  | zero => exact does_ret ⟨.exhausted [] lastErr rfl (by simp) (.refl w), by simp [fetchedAnswers]⟩
  | succ left ih =>
    refine does_bind (does_tryCircuit hP hX hcall hvalid hdict hD hdir) fun τ r w₁ hr => ?_
    obtain ⟨k, hτ, hattempt⟩ := hr
    have hgo : (fetchedAnswers τ).map (HopVault.readCircuit N.X call.directoryURL call.hops) =
        [goReading N.X P call w i k] := by
      rw [hτ]
      rfl
    generalize goReading N.X P call w i k = x at hgo hattempt
    cases hattempt with
    | served hwhole honce hresp =>
      refine does_ret ?_
      rw [List.append_nil, hgo, hτ]
      exact ⟨.served [] (Nat.succ_pos left) (by simp) hwhole honce hresp,
        List.forall_mem_singleton.mpr ⟨k, rfl⟩⟩
    | @failed _ exc hbroken hcalls =>
      have hdir₁ : KnownReadings N P call w₁ i := by
        unfold KnownReadings goReading answerAt
        rw [hcalls.oracle]
        exact hdir
      refine (ih exc (hcalls.oracle ▸ hD) hdir₁).weaken fun τ' r w' hr => ?_
      obtain ⟨hrest, hstore⟩ := hr
      unfold answerAt at hstore
      rw [hcalls.oracle] at hstore
      rw [fetchedAnswers_append, List.map_append, hgo, hτ, List.singleton_append,
        List.singleton_append]
      exact ⟨hrest.cons hbroken hcalls, List.forall_mem_cons.mpr ⟨⟨k, rfl⟩, hstore⟩⟩

/-- **A deployment used from Python**: nodes register with the directory
    server as what they are, and may go down; `execute_circuit` asks it for
    circuits, and requests to it may fail. In every answer `get_circuit`
    reads the circuit that the Go client would read, or both read none. It is
    of nodes that were healthy in the registry at one instant of the request
    that was answered with it. The first that is whole is served, by one call
    of the destination with the request of the exit layer, whose response the
    Python client returns as the Go client would. If there is none in three
    attempts, the destination is not called. -/
theorem python_deployment_serves {formatTime : Int → Bytes} {heartbeatTimeout : Int}
    (hP : P.Agrees N) (hX : N.X.LawfulAEAD) (htimes : TimesRead N.X formatTime)
    (hcall : call.Ready N) (hvalid : Valid call.circuitID) {dict : Json}
    (hdict : SameLayer dict call.exitLayer)
    (hD : ∀ n m req, (w.oracle (i, .node n) m).dest req = .answered (D req))
    (asked : Nat → N.Asked formatTime heartbeatTimeout call.hops)
    (hdir : ∀ k, answerAt P call w i k = .ok (asked k).response ∨
      ∃ exc, answerAt P call w i k = .error exc) :
    ∃ τ r w',
      N.reliable.Traces (i, .client)
        (executeCircuit P N.X call.directoryURL call.circuitID dict call.hops) w τ r w' ∧
      Retries N call D i 3 w w' (fetchedCircuits N.X call τ) r ∧
      List.Forall₂ (SameReading P call.hops) (readCircuits P call.hops τ)
        (fetchedCircuits N.X call τ) ∧
      ∀ x ∈ fetchedCircuits N.X call τ, (∃ k, x = goReading N.X P call w i k) ∧
        ∀ k, x = goReading N.X P call w i k → answerAt P call w i k = .ok (asked k).response →
          ∃ s ∈ (asked k).seen, N.Reached formatTime heartbeatTimeout s ∧ DrawnFrom s call.hops x := by
  -- what arrives is from a registry, and known
  have hread (k : Nat) (hanswer : answerAt P call w i k = .ok (asked k).response) :
      ∃ s ∈ (asked k).seen, N.Reached formatTime heartbeatTimeout s ∧
        DrawnFrom s call.hops (goReading N.X P call w i k) ∧
        SameReading P call.hops (readCircuit P call.hops (answerAt P call w i k))
          (goReading N.X P call w i k) ∧
        ∀ c, goReading N.X P call w i k = .ok c → N.Whole c call.hops ∨ N.Broken c call.hops := by
    obtain ⟨s, hseen, hs, hfrom⟩ := (asked k).answersFrom hcall.hops
    obtain ⟨hdrawn, hknown⟩ := read_answer hs htimes hcall.hops hfrom call.directoryURL
    unfold goReading
    rw [hanswer]
    exact ⟨s, hseen, hs, hdrawn,
      sameReading_of_answer hP hs htimes hcall.hops hfrom call.directoryURL, hknown⟩
  have hknown : KnownReadings N P call w i := by
    intro k
    rcases hdir k with hanswer | ⟨exc, hanswer⟩
    · obtain ⟨s, -, -, -, hsame, hcases⟩ := hread k hanswer
      exact ⟨hsame, hcases⟩
    · unfold goReading
      rw [hanswer]
      exact ⟨.error, fun c hc => by cases hc⟩
  obtain ⟨τ, r, w', htrace, hretries, hstore⟩ := does_circuitAttempts hP hX hcall hvalid hdict
    maxCircuitAttempts (lit "None") hD hknown
  refine ⟨τ, r, w', htrace, hretries, ?_, fun x hx => ?_⟩
  · unfold readCircuits
    rw [fetchedCircuits_eq, List.forall₂_map_left_iff, List.forall₂_map_right_iff,
      List.forall₂_same]
    intro answer hanswer
    obtain ⟨k, rfl⟩ := hstore answer hanswer
    exact (hknown k).1
  · rw [fetchedCircuits_eq] at hx
    obtain ⟨answer, hanswer, rfl⟩ := List.mem_map.mp hx
    obtain ⟨k, rfl⟩ := hstore answer hanswer
    refine ⟨⟨k, rfl⟩, fun k' hsame hk' => ?_⟩
    obtain ⟨s, hseen, hs, hdrawn, -⟩ := hread k' hk'
    exact ⟨s, hseen, hs, hsame ▸ hdrawn⟩

end

namespace Sample

open HopVault.Sample

theorem libs_agrees : libs.Agrees datedNet where
  json ms h := by
    rw [loads_line h]
    show parse (encode (obj ms) ++ [10]) = _
    rw [parse_eq, encode_eq_write, coerced_eq_mapTexts]
    exact read_write_pad encoderStyle_readBy h (allTexts_true _) (numEnd_cons (by decide) [])
      (by simp; decide)
  key rec _ pub hpub := congrArg some (Except.ok.inj hpub)

/-- The first request to the directory fails, and the next is answered with
    a circuit over a relay that is gone. -/
def shaky : World Unit Node :=
  { served with oracle := fun ℓ m => { served.oracle ℓ m with
      get := fun _ =>
        if m = 0 then .error (lit "connection refused") else .ok (HopVault.Sample.asked m).response } }

theorem shaky_answers (k : Nat) :
    answerAt libs patientCall shaky () k = .ok (HopVault.Sample.asked k).response ∨
      ∃ exc, answerAt libs patientCall shaky () k = .error exc := by
  show (if k = 0 then .error (lit "connection refused") else
      .ok (HopVault.Sample.asked k).response : Result Response) = _ ∨
    ∃ exc, (if k = 0 then .error (lit "connection refused") else
      .ok (HopVault.Sample.asked k).response : Result Response) = .error exc
  by_cases hk : k = 0
  · exact .inr ⟨_, if_pos hk⟩
  · exact .inl (if_neg hk)

end Sample

open HopVault.Sample (datedNet datedExternals patientCall) in
/-- Three attempts over three hops: no answer, a relay that is gone, and a
    circuit that is whole. -/
theorem python_deployment_serves_sample : ∃ τ r w',
    datedNet.reliable.Traces ((), .client)
      (executeCircuit Sample.libs datedExternals [] (lit "c1") Sample.dict 3) Sample.shaky τ r w' ∧
    Retries datedNet patientCall (fun _ => HopVault.Sample.response) () 3 Sample.shaky w'
      (fetchedCircuits datedExternals patientCall τ) r ∧
    List.Forall₂ (SameReading Sample.libs 3) (readCircuits Sample.libs 3 τ)
      (fetchedCircuits datedExternals patientCall τ) ∧
    ∀ x ∈ fetchedCircuits datedExternals patientCall τ, ∃ k,
      x = goReading datedExternals Sample.libs patientCall Sample.shaky () k ∧
      (answerAt Sample.libs patientCall Sample.shaky () k = .ok (HopVault.Sample.asked k).response →
        ∃ s ∈ (HopVault.Sample.asked k).seen, DrawnFrom s 3 x) := by
  have hvalid : Valid patientCall.circuitID := by
    show toValid _ = _
    decide +kernel
  obtain ⟨τ, r, w', htrace, hretries, hsame, hdrawn⟩ := python_deployment_serves (P := Sample.libs)
    (N := datedNet) (i := ()) (w := Sample.shaky) (D := fun _ => HopVault.Sample.response)
    Sample.libs_agrees (fun {_ _} => HopVault.Sample.lawfulAEAD) HopVault.Sample.dated_timesRead
    HopVault.Sample.patientCall_dated hvalid Sample.sameLayer (fun _ _ _ => rfl)
    HopVault.Sample.asked Sample.shaky_answers
  refine ⟨τ, r, w', htrace, hretries, hsame, fun x hx => ?_⟩
  obtain ⟨⟨k, hk⟩, hregistry⟩ := hdrawn x hx
  refine ⟨k, hk, fun hanswer => ?_⟩
  obtain ⟨s, hseen, -, hdraw⟩ := hregistry k hk hanswer
  exact ⟨s, hseen, hdraw⟩

end HopVault.Python
