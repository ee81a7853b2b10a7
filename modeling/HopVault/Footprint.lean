import HopVault.Network
import HopVault.Retry

/-! # Footprints

    Which operations and remote calls the programs of nodes and clients
    can make at all, whatever they are answered. A node touches its key
    store only for the circuit named in the request it serves, and a
    client's posts name its own circuit. -/

namespace HopVault

open Framework Framework.Json Framework.Prog

variable {ν : Type} {P : Effect → Prop} {R : Post → Prop}

/-- An operation that asks neither a destination nor the directory, and
    touches neither key stores nor records of a call's progress. -/
def Effect.Plain : Effect → Prop
  | .log _ => True
  | .rand _ => True
  | .range _ => True
  | .now => True
  | _ => False

/-- A POST as `client.Post` sends it. -/
def jsonPost (url body : Bytes) : Post := ⟨url, lit "application/json", body⟩

/-! ## Nodes -/

/-- `P` and `R` hold of what a node does to serve a request. -/
structure Net.Footprint (N : Net ν) (n : ν) (endpoint : Endpoint) (body : Bytes)
    (P : Effect → Prop) (R : Post → Prop) : Prop where
  plain : ∀ e : Effect, e.Plain → P e
  dest : endpoint = .onion → ∀ req, P (.clientDo req)
  answer : endpoint = .onion → ∀ url body, P (.accept none url body)
  get : endpoint = .onion → ∀ r, decodeStream OnionRequest.fields .zero body = some r →
    P (.keysGet r.circuitID)
  setup : endpoint = .setup → ∀ r ct key, decodeStream KeySetupRequest.fields .zero body = some r →
    r.encryptedKey ≠ [] → Base64.decode r.encryptedKey = some ct →
    N.X.decryptOAEP (N.priv n) ct = .ok key → P (.keysStore r.circuitID key)
  key : endpoint = .key → ∀ r key, decodeStream KeyRequest.fields .zero body = some r →
    r.key ≠ [] → Base64.decode r.key = some key → P (.keysStore r.circuitID key)
  forward : endpoint = .onion → ∀ r hop payload,
    decodeStream OnionRequest.fields .zero body = some r → r.payload ≠ [] →
    R (jsonPost (nextHopURL hop) (OnionRequest.json ⟨r.circuitID, payload⟩).encode)

/-- An answer to an onion is an answer with 200 or an error. -/
theorem onionAnswer_ne_noContent (ct : Bytes) : (onionAnswer ct).statusCode ≠ statusNoContent := by
  show statusOK ≠ statusNoContent
  decide

theorem failureAnswer_ne_noContent (err : Bytes) :
    (ExitHandler.failureAnswer err).statusCode ≠ statusNoContent := by
  unfold ExitHandler.failureAnswer
  split_ifs <;> decide

section

variable (hP : ∀ e : Effect, e.Plain → P e) {X : Externals}

include hP

theorem all_encrypt (key plaintext : Bytes) : (encrypt X key plaintext).All P R fun _ => True := by
  unfold encrypt
  split
  · trivial
  · exact ⟨hP _ trivial, fun _ => trivial⟩

theorem all_executeExitRequest (hdest : ∀ req, P (.clientDo req)) (layer : ExitLayer) :
    (executeExitRequest X layer).All P R fun _ => True := by
  unfold executeExitRequest
  split
  · trivial
  · refine ⟨hP _ trivial, fun order => ⟨hdest _, fun out => ?_⟩⟩
    cases out <;> trivial

theorem all_encryptExitResponse (key : Bytes) (resp : ExitResponse) :
    (encryptExitResponse X key resp).All P R fun _ => True := by
  unfold encryptExitResponse
  refine all_bind (all_encrypt hP _ _) fun r _ => ?_
  cases r <;> trivial

theorem all_executeExitPayload (hdest : ∀ req, P (.clientDo req)) (key payload : Bytes) :
    (executeExitPayload X key payload).All P R fun _ => True := by
  unfold executeExitPayload
  split
  · trivial
  · refine all_bind (all_executeExitRequest hP hdest _) fun r _ => ?_
    cases r with
    | error err => trivial
    | ok resp =>
      refine all_bind (all_encryptExitResponse hP _ _) fun r _ => ?_
      cases r <;> trivial

/-- A key posted in the clear is stored and answered with 204, or with an
    error. -/
theorem all_handleKeyAs (label method addr body : Bytes)
    (hkey : ∀ r key, decodeStream KeyRequest.fields .zero body = some r →
      r.key ≠ [] → Base64.decode r.key = some key → P (.keysStore r.circuitID key)) :
    (handleKeyAs label ⟨method, addr, body⟩).All P R fun resp => resp.statusCode ≠ statusOK ∧
      (resp.statusCode = statusNoContent →
        ∃ r, decodeStream KeyRequest.fields .zero body = some r ∧ r.key ≠ []) := by
  have herr {code : Int} (h : code ≠ statusOK) (h' : code ≠ statusNoContent) : code ≠ statusOK ∧
      (code = statusNoContent →
        ∃ r, decodeStream KeyRequest.fields .zero body = some r ∧ r.key ≠ []) :=
    ⟨h, fun h204 => absurd h204 h'⟩
  have h400 : statusBadRequest ≠ statusOK ∧ (statusBadRequest = statusNoContent →
      ∃ r, decodeStream KeyRequest.fields .zero body = some r ∧ r.key ≠ []) :=
    herr (by decide) (by decide)
  have h204 : statusNoContent ≠ statusOK := by decide
  unfold handleKeyAs
  -- the checks in their order: method, body, fields, encoding, length
  split_ifs
  · exact herr (show statusMethodNotAllowed ≠ statusOK by decide) (by decide)
  · split
    · exact h400
    · rename_i r hr
      split_ifs with hne
      · exact h400
      · have hkeyNe : r.key ≠ [] := fun h => hne (.inr h)
        split
        · exact h400
        · rename_i key hk
          split_ifs
          · exact h400
          · exact ⟨hkey r key hr hkeyNe hk, fun _ => ⟨hP _ trivial, fun _ =>
              ⟨h204, fun _ => ⟨r, hr, hkeyNe⟩⟩⟩⟩

/-- A set-up request is answered with 204 or an error. -/
theorem all_handleSetup {priv : PrivateKey} (method addr body : Bytes)
    (hkey : ∀ r ct key, decodeStream KeySetupRequest.fields .zero body = some r →
      r.encryptedKey ≠ [] → Base64.decode r.encryptedKey = some ct →
      X.decryptOAEP priv ct = .ok key → P (.keysStore r.circuitID key)) :
    (handleSetup X priv ⟨method, addr, body⟩).All P R fun r => r.statusCode ≠ statusOK := by
  have h400 : statusBadRequest ≠ statusOK := by decide
  have h405 : statusMethodNotAllowed ≠ statusOK := by decide
  have h204 : statusNoContent ≠ statusOK := by decide
  unfold handleSetup
  -- as for a key in the clear, with the decryption in between
  split_ifs
  · exact h405
  · split
    · exact h400
    · rename_i r hr
      split_ifs with hne
      · exact h400
      · split
        · exact h400
        · rename_i ct hct
          split
          · exact ⟨hP _ trivial, fun _ => h400⟩
          · rename_i key hdec
            have hoaep := (decryptKey_eq_ok X).mp hdec
            split_ifs
            · exact ⟨hP _ trivial, fun _ => h400⟩
            · exact ⟨hkey r ct key hr (fun h => hne (.inr h)) hct hoaep,
                fun _ => ⟨hP _ trivial, fun _ => h204⟩⟩

/-- An error that is logged and answered. -/
theorem all_logError {line : Bytes} {msg : String} {code : Int} (h : code ≠ statusNoContent) :
    (Prog.op (S := Effects) (.log line) fun _ => .ret (httpError msg code)).All P R
      fun r => r.statusCode ≠ statusNoContent := ⟨hP _ trivial, fun _ => h⟩

theorem all_exitHandleOnion {body : Bytes} (method addr : Bytes) (hdest : ∀ req, P (.clientDo req))
    (hget : ∀ r, decodeStream OnionRequest.fields .zero body = some r → P (.keysGet r.circuitID)) :
    (ExitHandler.handleOnion X ⟨method, addr, body⟩).All P R
      fun r => r.statusCode ≠ statusNoContent := by
  have h400 : statusBadRequest ≠ statusNoContent := by decide
  have h405 : statusMethodNotAllowed ≠ statusNoContent := by decide
  unfold ExitHandler.handleOnion
  -- the method, the body, the fields, and then the key
  split_ifs
  · exact h405
  · split
    · exact all_logError hP h400
    · rename_i r hr
      split_ifs
      · exact h400
      · refine ⟨hget r hr, fun key => ?_⟩
        cases key with
        | none => exact all_logError hP (by decide)
        | some key =>
          show (ExitHandler.execute X r key).All P R _
          unfold ExitHandler.execute
          refine all_bind (all_executeExitPayload hP hdest _ _) fun r _ => ?_
          cases r with
          | error err => exact ⟨hP _ trivial, fun _ => failureAnswer_ne_noContent err⟩
          | ok x => exact ⟨hP _ trivial, fun _ => onionAnswer_ne_noContent x.1⟩

namespace Handler

variable (h : Handler)

theorem all_directExit (hdest : ∀ req, P (.clientDo req)) (prevHop : Bytes) (req : OnionRequest)
    (key err : Bytes) : (h.directExit X prevHop req key err).All P R
      fun r => r.statusCode ≠ statusNoContent := by
  unfold directExit
  refine all_bind (all_executeExitPayload hP hdest _ _) fun r _ => ?_
  cases r with
  | error _ => exact all_logError hP (by decide)
  | ok x => exact ⟨hP _ trivial, fun _ => onionAnswer_ne_noContent x.1⟩

theorem all_returnPath (key nextHop : Bytes) (resp : Result Response) :
    (h.returnPath X key nextHop resp).All P R fun r => r.statusCode ≠ statusNoContent := by
  have h502 : statusBadGateway ≠ statusNoContent := by decide
  unfold returnPath
  cases resp with
  | error err => exact all_logError hP h502
  | ok resp =>
    dsimp only
    split_ifs
    · exact all_logError hP h502
    · split
      · exact all_logError hP h502
      · refine all_bind (all_encrypt hP _ _) fun r _ => ?_
        cases r with
        | error err => exact all_logError hP (by decide)
        | ok ct => exact onionAnswer_ne_noContent ct

theorem all_peel {prevHop : Bytes} {req : OnionRequest} {key : Bytes}
    (hdest : ∀ req, P (.clientDo req)) (hanswer : ∀ url body, P (.accept none url body))
    (hforward : ∀ hop payload,
      R (jsonPost (nextHopURL hop) (OnionRequest.json ⟨req.circuitID, payload⟩).encode)) :
    (h.peel X prevHop req key).All P R fun r => r.statusCode ≠ statusNoContent := by
  unfold peel
  split
  · split_ifs
    · exact all_directExit hP h hdest _ _ _ _
    · exact all_logError hP (by decide)
  · rename_i layer _
    refine ⟨hP _ trivial, fun _ => ⟨hforward _ _, fun resp => ?_⟩⟩
    have hreturn := all_returnPath (R := R) (X := X) hP h key layer.nextHop resp
    cases resp with
    | error err => exact hreturn
    | ok resp => exact ⟨hanswer _ _, fun _ => hreturn⟩

theorem all_handleOnion {body : Bytes} (method addr : Bytes) (hdest : ∀ req, P (.clientDo req))
    (hanswer : ∀ url body, P (.accept none url body))
    (hget : ∀ r, decodeStream OnionRequest.fields .zero body = some r → P (.keysGet r.circuitID))
    (hforward : ∀ r hop payload, decodeStream OnionRequest.fields .zero body = some r →
      r.payload ≠ [] → R (jsonPost (nextHopURL hop) (OnionRequest.json ⟨r.circuitID, payload⟩).encode)) :
    (h.handleOnion X ⟨method, addr, body⟩).All P R fun r => r.statusCode ≠ statusNoContent := by
  have h400 : statusBadRequest ≠ statusNoContent := by decide
  have h405 : statusMethodNotAllowed ≠ statusNoContent := by decide
  unfold handleOnion
  split_ifs
  · exact h405
  · split
    · exact all_logError hP h400
    · rename_i r hr
      split_ifs with hne
      · exact all_logError hP h400
      · refine ⟨hget r hr, fun key => ?_⟩
        cases key with
        | none => exact all_logError hP (by decide)
        | some key =>
          exact all_peel hP h hdest hanswer fun hop payload =>
            hforward r hop payload hr fun hp => hne (.inr hp)

end Handler

end

/-- What the status of an answer says about the request. -/
structure Answered (endpoint : Endpoint) (body : Bytes) (resp : Response) : Prop where
  ok : resp.statusCode = statusOK → endpoint = .onion
  noContent : resp.statusCode = statusNoContent → endpoint = .setup ∨
    ∃ r, decodeStream KeyRequest.fields .zero body = some r ∧ r.key ≠ []

/-- What a node does to serve a request is in its footprint; onions, and
    nothing else, are answered with 200, and never with 204. -/
theorem Net.all_handle {N : Net ν} {n : ν} {endpoint : Endpoint} {body : Bytes}
    (h : N.Footprint n endpoint body P R) (method addr : Bytes) :
    (N.handle n endpoint ⟨method, addr, body⟩).All P R (Answered endpoint body) := by
  have honion (r : Response) (hr : r.statusCode ≠ statusNoContent) : Answered .onion body r :=
    ⟨fun _ => rfl, fun h204 => absurd h204 hr⟩
  unfold Net.handle
  -- each endpoint needs a part of the footprint of its own
  cases endpoint with
  | setup =>
    exact (all_handleSetup h.plain _ _ _ (h.setup rfl)).mono fun _ hr =>
      ⟨fun h200 => absurd h200 hr, fun _ => .inl rfl⟩
  | key =>
    have hkey (label : Bytes) := all_handleKeyAs (R := R) h.plain label method addr _ (h.key rfl)
    cases N.role n <;> exact (hkey _).mono fun _ hr =>
      ⟨fun h200 => absurd h200 hr.1, fun h204 => .inr (hr.2 h204)⟩
  | onion =>
    cases N.role n with
    | guard =>
      exact (Handler.all_handleOnion h.plain _ _ _ (h.dest rfl) (h.answer rfl) (h.get rfl)
        (h.forward rfl)).mono honion
    | relay =>
      exact (Handler.all_handleOnion h.plain _ _ _ (h.dest rfl) (h.answer rfl) (h.get rfl)
        (h.forward rfl)).mono honion
    | exit => exact (all_exitHandleOnion h.plain _ _ (h.dest rfl) (h.get rfl)).mono honion

/-! ## The client -/

/-- `P` and `R` hold of what a client does to set up a circuit. -/
structure SetupFootprint (X : Externals) (circuitID : Bytes) (P : Effect → Prop)
    (R : Post → Prop) : Prop where
  plain : ∀ e : Effect, e.Plain → P e
  posting : ∀ nodeURL key, P (.mark (.posting nodeURL key))
  setup : ∀ nodeURL ct, R (jsonPost (nodeURL ++ lit "/setup")
    (KeySetupRequest.json ⟨circuitID, Base64.encode ct⟩).encode)

/-- `P` and `R` hold of what a client does in an attempt. -/
structure ClientFootprint (X : Externals) (circuitID : Bytes) (P : Effect → Prop)
    (R : Post → Prop) : Prop extends SetupFootprint X circuitID P R where
  established : ∀ keys, P (.mark (.established keys))
  sending : P (.mark .sending)
  onion : ∀ guardURL payload, R (jsonPost (guardURL ++ lit "/onion")
    (OnionRequest.json ⟨circuitID, payload⟩).encode)

variable {X : Externals} {circuitID : Bytes}

section

variable (hplain : ∀ e : Effect, e.Plain → P e)
  (hposting : ∀ nodeURL key, P (.mark (.posting nodeURL key)))

include hplain hposting

theorem all_sendSetupKey_to {nodeURL : Bytes} (hsetup : ∀ ct, R (jsonPost (nodeURL ++ lit "/setup")
    (KeySetupRequest.json ⟨circuitID, Base64.encode ct⟩).encode)) (pub : PublicKey) (key : Bytes) :
    (sendSetupKey X nodeURL circuitID pub key).All P R fun _ => True := by
  simp only [sendSetupKey, encryptKey, perform_eq, clientPost_eq, op_bind, rpc_bind, ret_bind, pure_eq]
  refine ⟨hplain _ trivial, fun seed => all_bind (T := fun _ => True) ?_ fun r _ => ?_⟩
  · split <;> trivial
  · cases r with
    | error err => trivial
    | ok ct =>
      refine ⟨hposting _ _, fun _ => ⟨hsetup ct, fun r => ?_⟩⟩
      cases r with
      | error err => trivial
      | ok resp =>
        dsimp only
        split_ifs <;> trivial

/-- A set-up posts to the candidates only. -/
theorem all_setupCandidates_to {cands : List (NodeRecord × Bytes)}
    (hsetup : ∀ c ∈ cands, ∀ ct, R (jsonPost (c.1.nodeURL ++ lit "/setup")
      (KeySetupRequest.json ⟨circuitID, Base64.encode ct⟩).encode)) :
    (setupCandidates X circuitID cands).All P R fun _ => True := by
  induction cands with
  | nil => trivial
  | cons c cands ih =>
    unfold setupCandidates
    split
    · trivial
    · refine all_bind (all_sendSetupKey_to hplain hposting (hsetup c List.mem_cons_self) _ _)
        fun r _ => ?_
      cases r with
      | error err => trivial
      | ok _ => exact ih fun c' hc' => hsetup c' (List.mem_cons_of_mem _ hc')

end

theorem all_setupCandidates (h : SetupFootprint X circuitID P R)
    (cands : List (NodeRecord × Bytes)) : (setupCandidates X circuitID cands).All P R fun _ => True :=
  all_setupCandidates_to h.plain h.posting fun c _ => h.setup c.1.nodeURL

theorem all_generateKeys (hP : ∀ e : Effect, e.Plain → P e) (hops : Int) :
    (generateKeys hops).All P R fun _ => True := by
  unfold generateKeys
  refine ⟨hP _ trivial, fun g => ?_⟩
  dsimp only
  split_ifs
  · exact ⟨hP _ trivial, fun r => ⟨hP _ trivial, fun e => trivial⟩⟩
  · trivial

theorem all_setupCircuit (h : SetupFootprint X circuitID P R) (circuit : CircuitResponse)
    (hops : Int) : (setupCircuitWithHops X circuitID circuit hops).All P R fun _ => True := by
  unfold setupCircuitWithHops
  split
  · trivial
  · refine all_bind (all_generateKeys h.plain _) fun keys _ => ?_
    refine all_bind (all_setupCandidates h _) fun r _ => ?_
    cases r <;> trivial

theorem all_wrapLayer (hP : ∀ e : Effect, e.Plain → P e) (key nextHop payload : Bytes)
    (name : String) : (wrapLayer X key nextHop payload name).All P R fun _ => True := by
  unfold wrapLayer
  refine all_bind (all_encrypt hP _ _) fun r _ => ?_
  cases r <;> trivial

theorem all_buildOnion (hP : ∀ e : Effect, e.Plain → P e) (keys : SessionKeys) (layer : ExitLayer)
    (relayAddr exitAddr : Bytes) (hops : Int) :
    (buildOnionWithHops X keys layer relayAddr exitAddr hops).All P R fun _ => True := by
  unfold buildOnionWithHops
  split
  · trivial
  · refine all_bind (all_encrypt hP _ _) fun r _ => ?_
    cases r with
    | error err => trivial
    | ok exitCT =>
      dsimp only
      split_ifs
      · trivial
      · refine all_bind (all_wrapLayer hP _ _ _ _) fun r _ => ?_
        cases r with
        | error err => trivial
        | ok relayCT => exact all_wrapLayer hP _ _ _ _

theorem all_sendOnion (honion : ∀ guardURL payload, R (jsonPost (guardURL ++ lit "/onion")
    (OnionRequest.json ⟨circuitID, payload⟩).encode)) (guardURL payload : Bytes) :
    (sendOnion X guardURL circuitID payload).All P R fun _ => True := by
  simp only [sendOnion, clientPost_eq, rpc_bind, ret_bind, pure_eq]
  refine ⟨honion guardURL payload, fun r => ?_⟩
  cases r with
  | error err => trivial
  | ok resp =>
    dsimp only
    split_ifs
    · trivial
    · split <;> trivial

/-- What one attempt does is in the footprint of its circuit ID. -/
theorem all_attemptCircuit {c : Call} (h : ClientFootprint X c.circuitID P R)
    (circuit : CircuitResponse) : (attemptCircuit X c circuit).All P R fun _ => True := by
  simp only [attemptCircuit, perform_eq, op_bind, ret_bind, pure_eq]
  refine all_bind (all_setupCircuit h.toSetupFootprint _ _) fun r _ => ?_
  cases r with
  | error err => trivial
  | ok keys =>
    refine ⟨h.established _, fun _ => all_bind (all_buildOnion h.plain _ _ _ _ _) fun r _ => ?_⟩
    cases r with
    | error err => trivial
    | ok payload =>
      refine ⟨h.sending, fun _ => all_bind (all_sendOnion h.onion _ _) fun r _ => ?_⟩
      cases r with
      | error err => trivial
      | ok resp =>
        dsimp only
        split <;> trivial

/-! ## The loop around the attempts -/

theorem all_getCircuit (hget : ∀ url, P (.httpGet url)) (directoryURL : Bytes) (hops : Int) :
    (getCircuitWithHops X directoryURL hops).All P R fun _ => True := by
  unfold getCircuitWithHops
  split
  · trivial
  · simp only [perform_eq, op_bind, ret_bind]
    refine ⟨hget _, fun r => ?_⟩
    cases r with
    | error err => trivial
    | ok resp =>
      dsimp only
      split_ifs
      · trivial
      · split
        · trivial
        · split_ifs <;> trivial

theorem all_getHealthyNodes (hget : ∀ url, P (.httpGet url)) (directoryURL : Bytes) :
    (getHealthyNodes X directoryURL).All P R fun _ => True := by
  unfold getHealthyNodes
  simp only [perform_eq, op_bind, ret_bind]
  refine ⟨hget _, fun r => ?_⟩
  cases r with
  | error err => trivial
  | ok resp =>
    dsimp only
    split_ifs
    · trivial
    · split <;> trivial

section

variable (hP : ∀ e : Effect, e.Plain → P e)

include hP

theorem all_beginRebuild (attempt maxAttempts : Int) (events : List RebuildEvent)
    (lastErr : Option Bytes) (lastCircuit : Option CircuitResponse) :
    (beginRebuild attempt maxAttempts events lastErr lastCircuit).All P R fun _ => True := by
  unfold beginRebuild
  split_ifs
  · exact ⟨hP _ trivial, fun _ => ⟨hP _ trivial, fun _ => trivial⟩⟩
  · trivial

theorem all_finishRebuild (success : Bool) (events : List RebuildEvent) :
    (finishRebuild success events).All P R fun _ => True := by
  unfold finishRebuild
  split
  · trivial
  · exact ⟨hP _ trivial, fun _ => ⟨hP _ trivial, fun _ => trivial⟩⟩

end

end HopVault
