import HopVault.Building
import HopVault.Footprint
import HopVault.Sample
import HopVault.Framework.History

/-! # Authenticity of responses

    What the client may get out of an answer to its onion when guard and
    relay do as they like. The client and the exit node are honest;
    everybody else sends whatever they can make without the session key of
    the exit: what they have seen, in any order, any number of times, and
    wrapped anew with the other two keys.

    The encryption is taken to be unforgeable: a ciphertext that opens
    under the exit's session key is one that an honest party has made with
    it. One key serves both directions, and nothing in a ciphertext says
    which one it was made for. -/

namespace HopVault

open Framework Framework.Json Framework.Prog

variable (X : Externals)

/-! ## Honest encryptions -/

/-- What honest parties have encrypted so far: the key, and the ciphertext. -/
abbrev Ledger : Type := List (Bytes × Bytes)

/-- A ciphertext in the hands of somebody without the key: it opens only if
    an honest party has made it. -/
def Unforged (ledger : Ledger) (key ct : Bytes) : Prop :=
  ∀ plaintext, decrypt X key ct = .ok plaintext → (key, ct) ∈ ledger

/-- The client has built an onion out of these ciphertexts. -/
structure Built (keys : SessionKeys) (layer : ExitLayer) (circuit : CircuitResponse)
    (exitCT relayCT guardCT : Bytes) : Prop where
  exit : Yields (encrypt X keys.exitKey layer.json.encode) (.ok exitCT)
  relay : Yields (wrapLayer X keys.relayKey circuit.exit.addr exitCT "relay") (.ok relayCT)
  guard : Yields (wrapLayer X keys.guardKey circuit.relay.addr relayCT "guard") (.ok guardCT)

/-- The exit node has read `layer` out of a payload, executed it with the
    result `resp`, and encrypted that as `ct`. -/
structure ExitAnswers (key payload : Bytes) (layer : ExitLayer) (resp : ExitResponse)
    (ct : Bytes) : Prop where
  unwrapped : unwrapExitLayer X key payload = .ok layer
  executed : Yields (executeExitRequest X layer) (.ok resp)
  encrypted : Yields (encryptExitResponse X key resp) (.ok ct)

variable {X}

/-- An onion over three hops is built out of three ciphertexts. -/
theorem yields_buildOnion {keys : SessionKeys} {layer : ExitLayer} {circuit : CircuitResponse}
    {payload : Bytes} :
    Yields (buildOnionWithHops X keys layer circuit.relay.addr circuit.exit.addr 3) (.ok payload) ↔
      ∃ exitCT relayCT, Built X keys layer circuit exitCT relayCT payload := by
  rw [yields_buildOnion_three]
  constructor
  · intro h
    obtain ⟨exitCT, relayCT, hexit, hrelay, hguard⟩ := h
    exact ⟨exitCT, relayCT, hexit, hrelay, hguard⟩
  · intro h
    obtain ⟨exitCT, relayCT, hbuilt⟩ := h
    exact ⟨exitCT, relayCT, hbuilt.exit, hbuilt.relay, hbuilt.guard⟩

/-- What the exit node encrypts is its answer to a layer it has read. -/
theorem yields_execute {req : OnionRequest} {key : Bytes} {r : Response}
    (h : Yields (ExitHandler.execute X req key) r) :
    (∃ err, r = ExitHandler.failureAnswer err) ∨
    ∃ layer resp ct, r = onionAnswer ct ∧ ExitAnswers X key req.payload layer resp ct := by
  unfold ExitHandler.execute at h
  obtain ⟨out, hpayload, h⟩ := yields_bind.mp h
  cases out with
  | error err =>
    obtain ⟨_, hret⟩ := yields_op.mp h
    exact .inl ⟨err, yields_ret.mp hret⟩
  | ok answer =>
    obtain ⟨_, hret⟩ := yields_op.mp h
    right
    unfold executeExitPayload at hpayload
    cases hlayer : unwrapExitLayer X key req.payload with
    | error err =>
      rw [hlayer] at hpayload
      cases yields_ret.mp hpayload
    | ok layer =>
      rw [hlayer] at hpayload
      obtain ⟨result, hexecuted, hpayload⟩ := yields_bind.mp hpayload
      cases result with
      | error err => cases yields_ret.mp hpayload
      | ok resp =>
        obtain ⟨sealed, hencrypted, hpayload⟩ := yields_bind.mp hpayload
        cases sealed with
        | error err => cases yields_ret.mp hpayload
        | ok ct =>
          cases yields_ret.mp hpayload
          exact ⟨layer, resp, ct, yields_ret.mp hret, hlayer, hexecuted, hencrypted⟩

theorem ExitAnswers.yields {req : OnionRequest} {key ct : Bytes} {layer : ExitLayer}
    {resp : ExitResponse} (h : ExitAnswers X key req.payload layer resp ct) :
    Yields (ExitHandler.execute X req key) (onionAnswer ct) := by
  have hpayload : Yields (executeExitPayload X key req.payload) (.ok (ct, layer)) := by
    unfold executeExitPayload
    rw [h.unwrapped]
    exact yields_bind.mpr ⟨_, h.executed, yields_bind.mpr ⟨_, h.encrypted, .ret⟩⟩
  exact yields_bind.mpr ⟨_, hpayload, .op () .ret⟩

/-- No failure is answered with 200. -/
theorem failureAnswer_ne_ok (err : Bytes) :
    (ExitHandler.failureAnswer err).statusCode ≠ statusOK := by
  unfold ExitHandler.failureAnswer
  split_ifs <;> decide

/-- Whatever an exit node is asked, at whichever endpoint: all it answers
    with 200 are onions, with the key it finds for them. -/
theorem yields_exitNode {ν : Type} {N : Net ν} {n : ν} (hrole : N.role n = .exit)
    {endpoint : Endpoint} {r : ServerRequest} {resp : Response}
    (h : Yields (N.handle n endpoint r) resp) (hok : resp.statusCode = statusOK) :
    ∃ req key ct, decodeStream OnionRequest.fields .zero r.body = some req ∧
      resp = onionAnswer ct ∧ Yields (ExitHandler.execute N.X req key) (onionAnswer ct) := by
  unfold Net.handle at h
  rw [hrole] at h
  cases endpoint with
  | setup =>
    have hall : (handleSetup N.X (N.priv n) r).All (fun _ => True) (fun _ => True) _ :=
      all_handleSetup (fun _ _ => trivial) r.method r.remoteAddr r.body
        fun _ _ _ _ _ _ _ => trivial
    exact absurd hok (h.of_all hall)
  | key =>
    have hall := all_handleKeyAs (P := fun _ => True) (R := fun _ => True) (fun _ _ => trivial)
      (lit "exit") r.method r.remoteAddr r.body fun _ _ _ _ _ => trivial
    exact absurd hok (h.of_all hall).1
  | onion =>
    dsimp only at h
    unfold ExitHandler.handleOnion at h
    split_ifs at h with hpost
    · -- not a POST
      rw [yields_ret.mp h] at hok
      cases hok
    · cases hreq : decodeStream OnionRequest.fields .zero r.body with
      | none =>
        rw [hreq] at h
        obtain ⟨_, hret⟩ := yields_op.mp h
        rw [yields_ret.mp hret] at hok
        cases hok
      | some req =>
        rw [hreq] at h
        dsimp only at h
        split_ifs at h
        · rw [yields_ret.mp h] at hok
          cases hok
        · obtain ⟨key, hkey⟩ := yields_op.mp h
          cases key with
          | none =>
            obtain ⟨_, hret⟩ := yields_op.mp hkey
            rw [yields_ret.mp hret] at hok
            cases hok
          | some key =>
            have hexecute : Yields (ExitHandler.execute N.X req key) resp := hkey
            rcases yields_execute hexecute with ⟨err, rfl⟩ | ⟨layer, result, ct, rfl, -⟩
            · exact absurd hok (failureAnswer_ne_ok err)
            · exact ⟨req, key, ct, rfl, rfl, hexecute⟩

/-! ## Exchanges -/

/-- What happens on the network, as far as honest parties encrypt. -/
inductive Exchange where
  /-- The client builds an onion for its layer. -/
  | onion (exitCT relayCT guardCT : Bytes)
  /-- The exit node answers `req` with `ct`, by the key it has for it. -/
  | exit (req : OnionRequest) (key ct : Bytes)
  /-- Somebody encrypts with a key of their own. -/
  | other (key ct : Bytes)

variable (X) in
/-- One exchange in a network where guard and relay do as they like. The
    requests to the exit are theirs; the client uses the session keys
    `keys` for onions with `layer`, and nobody else uses the exit's. -/
inductive Exchanged (keys : SessionKeys) (layer : ExitLayer) (circuit : CircuitResponse)
    (ledger : Ledger) : Exchange → Ledger → Prop
  | onion {exitCT relayCT guardCT : Bytes} (h : Built X keys layer circuit exitCT relayCT guardCT) :
      Exchanged keys layer circuit ledger (.onion exitCT relayCT guardCT)
        (ledger ++ [(keys.exitKey, exitCT), (keys.relayKey, relayCT), (keys.guardKey, guardCT)])
  | exit {req : OnionRequest} {key ct : Bytes}
      (hunforged : Unforged X ledger keys.exitKey req.payload)
      (h : Yields (ExitHandler.execute X req key) (onionAnswer ct)) :
      Exchanged keys layer circuit ledger (.exit req key ct) (ledger ++ [(key, ct)])
  | other {key ct : Bytes} (h : key ≠ keys.exitKey) :
      Exchanged keys layer circuit ledger (.other key ct) (ledger ++ [(key, ct)])

/-- A step of the network: the exit node's answer to any request, at any
    endpoint, is an exchange if it is no error. -/
theorem exchanged_of_exitNode {ν : Type} {N : Net ν} {n : ν} (hrole : N.role n = .exit)
    {endpoint : Endpoint} {r : ServerRequest} {resp : Response} {keys : SessionKeys}
    {layer : ExitLayer} {circuit : CircuitResponse} {ledger : Ledger}
    (h : Yields (N.handle n endpoint r) resp) (hok : resp.statusCode = statusOK)
    (hunforged : ∀ req, decodeStream OnionRequest.fields .zero r.body = some req →
      Unforged N.X ledger keys.exitKey req.payload) :
    ∃ req key ct, resp = onionAnswer ct ∧ Exchanged N.X keys layer circuit ledger
      (.exit req key ct) (ledger ++ [(key, ct)]) := by
  obtain ⟨req, key, ct, hreq, hresp, hexecute⟩ := yields_exitNode hrole h hok
  exact ⟨req, key, ct, hresp, .exit (hunforged req hreq) hexecute⟩

/-! ## What is encrypted with the exit's key -/

section

variable {keys : SessionKeys} {layer : ExitLayer} {circuit : CircuitResponse}
  {ledger ledger' : Ledger} {h : List Exchange} {e : Exchange}

theorem ExitAnswers.decrypt (hX : X.LawfulAEAD) {key payload ct : Bytes} {layer : ExitLayer}
    {resp : ExitResponse} (h : ExitAnswers X key payload layer resp ct) :
    HopVault.decrypt X key ct = .ok resp.json.encode := decrypt_of_encryptExitResponse hX h.encrypted

/-- A ciphertext is the client's own, for the exit. -/
def ByClient (X : Externals) (keys : SessionKeys) (layer : ExitLayer) (h : List Exchange)
    (ct : Bytes) : Prop :=
  (∃ relayCT guardCT, .onion ct relayCT guardCT ∈ h) ∧
    decrypt X keys.exitKey ct = .ok layer.json.encode

/-- A ciphertext is the exit's answer `resp` to the client's layer. -/
def ByExit (X : Externals) (keys : SessionKeys) (layer : ExitLayer) (h : List Exchange)
    (resp : ExitResponse) (ct : Bytes) : Prop :=
  ∃ req, .exit req keys.exitKey ct ∈ h ∧
    ExitAnswers X keys.exitKey req.payload layer.coerced resp ct

/-- **Invariant**: what has been encrypted with the exit's key is either. -/
def Accounted (X : Externals) (keys : SessionKeys) (layer : ExitLayer) (h : List Exchange)
    (ledger : Ledger) : Prop :=
  ∀ ct, (keys.exitKey, ct) ∈ ledger →
    ByClient X keys layer h ct ∨ ∃ resp, ByExit X keys layer h resp ct

/-- More may happen later. -/
theorem Accounted.later (hI : Accounted X keys layer h ledger) {ct : Bytes}
    (hct : (keys.exitKey, ct) ∈ ledger) :
    ByClient X keys layer (h ++ [e]) ct ∨ ∃ resp, ByExit X keys layer (h ++ [e]) resp ct := by
  rcases hI ct hct with ⟨⟨relayCT, guardCT, hmem⟩, hdec⟩ | ⟨resp, req, hmem, hans⟩
  · exact .inl ⟨⟨relayCT, guardCT, List.mem_append_left _ hmem⟩, hdec⟩
  · exact .inr ⟨resp, req, List.mem_append_left _ hmem, hans⟩

/-- The exit executes nothing that is encrypted with its session key but
    the client's layer: its own answers have no URL. -/
theorem Accounted.executed (hX : X.LawfulAEAD) (hI : Accounted X keys layer h ledger)
    {payload : Bytes} (hunforged : Unforged X ledger keys.exitKey payload) {l : ExitLayer}
    (hunwrap : unwrapExitLayer X keys.exitKey payload = .ok l) : l = layer.coerced := by
  obtain ⟨⟨plaintext, hdec, hread⟩, hurl, -⟩ := unwrapExitLayer_eq_ok.mp hunwrap
  rcases hI payload (hunforged plaintext hdec) with ⟨-, hlayer⟩ | ⟨resp, req, -, hans⟩
  · rw [hdec] at hlayer
    cases hlayer
    rw [unmarshal_exitLayer] at hread
    exact (Option.some.inj hread).symm
  · have hresp := hans.decrypt hX
    rw [hdec] at hresp
    cases hresp
    rw [unmarshal_exitResponse_as_layer] at hread
    rw [← Option.some.inj hread] at hurl
    exact absurd rfl hurl

/-- One exchange keeps the invariant. -/
theorem Accounted.step (hX : X.LawfulAEAD) (hguard : keys.guardKey ≠ keys.exitKey)
    (hrelay : keys.relayKey ≠ keys.exitKey) (hI : Accounted X keys layer h ledger)
    (hstep : Exchanged X keys layer circuit ledger e ledger') :
    Accounted X keys layer (h ++ [e]) ledger' := by
  intro ct hct
  cases hstep with
  | @onion exitCT relayCT guardCT hbuilt =>
    rcases List.mem_append.mp hct with hold | hnew
    · exact hI.later hold
    · -- of the three ciphertexts one is for the exit
      simp only [List.mem_cons, Prod.mk.injEq, List.not_mem_nil, or_false] at hnew
      rcases hnew with ⟨-, rfl⟩ | ⟨hkey, -⟩ | ⟨hkey, -⟩
      · exact .inl ⟨⟨relayCT, guardCT, by simp⟩, decrypt_of_yields hX hbuilt.exit⟩
      · exact absurd hkey.symm hrelay
      · exact absurd hkey.symm hguard
  | @exit req key ct' hunforged hexecute =>
    rcases List.mem_append.mp hct with hold | hnew
    · exact hI.later hold
    · rw [List.mem_singleton, Prod.mk.injEq] at hnew
      obtain ⟨rfl, rfl⟩ := hnew
      rcases yields_execute hexecute with ⟨err, hfail⟩ | ⟨l, resp, ct', hok, hans⟩
      · exact absurd (congrArg Response.statusCode hfail).symm (failureAnswer_ne_ok err)
      · -- the answer carries its ciphertext
        have hpayload := congrArg (fun r => decodeStream OnionResponse.fields .zero r.body) hok
        simp only [decode_onionAnswer, Option.some.injEq, OnionResponse.mk.injEq] at hpayload
        subst hpayload
        have hlayer := hI.executed hX hunforged hans.unwrapped
        rw [hlayer] at hans
        exact .inr ⟨resp, req, by simp, hans⟩
  | other hkey =>
    rcases List.mem_append.mp hct with hold | hnew
    · exact hI.later hold
    · rw [List.mem_singleton, Prod.mk.injEq] at hnew
      exact absurd hnew.1.symm hkey

/-- The invariant holds after every run. -/
theorem accounted_of_run (hX : X.LawfulAEAD) (hguard : keys.guardKey ≠ keys.exitKey)
    (hrelay : keys.relayKey ≠ keys.exitKey)
    (hrun : Steps (Exchanged X keys layer circuit) [] h ledger) :
    Accounted X keys layer h ledger := by
  apply hrun.induct (I := Accounted X keys layer)
  · intro ct hct
    cases hct
  · intro h ledger e ledger' _ hI hstep
    exact hI.step hX hguard hrelay hstep

/-! ## What the client accepts -/

/-- The ciphertext the client opens last. -/
def Innermost (X : Externals) (keys : SessionKeys) (payload ct : Bytes) : Prop :=
  ∃ relayEncrypted, decrypt X keys.guardKey payload = .ok relayEncrypted ∧
    decrypt X keys.relayKey relayEncrypted = .ok ct

/-- What the client accepts is what it finds innermost. -/
theorem decryptResponse_innermost {payload : Bytes} {resp : ExitResponse}
    (h : decryptResponseWithHops X keys payload 3 = .ok resp) :
    ∃ ct plaintext, Innermost X keys payload ct ∧ decrypt X keys.exitKey ct = .ok plaintext ∧
      unmarshal ExitResponse.fields .zero plaintext = some resp := by
  have h31 : ¬(3 : Int) = 1 := by decide
  simp only [decryptResponseWithHops, validateHops, or_true, if_true, if_neg h31] at h
  cases hguard : decrypt X keys.guardKey payload with
  | error err => simp [hguard] at h
  | ok relayEncrypted =>
    cases hrelay : decrypt X keys.relayKey relayEncrypted with
    | error err => simp [hguard, hrelay] at h
    | ok ct =>
      cases hexit : decrypt X keys.exitKey ct with
      | error err => simp [hguard, hrelay, hexit] at h
      | ok plaintext =>
        simp only [hguard, hrelay, hexit, unmarshalExitResponse] at h
        cases hresp : unmarshal ExitResponse.fields .zero plaintext with
        | none => simp [hresp] at h
        | some r =>
          rw [hresp] at h
          cases h
          exact ⟨ct, plaintext, ⟨relayEncrypted, hguard, hrelay⟩, hexit, hresp⟩

/-- **Authenticity**: whatever guard and relay make of what they see, a
    response the client accepts is one the exit has encrypted as its answer
    to the client's layer, or the client's own layer, sent back to it and
    read as a response with status 0. -/
theorem response_authentic (hX : X.LawfulAEAD) (hguard : keys.guardKey ≠ keys.exitKey)
    (hrelay : keys.relayKey ≠ keys.exitKey)
    (hrun : Steps (Exchanged X keys layer circuit) [] h ledger) {payload : Bytes}
    (hunforged : ∀ ct, Innermost X keys payload ct → Unforged X ledger keys.exitKey ct)
    {resp : ExitResponse} (hresp : decryptResponseWithHops X keys payload 3 = .ok resp) :
    (∃ answer ct, ByExit X keys layer h answer ct ∧ Innermost X keys payload ct ∧
      resp = answer.coerced) ∨
    (∃ ct, ByClient X keys layer h ct ∧ Innermost X keys payload ct ∧
      resp = ⟨0, coercedMap layer.headers, layer.body⟩) := by
  obtain ⟨ct, plaintext, hinner, hdec, hread⟩ := decryptResponse_innermost hresp
  have hmem := hunforged ct hinner plaintext hdec
  rcases accounted_of_run hX hguard hrelay hrun ct hmem with hclient | ⟨answer, hexit⟩
  · have hlayer := hclient.2
    rw [hdec] at hlayer
    cases hlayer
    rw [unmarshal_exitLayer_as_response, Option.some.injEq] at hread
    exact .inr ⟨ct, hclient, hinner, hread.symm⟩
  · obtain ⟨req, hmem, hans⟩ := hexit
    have hanswer := hans.decrypt hX
    rw [hdec] at hanswer
    cases hanswer
    rw [unmarshal_exitResponse, Option.some.injEq] at hread
    exact .inl ⟨answer, ct, ⟨req, hmem, hans⟩, hinner, hread.symm⟩

end

/-! ## A run -/

namespace Sample

theorem yields_wrapLayer {key : Bytes} (hkey : key.length = sessionKeySize)
    (nextHop payload : Bytes) (name : String) : Yields (wrapLayer externals key nextHop payload name)
      (.ok (sealed key (Layer.json ⟨nextHop, payload⟩).encode)) :=
  yields_bind.mpr ⟨_, yields_encrypt hkey _, .ret⟩

/-- The client's layer as it goes to the exit. -/
def exitCT : Bytes := sealed keys.exitKey layer.json.encode

def relayCT : Bytes := sealed keys.relayKey (Layer.json ⟨circuit.exit.addr, exitCT⟩).encode

def guardCT : Bytes := sealed keys.guardKey (Layer.json ⟨circuit.relay.addr, relayCT⟩).encode

theorem built : Built externals keys layer circuit exitCT relayCT guardCT :=
  ⟨yields_encrypt rfl _, yields_wrapLayer rfl _ _ _, yields_wrapLayer rfl _ _ _⟩

/-- The exit's answer. -/
def answerCT : Bytes := sealed keys.exitKey (exitResponse response).json.encode

theorem exitAnswers : ExitAnswers externals keys.exitKey exitCT layer (exitResponse response)
    answerCT := by
  constructor
  · exact unwrapExitLayer_eq rfl (by decide +kernel) (by decide) (by decide)
  · exact .op ⟨[], .nil⟩ (.op (.answered response) .ret)
  · exact yields_bind.mpr ⟨_, yields_encrypt rfl _, .ret⟩

/-- A ciphertext as it comes back through relay and guard. -/
def wrapped (ct : Bytes) : Bytes := sealed keys.guardKey (sealed keys.relayKey ct)

theorem eq_of_innermost {ct ct' : Bytes} (h : Innermost externals keys (wrapped ct) ct') :
    ct' = ct := by
  obtain ⟨relayEncrypted, hguard, hrelay⟩ := h
  rw [wrapped, decrypt_eq rfl] at hguard
  cases hguard
  rw [decrypt_eq rfl] at hrelay
  exact (Except.ok.inj hrelay).symm

/-- The client has sent its onion. -/
theorem sent : Steps (Exchanged externals keys layer circuit) [] [.onion exitCT relayCT guardCT]
    [(keys.exitKey, exitCT), (keys.relayKey, relayCT), (keys.guardKey, guardCT)] :=
  .single (.onion built)

end Sample

/-- The exit's own answer is one of the responses the client may get. -/
theorem response_authentic_sample : ∃ h answer ct,
    ByExit Sample.externals Sample.keys Sample.layer h answer ct ∧
    decryptResponseWithHops Sample.externals Sample.keys (Sample.wrapped ct) 3 =
      .ok answer.coerced := by
  -- the exit gets the client's ciphertext and answers it
  have hrun : Steps (Exchanged Sample.externals Sample.keys Sample.layer Sample.circuit) []
      ([.onion Sample.exitCT Sample.relayCT Sample.guardCT] ++
        [.exit ⟨lit "c1", Sample.exitCT⟩ Sample.keys.exitKey Sample.answerCT]) _ :=
    Sample.sent.snoc (.exit (fun _ _ => by simp) Sample.exitAnswers.yields)
  have hresp : decryptResponseWithHops Sample.externals Sample.keys
      (Sample.wrapped Sample.answerCT) 3 = .ok ⟨200, .empty, lit "ok"⟩ := by decide +kernel
  rcases response_authentic Sample.lawfulAEAD (by decide) (by decide) hrun
      (fun ct hinner => by rw [Sample.eq_of_innermost hinner]; intro _ _; simp) hresp with
    ⟨answer, ct, hexit, hinner, hans⟩ | ⟨ct, -, -, hbad⟩
  · rw [Sample.eq_of_innermost hinner] at hexit
    exact ⟨_, answer, _, hexit, by rw [hresp, hans]⟩
  · exact absurd (congrArg ExitResponse.statusCode hbad) (by decide)

/-- The relay sends the client's own ciphertext back: the client accepts it
    as a response, and the exit has encrypted nothing. -/
theorem response_reflected : ∃ h ledger payload resp,
    Steps (Exchanged Sample.externals Sample.keys Sample.layer Sample.circuit) [] h ledger ∧
    (∀ ct, Innermost Sample.externals Sample.keys payload ct →
      Unforged Sample.externals ledger Sample.keys.exitKey ct) ∧
    decryptResponseWithHops Sample.externals Sample.keys payload 3 = .ok resp ∧
    ∀ answer ct, ¬ByExit Sample.externals Sample.keys Sample.layer h answer ct := by
  refine ⟨_, _, Sample.wrapped Sample.exitCT, ⟨0, .empty, []⟩, Sample.sent, ?_, by decide +kernel, ?_⟩
  · intro ct hinner
    rw [Sample.eq_of_innermost hinner]
    intro _ _
    simp
  · intro answer ct hexit
    obtain ⟨req, hmem, -⟩ := hexit
    simp at hmem

end HopVault
