import HopVault.Sample

/-! # Transparency of a circuit

    An onion sent through honest hops makes the exit call the destination
    once, with the request the client described, and brings the
    destination's answer back. The hop count makes no difference. -/

namespace HopVault

open Framework Framework.Json Framework.Utf8 Framework.Semantics

variable {ι ν : Type} [DecidableEq ι] [DecidableEq ν] {N : Net ν}

/-! ## What the hops have to find -/

/-- Peeled with the session keys in circuit order, the payload leads over
    the given addresses to the exit layer. -/
def Wrapped (X : Externals) (keys : SessionKeys) (layer : ExitLayer) (relayAddr exitAddr : Bytes)
    (hops : Int) (payload : Bytes) : Prop :=
  if hops = 3 then
    ∃ relayCT exitCT,
      decrypt X keys.guardKey payload = .ok (Layer.json ⟨relayAddr, relayCT⟩).encode ∧
      decrypt X keys.relayKey relayCT = .ok (Layer.json ⟨exitAddr, exitCT⟩).encode ∧
      decrypt X keys.exitKey exitCT = .ok layer.json.encode
  else decrypt X keys.guardKey payload = .ok layer.json.encode

/-- Peeled with the session keys in circuit order, the payload leads to the
    exit's answer. -/
def WrappedAnswer (X : Externals) (keys : SessionKeys) (resp : DestResponse) (hops : Int)
    (payload : Bytes) : Prop :=
  if hops = 3 then
    ∃ relayCT exitCT, decrypt X keys.guardKey payload = .ok relayCT ∧
      decrypt X keys.relayKey relayCT = .ok exitCT ∧ ExitAnswer X keys.exitKey resp exitCT
  else ExitAnswer X keys.guardKey resp payload

/-- The client gets the exit's answer out of the payload. -/
theorem decryptResponse_wrapped {X : Externals} {keys : SessionKeys} {resp : DestResponse}
    {hops : Int} {payload : Bytes} (hhops : hops = 1 ∨ hops = 3)
    (h : WrappedAnswer X keys resp hops payload) :
    decryptResponseWithHops X keys payload hops = .ok (exitResponse resp).coerced := by
  unfold WrappedAnswer ExitAnswer at h
  rcases hhops with rfl | rfl
  · rw [if_neg (by decide)] at h
    exact decryptResponse_one h
  · rw [if_pos rfl] at h
    obtain ⟨relayCT, exitCT, hguard, hrelay, hexit⟩ := h
    exact decryptResponse_three hguard hrelay hexit

/-! ## Building the onion -/

theorem ends_wrapLayer (hX : N.X.LawfulAEAD) {ℓ : Loc ι ν} {w : World ι ν} {key : Bytes}
    (hkey : newCipher key = .ok ()) (nextHop payload : Bytes) (name : String) :
    N.reliable.Ends ℓ (wrapLayer N.X key nextHop payload name) w fun r w' =>
      ∃ ct, r = .ok ct ∧ decrypt N.X key ct = .ok (Layer.json ⟨nextHop, payload⟩).encode ∧
        Quiet w w' := by
  unfold wrapLayer
  refine ends_bind (ends_encrypt hX hkey _) fun r w₁ hr => ?_
  obtain ⟨ct, rfl, hct, hq⟩ := hr
  exact ends_ret ⟨ct, rfl, hct, hq⟩

theorem ends_buildOnion (hX : N.X.LawfulAEAD) {ℓ : Loc ι ν} {w : World ι ν} {keys : SessionKeys}
    {hops : Int} (hhops : hops = 1 ∨ hops = 3) (hk : keys.Proper hops) (layer : ExitLayer)
    (relayAddr exitAddr : Bytes) :
    N.reliable.Ends ℓ (buildOnionWithHops N.X keys layer relayAddr exitAddr hops) w fun r w' =>
      ∃ payload, r = .ok payload ∧ Wrapped N.X keys layer relayAddr exitAddr hops payload ∧
        Quiet w w' := by
  have hguard := newCipher_of_length hk.guardKey
  unfold buildOnionWithHops Wrapped
  rcases hhops with rfl | rfl
  · simp only [validateHops, true_or, if_true]
    refine ends_bind (ends_encrypt hX hguard _) fun r w₁ hr => ?_
    obtain ⟨exitCT, rfl, hexit, hq⟩ := hr
    exact ends_ret ⟨exitCT, rfl, hexit, hq⟩
  · obtain ⟨hrelayKey, hexitKey⟩ := hk.others rfl
    have h31 : ¬(3 : Int) = 1 := by decide
    simp only [validateHops, or_true, if_true, if_neg h31]
    -- from the inside out: exit, relay, guard
    refine ends_bind (ends_encrypt hX (newCipher_of_length hexitKey) _) fun r w₁ hr => ?_
    obtain ⟨exitCT, rfl, hexit, hq₁⟩ := hr
    refine ends_bind (ends_wrapLayer hX (newCipher_of_length hrelayKey) exitAddr exitCT _)
      fun r w₂ hr => ?_
    obtain ⟨relayCT, rfl, hrelay, hq₂⟩ := hr
    refine (ends_wrapLayer hX hguard relayAddr relayCT _).weaken fun r w₃ hr => ?_
    obtain ⟨guardCT, rfl, hct, hq₃⟩ := hr
    exact ⟨guardCT, rfl, ⟨relayCT, exitCT, hct, hrelay, hexit⟩, (hq₁.trans hq₂).trans hq₃⟩

/-! ## Sending it -/

omit [DecidableEq ι] [DecidableEq ν] in
theorem Keyed.quiet {w w' : World ι ν} {circuitID : Bytes} {cands : List (NodeRecord × Bytes)}
    {nodes : List ν} (h : Keyed w circuitID cands nodes) (hq : Quiet w w') :
    Keyed w' circuitID cands nodes := by
  unfold Keyed
  rw [hq.keys]
  exact h

/-- A hop forwards to the address of the next node's record. -/
theorem nextHopURL_addr (rec : NodeRecord) :
    nextHopURL rec.addr = rec.nodeURL ++ lit "/onion" := by
  simp [nextHopURL, NodeRecord.addr, NodeRecord.nodeURL]

theorem addr_ne_nil (rec : NodeRecord) : rec.addr ≠ [] := by
  simp [NodeRecord.addr]

/-- What the client gets for an onion whose layers are for the hops it is
    sent over. -/
theorem ends_guardOnion (hX : N.X.LawfulAEAD) {i : ι} {w : World ι ν} {circuit : CircuitResponse}
    {hops : Int} (hhops : hops = 1 ∨ hops = 3) {n : ν} {others : List ν}
    (hc : N.Circuit circuit hops (n :: others)) {keys : SessionKeys} (hk : keys.Proper hops)
    {circuitID payload : Bytes} (hcid : circuitID ≠ [])
    (hkeyed : Keyed w circuitID (candidates circuit keys hops) (n :: others)) {layer : ExitLayer}
    (hexec : layer.coerced.Executable N.X)
    (hwrap : Wrapped N.X keys layer (circuitHopAddresses circuit hops).1
      (circuitHopAddresses circuit hops).2 hops payload)
    (hdest : ∀ m, Answering w i m) (addr : Bytes) :
    N.reliable.Ends (i, .node n) (N.handle n .onion
      ⟨methodPost, addr, (OnionRequest.json ⟨circuitID, payload⟩).encode⟩) w fun r w' =>
        ∃ ct resp, r = onionAnswer ct ∧ WrappedAnswer N.X keys resp hops ct ∧
          ∃ m, Answers w w' i m layer.coerced resp := by
  have hguard := newCipher_of_length hk.guardKey
  have hroles := hc.roles
  unfold Wrapped at hwrap
  unfold Keyed candidates at hkeyed
  unfold WrappedAnswer
  rcases hhops with rfl | rfl
  · -- the guard is the exit
    rw [if_neg (by decide)] at hwrap hkeyed
    obtain ⟨hrole, -⟩ : N.role n = .guard ∧ others = [] := by simpa [circuitRoles] using hroles
    simp only [Net.handle, hrole]
    cases hkeyed with
    | cons hstored _ =>
      refine (Handler.ends_directExit hX rfl hcid hstored hguard hwrap hexec (hdest n)).weaken ?_
      rintro r w' ⟨ct, resp, rfl, hct, hans⟩
      exact ⟨ct, resp, rfl, by rwa [if_neg (by decide)], n, hans⟩
  · rw [if_pos rfl] at hwrap hkeyed
    obtain ⟨relayCT, exitCT, hguardCT, hrelayCT, hexitCT⟩ := hwrap
    obtain ⟨hrelayKey, hexitKey⟩ := hk.others rfl
    have hhonest := hc.honest
    unfold circuitHops at hhonest
    rw [if_pos rfl] at hhonest
    rcases hkeyed with _ | ⟨hg, _ | ⟨hr, _ | ⟨he, ⟨⟩⟩⟩⟩
    rename_i relay exit
    rcases hhonest with _ | ⟨-, _ | ⟨hrelay, _ | ⟨hexit, ⟨⟩⟩⟩⟩
    obtain ⟨hrole, hrelayRole, hexitRole⟩ :
        N.role n = .guard ∧ N.role relay = .relay ∧ N.role exit = .exit := by
      simpa [circuitRoles] using hroles
    have hcid' : toValid circuitID ≠ [] := fun h => hcid (toValid_eq_nil.mp h)
    simp only [Net.handle, hrole]
    refine (Handler.ends_forward hX hcid hg hguard hguardCT (addr_ne_nil _) hrelay.addr
      (ne_nil_of_decrypt hrelayCT) ((nextHopURL_addr _).symm ▸ hrelay.onionRoute)
      (P := fun ct w₂ => ∃ exitCT resp, decrypt N.X keys.relayKey ct = .ok exitCT ∧
        ExitAnswer N.X keys.exitKey resp exitCT ∧ Answers w w₂ i exit layer.coerced resp) ?_).weaken ?_
    · intro w₁ hq₁
      simp only [Net.handle, hrelayRole]
      refine (Handler.ends_forward hX hcid' (by rwa [toValid_toValid, hq₁.keys])
        (newCipher_of_length hrelayKey) hrelayCT (addr_ne_nil _) hexit.addr
        (ne_nil_of_decrypt hexitCT) ((nextHopURL_addr _).symm ▸ hexit.onionRoute)
        (P := fun ct w₂ => ∃ resp, ExitAnswer N.X keys.exitKey resp ct ∧
          Answers w w₂ i exit layer.coerced resp) ?_).weaken ?_
      · intro w₂ hq₂
        have hq := hq₁.trans hq₂
        rw [toValid_toValid]
        simp only [Net.handle, hexitRole]
        refine (ends_exitHandleOnion hX hcid' (by rwa [toValid_toValid, hq.keys])
          (newCipher_of_length hexitKey) hexitCT hexec (hq.answering (hdest exit))).weaken ?_
        rintro r w' ⟨ct, resp, rfl, hct, hans⟩
        exact ⟨ct, rfl, resp, hct, hq.answers hans⟩
      · rintro r w' ⟨ct, ct', w₂, rfl, hct', ⟨resp, hct, hans⟩, hq⟩
        exact ⟨ct', rfl, ct, resp, hct', hct, hans.quiet hq⟩
    · rintro r w' ⟨ct, ct', w₂, rfl, hct', ⟨exitCT, resp, hct, hexitCT, hans⟩, hq⟩
      refine ⟨ct', resp, rfl, ?_, exit, hans.quiet hq⟩
      rw [if_pos trivial]
      exact ⟨ct, exitCT, hct', hct, hexitCT⟩

omit [DecidableEq ν] in
/-- The nodes of a circuit begin with its guard. -/
theorem Net.Circuit.guard {circuit : CircuitResponse} {hops : Int} {nodes : List ν}
    (hc : N.Circuit circuit hops nodes) :
    ∃ n others, nodes = n :: others ∧ N.Honest circuit.guard n := by
  have hh := hc.honest
  unfold circuitHops at hh
  by_cases h3 : hops = 3
  · rw [if_pos h3] at hh
    cases hh with
    | cons hg _ => exact ⟨_, _, rfl, hg⟩
  · rw [if_neg h3] at hh
    cases hh with
    | cons hg _ => exact ⟨_, _, rfl, hg⟩

/-- The client gets an answer to the onion it sends. -/
theorem ends_sendOnion (hX : N.X.LawfulAEAD) {i : ι} {w : World ι ν} {circuit : CircuitResponse}
    {hops : Int} (hhops : hops = 1 ∨ hops = 3) {nodes : List ν}
    (hc : N.Circuit circuit hops nodes) {keys : SessionKeys} (hk : keys.Proper hops)
    {circuitID payload : Bytes} (hcid : circuitID ≠ [])
    (hkeyed : Keyed w circuitID (candidates circuit keys hops) nodes) {layer : ExitLayer}
    (hexec : layer.coerced.Executable N.X)
    (hwrap : Wrapped N.X keys layer (circuitHopAddresses circuit hops).1
      (circuitHopAddresses circuit hops).2 hops payload)
    (hdest : ∀ m, Answering w i m) :
    N.reliable.Ends (i, .client) (sendOnion N.X circuit.guard.nodeURL circuitID payload) w
      fun r w' => ∃ ct resp, r = .ok ⟨ct⟩ ∧ WrappedAnswer N.X keys resp hops ct ∧
        ∃ m, Answers w w' i m layer.coerced resp := by
  obtain ⟨n, others, rfl, hn⟩ := hc.guard
  simp only [sendOnion, clientPost_eq, Prog.rpc_bind, Prog.ret_bind, Prog.pure_eq]
  refine ends_post hn.onionRoute (R := fun r w' => ∃ ct resp, r = onionAnswer ct ∧
    WrappedAnswer N.X keys resp hops ct ∧ ∃ m, Answers w w' i m layer.coerced resp) ?_ ?_
  · intro w₁ hq
    refine (ends_guardOnion hX hhops hc hk hcid (hkeyed.quiet hq) hexec hwrap
      (fun m => hq.answering (hdest m)) _).weaken fun r w' hr => ?_
    obtain ⟨ct, resp, rfl, hct, m, hans⟩ := hr
    exact ⟨ct, resp, rfl, hct, m, hq.answers hans⟩
  · rintro r w₁ ⟨ct, resp, rfl, hct, hans⟩
    have hok : ¬(onionAnswer ct).statusCode ≠ statusOK := fun h => h rfl
    simp only [if_neg hok, decode_onionAnswer]
    exact ends_ret ⟨ct, resp, rfl, hct, hans⟩

/-! ## A whole attempt -/

/-- An attempt over honest hops ends with the destination's answer. -/
theorem ends_attemptCircuit (hX : N.X.LawfulAEAD) {i : ι} {w : World ι ν} {c : Call}
    (hhops : c.hops = 1 ∨ c.hops = 3) {circuit : CircuitResponse} {nodes : List ν}
    (hc : N.Circuit circuit c.hops nodes) (hcid : c.circuitID ≠ [])
    (hexec : c.exitLayer.coerced.Executable N.X) (hdest : ∀ m, Answering w i m) :
    N.reliable.Ends (i, .client) (attemptCircuit N.X c circuit) w fun r w' =>
      ∃ resp m req, r = .done (exitResponse resp).coerced ∧
        (∃ order, order.Perm c.exitLayer.coerced.headers.entries ∧
          req = destRequest c.exitLayer.coerced order) ∧
        (∃ k, (w.oracle (i, .node m) k).dest req = .answered resp) ∧
        w'.calls = Function.update w.calls i (w.calls i ++ [(req, .answered resp)]) := by
  have hvalid : validateHops c.hops = .ok () := if_pos hhops
  simp only [attemptCircuit, perform_eq, Prog.op_bind, Prog.ret_bind, Prog.pure_eq]
  refine ends_bind (ends_setupCircuit hcid hvalid hc) fun r w₁ hr => ?_
  obtain ⟨keys, rfl, hk, hkeyed, hcalls, horacle⟩ := hr
  refine ends_silent (by trivial) fun _ w₂ hq₂ => ?_
  refine ends_bind (ends_buildOnion hX hhops hk _ _ _) fun r w₃ hr => ?_
  obtain ⟨payload, rfl, hwrap, hq₃⟩ := hr
  refine ends_silent (by trivial) fun _ w₄ hq₄ => ?_
  have hq := (hq₂.trans hq₃).trans hq₄
  have hdest₄ : ∀ m, Answering w₄ i m := by
    unfold Answering
    rw [hq.oracle, horacle]
    exact hdest
  refine ends_bind (ends_sendOnion hX hhops hc hk hcid (hkeyed.quiet hq) hexec hwrap hdest₄)
    fun r w₅ hr => ?_
  obtain ⟨ct, resp, rfl, hct, m, order, k, hperm, hresp, hexe⟩ := hr
  simp only [decryptResponse_wrapped hhops hct]
  refine ends_ret ⟨resp, m, _, rfl, ⟨order, hperm, rfl⟩, ⟨k, ?_⟩, ?_⟩
  · rw [← horacle, ← hq.oracle]
    exact hresp
  · rw [hexe.calls, hq.calls, hcalls]

/-! ## Transparency -/

/-- The texts of a layer are well-formed. -/
structure ExitLayer.Text (l : ExitLayer) : Prop where
  url : Valid l.url
  method : Valid l.method
  headers : ∀ e ∈ l.headers.entries, Valid e.1 ∧ Valid e.2

theorem ExitLayer.Text.coerced {l : ExitLayer} (h : l.Text) : l.coerced = l := by
  have hurl : toValid l.url = l.url := h.url
  have hmethod : toValid l.method = l.method := h.method
  rw [ExitLayer.coerced, hurl, hmethod, coercedMap_of_valid h.headers]

theorem Sample.layer_text : Sample.layer.Text := by
  refine ⟨?_, ?_, by simp [Sample.layer, SortedMap.empty]⟩
  · show toValid _ = _
    decide +kernel
  · show toValid _ = _
    decide +kernel

/-- No two header names have the same canonical form. -/
def ExitLayer.DistinctHeaders (l : ExitLayer) : Prop :=
  (l.headers.entries.map fun e => canonicalHeaderKey e.1).Nodup

/-- The request a layer describes. -/
def ExitLayer.request (l : ExitLayer) : DestRequest := destRequest l l.headers.entries

/-- The order in which the exit ranges over the headers does not show. -/
theorem ExitLayer.DistinctHeaders.request {l : ExitLayer} (h : l.DistinctHeaders)
    {order : List (Bytes × Bytes)} (hperm : order.Perm l.headers.entries) :
    destRequest l order = l.request := by
  have hset : setHeaders l.headers.entries = setHeaders order :=
    SortedMap.foldl_insert_perm (fun e : Bytes × Bytes => canonicalHeaderKey e.1) Prod.snd
      hperm.symm h _
  rw [ExitLayer.request, destRequest, destRequest, hset]

/-- One destination call with the request of the layer, for this call and
    for no other. -/
def CalledOnce (w w' : World ι ν) (i : ι) (l : ExitLayer) (resp : DestResponse) : Prop :=
  w'.calls = Function.update w.calls i (w.calls i ++ [(l.request, .answered resp)])

/-- **Transparency**: over honest hops, an attempt calls the destination
    once, with exactly the request of the exit layer, and returns exactly
    its status and body; over any other honest circuit, of either length,
    it returns the same. -/
theorem attempt_transparent (hX : N.X.LawfulAEAD) {i : ι} {w : World ι ν}
    {D : DestRequest → DestResponse}
    (hD : ∀ n m req, (w.oracle (i, .node n) m).dest req = .answered (D req)) {c : Call}
    (hhops : c.hops = 1 ∨ c.hops = 3) {circuit : CircuitResponse} {nodes : List ν}
    (hc : N.Circuit circuit c.hops nodes) (hcid : c.circuitID ≠ []) (htext : c.exitLayer.Text)
    (hexec : c.exitLayer.Executable N.X) (hnames : c.exitLayer.DistinctHeaders) :
    ∃ resp w', N.reliable.Returns (i, .client) (attemptCircuit N.X c circuit) w (.done resp) w' ∧
      CalledOnce w w' i c.exitLayer (D c.exitLayer.request) ∧
      resp.statusCode = (D c.exitLayer.request).statusCode ∧
      resp.body = (D c.exitLayer.request).body ∧
      ∀ hops₂ circuit₂ nodes₂, hops₂ = 1 ∨ hops₂ = 3 → N.Circuit circuit₂ hops₂ nodes₂ →
        ∃ resp₂ w₂, N.reliable.Returns (i, .client)
            (attemptCircuit N.X { c with hops := hops₂ } circuit₂) w (.done resp₂) w₂ ∧
          resp₂.statusCode = resp.statusCode ∧ resp₂.body = resp.body := by
  -- one run, over a circuit of either length
  have hrun : ∀ hops circuit nodes, hops = 1 ∨ hops = 3 → N.Circuit circuit hops nodes →
      ∃ resp w', N.reliable.Returns (i, .client) (attemptCircuit N.X { c with hops := hops } circuit)
          w (.done resp) w' ∧
        CalledOnce w w' i c.exitLayer (D c.exitLayer.request) ∧
        resp.statusCode = (D c.exitLayer.request).statusCode ∧
        resp.body = (D c.exitLayer.request).body := by
    intro hops circuit nodes hhops hc
    have hends := ends_attemptCircuit (c := { c with hops := hops }) hX hhops hc hcid
      (htext.coerced.symm ▸ hexec) fun m k req => ⟨_, hD m k req⟩
    obtain ⟨out, w', hret, resp, m, req, rfl, ⟨order, hperm, rfl⟩, ⟨k, hresp⟩, hcalls⟩ := hends
    simp only [htext.coerced] at hperm hresp hcalls
    rw [hnames.request hperm] at hresp hcalls
    obtain rfl : D c.exitLayer.request = resp := by
      rw [hD, DestOutcome.answered.injEq] at hresp
      exact hresp
    exact ⟨_, w', hret, hcalls, rfl, rfl⟩
  obtain ⟨resp, w', hret, honce, hstatus, hbody⟩ := hrun c.hops circuit nodes hhops hc
  refine ⟨resp, w', hret, honce, hstatus, hbody, fun hops₂ circuit₂ nodes₂ hhops₂ hc₂ => ?_⟩
  obtain ⟨resp₂, w₂, hret₂, -, hstatus₂, hbody₂⟩ := hrun hops₂ circuit₂ nodes₂ hhops₂ hc₂
  exact ⟨resp₂, w₂, hret₂, hstatus₂.trans hstatus.symm, hbody₂.trans hbody.symm⟩

namespace Sample

/-- A request with headers and with a body that is no text. -/
def postLayer : ExitLayer :=
  ⟨lit "http://d/a", lit "POST",
    (SortedMap.empty.insert (lit "accept") (lit "text/plain")).insert (lit "X-Token") (lit "7"),
    [0xff, 0x00, 0x0a]⟩

theorem postLayer_text : postLayer.Text := by
  refine ⟨?_, ?_, ?_⟩
  · show toValid _ = _
    decide +kernel
  · show toValid _ = _
    decide +kernel
  · show ∀ e ∈ postLayer.headers.entries, toValid e.1 = e.1 ∧ toValid e.2 = e.2
    decide +kernel

/-- A destination that sends back what it gets, with the token as status. -/
def echo (req : DestRequest) : DestResponse :=
  ⟨if req.headers.get? (lit "X-Token") = some (lit "7") then 201 else 403, .empty, req.body⟩

def echoing : World Unit Node :=
  { start with oracle := fun _ m => { choice m with dest := fun req => .answered (echo req) } }

def postCall : Call := { call with exitLayer := postLayer }

theorem circuit_one : net.Circuit circuit 1 [.guard] :=
  ⟨.cons (honest .guard) .nil, by decide, rfl⟩

end Sample

/-- A request with headers and a body, over three hops and over one. -/
theorem attempt_transparent_sample : ∃ resp w' resp₂ w₂,
    Sample.net.reliable.Returns ((), .client)
        (attemptCircuit Sample.externals Sample.postCall Sample.circuit) Sample.echoing (.done resp)
        w' ∧
      CalledOnce Sample.echoing w' () Sample.postLayer (Sample.echo Sample.postLayer.request) ∧
      resp.statusCode = 201 ∧ resp.body = [0xff, 0x00, 0x0a] ∧
    Sample.net.reliable.Returns ((), .client)
        (attemptCircuit Sample.externals { Sample.postCall with hops := 1 } Sample.circuit)
        Sample.echoing (.done resp₂) w₂ ∧
      resp₂.statusCode = 201 ∧ resp₂.body = [0xff, 0x00, 0x0a] := by
  obtain ⟨resp, w', hret, honce, hstatus, hbody, hother⟩ := attempt_transparent (N := Sample.net)
    (w := Sample.echoing) (i := ()) (D := Sample.echo) (c := Sample.postCall)
    Sample.lawfulAEAD (fun _ _ _ => rfl) (.inr rfl) Sample.circuit_three (by decide)
    Sample.postLayer_text ⟨by decide, by decide, rfl⟩
    (by unfold ExitLayer.DistinctHeaders; decide +kernel)
  obtain ⟨resp₂, w₂, hret₂, hstatus₂, hbody₂⟩ := hother 1 _ _ (.inl rfl) Sample.circuit_one
  have h201 : (Sample.echo Sample.postLayer.request).statusCode = 201 := by decide +kernel
  have hecho : (Sample.echo Sample.postLayer.request).body = [0xff, 0x00, 0x0a] := rfl
  exact ⟨resp, w', resp₂, w₂, hret, honce, hstatus.trans h201, hbody.trans hecho, hret₂,
    hstatus₂.trans (hstatus.trans h201), hbody₂.trans (hbody.trans hecho)⟩

end HopVault
