import HopVault.Network
import HopVault.Retry
import HopVault.Onion.Codec

/-! # Honest runs

    What the programs of honest nodes and of the client end with when
    nothing is lost: one lemma for each function, from the encryption of a
    layer up to a whole attempt. -/

namespace HopVault

open Framework Framework.Json Framework.Utf8 Framework.Semantics

variable {ι ν : Type}

/-! ## Frames -/

/-- Neither key stores nor destination requests have changed, and the
    outside still decides as before. -/
structure Quiet (w w' : World ι ν) : Prop where
  keys : w'.keys = w.keys
  calls : w'.calls = w.calls
  oracle : w'.oracle = w.oracle

namespace Quiet

theorem refl (w : World ι ν) : Quiet w w := ⟨rfl, rfl, rfl⟩

theorem trans {u v w : World ι ν} (h₁ : Quiet u v) (h₂ : Quiet v w) : Quiet u w :=
  ⟨h₂.keys.trans h₁.keys, h₂.calls.trans h₁.calls, h₂.oracle.trans h₁.oracle⟩

end Quiet

/-- An operation that neither stores a key nor calls a destination. -/
def Effect.Silent : Effect → Prop
  | .keysStore _ _ => False
  | .clientDo _ => False
  | _ => True

/-- The key `key` has been stored at node `n` under `circuitID`. -/
structure Stored [DecidableEq ν] (w w' : World ι ν) (n : ν) (circuitID key : Bytes) : Prop where
  keys : w'.keys = Function.update w.keys n (Function.update (w.keys n) circuitID (some key))
  calls : w'.calls = w.calls
  oracle : w'.oracle = w.oracle

section

variable [DecidableEq ν]

theorem Quiet.stored {u v w : World ι ν} {n : ν} {c k : Bytes} (h₁ : Quiet u v)
    (h₂ : Stored v w n c k) : Stored u w n c k :=
  ⟨by rw [h₂.keys, h₁.keys], h₂.calls.trans h₁.calls, h₂.oracle.trans h₁.oracle⟩

theorem Stored.quiet {u v w : World ι ν} {n : ν} {c k : Bytes} (h₁ : Stored u v n c k)
    (h₂ : Quiet v w) : Stored u w n c k :=
  ⟨by rw [h₂.keys, h₁.keys], h₂.calls.trans h₁.calls, h₂.oracle.trans h₁.oracle⟩

end

variable [DecidableEq ι] [DecidableEq ν]

theorem quiet_act {e : Effect} (he : e.Silent) (ℓ : Loc ι ν) (w : World ι ν) :
    Quiet w (World.act ℓ e w).2 := by
  cases e with
  | keysStore c k => cases he
  | clientDo r => cases he
  | accept ep a b =>
    obtain ⟨i, p⟩ := ℓ
    cases p <;> exact ⟨rfl, rfl, rfl⟩
  | _ => exact ⟨rfl, rfl, rfl⟩

variable {N : Net ν} {ℓ : Loc ι ν} {w : World ι ν} {α : Type}

/-- An operation whose answer does not matter. -/
theorem ends_silent {e : Effect} (he : e.Silent) {k : e.Ans → Go α}
    {Q : α → World ι ν → Prop} (h : ∀ a w', Quiet w w' → N.reliable.Ends ℓ (k a) w' Q) :
    N.reliable.Ends ℓ (.op e k) w Q :=
  ends_op (h _ _ (quiet_act he ℓ w))

/-- A key look-up. -/
theorem ends_keysGet {n : ν} {i : ι} {circuitID key : Bytes} {k : Option Bytes → Go α}
    {Q : α → World ι ν → Prop} (hkey : w.keys n circuitID = some key)
    (h : ∀ w', Quiet w w' → N.reliable.Ends (i, .node n) (k (some key)) w' Q) :
    N.reliable.Ends (i, .node n) (.op (.keysGet circuitID) k) w Q := by
  apply ends_op
  have hans : (World.act (i, .node n) (.keysGet circuitID) w).1 = some key := hkey
  show N.reliable.Ends _ (k (World.act (i, .node n) (.keysGet circuitID) w).1) _ _
  rw [hans]
  exact h _ (quiet_act (by trivial) _ _)

/-- A POST to an address at which a node listens. -/
theorem ends_post {i : ι} {p : Place ν} {q : Post} {n : ν} {endpoint : Endpoint}
    (hroute : N.route q.url = some (n, endpoint)) {k : Result Response → Go α}
    {R : Response → World ι ν → Prop} {Q : α → World ι ν → Prop}
    (hcall : ∀ w₁, Quiet w w₁ → N.reliable.Ends (i, .node n)
      (N.handle n endpoint ⟨methodPost, N.remoteAddr p, q.body⟩) w₁ R)
    (hk : ∀ resp w₁, R resp w₁ → N.reliable.Ends (i, p) (k (.ok resp)) w₁ Q) :
    N.reliable.Ends (i, p) (.rpc q k) w Q := by
  refine ends_rpc (R := fun r w₁ => ∃ resp, r = (.ok resp : Result Response) ∧ R resp w₁) ?_ ?_
  · show N.reliable.Ends (N.serve (i, p) q).1 (N.serve (i, p) q).2 _ _
    simp only [Net.serve, hroute, Net.serveAt, perform_eq, Prog.op_bind, Prog.ret_bind,
      Prog.pure_eq]
    refine ends_silent (by trivial) fun _ w₁ hq₁ => ends_bind (hcall w₁ hq₁) fun resp w₂ hr => ?_
    exact ends_ret ⟨resp, rfl, hr⟩
  · rintro r w₁ ⟨resp, rfl, hr⟩
    exact hk resp w₁ hr

/-! ## Layers -/

/-- The octets `encrypt` builds from a nonce decrypt to the plaintext. -/
theorem decrypt_sealed {X : Externals} (hX : X.LawfulAEAD) {key nonce : Bytes}
    (hkey : newCipher key = .ok ()) (hnonce : nonce.length = nonceSize) (plaintext : Bytes) :
    decrypt X key (nonce ++ X.gcmSeal key nonce plaintext) = .ok plaintext := by
  have hlen : ¬(nonce ++ X.gcmSeal key nonce plaintext).length < nonceSize := by
    rw [List.length_append]
    omega
  simp only [decrypt, hkey, if_neg hlen]
  rw [← hnonce, List.take_left, List.drop_left, hX hkey hnonce]

/-- What decrypts is not empty. -/
theorem ne_nil_of_decrypt {X : Externals} {key ct p : Bytes} (h : decrypt X key ct = .ok p) :
    ct ≠ [] := by
  rintro rfl
  simp only [decrypt] at h
  split at h
  · cases h
  · cases h

/-- The client reads a response under one layer, -/
theorem decryptResponse_one {X : Externals} {keys : SessionKeys} {payload : Bytes}
    {resp : ExitResponse} (h : decrypt X keys.guardKey payload = .ok resp.json.encode) :
    decryptResponseWithHops X keys payload 1 = .ok resp.coerced := by
  simp only [decryptResponseWithHops, validateHops, true_or, if_true, h, unmarshalExitResponse,
    unmarshal_exitResponse]

/-- and under three. -/
theorem decryptResponse_three {X : Externals} {keys : SessionKeys} {payload relayCT exitCT : Bytes}
    {resp : ExitResponse} (hguard : decrypt X keys.guardKey payload = .ok relayCT)
    (hrelay : decrypt X keys.relayKey relayCT = .ok exitCT)
    (hexit : decrypt X keys.exitKey exitCT = .ok resp.json.encode) :
    decryptResponseWithHops X keys payload 3 = .ok resp.coerced := by
  have h31 : ¬(3 : Int) = 1 := by decide
  simp only [decryptResponseWithHops, validateHops, or_true, if_true, if_neg h31, hguard, hrelay,
    hexit, unmarshalExitResponse, unmarshal_exitResponse]

theorem ends_encrypt (hX : N.X.LawfulAEAD) {key : Bytes} (hkey : newCipher key = .ok ())
    (plaintext : Bytes) : N.reliable.Ends ℓ (encrypt N.X key plaintext) w fun r w' =>
      ∃ ct, r = .ok ct ∧ decrypt N.X key ct = .ok plaintext ∧ Quiet w w' := by
  unfold encrypt
  rw [hkey]
  refine ends_silent (by trivial) fun nonce w' hq => ends_ret ?_
  exact ⟨_, rfl, decrypt_sealed hX hkey nonce.2 plaintext, hq⟩

/-- A session key is an AES key. -/
theorem newCipher_of_length {key : Bytes} (h : key.length = sessionKeySize) :
    newCipher key = .ok () := by
  have h32 : key.length = 32 := h
  simp [newCipher, h32]

/-! ## Key exchange -/

theorem base64_ne_nil {ct : Bytes} (h : ct ≠ []) : Base64.encode ct ≠ [] := by
  intro he
  have hlen := Base64.length_encode ct
  rw [he] at hlen
  have hpos := List.length_pos_iff.mpr h
  simp only [List.length_nil] at hlen
  omega

/-- A node stores the key of a set-up request it can decrypt. -/
theorem handleSetup_eq {X : Externals} {priv : PrivateKey} {addr circuitID ct key : Bytes}
    (hcid : circuitID ≠ []) (hct : ct ≠ []) (hdec : X.decryptOAEP priv ct = .ok key)
    (hlen : key.length = sessionKeySize) : handleSetup X priv
      ⟨methodPost, addr, (KeySetupRequest.json ⟨circuitID, Base64.encode ct⟩).encode⟩ =
      (do
        perform (.keysStore (toValid circuitID) key)
        logPrintf (lit "[setup] session key established for circuit " ++ toValid circuitID)
        return writeHeader statusNoContent) := by
  have h32 : ¬key.length ≠ 32 := fun h => h hlen
  have hreq := not_missing hcid (base64_ne_nil hct)
  simp only [handleSetup, decode_keySetupRequest, Base64.decode_encode, decryptKey, hdec,
    if_neg hreq, if_neg h32, ne_eq, not_true_eq_false, if_false]

/-- And answers with 204. -/
theorem ends_handleSetup {i : ι} {n : ν} {priv : PrivateKey} {addr circuitID ct key : Bytes}
    (hcid : circuitID ≠ []) (hct : ct ≠ []) (hdec : N.X.decryptOAEP priv ct = .ok key)
    (hlen : key.length = sessionKeySize) :
    N.reliable.Ends (i, .node n) (handleSetup N.X priv
      ⟨methodPost, addr, (KeySetupRequest.json ⟨circuitID, Base64.encode ct⟩).encode⟩) w
      fun r w' => r = writeHeader statusNoContent ∧ Stored w w' n (toValid circuitID) key := by
  rw [handleSetup_eq hcid hct hdec hlen]
  refine ends_op (ends_silent (by trivial) fun _ w' hq => ends_ret ⟨rfl, ?_⟩)
  have hstore : Stored w (World.act (i, .node n) (.keysStore (toValid circuitID) key) w).2 n
      (toValid circuitID) key := ⟨rfl, rfl, rfl⟩
  exact hstore.quiet hq

/-- The client posts a session key to an honest node. -/
theorem ends_sendSetupKey {i : ι} {rec : NodeRecord} {n : ν} (hn : N.Honest rec n)
    {circuitID key : Bytes} (hcid : circuitID ≠ []) (hlen : key.length = sessionKeySize)
    {pub : PublicKey} (hpair : N.X.KeyPair pub (N.priv n)) :
    N.reliable.Ends (i, .client) (sendSetupKey N.X rec.nodeURL circuitID pub key) w
      fun r w' => r = .ok () ∧ Stored w w' n (toValid circuitID) key := by
  simp only [sendSetupKey, encryptKey, perform_eq, clientPost_eq, Prog.op_bind, Prog.rpc_bind,
    Prog.ret_bind, Prog.pure_eq]
  refine ends_silent (by trivial) fun seed w₁ hq₁ => ?_
  obtain ⟨ct, hct, henc, hdec⟩ := hpair seed.1 key seed.2 hlen
  simp only [henc, Prog.ret_bind]
  refine ends_silent (by trivial) fun _ w₂ hq₂ => ?_
  refine ends_post hn.setupRoute (R := fun r w' =>
    r = writeHeader statusNoContent ∧ Stored w w' n (toValid circuitID) key) ?_ ?_
  · intro w₃ hq₃
    refine (ends_handleSetup hcid hct hdec hlen).weaken fun r w' hr => ?_
    exact ⟨hr.1, ((hq₁.trans hq₂).trans hq₃).stored hr.2⟩
  · rintro r w₃ ⟨rfl, hst⟩
    exact ends_ret ⟨rfl, hst⟩

/-- The records of the hops in use, in circuit order. -/
def circuitHops (circuit : CircuitResponse) (hops : Int) : List NodeRecord :=
  if hops = 3 then [circuit.guard, circuit.relay, circuit.exit] else [circuit.guard]

/-- Each node has the key of the candidate at its position. -/
def Keyed (w : World ι ν) (circuitID : Bytes) (cands : List (NodeRecord × Bytes))
    (nodes : List ν) : Prop :=
  List.Forall₂ (fun c n => w.keys n (toValid circuitID) = some c.2) cands nodes

/-- The set-up of distinct honest nodes leaves each with its key. -/
theorem ends_setupCandidates {i : ι} {circuitID : Bytes} (hcid : circuitID ≠ [])
    {cands : List (NodeRecord × Bytes)} {nodes : List ν}
    (h : List.Forall₂ (fun c n => N.Honest c.1 n ∧ c.2.length = sessionKeySize) cands nodes)
    (hnodup : nodes.Nodup) :
    N.reliable.Ends (i, .client) (setupCandidates N.X circuitID cands) w fun r w' =>
      r = .ok () ∧ Keyed w' circuitID cands nodes ∧ (∀ n ∉ nodes, w'.keys n = w.keys n) ∧
        w'.calls = w.calls ∧ w'.oracle = w.oracle := by
  -- one hop at a time, each at a node of its own
  induction h generalizing w with
  | nil => exact ends_ret ⟨rfl, .nil, fun _ _ => rfl, rfl, rfl⟩
  | @cons c n cands nodes hc _ ih =>
    obtain ⟨rec, key⟩ := c
    obtain ⟨hhonest, hlen⟩ := hc
    obtain ⟨hn, hnodup⟩ := List.nodup_cons.mp hnodup
    obtain ⟨pub, hpub, hpair⟩ := hhonest.publicKey
    simp only [setupCandidates, hpub]
    refine ends_bind (ends_sendSetupKey hhonest hcid hlen hpair) fun r w₁ hr => ?_
    obtain ⟨rfl, hst⟩ := hr
    refine (ih hnodup).weaken fun r w' hr => ?_
    obtain ⟨rfl, hkeyed, hrest, hcalls, horacle⟩ := hr
    refine ⟨rfl, .cons ?_ hkeyed, fun m hm => ?_, hcalls.trans hst.calls, horacle.trans hst.oracle⟩
    · -- the later set-ups are at other nodes
      rw [hrest n hn, hst.keys, Function.update_self, Function.update_self]
    · obtain ⟨hmn, hm⟩ : m ≠ n ∧ m ∉ nodes := by simpa using hm
      rw [hrest m hm, hst.keys, Function.update_of_ne hmn]

/-- The keys for a hop count have the right length. -/
structure SessionKeys.Proper (keys : SessionKeys) (hops : Int) : Prop where
  guardKey : keys.guardKey.length = sessionKeySize
  others : hops = 3 → keys.relayKey.length = sessionKeySize ∧ keys.exitKey.length = sessionKeySize

theorem ends_generateKeys (hops : Int) : N.reliable.Ends ℓ (generateKeys hops) w fun keys w' =>
    keys.Proper hops ∧ Quiet w w' := by
  simp only [generateKeys, perform_eq, Prog.op_bind, Prog.ret_bind, Prog.pure_eq]
  refine ends_silent (by trivial) fun g w₁ h₁ => ?_
  by_cases h3 : hops = 3
  · rw [if_pos h3]
    refine ends_silent (by trivial) fun r w₂ h₂ => ?_
    refine ends_silent (by trivial) fun e w₃ h₃ => ends_ret ?_
    exact ⟨⟨g.2, fun _ => ⟨r.2, e.2⟩⟩, (h₁.trans h₂).trans h₃⟩
  · rw [if_neg h3]
    exact ends_ret ⟨⟨g.2, fun h => absurd h h3⟩, h₁⟩

/-- What the nodes of a circuit were started as, in circuit order. -/
def circuitRoles (hops : Int) : List Role :=
  if hops = 3 then [.guard, .relay, .exit] else [.guard]

/-- The hops of a circuit are distinct honest nodes. -/
structure Net.Circuit (N : Net ν) (circuit : CircuitResponse) (hops : Int) (nodes : List ν) :
    Prop where
  honest : List.Forall₂ N.Honest (circuitHops circuit hops) nodes
  nodup : nodes.Nodup
  roles : nodes.map N.role = circuitRoles hops

omit [DecidableEq ν] in
/-- The candidates of a circuit of honest nodes. -/
theorem Net.Circuit.candidates {circuit : CircuitResponse} {hops : Int} {nodes : List ν}
    (hc : N.Circuit circuit hops nodes) {keys : SessionKeys} (hk : keys.Proper hops) :
    List.Forall₂ (fun c n => N.Honest c.1 n ∧ c.2.length = sessionKeySize)
      (HopVault.candidates circuit keys hops) nodes := by
  have hh := hc.honest
  unfold circuitHops at hh
  unfold HopVault.candidates
  by_cases h3 : hops = 3
  · rw [if_pos h3] at hh ⊢
    obtain ⟨hr, he⟩ := hk.others h3
    cases hh with
    | cons hg hh =>
      cases hh with
      | cons hrel hh =>
        cases hh with
        | cons hex hh =>
          cases hh
          exact .cons ⟨hg, hk.guardKey⟩ (.cons ⟨hrel, hr⟩ (.cons ⟨hex, he⟩ .nil))
  · rw [if_neg h3] at hh ⊢
    cases hh with
    | cons hg hh =>
      cases hh
      exact .cons ⟨hg, hk.guardKey⟩ .nil

/-- The set-up of a circuit of honest nodes. -/
theorem ends_setupCircuit {i : ι} {circuitID : Bytes} (hcid : circuitID ≠ [])
    {circuit : CircuitResponse} {hops : Int} (hhops : validateHops hops = .ok ())
    {nodes : List ν} (hc : N.Circuit circuit hops nodes) :
    N.reliable.Ends (i, .client) (setupCircuitWithHops N.X circuitID circuit hops) w
      fun r w' => ∃ keys, r = .ok keys ∧ keys.Proper hops ∧
        Keyed w' circuitID (candidates circuit keys hops) nodes ∧
        w'.calls = w.calls ∧ w'.oracle = w.oracle := by
  unfold setupCircuitWithHops
  rw [hhops]
  refine ends_bind (ends_generateKeys hops) fun keys w₁ hk => ?_
  obtain ⟨hproper, hq⟩ := hk
  refine ends_bind (ends_setupCandidates hcid (hc.candidates hproper) hc.nodup) fun r w₂ hr => ?_
  obtain ⟨rfl, hkeyed, -, hcalls, horacle⟩ := hr
  exact ends_ret ⟨keys, rfl, hproper, hkeyed, hcalls.trans hq.calls, horacle.trans hq.oracle⟩

/-! ## The exit -/

/-- A destination request has been made for a call, and nothing else. -/
structure Executed (w w' : World ι ν) (i : ι) (x : DestRequest × DestOutcome) : Prop where
  keys : w'.keys = w.keys
  calls : w'.calls = Function.update w.calls i (w.calls i ++ [x])
  oracle : w'.oracle = w.oracle

omit [DecidableEq ν] in
theorem Quiet.executed {u v w : World ι ν} {i : ι} {x : DestRequest × DestOutcome}
    (h₁ : Quiet u v) (h₂ : Executed v w i x) : Executed u w i x :=
  ⟨h₂.keys.trans h₁.keys, by rw [h₂.calls, h₁.calls], h₂.oracle.trans h₁.oracle⟩

omit [DecidableEq ν] in
theorem Executed.quiet {u v w : World ι ν} {i : ι} {x : DestRequest × DestOutcome}
    (h₁ : Executed u v i x) (h₂ : Quiet v w) : Executed u w i x :=
  ⟨h₂.keys.trans h₁.keys, h₂.calls.trans h₁.calls, h₂.oracle.trans h₁.oracle⟩

/-- A layer has been executed at node `n`, and the destination answered
    with `resp`. -/
def Answers (w w' : World ι ν) (i : ι) (n : ν) (layer : ExitLayer) (resp : DestResponse) : Prop :=
  ∃ order m, order.Perm layer.headers.entries ∧
    (w.oracle (i, .node n) m).dest (destRequest layer order) = .answered resp ∧
    Executed w w' i (destRequest layer order, .answered resp)

omit [DecidableEq ν] in
theorem Quiet.answers {u v w : World ι ν} {i : ι} {n : ν} {layer : ExitLayer}
    {resp : DestResponse} (h₁ : Quiet u v) (h₂ : Answers v w i n layer resp) :
    Answers u w i n layer resp := by
  obtain ⟨order, m, hperm, hdest, hex⟩ := h₂
  exact ⟨order, m, hperm, h₁.oracle ▸ hdest, h₁.executed hex⟩

omit [DecidableEq ν] in
theorem Answers.quiet {u v w : World ι ν} {i : ι} {n : ν} {layer : ExitLayer}
    {resp : DestResponse} (h₁ : Answers u v i n layer resp) (h₂ : Quiet v w) :
    Answers u w i n layer resp := by
  obtain ⟨order, m, hperm, hdest, hex⟩ := h₁
  exact ⟨order, m, hperm, hdest, hex.quiet h₂⟩

/-- The destination answers every request made at a node for a call. -/
def Answering (w : World ι ν) (i : ι) (n : ν) : Prop :=
  ∀ m req, ∃ resp, (w.oracle (i, .node n) m).dest req = .answered resp

omit [DecidableEq ι] [DecidableEq ν] in
theorem Quiet.answering {v w : World ι ν} {i : ι} {n : ν} (h : Quiet v w) (ha : Answering v i n) :
    Answering w i n := by
  unfold Answering
  rw [h.oracle]
  exact ha

/-- An exit layer the exit can execute. -/
structure ExitLayer.Executable (l : ExitLayer) (X : Externals) : Prop where
  url : l.url ≠ []
  method : l.method ≠ []
  accepted : X.newRequest l.method l.url = .ok ()

/-- An answer encrypted with `key` for the way back. -/
def ExitAnswer (X : Externals) (key : Bytes) (resp : DestResponse) (ct : Bytes) : Prop :=
  decrypt X key ct = .ok (exitResponse resp).json.encode

/-- A request the destination answers. -/
theorem ends_clientDo {i : ι} {req : DestRequest} {k : DestOutcome → Go α} {resp : DestResponse}
    {p : Place ν} {Q : α → World ι ν → Prop} (hresp : (w.choice (i, p)).dest req = .answered resp)
    (h : ∀ w', Executed w w' i (req, .answered resp) →
      N.reliable.Ends (i, p) (k (.answered resp)) w' Q) :
    N.reliable.Ends (i, p) (.op (.clientDo req) k) w Q := by
  apply ends_op
  have hans : (World.act (i, p) (.clientDo req) w).1 = .answered resp := hresp
  have hexe : Executed w (World.act (i, p) (.clientDo req) w).2 i (req, .answered resp) := by
    rw [← hresp]
    exact ⟨rfl, rfl, rfl⟩
  show N.reliable.Ends _ (k (World.act (i, p) (.clientDo req) w).1) _ _
  rw [hans]
  exact h _ hexe

theorem ends_encryptExitResponse (hX : N.X.LawfulAEAD) {key : Bytes}
    (hkey : newCipher key = .ok ()) (resp : ExitResponse) :
    N.reliable.Ends ℓ (encryptExitResponse N.X key resp) w fun r w' =>
      ∃ ct, r = .ok ct ∧ decrypt N.X key ct = .ok resp.json.encode ∧ Quiet w w' := by
  unfold encryptExitResponse
  refine ends_bind (ends_encrypt hX hkey _) fun r w₁ hr => ?_
  obtain ⟨ct, rfl, hct, hq⟩ := hr
  exact ends_ret ⟨ct, rfl, hct, hq⟩

/-- The exit decrypts and executes a layer and encrypts the answer. -/
theorem ends_executeExitPayload (hX : N.X.LawfulAEAD) {i : ι} {n : ν} {key payload : Bytes}
    (hkey : newCipher key = .ok ()) {layer : ExitLayer}
    (hdec : decrypt N.X key payload = .ok layer.json.encode)
    (hexec : layer.coerced.Executable N.X) (hdest : Answering w i n) :
    N.reliable.Ends (i, .node n) (executeExitPayload N.X key payload) w fun r w' =>
      ∃ ct resp, r = .ok (ct, layer.coerced) ∧ ExitAnswer N.X key resp ct ∧
        Answers w w' i n layer.coerced resp := by
  have hunwrap : unwrapExitLayer N.X key payload = .ok layer.coerced :=
    unwrapExitLayer_of_decrypt hdec fun h => h.elim hexec.url hexec.method
  simp only [executeExitPayload, executeExitRequest, hunwrap, hexec.accepted, perform_eq,
    Prog.op_bind, Prog.ret_bind, Prog.pure_eq]
  refine ends_silent (by trivial) fun order w₁ hq₁ => ?_
  obtain ⟨resp, hresp⟩ := hq₁.answering hdest (w₁.used (i, .node n))
    (destRequest layer.coerced order.1)
  refine ends_clientDo hresp fun w₂ hexe => ?_
  simp only [Prog.ret_bind]
  refine ends_bind (ends_encryptExitResponse hX hkey _) fun r w₃ hr => ?_
  obtain ⟨ct, rfl, hct, hq₂⟩ := hr
  refine ends_ret ⟨ct, resp, rfl, hct, order.1, w₁.used (i, .node n), order.2, ?_, ?_⟩
  · rw [← hq₁.oracle]
    exact hresp
  · exact (hq₁.executed hexe).quiet hq₂

/-- The exit node answers an onion that is meant for it. -/
theorem ends_exitHandleOnion (hX : N.X.LawfulAEAD) {i : ι} {n : ν}
    {addr circuitID key payload : Bytes} (hcid : circuitID ≠ [])
    (hstored : w.keys n (toValid circuitID) = some key) (hkey : newCipher key = .ok ())
    {layer : ExitLayer} (hdec : decrypt N.X key payload = .ok layer.json.encode)
    (hexec : layer.coerced.Executable N.X) (hdest : Answering w i n) :
    N.reliable.Ends (i, .node n) (ExitHandler.handleOnion N.X
      ⟨methodPost, addr, (OnionRequest.json ⟨circuitID, payload⟩).encode⟩) w fun r w' =>
        ∃ ct resp, r = onionAnswer ct ∧ ExitAnswer N.X key resp ct ∧
          Answers w w' i n layer.coerced resp := by
  have hreq := not_missing hcid (ne_nil_of_decrypt hdec)
  simp only [ExitHandler.handleOnion, decode_onionRequest, if_neg hreq, ne_eq, not_true_eq_false,
    if_false, perform_eq, Prog.op_bind, Prog.ret_bind]
  refine ends_keysGet hstored fun w₁ hq₁ => ?_
  unfold ExitHandler.execute
  refine ends_bind (ends_executeExitPayload hX hkey hdec hexec (hq₁.answering hdest))
    fun r w₂ hr => ?_
  obtain ⟨ct, resp, rfl, hct, hans⟩ := hr
  simp only [logPrintf_eq, Prog.op_bind, Prog.ret_bind, Prog.pure_eq]
  refine ends_silent (by trivial) fun _ w₃ hq₃ => ends_ret ?_
  exact ⟨ct, resp, rfl, hct, (hq₁.answers hans).quiet hq₃⟩

/-! ## Forwarding hops -/

namespace Handler

/-- A guard executes an onion of a single hop itself. -/
theorem ends_directExit (hX : N.X.LawfulAEAD) {h : Handler} (hdirect : h.allowDirectExit = true)
    {i : ι} {n : ν} {addr circuitID key payload : Bytes} (hcid : circuitID ≠ [])
    (hstored : w.keys n (toValid circuitID) = some key) (hkey : newCipher key = .ok ())
    {layer : ExitLayer} (hdec : decrypt N.X key payload = .ok layer.json.encode)
    (hexec : layer.coerced.Executable N.X) (hdest : Answering w i n) :
    N.reliable.Ends (i, .node n) (h.handleOnion N.X
      ⟨methodPost, addr, (OnionRequest.json ⟨circuitID, payload⟩).encode⟩) w fun r w' =>
        ∃ ct resp, r = onionAnswer ct ∧ ExitAnswer N.X key resp ct ∧
          Answers w w' i n layer.coerced resp := by
  have hreq := not_missing hcid (ne_nil_of_decrypt hdec)
  have hunwrap := unwrapLayer_exitLayer hdec
  simp only [handleOnion, decode_onionRequest, if_neg hreq, ne_eq, not_true_eq_false, if_false,
    perform_eq, Prog.op_bind, Prog.ret_bind]
  refine ends_keysGet hstored fun w₁ hq₁ => ?_
  simp only [peel, hunwrap, hdirect, if_true, directExit]
  refine ends_bind (ends_executeExitPayload hX hkey hdec hexec (hq₁.answering hdest))
    fun r w₂ hr => ?_
  obtain ⟨ct, resp, rfl, hct, hans⟩ := hr
  simp only [Handler.log, logPrintf_eq, Prog.op_bind, Prog.ret_bind, Prog.pure_eq]
  refine ends_silent (by trivial) fun _ w₃ hq₃ => ends_ret ?_
  exact ⟨ct, resp, rfl, hct, (hq₁.answers hans).quiet hq₃⟩

/-- A hop peels a layer, forwards the rest, and wraps the answer: if the
    next hop answers with a payload of which `P` holds, this one answers
    with an encryption of it. -/
theorem ends_forward (hX : N.X.LawfulAEAD) {h : Handler} {i : ι} {n m : ν}
    {addr circuitID key payload nextHop inner : Bytes} (hcid : circuitID ≠ [])
    (hstored : w.keys n (toValid circuitID) = some key) (hkey : newCipher key = .ok ())
    (hdec : decrypt N.X key payload = .ok (Layer.json ⟨nextHop, inner⟩).encode)
    (hhop : nextHop ≠ []) (hvalid : Valid nextHop) (hinner : inner ≠ [])
    (hroute : N.route (nextHopURL nextHop) = some (m, .onion))
    {P : Bytes → World ι ν → Prop}
    (hnext : ∀ w₁, Quiet w w₁ → N.reliable.Ends (i, .node m) (N.handle m .onion ⟨methodPost,
        N.remoteAddr (.node n), (OnionRequest.json ⟨toValid circuitID, inner⟩).encode⟩) w₁
        fun r w₂ => ∃ ct, r = onionAnswer ct ∧ P ct w₂) :
    N.reliable.Ends (i, .node n) (h.handleOnion N.X
      ⟨methodPost, addr, (OnionRequest.json ⟨circuitID, payload⟩).encode⟩) w fun r w' =>
        ∃ ct ct' w₂, r = onionAnswer ct' ∧ decrypt N.X key ct' = .ok ct ∧ P ct w₂ ∧
          Quiet w₂ w' := by
  have hreq := not_missing hcid (ne_nil_of_decrypt hdec)
  have hunwrap := unwrapLayer_layer hdec hhop hvalid hinner
  simp only [handleOnion, decode_onionRequest, if_neg hreq, ne_eq, not_true_eq_false, if_false,
    perform_eq, Prog.op_bind, Prog.ret_bind]
  -- the key, the line in the log, and the post to the next hop
  refine ends_keysGet hstored fun w₁ hq₁ => ?_
  simp only [peel, hunwrap, forward, Handler.log, logPrintf_eq, clientPost_eq, Prog.op_bind,
    Prog.rpc_bind, Prog.ret_bind]
  refine ends_silent (by trivial) fun _ w₂ hq₂ => ?_
  refine ends_post hroute (fun w₃ hq₃ => hnext w₃ ((hq₁.trans hq₂).trans hq₃)) ?_
  rintro r w₃ ⟨ct, rfl, hP⟩
  refine ends_silent (by trivial) fun _ w₄ hq₄ => ?_
  -- the return path
  have hok : ¬(onionAnswer ct).statusCode ≠ statusOK := fun h => h rfl
  show N.reliable.Ends _ (h.returnPath N.X key nextHop (.ok (onionAnswer ct))) _ _
  simp only [returnPath, if_neg hok, decode_onionAnswer]
  refine ends_bind (ends_encrypt hX hkey ct) fun r w₅ hr => ?_
  obtain ⟨ct', rfl, hct', hq₅⟩ := hr
  exact ends_ret ⟨ct, ct', w₃, rfl, hct', hP, hq₄.trans hq₅⟩

end Handler

end HopVault
