import HopVault.Python.Interop

/-! # The Python client over honest nodes

    What the programs of the Python client end with when nothing is lost:
    one lemma for each function, from the key exchange up to a whole
    attempt. A hop does the same with whatever payloads it finds the same
    in, so that what is known of Go's own onions goes for those of the
    Python client. -/

namespace HopVault.Python

open Framework Framework.Utf8 Framework.Json Framework.Prog Framework.Semantics

variable {ι ν : Type} {P : Libs} {circuit : Json} {c : CircuitResponse} {hops : Int}

/-! ## Set-up -/

section

variable [DecidableEq ι] [DecidableEq ν] {N : Net ν} {i : ι} {w : World ι ν} {circuitID : Bytes}

theorem ends_generateKeys {ℓ : Loc ι ν} (hops : Int) :
    N.reliable.Ends ℓ (generateKeys hops) w fun r w' =>
      ∃ keys : SessionKeys, r = ofSessionKeys keys hops ∧ keys.Proper hops ∧ Quiet w w' := by
  simp only [generateKeys, perform_eq, op_bind, ret_bind, pure_eq]
  refine ends_silent (by trivial) fun g w₁ h₁ => ?_
  by_cases h3 : hops = 3
  · rw [if_pos h3]
    refine ends_silent (by trivial) fun r w₂ h₂ => ?_
    refine ends_silent (by trivial) fun e w₃ h₃ => ends_ret ⟨⟨g.1, r.1, e.1⟩, ?_, ?_, ?_⟩
    · exact (if_pos h3).symm
    · exact ⟨g.2, fun _ => ⟨r.2, e.2⟩⟩
    · exact (h₁.trans h₂).trans h₃
  · rw [if_neg h3]
    refine ends_ret ⟨⟨g.1, [], []⟩, (if_neg h3).symm, ⟨g.2, fun h => absurd h h3⟩, h₁⟩

/-- The Python client posts a session key to a node of the network. -/
theorem ends_sendSetupKey (hP : P.Agrees N) {rec : NodeRecord} {n : ν} (hn : N.Honest rec n)
    (htext : Valid rec.publicKey) (hcid : circuitID ≠ []) (hvalid : Valid circuitID) {key : Bytes}
    (hlen : key.length = sessionKeySize) :
    N.reliable.Ends (i, .client) (sendSetupKey P N.X rec.nodeURL circuitID (str rec.publicKey) key) w
      fun r w' => r = .ok () ∧ Stored w w' n circuitID key := by
  obtain ⟨pub, hpub, hpair⟩ := hn.publicKey
  have hload : loadPublicKey P (str rec.publicKey) = .ok pub := by
    unfold loadPublicKey
    dsimp only
    rw [if_pos (show toValid rec.publicKey = rec.publicKey from htext), hP.key rec ⟨n, hn⟩ pub hpub]
  simp only [sendSetupKey, rsaEncryptKey, hload, perform_eq, clientPost_eq, op_bind, rpc_bind,
    ret_bind, pure_eq]
  refine ends_silent (by trivial) fun seed w₁ hq₁ => ?_
  obtain ⟨ct, hct, henc, hdec⟩ := hpair seed.1 key seed.2 hlen
  simp only [henc, ret_bind]
  have hstored : toValid circuitID = circuitID := hvalid
  refine ends_post (q := setupPost rec.nodeURL circuitID ct) hn.setupRoute (R := fun r w' =>
    r = writeHeader statusNoContent ∧ Stored w w' n circuitID key) ?_ ?_
  · intro w₂ hq₂
    rw [handle_setupPost N hvalid]
    refine (ends_handleSetup hcid hct hdec hlen).weaken fun r w' hr => ?_
    rw [hstored] at hr
    exact ⟨hr.1, (hq₁.trans hq₂).stored hr.2⟩
  · rintro r w₂ ⟨rfl, hst⟩
    exact ends_ret ⟨rfl, hst⟩

/-- And to one that is down. -/
theorem ends_sendSetupKey_down {rec : NodeRecord} (hdown : N.Down rec) (pem : Json) (key : Bytes) :
    N.reliable.Ends (i, .client) (sendSetupKey P N.X rec.nodeURL circuitID pem key) w
      fun r w' => (∃ exc, r = .error exc) ∧ Quiet w w' := by
  unfold sendSetupKey rsaEncryptKey
  cases loadPublicKey P pem with
  | error exc => exact ends_ret ⟨⟨exc, rfl⟩, .refl w⟩
  | ok pub =>
    simp only [perform_eq, clientPost_eq, op_bind, rpc_bind, ret_bind, pure_eq]
    refine ends_silent (by trivial) fun seed w₁ hq => ?_
    cases N.X.encryptOAEP pub seed.1 key with
    | error err => exact ends_ret ⟨⟨_, rfl⟩, hq⟩
    | ok ct =>
      have hroute : N.route (rec.nodeURL ++ lit "/setup") = none := hdown
      exact ends_post_down hroute (ends_ret ⟨⟨_, rfl⟩, hq⟩)

/-- The set-up of nodes of the network leaves each with its key. -/
theorem ends_setupCandidates (hP : P.Agrees N) (hcid : circuitID ≠ []) (hvalid : Valid circuitID)
    {list : List (Json × Bytes)} {cands : List (NodeRecord × Bytes)} {nodes : List ν}
    (hlist : List.Forall₂ (SameContact P) list cands)
    (h : List.Forall₂ (fun c n => N.Honest c.1 n ∧ c.2.length = sessionKeySize) cands nodes)
    (hnodup : nodes.Nodup) :
    N.reliable.Ends (i, .client) (setupCandidates P N.X circuitID list) w fun r w' =>
      r = .ok () ∧ Keyed w' circuitID cands nodes ∧ (∀ n ∉ nodes, w'.keys n = w.keys n) ∧
        Uncalled w w' := by
  -- one hop at a time, each at a node of its own
  induction h generalizing w list with
  | nil =>
    cases hlist
    exact ends_ret ⟨rfl, .nil, fun _ _ => rfl, .refl w⟩
  | @cons c n cands nodes hc _ ih =>
    cases hlist with
    | @cons x _ list _ hx hlist =>
      obtain ⟨node, key⟩ := x
      obtain ⟨rec, key'⟩ := c
      obtain ⟨hcontact, htext, rfl⟩ := hx
      obtain ⟨hhonest, hlen⟩ := hc
      obtain ⟨hn, hnodup⟩ := List.nodup_cons.mp hnodup
      simp only [setupCandidates, hcontact]
      refine ends_bind (ends_sendSetupKey hP hhonest htext hcid hvalid hlen) fun r w₁ hr => ?_
      obtain ⟨rfl, hst⟩ := hr
      refine (ih hlist hnodup).weaken fun r w' hr => ?_
      obtain ⟨rfl, hkeyed, hrest, hcalls⟩ := hr
      refine ⟨rfl, .cons ?_ hkeyed, fun m hm => ?_, hst.uncalled.trans hcalls⟩
      · -- the later set-ups are at other nodes
        rw [show toValid circuitID = circuitID from hvalid, hrest n hn, hst.keys,
          Function.update_self, Function.update_self]
      · obtain ⟨hmn, hm⟩ : m ≠ n ∧ m ∉ nodes := by simpa using hm
        rw [hrest m hm, hst.keys, Function.update_of_ne hmn]

/-- It stops at the first that is down. -/
theorem ends_setupCandidates_broken (hP : P.Agrees N) (hcid : circuitID ≠ [])
    (hvalid : Valid circuitID) {list : List (Json × Bytes)} {cands : List (NodeRecord × Bytes)}
    (hlist : List.Forall₂ (SameContact P) list cands)
    (hlen : ∀ c ∈ cands, c.2.length = sessionKeySize)
    (hknown : ∀ c ∈ cands, N.Up c.1 ∨ N.Down c.1) (hbroken : ∃ c ∈ cands, N.Down c.1) :
    N.reliable.Ends (i, .client) (setupCandidates P N.X circuitID list) w
      fun r w' => (∃ exc, r = .error exc) ∧ Uncalled w w' := by
  -- induction on the hops; those before the first that is down get their keys
  induction hlist generalizing w with
  | nil =>
    obtain ⟨c, hc, -⟩ := hbroken
    cases hc
  | @cons x c list cands hx hlist ih =>
    obtain ⟨node, key⟩ := x
    obtain ⟨rec, key'⟩ := c
    obtain ⟨hcontact, htext, rfl⟩ := hx
    obtain ⟨hlen, hlens⟩ := List.forall_mem_cons.mp hlen
    obtain ⟨hrec, hknown⟩ := List.forall_mem_cons.mp hknown
    simp only [setupCandidates, hcontact]
    rcases hrec with hup | hdown
    · obtain ⟨n, hn⟩ := hup
      have hrest : ∃ c ∈ cands, N.Down c.1 := by
        obtain ⟨c, hc, hdown⟩ := hbroken
        rcases List.mem_cons.mp hc with rfl | hc
        · exact absurd hdown (Net.Up.not_down ⟨n, hn⟩)
        · exact ⟨c, hc, hdown⟩
      refine ends_bind (ends_sendSetupKey hP hn htext hcid hvalid hlen) fun r w₁ hr => ?_
      obtain ⟨rfl, hst⟩ := hr
      refine (ih hlens hknown hrest).weaken fun r w' hr => ?_
      exact ⟨hr.1, hst.uncalled.trans hr.2⟩
    · refine ends_bind (ends_sendSetupKey_down hdown (str rec.publicKey) key) fun r w₁ hr => ?_
      obtain ⟨⟨exc, rfl⟩, hq⟩ := hr
      exact ends_ret ⟨⟨exc, rfl⟩, hq.uncalled⟩

/-- The key exchange over a circuit that is up, -/
theorem ends_setupCircuit (hP : P.Agrees N) (hcid : circuitID ≠ []) (hvalid : Valid circuitID)
    (hsame : SameCircuit P hops circuit c) {nodes : List ν} (hc : N.Circuit c hops nodes) :
    N.reliable.Ends (i, .client) (setupCircuit P N.X circuit circuitID hops) w
      fun r w' => ∃ keys : SessionKeys, r = .ok (ofSessionKeys keys hops) ∧ keys.Proper hops ∧
        Keyed w' circuitID (HopVault.candidates c keys hops) nodes ∧ Uncalled w w' := by
  unfold setupCircuit
  refine ends_bind (ends_generateKeys hops) fun r w₁ hr => ?_
  obtain ⟨keys, rfl, hproper, hq⟩ := hr
  obtain ⟨list, hlist, hcontacts⟩ := candidates_of_same hsame keys
  rw [hlist]
  refine ends_bind (ends_setupCandidates hP hcid hvalid hcontacts (hc.candidates hproper) hc.nodup)
    fun r w₂ hr => ?_
  obtain ⟨rfl, hkeyed, -, hcalls⟩ := hr
  exact ends_ret ⟨keys, rfl, hproper, hkeyed, hq.uncalled.trans hcalls⟩

/-- and over one that is not. -/
theorem ends_setupCircuit_broken (hP : P.Agrees N) (hcid : circuitID ≠ [])
    (hvalid : Valid circuitID) (hsame : SameCircuit P hops circuit c)
    (hbroken : N.Broken c hops) :
    N.reliable.Ends (i, .client) (setupCircuit P N.X circuit circuitID hops) w
      fun r w' => (∃ exc, r = .error exc) ∧ Uncalled w w' := by
  unfold setupCircuit
  refine ends_bind (ends_generateKeys hops) fun r w₁ hr => ?_
  obtain ⟨keys, rfl, hproper, hq⟩ := hr
  obtain ⟨list, hlist, hcontacts⟩ := candidates_of_same hsame keys
  have hmem (rec : NodeRecord) : rec ∈ circuitHops c hops ↔
      ∃ k, (rec, k) ∈ HopVault.candidates c keys hops := by
    rw [← map_candidates c keys, List.mem_map]
    simp
  rw [hlist]
  refine ends_bind (ends_setupCandidates_broken hP hcid hvalid hcontacts (hproper.length c) ?_ ?_)
    fun r w₂ hr => ?_
  · intro cand hcand
    exact hbroken.known _ ((hmem cand.1).mpr ⟨cand.2, hcand⟩)
  · obtain ⟨rec, hrec, hdown⟩ := hbroken.down
    obtain ⟨k, hk⟩ := (hmem rec).mp hrec
    exact ⟨(rec, k), hk, hdown⟩
  · obtain ⟨⟨exc, rfl⟩, hcalls⟩ := hr
    exact ends_ret ⟨⟨exc, rfl⟩, hq.uncalled.trans hcalls⟩

end

/-! ## Onions -/

/-- Why a guard executes an onion itself. -/
def noNextHop : Bytes := lit "layer must include nextHop and payload"

/-- Peeled with the session keys in circuit order, the payload leads over
    the hops of the circuit to the exit layer, however it is spelled. -/
def Unwraps (X : Externals) (keys : SessionKeys) (c : CircuitResponse) (l : ExitLayer) (hops : Int)
    (payload : Bytes) : Prop :=
  if hops = 3 then
    ∃ relayCT exitCT, unwrapLayer X keys.guardKey payload = .ok ⟨c.relay.addr, relayCT⟩ ∧
      unwrapLayer X keys.relayKey relayCT = .ok ⟨c.exit.addr, exitCT⟩ ∧
      unwrapExitLayer X keys.exitKey exitCT = .ok l
  else unwrapLayer X keys.guardKey payload = .error noNextHop ∧
    unwrapExitLayer X keys.guardKey payload = .ok l

theorem unwraps_one {X : Externals} {keys : SessionKeys} {l : ExitLayer} {payload : Bytes} :
    Unwraps X keys c l 1 payload ↔ unwrapLayer X keys.guardKey payload = .error noNextHop ∧
      unwrapExitLayer X keys.guardKey payload = .ok l := by
  unfold Unwraps
  rw [if_neg (by decide)]

theorem unwraps_three {X : Externals} {keys : SessionKeys} {l : ExitLayer} {payload : Bytes} :
    Unwraps X keys c l 3 payload ↔ ∃ relayCT exitCT,
      unwrapLayer X keys.guardKey payload = .ok ⟨c.relay.addr, relayCT⟩ ∧
      unwrapLayer X keys.relayKey relayCT = .ok ⟨c.exit.addr, exitCT⟩ ∧
      unwrapExitLayer X keys.exitKey exitCT = .ok l := by
  unfold Unwraps
  rw [if_pos rfl]

section

variable [DecidableEq ι] [DecidableEq ν] {N : Net ν} {w : World ι ν} {l : ExitLayer}

theorem ends_aesEncrypt (hX : N.X.LawfulAEAD) {ℓ : Loc ι ν} {key : Bytes}
    (hkey : key.length = sessionKeySize) (plaintext : Bytes) :
    N.reliable.Ends ℓ (aesEncrypt P N.X (some key) plaintext) w fun r w' =>
      ∃ ct, r = .ok ct ∧ decrypt N.X key ct = .ok plaintext ∧ Quiet w w' := by
  have haes : aesgcm P (some key) = .ok key := if_pos (.inr (.inr hkey))
  simp only [aesEncrypt, haes, perform_eq, op_bind, ret_bind, pure_eq]
  refine ends_silent (by trivial) fun nonce w' hq => ends_ret ⟨_, rfl, ?_, hq⟩
  exact decrypt_sealed hX (newCipher_of_length hkey) nonce.2 plaintext

/-- The onion of the Python client leads to the layer of the dict. -/
theorem ends_buildOnion (hX : N.X.LawfulAEAD) {ℓ : Loc ι ν} {keys : SessionKeys}
    (hhops : hops = 1 ∨ hops = 3) (hk : keys.Proper hops) (hsame : SameCircuit P hops circuit c)
    {dict : Json} (hdict : SameLayer dict l) (htext : l.Text) (hurl : l.url ≠ [])
    (hmethod : l.method ≠ []) :
    N.reliable.Ends ℓ (buildOnion P N.X (ofSessionKeys keys hops) dict circuit hops) w fun r w' =>
      ∃ payload, r = .ok payload ∧ Unwraps N.X keys c l hops payload ∧ Quiet w w' := by
  -- whoever has the key of the dict's ciphertext reads the layer
  have hexit {key ct : Bytes} (hct : decrypt N.X key ct = .ok (dumpsCompact dict)) :
      unwrapExitLayer N.X key ct = .ok l := by
    rw [unwrapExitLayer_of_text hct (unmarshal_dict hdict htext)]
    exact if_neg (by simp [hurl, hmethod])
  unfold buildOnion
  rcases hhops with rfl | rfl
  · dsimp only
    rw [if_pos rfl]
    refine (ends_aesEncrypt hX hk.guardKey _).weaken fun r w₁ hr => ?_
    obtain ⟨payload, rfl, hct, hq⟩ := hr
    refine ⟨payload, rfl, unwraps_one.mpr ⟨?_, hexit hct⟩, hq⟩
    unfold unwrapLayer
    rw [hct]
    dsimp only
    rw [unmarshal_dict_as_layer hdict htext]
    rfl
  · obtain ⟨hrelayKey, hexitKey⟩ := hk.others rfl
    obtain ⟨relay, -, hrelay⟩ := hsame.sameHops.relay
    obtain ⟨exit, -, hexitNode⟩ := hsame.sameHops.exit
    dsimp only
    rw [if_neg (by decide)]
    -- from the inside out: exit, relay, guard
    refine ends_bind (ends_aesEncrypt hX hexitKey _) fun r w₁ hr => ?_
    obtain ⟨exitCT, rfl, hexitCT, hq₁⟩ := hr
    rw [hopAddresses_of_same hsame.sameHops]
    refine ends_bind (ends_aesEncrypt hX hrelayKey _) fun r w₂ hr => ?_
    obtain ⟨relayCT, rfl, hrelayCT, hq₂⟩ := hr
    refine (ends_aesEncrypt hX hk.guardKey _).weaken fun r w₃ hr => ?_
    obtain ⟨payload, rfl, hct, hq₃⟩ := hr
    refine ⟨payload, rfl, unwraps_three.mpr ⟨relayCT, exitCT, ?_, ?_, hexit hexitCT⟩,
      (hq₁.trans hq₂).trans hq₃⟩
    · exact unwrapLayer_of_text hct (unmarshal_layerJson (valid_addr hrelay.text))
        (addr_ne_nil _) (ne_nil_of_decrypt hrelayCT)
    · exact unwrapLayer_of_text hrelayCT (unmarshal_layerJson (valid_addr hexitNode.text))
        (addr_ne_nil _) (ne_nil_of_decrypt hexitCT)

end

/-! ## Serving an onion -/

section

variable [DecidableEq ι] [DecidableEq ν] {N : Net ν} {i : ι} {w : World ι ν}

/-- Some ciphertext opens to the text. -/
theorem exists_sealed {X : Externals} (hX : X.LawfulAEAD) {key : Bytes}
    (hkey : newCipher key = .ok ()) (text : Bytes) : ∃ ct, decrypt X key ct = .ok text :=
  ⟨_, decrypt_sealed hX hkey (List.length_replicate (a := (0 : UInt8))) text⟩

/-- Some ciphertext is an exit layer as the Go client seals it. -/
theorem exists_sealedExit {X : Externals} (hX : X.LawfulAEAD) {key : Bytes}
    (hkey : newCipher key = .ok ()) {l : ExitLayer} (htext : l.Text) (hexec : l.Executable X) :
    ∃ ct, decrypt X key ct = .ok l.json.encode ∧ unwrapExitLayer X key ct = .ok l := by
  obtain ⟨ct, hct⟩ := exists_sealed hX hkey l.json.encode
  refine ⟨ct, hct, ?_⟩
  have hne : ¬(l.coerced.url = [] ∨ l.coerced.method = []) := by
    rw [htext.coerced]
    exact fun h => h.elim hexec.url hexec.method
  rw [unwrapExitLayer_of_decrypt hct hne, htext.coerced]

theorem ne_nil_of_unwrap {X : Externals} {key ct : Bytes} {layer : Layer}
    (h : unwrapLayer X key ct = .ok layer) : ct ≠ [] := by
  obtain ⟨⟨_, hdec, -⟩, -, -⟩ := unwrapLayer_eq_ok.mp h
  exact ne_nil_of_decrypt hdec

theorem ne_nil_of_unwrapExit {X : Externals} {key ct : Bytes} {l : ExitLayer}
    (h : unwrapExitLayer X key ct = .ok l) : ct ≠ [] := by
  obtain ⟨⟨_, hdec, -⟩, -, -⟩ := unwrapExitLayer_eq_ok.mp h
  exact ne_nil_of_decrypt hdec

/-- What an operation is answered, its program goes on with. -/
theorem ends_keysGet_iff {α : Type} {n : ν} {cid key : Bytes} {k : Option Bytes → Go α}
    {Q : α → World ι ν → Prop} (hkey : w.keys n cid = some key) :
    N.reliable.Ends (i, .node n) (.op (.keysGet cid) k) w Q ↔
      N.reliable.Ends (i, .node n) (k (some key)) (World.act (i, .node n) (.keysGet cid) w).2 Q := by
  have hans : (World.act (i, .node n) (.keysGet cid) w).1 = some key := hkey
  unfold Ends
  simp only [returns_op]
  show (∃ a w', N.reliable.Returns _ (k (World.act (i, .node n) (.keysGet cid) w).1) _ a w' ∧ _) ↔ _
  rw [hans]
  exact Iff.rfl

/-- A hop does the same with payloads in which it finds the same layer, or
    with two that it has to execute itself, the same request. -/
theorem ends_handleOnion_congr {h : Handler} {n : ν} {addr cid key p q : Bytes}
    (hstored : w.keys n (toValid cid) = some key) (hp : p ≠ []) (hq : q ≠ [])
    (hlayer : unwrapLayer N.X key p = unwrapLayer N.X key q)
    (hexit : ∀ err, unwrapLayer N.X key q = .error err →
      unwrapExitLayer N.X key p = unwrapExitLayer N.X key q) {Q : Response → World ι ν → Prop}
    (hends : N.reliable.Ends (i, .node n) (h.handleOnion N.X
      ⟨methodPost, addr, (OnionRequest.json ⟨cid, q⟩).encode⟩) w Q) :
    N.reliable.Ends (i, .node n) (h.handleOnion N.X
      ⟨methodPost, addr, (OnionRequest.json ⟨cid, p⟩).encode⟩) w Q := by
  have hpeel : h.peel N.X addr ⟨toValid cid, p⟩ key = h.peel N.X addr ⟨toValid cid, q⟩ key := by
    unfold Handler.peel
    dsimp only
    rw [hlayer]
    cases hq : unwrapLayer N.X key q with
    | error err => simp only [Handler.directExit, executeExitPayload, hexit err hq]
    | ok layer => rfl
  simp only [Handler.handleOnion, decode_onionRequest, ne_eq, not_true_eq_false, if_false, hp, hq,
    or_false, perform_eq, op_bind, ret_bind] at hends ⊢
  by_cases hcid : toValid cid = []
  · rw [if_pos hcid] at hends ⊢
    exact hends
  · rw [if_neg hcid] at hends ⊢
    rw [ends_keysGet_iff hstored] at hends ⊢
    dsimp only at hends ⊢
    rw [hpeel]
    exact hends

/-- So does an exit with payloads in which it finds the same request. -/
theorem ends_exitHandleOnion_congr {n : ν} {addr cid key p q : Bytes}
    (hstored : w.keys n (toValid cid) = some key) (hp : p ≠ []) (hq : q ≠ [])
    (hexit : unwrapExitLayer N.X key p = unwrapExitLayer N.X key q)
    {Q : Response → World ι ν → Prop}
    (hends : N.reliable.Ends (i, .node n) (ExitHandler.handleOnion N.X
      ⟨methodPost, addr, (OnionRequest.json ⟨cid, q⟩).encode⟩) w Q) :
    N.reliable.Ends (i, .node n) (ExitHandler.handleOnion N.X
      ⟨methodPost, addr, (OnionRequest.json ⟨cid, p⟩).encode⟩) w Q := by
  have hexecute : ExitHandler.execute N.X ⟨toValid cid, p⟩ key =
      ExitHandler.execute N.X ⟨toValid cid, q⟩ key := by
    simp only [ExitHandler.execute, executeExitPayload, hexit]
  simp only [ExitHandler.handleOnion, decode_onionRequest, ne_eq, not_true_eq_false, if_false, hp,
    hq, or_false, perform_eq, op_bind, ret_bind] at hends ⊢
  by_cases hcid : toValid cid = []
  · rw [if_pos hcid] at hends ⊢
    exact hends
  · rw [if_neg hcid] at hends ⊢
    rw [ends_keysGet_iff hstored] at hends ⊢
    dsimp only at hends ⊢
    rw [hexecute]
    exact hends

variable {l : ExitLayer}

/-- A hop forwards what it finds in a payload, and wraps the answer. -/
theorem ends_forward (hX : N.X.LawfulAEAD) {h : Handler} {n m : ν}
    {addr cid key payload nextHop inner : Bytes} (hcid : cid ≠ [])
    (hstored : w.keys n (toValid cid) = some key) (hkey : newCipher key = .ok ())
    (hunwrap : unwrapLayer N.X key payload = .ok ⟨nextHop, inner⟩) (hvalid : Valid nextHop)
    (hroute : N.route (nextHopURL nextHop) = some (m, .onion)) {A : Bytes → World ι ν → Prop}
    (hnext : ∀ w₁, Quiet w w₁ → N.reliable.Ends (i, .node m) (N.handle m .onion ⟨methodPost,
        N.remoteAddr (.node n), (OnionRequest.json ⟨toValid cid, inner⟩).encode⟩) w₁
        fun r w₂ => ∃ ct, r = onionAnswer ct ∧ A ct w₂) :
    N.reliable.Ends (i, .node n) (h.handleOnion N.X
      ⟨methodPost, addr, (OnionRequest.json ⟨cid, payload⟩).encode⟩) w fun r w' =>
        ∃ ct ct' w₂, r = onionAnswer ct' ∧ decrypt N.X key ct' = .ok ct ∧ A ct w₂ ∧
          Quiet w₂ w' := by
  obtain ⟨-, hhop, hinner⟩ := unwrapLayer_eq_ok.mp hunwrap
  -- Go's own spelling of the layer
  obtain ⟨q, hq⟩ := exists_sealed hX hkey (Layer.json ⟨nextHop, inner⟩).encode
  have hsame := unwrapLayer_layer hq hhop hvalid hinner
  refine ends_handleOnion_congr hstored (ne_nil_of_unwrap hunwrap) (ne_nil_of_decrypt hq)
    (hunwrap.trans hsame.symm) (fun err herr => ?_) ?_
  · rw [hsame] at herr
    cases herr
  · exact Handler.ends_forward hX hcid hstored hkey hq hhop hvalid hinner hroute hnext

/-- A guard executes the request it finds in a payload without a next hop. -/
theorem ends_directExit (hX : N.X.LawfulAEAD) {h : Handler} (hdirect : h.allowDirectExit = true)
    {n : ν} {addr cid key payload : Bytes} (hcid : cid ≠ [])
    (hstored : w.keys n (toValid cid) = some key) (hkey : newCipher key = .ok ())
    (hlayer : unwrapLayer N.X key payload = .error noNextHop)
    (hunwrap : unwrapExitLayer N.X key payload = .ok l) (htext : l.Text)
    (hexec : l.Executable N.X) (hdest : Answering w i n) :
    N.reliable.Ends (i, .node n) (h.handleOnion N.X
      ⟨methodPost, addr, (OnionRequest.json ⟨cid, payload⟩).encode⟩) w fun r w' =>
        ∃ ct resp, r = onionAnswer ct ∧ ExitAnswer N.X key resp ct ∧ Answers w w' i n l resp := by
  obtain ⟨q, hq, hread⟩ := exists_sealedExit hX hkey htext hexec
  refine ends_handleOnion_congr hstored (ne_nil_of_unwrapExit hunwrap) (ne_nil_of_decrypt hq)
    (hlayer.trans (unwrapLayer_exitLayer hq).symm) (fun _ _ => hunwrap.trans hread.symm) ?_
  have hends := @Handler.ends_directExit _ _ _ _ _ _ hX h hdirect i n addr cid key q hcid hstored
    hkey l hq (htext.coerced.symm ▸ hexec) hdest
  rwa [htext.coerced] at hends

/-- An exit executes the request it finds in a payload. -/
theorem ends_exitHandleOnion (hX : N.X.LawfulAEAD) {n : ν} {addr cid key payload : Bytes}
    (hcid : cid ≠ []) (hstored : w.keys n (toValid cid) = some key) (hkey : newCipher key = .ok ())
    (hunwrap : unwrapExitLayer N.X key payload = .ok l) (htext : l.Text)
    (hexec : l.Executable N.X) (hdest : Answering w i n) :
    N.reliable.Ends (i, .node n) (ExitHandler.handleOnion N.X
      ⟨methodPost, addr, (OnionRequest.json ⟨cid, payload⟩).encode⟩) w fun r w' =>
        ∃ ct resp, r = onionAnswer ct ∧ ExitAnswer N.X key resp ct ∧ Answers w w' i n l resp := by
  obtain ⟨q, hq, hread⟩ := exists_sealedExit hX hkey htext hexec
  refine ends_exitHandleOnion_congr hstored (ne_nil_of_unwrapExit hunwrap) (ne_nil_of_decrypt hq)
    (hunwrap.trans hread.symm) ?_
  have hends := @HopVault.ends_exitHandleOnion _ _ _ _ _ _ hX i n addr cid key q hcid hstored
    hkey l hq (htext.coerced.symm ▸ hexec) hdest
  rwa [htext.coerced] at hends

/-- The nodes of a circuit answer an onion that leads over them. -/
theorem ends_guardOnion (hX : N.X.LawfulAEAD) (hhops : hops = 1 ∨ hops = 3) {n : ν} {others : List ν}
    (hc : N.Circuit c hops (n :: others)) {keys : SessionKeys} (hk : keys.Proper hops)
    {cid payload : Bytes} (hcid : cid ≠ [])
    (hkeyed : Keyed w cid (HopVault.candidates c keys hops) (n :: others)) (htext : l.Text)
    (hexec : l.Executable N.X) (hunwraps : Unwraps N.X keys c l hops payload)
    (hdest : ∀ m, Answering w i m) (addr : Bytes) :
    N.reliable.Ends (i, .node n) (N.handle n .onion
      ⟨methodPost, addr, (OnionRequest.json ⟨cid, payload⟩).encode⟩) w fun r w' =>
        ∃ ct resp, r = onionAnswer ct ∧ WrappedAnswer N.X keys resp hops ct ∧
          ∃ m, Answers w w' i m l resp := by
  have hguard := newCipher_of_length hk.guardKey
  have hroles := hc.roles
  unfold Keyed HopVault.candidates at hkeyed
  unfold WrappedAnswer
  rcases hhops with rfl | rfl
  · -- the guard is the exit
    rw [if_neg (by decide)] at hkeyed
    obtain ⟨hlayer, hunwrap⟩ := unwraps_one.mp hunwraps
    obtain ⟨hrole, -⟩ : N.role n = .guard ∧ others = [] := by simpa [circuitRoles] using hroles
    simp only [Net.handle, hrole]
    cases hkeyed with
    | cons hstored _ =>
      refine (ends_directExit hX rfl hcid hstored hguard hlayer hunwrap htext hexec
        (hdest n)).weaken ?_
      rintro r w' ⟨ct, resp, rfl, hct, hans⟩
      exact ⟨ct, resp, rfl, by rwa [if_neg (by decide)], n, hans⟩
  · rw [if_pos rfl] at hkeyed
    obtain ⟨relayCT, exitCT, hguardLayer, hrelayLayer, hexitLayer⟩ := unwraps_three.mp hunwraps
    obtain ⟨hrelayKey, hexitKey⟩ := hk.others rfl
    have hhonest := hc.honest
    unfold circuitHops at hhonest
    rw [if_pos rfl] at hhonest
    rcases hkeyed with _ | ⟨hg, _ | ⟨hr, _ | ⟨he, ⟨⟩⟩⟩⟩
    rename_i relay exit
    rcases hhonest with _ | ⟨-, _ | ⟨hrelay, _ | ⟨hexit, ⟨⟩⟩⟩⟩
    obtain ⟨hrole, hrelayRole, hexitRole⟩ :
        N.role n = .guard ∧ N.role relay = .relay ∧ N.role exit = .exit := by
      simpa [circuitRoles] using hroles
    have hcid' : toValid cid ≠ [] := fun h => hcid (toValid_eq_nil.mp h)
    simp only [Net.handle, hrole]
    refine (ends_forward hX hcid hg hguard hguardLayer hrelay.addr
      ((nextHopURL_addr _).symm ▸ hrelay.onionRoute)
      (A := fun ct w₂ => ∃ exitCT resp, decrypt N.X keys.relayKey ct = .ok exitCT ∧
        ExitAnswer N.X keys.exitKey resp exitCT ∧ Answers w w₂ i exit l resp) ?_).weaken ?_
    · intro w₁ hq₁
      simp only [Net.handle, hrelayRole]
      refine (ends_forward hX hcid' (by rwa [toValid_toValid, hq₁.keys])
        (newCipher_of_length hrelayKey) hrelayLayer hexit.addr
        ((nextHopURL_addr _).symm ▸ hexit.onionRoute)
        (A := fun ct w₂ => ∃ resp, ExitAnswer N.X keys.exitKey resp ct ∧
          Answers w w₂ i exit l resp) ?_).weaken ?_
      · intro w₂ hq₂
        have hq := hq₁.trans hq₂
        rw [toValid_toValid]
        simp only [Net.handle, hexitRole]
        refine (ends_exitHandleOnion hX hcid' (by rwa [toValid_toValid, hq.keys])
          (newCipher_of_length hexitKey) hexitLayer htext hexec
          (hq.answering (hdest exit))).weaken ?_
        rintro r w' ⟨ct, resp, rfl, hct, hans⟩
        exact ⟨ct, rfl, resp, hct, hq.answers hans⟩
      · rintro r w' ⟨ct, ct', w₂, rfl, hct', ⟨resp, hct, hans⟩, hq⟩
        exact ⟨ct', rfl, ct, resp, hct', hct, hans.quiet hq⟩
    · rintro r w' ⟨ct, ct', w₂, rfl, hct', ⟨exitCT, resp, hct, hexitCT, hans⟩, hq⟩
      refine ⟨ct', resp, rfl, ?_, exit, hans.quiet hq⟩
      rw [if_pos trivial]
      exact ⟨ct, exitCT, hct', hct, hexitCT⟩

/-- An onion of the Python client is answered. -/
theorem ends_sendOnion (hP : P.Agrees N) (hX : N.X.LawfulAEAD) (hhops : hops = 1 ∨ hops = 3)
    {nodes : List ν} (hc : N.Circuit c hops nodes) {keys : SessionKeys} (hk : keys.Proper hops)
    {cid payload : Bytes} (hcid : cid ≠ []) (hvalid : Valid cid)
    (hkeyed : Keyed w cid (HopVault.candidates c keys hops) nodes) (htext : l.Text)
    (hexec : l.Executable N.X) (hunwraps : Unwraps N.X keys c l hops payload)
    (hdest : ∀ m, Answering w i m) :
    N.reliable.Ends (i, .client) (sendOnion P c.guard.nodeURL cid payload) w fun r w' =>
      ∃ ct resp, r = .ok (answerDict ct) ∧ WrappedAnswer N.X keys resp hops ct ∧
        ∃ m, Answers w w' i m l resp := by
  obtain ⟨n, others, rfl, hn⟩ := hc.guard
  simp only [sendOnion, clientPost_eq, rpc_bind, ret_bind, pure_eq]
  refine ends_post (q := onionPost c.guard.nodeURL cid payload) hn.onionRoute (R := fun r w' =>
    ∃ ct resp, r = onionAnswer ct ∧ WrappedAnswer N.X keys resp hops ct ∧
      ∃ m, Answers w w' i m l resp) ?_ ?_
  · intro w₁ hq
    rw [handle_onionPost N hvalid]
    refine (ends_guardOnion hX hhops hc hk hcid (hkeyed.quiet hq) htext hexec hunwraps
      (fun m => hq.answering (hdest m)) _).weaken fun r w' hr => ?_
    obtain ⟨ct, resp, rfl, hct, m, hans⟩ := hr
    exact ⟨ct, resp, rfl, hct, m, hq.answers hans⟩
  · rintro r w₁ ⟨ct, resp, rfl, hct, hans⟩
    have hok : ¬(onionAnswer ct).statusCode ≠ 200 := fun h => h rfl
    simp only [if_neg hok, responseJson_onionAnswer hP]
    exact ends_ret ⟨ct, resp, rfl, hct, hans⟩

end

/-! ## A whole attempt -/

/-- An attempt, once its circuit has been fetched. -/
def overCircuit (P : Libs) (X : Externals) (circuitID : Bytes) (exitLayer : Json) (hops : Int)
    (circuit : Json) : Go (Result Timed) := do
  let t0 ← perform .now
  match ← setupCircuit P X circuit circuitID hops with
  | .error exc => return .error exc
  | .ok keys =>
    let setupDone ← perform .now
    match ← buildOnion P X keys exitLayer circuit hops with
    | .error exc => return .error exc
    | .ok payload =>
      match guardURL P circuit with
      | .error exc => return .error exc
      | .ok url =>
        let t1 ← perform .now
        perform (.mark .sending)
        match ← sendOnion P url circuitID payload with
        | .error exc => return .error exc
        | .ok onionResp =>
          let requestDone ← perform .now
          match readAnswer P X keys onionResp hops with
          | .error exc => return .error exc
          | .ok exitResp => return .ok ⟨exitResp, setupDone - t0, requestDone - t1⟩

/-- The URL at which the client asks for a circuit. -/
def circuitURL (P : Libs) (directoryURL : Bytes) (hops : Int) : Bytes :=
  P.prepareURL (directoryURL ++ lit "/circuit") hops

/-- Fetching is one request to the directory. -/
theorem getCircuit_eq (P : Libs) (directoryURL : Bytes) (hops : Int) :
    getCircuit P directoryURL hops =
      .op (.httpGet (circuitURL P directoryURL hops)) fun r => .ret (readCircuit P hops r) := by
  unfold getCircuit readCircuit
  simp only [perform_eq, op_bind, ret_bind, pure_eq]
  congr 1
  funext r
  cases r with
  | error exc => rfl
  | ok resp =>
    dsimp only
    by_cases hraise : 400 ≤ resp.statusCode ∧ resp.statusCode < 600
    · rw [if_pos hraise, if_pos hraise]
    · rw [if_neg hraise, if_neg hraise]
      cases P.responseJson resp.body <;> rfl

/-- An attempt is such a request, and the rest. -/
theorem tryCircuit_eq (P : Libs) (X : Externals) (directoryURL circuitID : Bytes) (exitLayer : Json)
    (hops : Int) : tryCircuit P X directoryURL circuitID exitLayer hops =
      .op (.httpGet (circuitURL P directoryURL hops)) fun r =>
        match readCircuit P hops r with
        | .error exc => .ret (.error exc)
        | .ok circuit => overCircuit P X circuitID exitLayer hops circuit := by
  unfold tryCircuit
  rw [getCircuit_eq]
  rfl

section

variable [DecidableEq ι] [DecidableEq ν] {N : Net ν} {i : ι} {w : World ι ν} {call : Call}

/-- Over hops that are all up the attempt is answered by the destination. -/
theorem ends_overCircuit (hP : P.Agrees N) (hX : N.X.LawfulAEAD) (hcall : call.Ready N)
    (hvalid : Valid call.circuitID) {dict : Json} (hdict : SameLayer dict call.exitLayer)
    {D : DestRequest → DestResponse}
    (hD : ∀ n m req, (w.oracle (i, .node n) m).dest req = .answered (D req))
    (hsame : SameCircuit P call.hops circuit c) (hwhole : N.Whole c call.hops) :
    N.reliable.Ends (i, .client) (overCircuit P N.X call.circuitID dict call.hops circuit) w
      fun r w' => ∃ timed, r = .ok timed ∧
        CalledOnce w w' i call.exitLayer (D call.exitLayer.request) ∧
        SameResponse timed.exitResp (exitResponse (D call.exitLayer.request)).coerced := by
  obtain ⟨nodes, hc⟩ := hwhole
  simp only [overCircuit, perform_eq, op_bind, ret_bind, pure_eq]
  refine ends_silent (by trivial) fun t0 w₁ hq₁ => ?_
  refine ends_bind (ends_setupCircuit hP hcall.circuitID hvalid hsame hc) fun r w₂ hr => ?_
  obtain ⟨keys, rfl, hk, hkeyed, hcalls⟩ := hr
  refine ends_silent (by trivial) fun setupDone w₃ hq₃ => ?_
  refine ends_bind (ends_buildOnion hX hcall.hops hk hsame hdict hcall.text hcall.executable.url
    hcall.executable.method) fun r w₄ hr => ?_
  obtain ⟨payload, rfl, hunwraps, hq₄⟩ := hr
  rw [guardURL_of_same hsame]
  refine ends_silent (by trivial) fun t1 w₅ hq₅ => ?_
  refine ends_silent (by trivial) fun _ w₆ hq₆ => ?_
  have hq := ((hq₃.trans hq₄).trans hq₅).trans hq₆
  have hpast := hq₁.uncalled.trans (hcalls.trans hq.uncalled)
  have hD₆ (n : ν) (m : Nat) (req : DestRequest) :
      (w₆.oracle (i, .node n) m).dest req = .answered (D req) := hpast.oracle ▸ hD n m req
  refine ends_bind (ends_sendOnion hP hX hcall.hops hc hk hcall.circuitID hvalid (hkeyed.quiet hq)
    hcall.text hcall.executable hunwraps fun n m req => ⟨_, hD₆ n m req⟩) fun r w₇ hr => ?_
  obtain ⟨ct, resp, rfl, hct, n, order, m, hperm, hresp, hexe⟩ := hr
  refine ends_silent (by trivial) fun requestDone w₈ hq₈ => ?_
  obtain ⟨value, hread, hvalue⟩ := readAnswer_wrapped (P := P) (N := N) hcall.hops hct
  rw [hcall.headers.request hperm] at hresp hexe
  obtain rfl : D call.exitLayer.request = resp := by
    rw [hD₆, DestOutcome.answered.injEq] at hresp
    exact hresp
  simp only [hread]
  refine ends_ret ⟨_, rfl, ?_, hvalue⟩
  unfold CalledOnce
  rw [hq₈.calls, hexe.calls, hpast.calls]

/-- Over hops some of which are down it fails. -/
theorem ends_overCircuit_broken (hP : P.Agrees N) (hcall : call.Ready N)
    (hvalid : Valid call.circuitID) (dict : Json) (hsame : SameCircuit P call.hops circuit c)
    (hbroken : N.Broken c call.hops) :
    N.reliable.Ends (i, .client) (overCircuit P N.X call.circuitID dict call.hops circuit) w
      fun r w' => (∃ exc, r = .error exc) ∧ Uncalled w w' := by
  simp only [overCircuit, perform_eq, op_bind, ret_bind, pure_eq]
  refine ends_silent (by trivial) fun t0 w₁ hq => ?_
  refine ends_bind (ends_setupCircuit_broken hP hcall.circuitID hvalid hsame hbroken)
    fun r w₂ hr => ?_
  obtain ⟨⟨exc, rfl⟩, hcalls⟩ := hr
  exact ends_ret ⟨⟨exc, rfl⟩, hq.uncalled.trans hcalls⟩

end

end HopVault.Python
