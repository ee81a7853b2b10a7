import HopVault.Framework.PastTime
import HopVault.Python.RetryMirror

/-! # Set-up before use

    The order in which the Python client does things, whatever it is
    answered. It posts a session key only to the hops of the circuit it has
    fetched last, a key it has drawn since; and it sends an onion only to
    the guard of that circuit, after every hop has accepted its key under
    the circuit ID of the onion, and with each layer of the onion sealed
    under the key of its hop. -/

namespace HopVault.Python

open Framework Framework.Utf8 Framework.Json Framework.Prog

/-! ## What is posted -/

/-- The body of a set-up request, with the encrypted key. -/
def setupPost (url circuitID encrypted : Bytes) : Post :=
  ⟨url ++ lit "/setup", lit "application/json",
    dumps (obj [(lit "circuitId", str circuitID), (lit "encryptedKey", str (Base64.encode encrypted))])⟩

def onionPost (url circuitID payload : Bytes) : Post :=
  ⟨url ++ lit "/onion", lit "application/json",
    dumps (obj [(lit "circuitId", str circuitID), (lit "payload", str (Base64.encode payload))])⟩

/-! ## The past -/

/-- The past of a client. -/
abbrev Past : Type := List (Interaction Effects)

/-- A request to the directory. -/
def IsFetch : Interaction Effects → Prop
  | .op (.httpGet _) _ => True
  | _ => False

/-- Nothing has been fetched. -/
def NoFetch (τ : Past) : Prop := ∀ x ∈ τ, ¬IsFetch x

theorem NoFetch.append {τ τ' : Past} (h : NoFetch τ) (h' : NoFetch τ') : NoFetch (τ ++ τ') :=
  fun x hx => (List.mem_append.mp hx).elim (h x) (h' x)

theorem noFetch_nil : NoFetch [] := fun _ hx => absurd hx List.not_mem_nil

theorem noFetch_singleton {x : Interaction Effects} (h : ¬IsFetch x) : NoFetch [x] :=
  fun _ hy => List.mem_singleton.mp hy ▸ h

theorem noFetch_now (t : Int) : NoFetch [.op .now t] := noFetch_singleton fun h => h

variable (P : Libs) (X : Externals) (hops : Int)

/-- What `get_circuit` makes of the directory's answer. -/
def readCircuit : Result Response → Result Json
  | .error exc => .error exc
  | .ok resp =>
    if 400 ≤ resp.statusCode ∧ resp.statusCode < 600 then
      .error (P.raised "raise_for_status" (ofInt resp.statusCode))
    else
      match P.responseJson resp.body with
      | none => .error (P.raised "json" (str resp.body))
      | some circuit => checkCircuit P circuit hops

/-- The circuit was fetched, and after it nothing else was; `since` is what
    has happened after. -/
def Fetched (past : Past) (circuit : Json) (since : Past) : Prop :=
  ∃ before url r, past = before ++ .op (.httpGet url) r :: since ∧
    readCircuit P hops r = .ok circuit ∧ NoFetch since

/-- The key has been drawn. -/
def Drew (τ : Past) (key : Bytes) : Prop := ∃ n x, .op (.rand n) x ∈ τ ∧ x.1 = key

/-- The node has accepted the key under the circuit ID. -/
def Accepted (τ : Past) (circuitID : Bytes) (node : Json) (key : Bytes) : Prop :=
  ∃ url pem pub seed ct resp, nodeContact P node = .ok (url, pem) ∧
    loadPublicKey P pem = .ok pub ∧ X.encryptOAEP pub seed key = .ok ct ∧
    .rpc (setupPost url circuitID ct) (.ok resp) ∈ τ ∧ resp.statusCode = 204

/-- Every hop has accepted a key that was drawn after the circuit had been
    fetched. -/
def SetUp (past : Past) (circuit : Json) (circuitID : Bytes) (keys : Keys) : Prop :=
  ∃ since nodes, Fetched P hops past circuit since ∧ candidates P circuit keys hops = .ok nodes ∧
    ∀ c ∈ nodes, Drew since c.2 ∧ Accepted P X since circuitID c.1 c.2

/-- The ciphertext is the text sealed under the key, which there is. -/
def SealedUnder (key : Option Bytes) (text ct : Bytes) : Prop :=
  ∃ k nonce, key = some k ∧ ct = nonce ++ X.gcmSeal k nonce text

/-- The payload is the exit layer, sealed under the guard's key alone, or
    under the exit's, with the address of the exit under the relay's, and
    with that of the relay under the guard's. -/
def Sealed (keys : Keys) (circuit exitLayer : Json) (payload : Bytes) : Prop :=
  if hops = 1 then SealedUnder X (some keys.guardKey) (dumpsCompact exitLayer) payload
  else ∃ relayAddr exitAddr exitCT relayCT, hopAddresses P circuit = .ok (relayAddr, exitAddr) ∧
    SealedUnder X keys.exitKey (dumpsCompact exitLayer) exitCT ∧
    SealedUnder X keys.relayKey (dumpsCompact (layerJson exitAddr exitCT)) relayCT ∧
    SealedUnder X (some keys.guardKey) (dumpsCompact (layerJson relayAddr relayCT)) payload

/-- What the client may post for a request with this exit layer. -/
inductive Allowed (exitLayer : Json) (past : Past) : Post → Prop
  /-- A key that has been drawn for a hop of the circuit fetched last. -/
  | setup {circuit node pem : Json} {keys : Keys} {since : Past} {nodes : List (Json × Bytes)}
      {url circuitID key pub seed ct : Bytes} : Fetched P hops past circuit since →
      candidates P circuit keys hops = .ok nodes → (node, key) ∈ nodes → Drew since key →
      nodeContact P node = .ok (url, pem) → loadPublicKey P pem = .ok pub →
      X.encryptOAEP pub seed key = .ok ct → Allowed exitLayer past (setupPost url circuitID ct)
  /-- An onion for the guard of a circuit that has been set up. -/
  | onion {circuit : Json} {keys : Keys} {url circuitID payload : Bytes} :
      SetUp P X hops past circuit circuitID keys → guardURL P circuit = .ok url →
      Sealed P X hops keys circuit exitLayer payload →
      Allowed exitLayer past (onionPost url circuitID payload)

variable {P X hops}

theorem Fetched.extend {past τ since : Past} {circuit : Json} (h : Fetched P hops past circuit since)
    (hτ : NoFetch τ) : Fetched P hops (past ++ τ) circuit (since ++ τ) := by
  obtain ⟨before, url, r, rfl, hread, hsince⟩ := h
  exact ⟨before, url, r, by simp, hread, hsince.append hτ⟩

theorem Drew.extend {τ : Past} {key : Bytes} (h : Drew τ key) (τ' : Past) : Drew (τ ++ τ') key := by
  obtain ⟨n, x, hx, hkey⟩ := h
  exact ⟨n, x, List.mem_append_left τ' hx, hkey⟩

theorem Drew.later {τ : Past} {key : Bytes} (h : Drew τ key) (τ' : Past) : Drew (τ' ++ τ) key := by
  obtain ⟨n, x, hx, hkey⟩ := h
  exact ⟨n, x, List.mem_append_right τ' hx, hkey⟩

theorem Accepted.extend {τ : Past} {circuitID key : Bytes} {node : Json}
    (h : Accepted P X τ circuitID node key) (τ' : Past) :
    Accepted P X (τ ++ τ') circuitID node key := by
  obtain ⟨url, pem, pub, seed, ct, resp, hcontact, hpub, hct, hmem, hstatus⟩ := h
  exact ⟨url, pem, pub, seed, ct, resp, hcontact, hpub, hct, List.mem_append_left τ' hmem, hstatus⟩

theorem Accepted.later {τ : Past} {circuitID key : Bytes} {node : Json}
    (h : Accepted P X τ circuitID node key) (τ' : Past) :
    Accepted P X (τ' ++ τ) circuitID node key := by
  obtain ⟨url, pem, pub, seed, ct, resp, hcontact, hpub, hct, hmem, hstatus⟩ := h
  exact ⟨url, pem, pub, seed, ct, resp, hcontact, hpub, hct, List.mem_append_right τ' hmem, hstatus⟩

theorem SetUp.extend {past τ : Past} {circuit : Json} {circuitID : Bytes} {keys : Keys}
    (h : SetUp P X hops past circuit circuitID keys) (hτ : NoFetch τ) :
    SetUp P X hops (past ++ τ) circuit circuitID keys := by
  obtain ⟨since, nodes, hfetched, hnodes, hall⟩ := h
  refine ⟨since ++ τ, nodes, hfetched.extend hτ, hnodes, fun c hc => ?_⟩
  exact ⟨(hall c hc).1.extend τ, (hall c hc).2.extend τ⟩

/-! ## The client -/

/-- The past has grown by a part with `R` that fetches nothing. -/
def Grown (past : Past) (R : Past → Prop) (past' : Past) : Prop :=
  ∃ τ, past' = past ++ τ ∧ NoFetch τ ∧ R τ

theorem grown_refl {past : Past} {R : Past → Prop} (h : R []) : Grown past R past :=
  ⟨[], (List.append_nil past).symm, noFetch_nil, h⟩

theorem grown_singleton {past : Past} {R : Past → Prop} {x : Interaction Effects} (hx : ¬IsFetch x)
    (h : R [x]) : Grown past R (past ++ [x]) :=
  ⟨[x], rfl, noFetch_singleton hx, h⟩

variable {A : Past → Post → Prop} {past : Past}

theorem safe_rsaEncryptKey {key : Bytes} {pem : Json} :
    (rsaEncryptKey P X pem key).Safe A past fun past' r => Grown past (fun _ => ∀ ct, r = .ok ct →
      ∃ pub seed, loadPublicKey P pem = .ok pub ∧ X.encryptOAEP pub seed key = .ok ct) past' := by
  unfold rsaEncryptKey
  cases hpub : loadPublicKey P pem with
  | error exc => exact grown_refl (by simp)
  | ok pub =>
    simp only [perform_eq, op_bind, ret_bind, safe_op, pure_eq]
    intro seed
    cases hct : X.encryptOAEP pub seed.1 key with
    | error exc => exact grown_singleton (fun h => h) (by simp)
    | ok ct =>
      refine grown_singleton (fun h => h) fun ct' heq => ?_
      cases heq
      exact ⟨pub, seed.1, rfl, hct⟩

/-- What a node is posted, and that it has accepted it if nothing is
    raised. -/
theorem safe_sendSetupKey {url circuitID key : Bytes} {pem : Json}
    (h : ∀ τ pub seed ct, NoFetch τ → loadPublicKey P pem = .ok pub →
      X.encryptOAEP pub seed key = .ok ct → A (past ++ τ) (setupPost url circuitID ct)) :
    (sendSetupKey P X url circuitID pem key).Safe A past fun past' r =>
      Grown past (fun τ => r = .ok () → ∃ pub seed ct resp, loadPublicKey P pem = .ok pub ∧
        X.encryptOAEP pub seed key = .ok ct ∧
        .rpc (setupPost url circuitID ct) (.ok resp) ∈ τ ∧ resp.statusCode = 204) past' := by
  unfold sendSetupKey
  refine safe_bind safe_rsaEncryptKey ?_
  rintro _ (exc | encrypted) ⟨τ, rfl, hτ, hencrypted⟩
  · exact ⟨τ, rfl, hτ, by simp⟩
  · obtain ⟨pub, seed, hpub, hct⟩ := hencrypted encrypted rfl
    simp only [clientPost_eq, rpc_bind, ret_bind, safe_rpc, pure_eq]
    refine ⟨h τ pub seed encrypted hτ hpub hct, fun r => ?_⟩
    have hquiet : NoFetch (τ ++ [.rpc (setupPost url circuitID encrypted) r]) :=
      hτ.append (noFetch_singleton (fun h => h))
    cases r with
    | error exc => exact ⟨_, List.append_assoc .., hquiet, by simp⟩
    | ok resp =>
      dsimp only
      by_cases hstatus : resp.statusCode = 204
      · rw [if_neg (not_not.mpr hstatus)]
        refine ⟨_, List.append_assoc .., hquiet, fun _ => ?_⟩
        exact ⟨pub, seed, encrypted, resp, hpub, hct, by simp [setupPost], hstatus⟩
      · rw [if_pos hstatus]
        exact ⟨_, List.append_assoc .., hquiet, by simp⟩

/-- The guard, and in a 3-hop circuit the relay and the exit. -/
theorem candidates_ok {circuit : Json} {keys : Keys} {nodes : List (Json × Bytes)}
    (h : candidates P circuit keys hops = .ok nodes) :
    ∃ guard, subscript P circuit "guard" = .ok guard ∧ (nodes = [(guard, keys.guardKey)] ∨
      hops = 3 ∧ ∃ relay exit, nodes = [(guard, keys.guardKey), (relay, keys.relayKey.getD []),
        (exit, keys.exitKey.getD [])]) := by
  unfold candidates at h
  cases hguard : subscript P circuit "guard" with
  | error exc =>
    rw [hguard] at h
    cases h
  | ok guard =>
    refine ⟨guard, rfl, ?_⟩
    rw [hguard] at h
    by_cases hhops : hops = 3
    · cases hrelay : subscript P circuit "relay" with
      | error exc =>
        rw [hrelay] at h
        simp only [hhops] at h
        cases h
      | ok relay =>
        cases hexit : subscript P circuit "exit" with
        | error exc =>
          rw [hrelay, hexit] at h
          simp only [hhops] at h
          cases h
        | ok exit =>
          rw [hrelay, hexit] at h
          simp only [hhops] at h
          cases h
          exact .inr ⟨hhops, relay, exit, rfl⟩
    · simp only [hhops] at h
      cases h
      exact .inl rfl

/-- The keys are drawn afresh. -/
theorem safe_generateKeys :
    (generateKeys hops).Safe A past fun past' keys => Grown past (fun τ => ∀ circuit nodes,
      candidates P circuit keys hops = .ok nodes → ∀ c ∈ nodes, Drew τ c.2) past' := by
  unfold generateKeys
  simp only [perform_eq, op_bind, ret_bind, safe_op, pure_eq]
  intro guardKey
  have hguard {τ : Past} (hτ : .op (.rand 32) guardKey ∈ τ) : Drew τ guardKey.1 :=
    ⟨32, guardKey, hτ, rfl⟩
  by_cases hhops : hops = 3
  · rw [if_pos hhops]
    simp only [safe_op]
    intro relayKey exitKey
    refine ⟨[.op (.rand 32) guardKey, .op (.rand 32) relayKey, .op (.rand 32) exitKey], by simp,
      ?_, ?_⟩
    · intro x hx
      simp only [List.mem_cons, List.not_mem_nil, or_false] at hx
      rcases hx with rfl | rfl | rfl <;> exact fun h => h
    · intro circuit nodes hnodes c hc
      obtain ⟨guard, -, rfl | ⟨-, relay, exit, rfl⟩⟩ := candidates_ok hnodes
      · rw [List.mem_singleton] at hc
        exact hc ▸ hguard (by simp)
      · simp only [List.mem_cons, List.not_mem_nil, or_false] at hc
        rcases hc with rfl | rfl | rfl
        · exact hguard (by simp)
        · exact ⟨32, relayKey, by simp, rfl⟩
        · exact ⟨32, exitKey, by simp, rfl⟩
  · rw [if_neg hhops]
    refine grown_singleton (fun h => h) fun circuit nodes hnodes c hc => ?_
    obtain ⟨guard, -, rfl | ⟨hthree, -⟩⟩ := candidates_ok hnodes
    · rw [List.mem_singleton] at hc
      exact hc ▸ hguard (by simp)
    · exact absurd hthree hhops

/-- Every node of the list accepts its key, if nothing is raised. -/
theorem safe_setupCandidates {circuit exitLayer : Json} {keys : Keys} {circuitID : Bytes} {since : Past}
    {nodes list : List (Json × Bytes)} (hfetched : Fetched P hops past circuit since)
    (hnodes : candidates P circuit keys hops = .ok nodes) (hlist : ∀ c ∈ list, c ∈ nodes)
    (hdrew : ∀ c ∈ list, Drew since c.2) :
    (setupCandidates P X circuitID list).Safe (Allowed P X hops exitLayer) past fun past' r =>
      Grown past (fun τ => r = .ok () → ∀ c ∈ list, Accepted P X τ circuitID c.1 c.2) past' := by
  induction list generalizing past since with
  | nil => exact grown_refl (by simp)
  | cons c list ih =>
    obtain ⟨node, key⟩ := c
    obtain ⟨hmem, hlist⟩ := List.forall_mem_cons.mp hlist
    obtain ⟨hkey, hdrew⟩ := List.forall_mem_cons.mp hdrew
    unfold setupCandidates
    cases hcontact : nodeContact P node with
    | error exc => exact grown_refl (by simp)
    | ok contact =>
      obtain ⟨url, pem⟩ := contact
      dsimp only
      refine safe_bind (safe_sendSetupKey fun τ pub seed ct hτ hpub hct => ?_) ?_
      · exact .setup (hfetched.extend hτ) hnodes hmem (hkey.extend τ) hcontact hpub hct
      · rintro _ (exc | ⟨⟩) ⟨τ, rfl, hτ, hposted⟩
        · exact ⟨τ, rfl, hτ, by simp⟩
        · obtain ⟨pub, seed, ct, resp, hpub, hct, hmem, hstatus⟩ := hposted rfl
          have haccepted : Accepted P X τ circuitID node key :=
            ⟨url, pem, pub, seed, ct, resp, hcontact, hpub, hct, hmem, hstatus⟩
          -- the other nodes are posted their keys after this one
          refine (ih (hfetched.extend hτ) hlist fun c hc => (hdrew c hc).extend τ).weaken ?_
          rintro _ r ⟨τ', rfl, hτ', hrest⟩
          refine ⟨τ ++ τ', List.append_assoc .., hτ.append hτ', fun hr c hc => ?_⟩
          rcases List.mem_cons.mp hc with rfl | hc
          · exact haccepted.extend τ'
          · exact (hrest hr c hc).later τ

/-- When the key exchange returns keys, the circuit is set up with them. -/
theorem safe_setupCircuit {circuit exitLayer : Json} {circuitID : Bytes} {since : Past}
    (hfetched : Fetched P hops past circuit since) :
    (setupCircuit P X circuit circuitID hops).Safe (Allowed P X hops exitLayer) past fun past' r =>
      ∀ keys, r = .ok keys → SetUp P X hops past' circuit circuitID keys := by
  unfold setupCircuit
  refine safe_bind (safe_generateKeys (P := P)) ?_
  rintro _ keys ⟨τ, rfl, hτ, hdrawn⟩
  cases hnodes : candidates P circuit keys hops with
  | error exc => simp
  | ok nodes =>
    have hdrew (c : Json × Bytes) (hc : c ∈ nodes) : Drew (since ++ τ) c.2 :=
      (hdrawn circuit nodes hnodes c hc).later since
    dsimp only
    refine safe_bind (safe_setupCandidates (hfetched.extend hτ) hnodes (fun c hc => hc) hdrew) ?_
    rintro _ (exc | ⟨⟩) ⟨τ', rfl, hτ', haccepted⟩ keys' heq
    · cases heq
    · cases heq
      refine ⟨since ++ τ ++ τ', nodes, (hfetched.extend hτ).extend hτ', hnodes, fun c hc => ?_⟩
      exact ⟨(hdrew c hc).extend τ', (haccepted rfl c hc).later (since ++ τ)⟩

theorem aesgcm_ok {key : Option Bytes} {k : Bytes} (h : aesgcm P key = .ok k) : key = some k := by
  unfold aesgcm at h
  cases key with
  | none => cases h
  | some key =>
    by_cases hlen : key.length = 16 ∨ key.length = 24 ∨ key.length = 32
    · simp only [if_pos hlen] at h
      cases h
      rfl
    · simp only [if_neg hlen] at h
      cases h

theorem safe_aesEncrypt {key : Option Bytes} {plaintext : Bytes} :
    (aesEncrypt P X key plaintext).Safe A past fun past' r =>
      Grown past (fun _ => ∀ ct, r = .ok ct → SealedUnder X key plaintext ct) past' := by
  unfold aesEncrypt
  simp only [perform_eq, op_bind, ret_bind, safe_op, pure_eq]
  intro nonce
  cases hkey : aesgcm P key with
  | error exc => exact grown_singleton (fun h => h) (by simp)
  | ok k =>
    refine grown_singleton (fun h => h) fun ct heq => ?_
    cases heq
    exact ⟨k, nonce.1, aesgcm_ok hkey, rfl⟩

/-- Layer by layer, from the inside out. -/
theorem safe_buildOnion {keys : Keys} {exitLayer circuit : Json} :
    (buildOnion P X keys exitLayer circuit hops).Safe A past fun past' r => Grown past
      (fun _ => ∀ payload, r = .ok payload → Sealed P X hops keys circuit exitLayer payload)
      past' := by
  unfold buildOnion Sealed
  by_cases hhops : hops = 1
  · simp only [if_pos hhops]
    exact safe_aesEncrypt
  · simp only [if_neg hhops]
    refine safe_bind safe_aesEncrypt ?_
    rintro _ (exc | exitCT) ⟨τ, rfl, hτ, hexit⟩
    · exact ⟨τ, rfl, hτ, by simp⟩
    · cases haddrs : hopAddresses P circuit with
      | error exc => exact ⟨τ, rfl, hτ, by simp⟩
      | ok addrs =>
        refine safe_bind safe_aesEncrypt ?_
        rintro _ (exc | relayCT) ⟨τ', rfl, hτ', hrelay⟩
        · exact ⟨τ ++ τ', List.append_assoc .., hτ.append hτ', by simp⟩
        · refine safe_aesEncrypt.weaken ?_
          rintro _ r ⟨τ'', rfl, hτ'', hguard⟩
          refine ⟨τ ++ τ' ++ τ'', by simp, (hτ.append hτ').append hτ'', fun payload hr => ?_⟩
          exact ⟨addrs.1, addrs.2, exitCT, relayCT, rfl, hexit exitCT rfl, hrelay relayCT rfl,
            hguard payload hr⟩

theorem safe_sendOnion {url circuitID payload : Bytes} (h : A past (onionPost url circuitID payload)) :
    (sendOnion P url circuitID payload).Safe A past fun past' _ => Grown past (fun _ => True) past' := by
  unfold sendOnion
  simp only [clientPost_eq, rpc_bind, ret_bind, safe_rpc, pure_eq]
  refine ⟨h, fun r => ?_⟩
  cases r with
  | error exc => exact grown_singleton (fun h => h) trivial
  | ok resp =>
    dsimp only
    split_ifs
    · exact grown_singleton (fun h => h) trivial
    · cases P.responseJson resp.body with
      | none => exact grown_singleton (fun h => h) trivial
      | some onionResp => exact grown_singleton (fun h => h) trivial

/-- One request to the directory, whose answer is read. -/
theorem safe_getCircuit {directoryURL : Bytes} :
    (getCircuit P directoryURL hops).Safe A past fun past' r => ∃ url answer,
      past' = past ++ [.op (.httpGet url) answer] ∧
        ∀ circuit, r = .ok circuit → readCircuit P hops answer = .ok circuit := by
  unfold getCircuit
  simp only [perform_eq, op_bind, ret_bind, safe_op, pure_eq]
  intro answer
  unfold readCircuit
  cases answer with
  | error exc => exact ⟨_, _, rfl, by simp⟩
  | ok resp =>
    dsimp only
    split_ifs with hraise
    · exact ⟨_, _, rfl, by simp⟩
    · cases hjson : P.responseJson resp.body with
      | none => exact ⟨_, _, rfl, by simp⟩
      | some circuit => exact ⟨_, _, rfl, fun _ h => by simpa [hraise, hjson] using h⟩

theorem fetched_last {url : Bytes} {answer : Result Response} {circuit : Json}
    (h : readCircuit P hops answer = .ok circuit) :
    Fetched P hops (past ++ [.op (.httpGet url) answer]) circuit [] :=
  ⟨past, url, answer, rfl, h, noFetch_nil⟩

/-- One attempt of `execute_circuit`, whatever has happened before. -/
theorem safe_tryCircuit (directoryURL circuitID : Bytes) (exitLayer : Json) :
    (tryCircuit P X directoryURL circuitID exitLayer hops).Safe (Allowed P X hops exitLayer) past
      fun _ _ => True := by
  unfold tryCircuit
  refine safe_bind safe_getCircuit ?_
  rintro _ (exc | circuit) ⟨url, answer, rfl, hread⟩
  · trivial
  · have hfetched : Fetched P hops (past ++ [.op (.httpGet url) answer]) circuit [] :=
      fetched_last (hread circuit rfl)
    simp only [perform_eq, op_bind, ret_bind, safe_op]
    intro t0
    refine safe_bind (safe_setupCircuit (hfetched.extend (noFetch_now t0))) ?_
    rintro past' (exc | keys) hkeys
    · trivial
    · have hset := hkeys keys rfl
      simp only [safe_op]
      intro setupDone
      refine safe_bind safe_buildOnion ?_
      rintro _ (exc | payload) ⟨τ, rfl, hτ, hsealed⟩
      · trivial
      · cases hguard : guardURL P circuit with
        | error exc => trivial
        | ok url =>
          simp only [safe_op]
          intro t1 _
          have hset : SetUp P X hops (past' ++ [.op .now setupDone] ++ τ ++ [.op .now t1] ++
              [.op (.mark .sending) ()]) circuit circuitID keys :=
            (((hset.extend (noFetch_now setupDone)).extend hτ).extend (noFetch_now t1)).extend
              (noFetch_singleton fun h => h)
          refine safe_bind (safe_sendOnion (.onion hset hguard (hsealed payload rfl))) ?_
          rintro _ (exc | onionResp) -
          · trivial
          · simp only [safe_op]
            intro requestDone
            cases readAnswer P X keys onionResp hops <;> trivial

/-- **Set-up before use**: whatever the network, the directory and the nodes
    answer, `execute_circuit` posts a key only to a hop of the circuit it
    fetched last, and an onion only to the guard of a circuit of which every
    hop has accepted its key, fresh and under the circuit ID of the onion,
    with the exit layer sealed under all of these keys, one for each hop. -/
theorem setup_before_use {directoryURL circuitID : Bytes} {exitLayer : Json} {τ : Past}
    {r : Result Timed} (hpath : (executeCircuit P X directoryURL circuitID exitLayer hops).Path τ r) :
    CallsAllowed (Allowed P X hops exitLayer) [] τ := by
  have hloop (left : Nat) (lastErr : Bytes) (past : Past) :
      (circuitAttempts P X directoryURL circuitID exitLayer hops left lastErr).Safe
        (Allowed P X hops exitLayer) past fun _ _ => True := by
    induction left generalizing past lastErr with
    | zero => trivial
    | succ left ih =>
      unfold circuitAttempts
      refine safe_bind (safe_tryCircuit directoryURL circuitID exitLayer) ?_
      rintro past' (exc | result) -
      · exact ih exc past'
      · trivial
  exact ((hloop maxCircuitAttempts (lit "None") []).of_path hpath).2

/-- A circuit of three hops that is used successfully. -/
theorem setup_before_use_sample : ∃ τ result,
    (executeCircuit Sample.libs HopVault.Sample.externals [] (lit "c1") Sample.dict 3).Path τ
      (.ok result) ∧
    CallsAllowed (Allowed Sample.libs HopVault.Sample.externals 3 Sample.dict) [] τ := by
  have hexec : (HopVault.Sample.net.reliable.exec 4 ((), .client)
      (executeCircuit Sample.libs HopVault.Sample.externals [] (lit "c1") Sample.dict 3)
      (Sample.flaky 1)).map (fun p => p.1.isOk) = some true := by
    decide +kernel
  obtain ⟨⟨r, w'⟩, hret, hok⟩ := Option.map_eq_some_iff.mp hexec
  cases r with
  | error exc => cases hok
  | ok result =>
    obtain ⟨τ, hpath, -⟩ := (Semantics.returns_of_exec hret).path
    exact ⟨τ, result, hpath, setup_before_use hpath⟩

end HopVault.Python
