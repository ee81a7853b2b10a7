import HopVault.KeyStore
import HopVault.Transparency
import HopVault.Python.RetryMirror

/-! # One onion format

    The Python client and the Go client were written independently. What
    the nodes peel off an onion does not show which of the two has built
    it, and both read the same response out of what comes back. -/

namespace HopVault.Python

open Framework Framework.Json Framework.Utf8 Framework.Prog

/-! ## The same request in both languages -/

/-- The dict of an exit layer: its four members in any order, the headers
    in any order, and a body that is base64 or, when there is none,
    `None`. -/
def SameLayer (dict : Json) (l : ExitLayer) : Prop :=
  ∃ (ms : List (Bytes × Json)) (order : List (Bytes × Bytes)) (body : Json), dict = obj ms ∧
    ms.Perm [(lit "url", str l.url), (lit "method", str l.method),
      (lit "headers", obj (order.map fun e => (e.1, str e.2))), (lit "body", body)] ∧
    order.Perm l.headers.entries ∧
    (body = str (Base64.encode l.body) ∨ body = null ∧ l.body = [])

/-- A node of the directory's answer in both languages. -/
structure SameNode (P : Libs) (node : Json) (rec : NodeRecord) : Prop where
  host : subscript P node "host" = .ok (str rec.host)
  port : subscript P node "port" = .ok (ofInt rec.port.toInt)
  text : Valid rec.host

/-- The relay and the exit of a circuit in both languages. -/
structure SameHops (P : Libs) (circuit : Json) (c : CircuitResponse) : Prop where
  relay : ∃ node, subscript P circuit "relay" = .ok node ∧ SameNode P node c.relay
  exit : ∃ node, subscript P circuit "exit" = .ok node ∧ SameNode P node c.exit

/-- Session keys as the Python client keeps them. -/
def ofSessionKeys (keys : SessionKeys) (hops : Int) : Keys :=
  if hops = 3 then ⟨keys.guardKey, some keys.relayKey, some keys.exitKey⟩
  else ⟨keys.guardKey, none, none⟩

/-- The keys of a circuit have 32 bytes. -/
structure KeyLengths (keys : SessionKeys) (hops : Int) : Prop where
  guard : keys.guardKey.length = 32
  relay : hops = 3 → keys.relayKey.length = 32
  exit : hops = 3 → keys.exitKey.length = 32

/-! ## Peeling -/

section

variable (X : Externals)

/-- What the hops peel off an onion: the next hops they forward to, and
    the exit layer. -/
def peelOnion (keys : SessionKeys) (payload : Bytes) (hops : Int) :
    Result (List Bytes × ExitLayer) := do
  if hops = 1 then
    let exit ← unwrapExitLayer X keys.guardKey payload
    return ([], exit)
  else
    let guard ← unwrapLayer X keys.guardKey payload
    let relay ← unwrapLayer X keys.relayKey guard.payload
    let exit ← unwrapExitLayer X keys.exitKey relay.payload
    return ([guard.nextHop, relay.nextHop], exit)

end

/-- The next hops of a circuit. -/
def nextHops (c : CircuitResponse) (hops : Int) : List Bytes :=
  if hops = 1 then [] else [c.relay.addr, c.exit.addr]

/-- What is to be peeled off an onion around a layer; a layer has to have
    a URL and a method. -/
def peeled (hopAddrs : List Bytes) (l : ExitLayer) : Result (List Bytes × ExitLayer) :=
  if l.url = [] ∨ l.method = [] then .error (lit "exit layer must include url and method")
  else .ok (hopAddrs, l)

variable {X : Externals} {P : Libs}

theorem unwrapLayer_of_text {key ct text nextHop payload : Bytes}
    (hdecrypt : decrypt X key ct = .ok text)
    (hread : unmarshal Layer.fields .zero text = some ⟨nextHop, payload⟩) (hnext : nextHop ≠ [])
    (hpayload : payload ≠ []) : unwrapLayer X key ct = .ok ⟨nextHop, payload⟩ := by
  unfold unwrapLayer
  rw [hdecrypt]
  dsimp only
  rw [hread]
  dsimp only
  rw [if_neg (by simp [hnext, hpayload])]

theorem unwrapExitLayer_of_text {key ct text : Bytes} {l : ExitLayer}
    (hdecrypt : decrypt X key ct = .ok text)
    (hread : unmarshal ExitLayer.fields .zero text = some l) :
    unwrapExitLayer X key ct = if l.url = [] ∨ l.method = [] then
      .error (lit "exit layer must include url and method") else .ok l := by
  unfold unwrapExitLayer
  rw [hdecrypt]
  dsimp only
  rw [hread]

/-- An onion of one layer. -/
theorem peelOnion_one {keys : SessionKeys} {payload text : Bytes} {l : ExitLayer}
    (hguard : decrypt X keys.guardKey payload = .ok text)
    (hexit : unmarshal ExitLayer.fields .zero text = some l) :
    peelOnion X keys payload 1 = peeled [] l := by
  unfold peelOnion peeled
  rw [if_pos rfl, unwrapExitLayer_of_text hguard hexit]
  split_ifs <;> rfl

/-- An onion of three layers, whatever texts spell them. -/
theorem peelOnion_three {keys : SessionKeys} {payload : Bytes}
    {relayAddr exitAddr relayCT exitCT guardText relayText exitText : Bytes} {l : ExitLayer}
    (hguard : decrypt X keys.guardKey payload = .ok guardText)
    (hguardRead : unmarshal Layer.fields .zero guardText = some ⟨relayAddr, relayCT⟩)
    (hrelayAddr : relayAddr ≠ [])
    (hrelay : decrypt X keys.relayKey relayCT = .ok relayText)
    (hrelayRead : unmarshal Layer.fields .zero relayText = some ⟨exitAddr, exitCT⟩)
    (hexitAddr : exitAddr ≠ [])
    (hexit : decrypt X keys.exitKey exitCT = .ok exitText)
    (hexitRead : unmarshal ExitLayer.fields .zero exitText = some l) :
    peelOnion X keys payload 3 = peeled [relayAddr, exitAddr] l := by
  unfold peelOnion peeled
  rw [if_neg (by decide),
    unwrapLayer_of_text hguard hguardRead hrelayAddr (ne_nil_of_decrypt hrelay)]
  show (unwrapLayer X keys.relayKey relayCT >>= _) = _
  rw [unwrapLayer_of_text hrelay hrelayRead hexitAddr (ne_nil_of_decrypt hexit)]
  show (unwrapExitLayer X keys.exitKey exitCT >>= _) = _
  rw [unwrapExitLayer_of_text hexit hexitRead]
  split_ifs <;> rfl

/-! ## Addresses -/

/-- A Python `int` is written as Go writes it. -/
theorem format_ofInt (P : Libs) (i : Int) : format P (ofInt i) = Decimal.itoa i := by
  have hint : isInt (Decimal.itoa i) = true := by
    unfold isInt
    rw [List.all_eq_true]
    intro b hb
    cases i with
    | ofNat n => rw [Decimal.isDigit_of_mem_digits hb, Bool.true_or]
    | negSucc n =>
      rcases List.mem_cons.mp hb with rfl | hb
      · rfl
      · rw [Decimal.isDigit_of_mem_digits hb, Bool.true_or]
  have hzero : Decimal.itoa i ≠ lit "-0" := by
    intro h
    have hi := Decimal.parseInt_itoa i
    rw [h] at hi
    obtain rfl : (0 : Int) = i := Option.some.inj (Eq.trans (by decide) hi)
    exact absurd h (by decide)
  show (if isInt (Decimal.itoa i) then if Decimal.itoa i = lit "-0" then lit "0" else
    Decimal.itoa i else P.formatFloat (Decimal.itoa i)) = _
  rw [if_pos hint, if_neg hzero]

theorem nodeAddr_of_same {node : Json} {rec : NodeRecord} (h : SameNode P node rec) :
    nodeAddr P node = .ok rec.addr := by
  unfold nodeAddr
  rw [h.host, h.port]
  show Except.ok (format P (str rec.host) ++ lit ":" ++ format P (ofInt rec.port.toInt)) = _
  rw [format_ofInt]
  rfl

theorem valid_addr {rec : NodeRecord} (h : Valid rec.host) : Valid rec.addr := by
  unfold NodeRecord.addr
  exact (h.append (valid_lit (by decide))).append (valid_ascii (numLit_itoa _).ascii)

theorem hopAddresses_of_same {circuit : Json} {c : CircuitResponse} (h : SameHops P circuit c) :
    hopAddresses P circuit = .ok (c.relay.addr, c.exit.addr) := by
  obtain ⟨relay, hrelay, hrelayNode⟩ := h.relay
  obtain ⟨exit, hexit, hexitNode⟩ := h.exit
  unfold hopAddresses
  rw [hrelay, hexit]
  show (nodeAddr P exit >>= fun exitAddr => nodeAddr P relay >>= fun relayAddr =>
    (.ok (relayAddr, exitAddr) : Result (Bytes × Bytes))) = _
  rw [nodeAddr_of_same hrelayNode, nodeAddr_of_same hexitNode]
  rfl

/-! ## What Go reads of the Python client's texts -/

theorem unmarshal_dumps {T : Type} {fs : List (RecordField T)} {zero : T} {j : Json} (h : Wf j)
    (hj : AllTexts Valid j) : unmarshal fs zero (dumpsCompact j) = fill false fs j zero := by
  have hparse : parse (dumpsCompact j) = some j :=
    parse_dumpsStyle (fun b hb => absurd hb List.not_mem_nil) h hj
  unfold unmarshal
  rw [hparse]

/-- A hop reads a layer of the Python client. -/
theorem unmarshal_layerJson {nextHop payload : Bytes} (hnext : Valid nextHop) :
    unmarshal Layer.fields .zero (dumpsCompact (layerJson nextHop payload)) =
      some ⟨nextHop, payload⟩ := by
  have hwf : Wf (layerJson nextHop payload) := ⟨trivial, trivial, trivial⟩
  have htext : AllTexts Valid (layerJson nextHop payload) :=
    ⟨valid_lit (by decide), hnext, valid_lit (by decide), toValid_base64 payload, trivial⟩
  rw [unmarshal_dumps hwf htext]
  show fillMembers false Layer.fields [(lit "nextHop", str nextHop),
    (lit "payload", str (Base64.encode payload))] .zero = _
  have hbytes (cur : Bytes) : asBytes (str (Base64.encode payload)) cur = some payload :=
    Base64.decode_encode payload
  have hfields : findField Layer.fields (lit "nextHop") = some (.of "nextHop" asString (·.nextHop)
      (fun v l => { l with nextHop := v })) := rfl
  have hfields' : findField Layer.fields (lit "payload") = some (.of "payload" asBytes (·.payload)
      (fun v l => { l with payload := v })) := rfl
  simp only [fillMembers, hfields, hfields', RecordField.of, asString, hbytes, Option.map_some]

section

variable {a : ExitLayer}

/-- The members of an exit layer, read one at a time. -/
theorem fill_url (s : Bytes) :
    fillMembers false ExitLayer.fields [(lit "url", str s)] a = some { a with url := s } := rfl

theorem fill_method (s : Bytes) :
    fillMembers false ExitLayer.fields [(lit "method", str s)] a = some { a with method := s } := rfl

theorem fill_headers (hs : List (Bytes × Bytes)) :
    fillMembers false ExitLayer.fields [(lit "headers", obj (hs.map fun e => (e.1, str e.2)))] a =
      some { a with headers := hs.foldl (fun m e => m.insert e.1 e.2) a.headers } := by
  have hfield : findField ExitLayer.fields (lit "headers") =
      some (.of "headers" asStringMap (·.headers) (fun v l => { l with headers := v })) := rfl
  simp only [fillMembers, hfield, RecordField.of, asStringMap, bindMembers_str, Option.map_some]

theorem fill_body {body : Json} {b : Bytes} (h : ∀ cur, asBytes body cur = some b) :
    fillMembers false ExitLayer.fields [(lit "body", body)] a = some { a with body := b } := by
  have hfield : findField ExitLayer.fields (lit "body") =
      some (.of "body" asBytes (·.body) (fun v l => { l with body := v })) := rfl
  simp only [fillMembers, hfield, RecordField.of, h, Option.map_some]

end

/-- The dict of a layer of valid text is one that Python can write. -/
theorem valid_dict {l : ExitLayer} {ms : List (Bytes × Json)} {order : List (Bytes × Bytes)}
    {body : Json} (hms : ms.Perm [(lit "url", str l.url), (lit "method", str l.method),
      (lit "headers", obj (order.map fun e => (e.1, str e.2))), (lit "body", body)])
    (horder : order.Perm l.headers.entries) (htext : l.Text) (hwfBody : Wf body)
    (htextBody : AllTexts Valid body) : Wf (obj ms) ∧ AllTexts Valid (obj ms) := by
  have hwfHeaders : Wf (obj (order.map fun e => (e.1, str e.2))) := by
    apply wfMembers_iff.mpr
    intro m hm
    obtain ⟨e, -, rfl⟩ := List.mem_map.mp hm
    trivial
  have htextHeaders : AllTexts Valid (obj (order.map fun e => (e.1, str e.2))) := by
    apply allTextsMembers_iff.mpr
    intro m hm
    obtain ⟨e, he, rfl⟩ := List.mem_map.mp hm
    exact htext.headers e (horder.mem_iff.mp he)
  constructor
  · apply wfMembers_iff.mpr
    intro m hm
    have hm := hms.mem_iff.mp hm
    simp only [List.mem_cons, List.not_mem_nil, or_false] at hm
    rcases hm with rfl | rfl | rfl | rfl
    · trivial
    · trivial
    · exact hwfHeaders
    · exact hwfBody
  · apply allTextsMembers_iff.mpr
    intro m hm
    have hm := hms.mem_iff.mp hm
    simp only [List.mem_cons, List.not_mem_nil, or_false] at hm
    rcases hm with rfl | rfl | rfl | rfl
    · exact ⟨valid_lit (s := lit "url") (by decide), htext.url⟩
    · exact ⟨valid_lit (s := lit "method") (by decide), htext.method⟩
    · exact ⟨valid_lit (s := lit "headers") (by decide), htextHeaders⟩
    · exact ⟨valid_lit (s := lit "body") (by decide), htextBody⟩

/-- The exit reads the dict of a layer as the layer, whatever the order of
    its members and headers. -/
theorem unmarshal_dict {dict : Json} {l : ExitLayer} (h : SameLayer dict l) (htext : l.Text) :
    unmarshal ExitLayer.fields .zero (dumpsCompact dict) = some l := by
  obtain ⟨ms, order, body, rfl, hms, horder, hbody⟩ := h
  -- base64 text or None, the exit reads the same octets from both
  have hbodyText : Wf body ∧ AllTexts Valid body ∧ ∀ cur, asBytes body cur = some l.body := by
    rcases hbody with rfl | ⟨rfl, hempty⟩
    · exact ⟨trivial, toValid_base64 l.body, fun _ => Base64.decode_encode l.body⟩
    · exact ⟨trivial, trivial, fun _ => by rw [hempty]; rfl⟩
  obtain ⟨hwfBody, htextBody, hreadBody⟩ := hbodyText
  obtain ⟨hwf, hvalid⟩ := valid_dict hms horder htext hwfBody htextBody
  rw [unmarshal_dumps hwf hvalid]
  show fillMembers false ExitLayer.fields ms .zero = some l
  -- the members fill different fields, so their order does not matter
  rw [fillMembers_perm hms]
  · rw [fillMembers_cons, fill_url, Option.bind_some, fillMembers_cons, fill_method,
      Option.bind_some, fillMembers_cons, fill_headers, Option.bind_some, fill_body hreadBody]
    -- the headers are inserted in the dict's order, which a map does not remember
    have hheaders : order.foldl (fun m e => m.insert e.1 e.2) SortedMap.empty = l.headers := by
      have hkeys : (order.map Prod.fst).Nodup :=
        (horder.map Prod.fst).nodup_iff.mpr l.headers.nodup_keys
      rw [SortedMap.foldl_insert_perm Prod.fst Prod.snd horder hkeys]
      exact SortedMap.ofList_entries l.headers
    show some (⟨l.url, l.method, order.foldl (fun m e => m.insert e.1 e.2) SortedMap.empty,
      l.body⟩ : ExitLayer) = some l
    rw [hheaders]
  · intro x hx y hy a
    have hx := hms.mem_iff.mp hx
    have hy := hms.mem_iff.mp hy
    simp only [List.mem_cons, List.not_mem_nil, or_false] at hx hy
    rcases hx with rfl | rfl | rfl | rfl <;> rcases hy with rfl | rfl | rfl | rfl <;>
      simp only [fill_url, fill_method, fill_headers, fill_body hreadBody, Option.bind_some]

/-! ## Building -/

/-- Whatever nonces are drawn, the program returns with `T`. -/
abbrev AllNonces {T : Type} (p : Go T) (Q : T → Prop) : Prop :=
  p.All (fun _ => True) (fun _ => True) Q

theorem allNonces_encrypt (hX : X.LawfulAEAD) {key : Bytes} (hkey : key.length = 32)
    (plaintext : Bytes) : AllNonces (encrypt X key plaintext) fun r =>
      ∃ ct, r = .ok ct ∧ decrypt X key ct = .ok plaintext := by
  have hcipher : newCipher key = .ok () := newCipher_of_length hkey
  unfold encrypt
  rw [hcipher]
  exact ⟨trivial, fun nonce => ⟨_, rfl, decrypt_sealed hX hcipher nonce.2 plaintext⟩⟩

theorem allNonces_aesEncrypt (hX : X.LawfulAEAD) {key : Bytes} (hkey : key.length = 32)
    (plaintext : Bytes) : AllNonces (aesEncrypt P X (some key) plaintext) fun r =>
      ∃ ct, r = .ok ct ∧ decrypt X key ct = .ok plaintext := by
  have hcipher : newCipher key = .ok () := newCipher_of_length hkey
  have haes : aesgcm P (some key) = .ok key := if_pos (.inr (.inr hkey))
  refine ⟨trivial, fun nonce => ?_⟩
  simp only [haes]
  exact ⟨_, rfl, decrypt_sealed hX hcipher nonce.2 plaintext⟩

/-- What the hops peel off an onion of the Go client. -/
theorem allNonces_buildOnionWithHops (hX : X.LawfulAEAD) {keys : SessionKeys} {hops : Int}
    (hhops : hops = 1 ∨ hops = 3) (hkeys : KeyLengths keys hops) {l : ExitLayer} (hl : l.Text)
    {c : CircuitResponse} (hhosts : hops = 3 → Valid c.relay.host ∧ Valid c.exit.host) :
    AllNonces (buildOnionWithHops X keys l (circuitHopAddresses c hops).1
      (circuitHopAddresses c hops).2 hops) fun r =>
      ∃ payload, r = .ok payload ∧
        peelOnion X keys payload hops = peeled (nextHops c hops) l := by
  have hread : unmarshal ExitLayer.fields .zero l.json.encode = some l := by
    rw [unmarshal_exitLayer, hl.coerced]
  unfold buildOnionWithHops validateHops
  rw [if_pos hhops]
  rcases hhops with rfl | rfl
  · dsimp only
    rw [if_pos rfl]
    apply all_bind (allNonces_encrypt hX hkeys.guard _)
    rintro _ ⟨ct, rfl, hct⟩
    exact ⟨ct, rfl, peelOnion_one hct hread⟩
  · have haddrs : circuitHopAddresses c 3 = (c.relay.addr, c.exit.addr) := if_neg (by decide)
    obtain ⟨hrelay, hexit⟩ := hhosts rfl
    -- each layer is the ciphertext of its next hop and the layer inside
    have hlayer (key nextHop payload : Bytes) (name : String) (hkey : key.length = 32) :
        AllNonces (wrapLayer X key nextHop payload name) fun r =>
          ∃ ct, r = .ok ct ∧ decrypt X key ct = .ok (Layer.json ⟨nextHop, payload⟩).encode := by
      unfold wrapLayer
      apply all_bind (allNonces_encrypt hX hkey _)
      rintro _ ⟨ct, rfl, hct⟩
      exact ⟨ct, rfl, hct⟩
    have haddr {rec : NodeRecord} (h : Valid rec.host) (payload : Bytes) :
        unmarshal Layer.fields .zero (Layer.json ⟨rec.addr, payload⟩).encode =
          some ⟨rec.addr, payload⟩ := by
      rw [unmarshal_layer, show toValid rec.addr = rec.addr from valid_addr h]
    rw [haddrs]
    dsimp only
    rw [if_neg (by decide)]
    -- from the inside out, as the client builds it
    apply all_bind (allNonces_encrypt hX (hkeys.exit rfl) _)
    rintro _ ⟨exitCT, rfl, hexitCT⟩
    dsimp only
    rw [if_neg (by decide)]
    apply all_bind (hlayer _ _ _ _ (hkeys.relay rfl))
    rintro _ ⟨relayCT, rfl, hrelayCT⟩
    apply All.mono (hlayer _ _ _ _ hkeys.guard)
    rintro _ ⟨payload, rfl, hpayload⟩
    refine ⟨payload, rfl, ?_⟩
    exact peelOnion_three hpayload (haddr hrelay _) (addr_ne_nil _) hrelayCT (haddr hexit _)
      (addr_ne_nil _) hexitCT hread

/-- What the hops peel off an onion of the Python client. -/
theorem allNonces_buildOnion (hX : X.LawfulAEAD) {keys : SessionKeys} {hops : Int}
    (hhops : hops = 1 ∨ hops = 3) (hkeys : KeyLengths keys hops) {l : ExitLayer} (hl : l.Text)
    {dict : Json} (hdict : SameLayer dict l) {circuit : Json} {c : CircuitResponse}
    (hcircuit : hops = 3 → SameHops P circuit c) :
    AllNonces (buildOnion P X (ofSessionKeys keys hops) dict circuit hops) fun r =>
      ∃ payload, r = .ok payload ∧
        peelOnion X keys payload hops = peeled (nextHops c hops) l := by
  have hread := unmarshal_dict hdict hl
  unfold buildOnion
  rcases hhops with rfl | rfl
  · dsimp only
    rw [if_pos rfl]
    apply All.mono (allNonces_aesEncrypt hX hkeys.guard _)
    rintro _ ⟨ct, rfl, hct⟩
    exact ⟨ct, rfl, peelOnion_one hct hread⟩
  · obtain ⟨relayNode, -, hrelayNode⟩ := (hcircuit rfl).relay
    obtain ⟨exitNode, -, hexitNode⟩ := (hcircuit rfl).exit
    dsimp only
    rw [if_neg (by decide)]
    apply all_bind (allNonces_aesEncrypt hX (hkeys.exit rfl) _)
    rintro _ ⟨exitCT, rfl, hexitCT⟩
    dsimp only
    rw [hopAddresses_of_same (hcircuit rfl)]
    apply all_bind (allNonces_aesEncrypt hX (hkeys.relay rfl) _)
    rintro _ ⟨relayCT, rfl, hrelayCT⟩
    apply All.mono (allNonces_aesEncrypt hX hkeys.guard _)
    rintro _ ⟨payload, rfl, hpayload⟩
    refine ⟨payload, rfl, ?_⟩
    exact peelOnion_three hpayload (unmarshal_layerJson (valid_addr hrelayNode.text))
      (addr_ne_nil _) hrelayCT (unmarshal_layerJson (valid_addr hexitNode.text)) (addr_ne_nil _)
      hexitCT hread

/-! ## Reading the response -/

/-- What is sealed for Go opens for Python. -/
theorem aesDecrypt_of_decrypt {key ct plaintext : Bytes} (h : decrypt X key ct = .ok plaintext) :
    aesDecrypt P X (some key) ct = .ok plaintext := by
  unfold decrypt newCipher at h
  by_cases hkey : key.length = 16 ∨ key.length = 24 ∨ key.length = 32
  · rw [if_pos hkey] at h
    have haes : aesgcm P (some key) = .ok key := if_pos hkey
    unfold aesDecrypt
    dsimp only at h
    -- both sides refuse a ciphertext shorter than a nonce
    by_cases hshort : ct.length < nonceSize
    · rw [if_pos hshort] at h
      cases h
    · rw [if_neg hshort] at h ⊢
      rw [haes]
      dsimp only
      cases hopen : X.gcmOpen key (ct.take nonceSize) (ct.drop nonceSize) with
      | none =>
        rw [hopen] at h
        cases h
      | some text =>
        rw [hopen] at h
        exact h
  · rw [if_neg hkey] at h
    cases h

@[simp] theorem member_cons (k : Bytes) (v : Json) (ms : List (Bytes × Json)) (name : Bytes) :
    member ((k, v) :: ms) name = (member ms name).or (if k = name then some v else none) := by
  unfold member
  rw [List.reverse_cons, List.find?_append]
  cases ms.reverse.find? fun m => m.1 == name with
  | some m => rfl
  | none =>
    by_cases hk : k = name
    · simp [hk]
    · simp [hk]

@[simp] theorem member_nil (name : Bytes) : member [] name = none := rfl

/-- The object has the fields of the response: its status, its headers and
    its body in base64, where a missing member stands for an empty one. -/
def SameResponse (value : Json) (resp : ExitResponse) : Prop :=
  ∃ ms, value = obj ms ∧
    member ms (lit "statusCode") = some (ofInt resp.statusCode.toInt) ∧
    (∃ hs, (member ms (lit "headers")).getD (obj []) = obj hs ∧
      ∀ name, member hs name = (resp.headers.get? name).map str) ∧
    ∃ text, (member ms (lit "body")).getD (str []) = str text ∧ b64decode text = some resp.body

/-- Python finds the headers that Go finds, and with the same values. -/
theorem member_coerced (m : SortedMap Bytes Bytes) (name : Bytes) :
    member (m.entries.map fun e => (toValid e.1, str (toValid e.2))) name =
      ((coercedMap m).get? name).map str := by
  unfold coercedMap SortedMap.ofList
  rw [SortedMap.get?_foldl_insert, SortedMap.get?_empty, Option.or_none]
  unfold member
  rw [← List.map_reverse, ← List.map_reverse, List.find?_map, List.find?_map, Option.map_map,
    Option.map_map, Option.map_map]
  -- the two compare names by different but equal tests
  show Option.map (fun e : Bytes × Bytes => str (toValid e.2)) _ =
    Option.map (fun e : Bytes × Bytes => str (toValid e.2)) _
  congr 2
  funext e
  rw [Bool.eq_iff_iff]
  simp

/-- The optional members of a written response, as Python finds them. -/
theorem members_exitResponse (resp : ExitResponse) :
    ∃ ms, coerced resp.json = obj ((lit "statusCode", ofInt resp.statusCode.toInt) :: ms) ∧
      member ms (lit "statusCode") = none ∧
      member ms (lit "headers") = (if resp.headers.entries = [] then none else
        some (obj (resp.headers.entries.map fun e => (toValid e.1, str (toValid e.2))))) ∧
      member ms (lit "body") = if resp.body = [] then none else some (str (Base64.encode resp.body)) := by
  have hstatus : toValid (lit "statusCode") = lit "statusCode" := by decide
  have hheaders : toValid (lit "headers") = lit "headers" := by decide
  have hbody : toValid (lit "body") = lit "body" := by decide
  by_cases hh : resp.headers.entries = []
  · by_cases hb : resp.body = []
    · refine ⟨[], ?_, ?_⟩
      · simp [ExitResponse.json, omitEmpty, hh, hb, coerced, coercedMembers, hstatus, ofInt]
      · simp [hh, hb]
    · refine ⟨[(lit "body", str (Base64.encode resp.body))], ?_, ?_⟩
      · simp [ExitResponse.json, omitEmpty, hh, hb, coerced, coercedMembers, hstatus, hbody, ofInt,
          ofBytes]
      · simp [hh, hb, show lit "body" ≠ lit "statusCode" by decide,
          show lit "body" ≠ lit "headers" by decide]
  · by_cases hb : resp.body = []
    · refine ⟨[(lit "headers", obj (resp.headers.entries.map fun e =>
        (toValid e.1, str (toValid e.2))))], ?_, ?_⟩
      · simp [ExitResponse.json, omitEmpty, hh, hb, coerced, coercedMembers, hstatus, hheaders,
          ofInt, ofStringMap, coercedMembers_map]
      · simp [hh, hb, show lit "headers" ≠ lit "statusCode" by decide,
          show lit "headers" ≠ lit "body" by decide]
    · refine ⟨[(lit "headers", obj (resp.headers.entries.map fun e =>
        (toValid e.1, str (toValid e.2)))), (lit "body", str (Base64.encode resp.body))], ?_, ?_⟩
      · simp [ExitResponse.json, omitEmpty, hh, hb, coerced, coercedMembers, hstatus, hheaders,
          hbody, ofInt, ofBytes, ofStringMap, coercedMembers_map]
      · simp [hh, hb, show lit "headers" ≠ lit "statusCode" by decide,
          show lit "headers" ≠ lit "body" by decide, show lit "body" ≠ lit "statusCode" by decide,
          show lit "body" ≠ lit "headers" by decide]

/-- The object Python reads a written response as. -/
theorem sameResponse_json (resp : ExitResponse) :
    ∃ value, loads resp.json.encode = some value ∧ SameResponse value resp.coerced := by
  refine ⟨coerced resp.json, loads_encode (wf_exitResponse resp), ?_⟩
  obtain ⟨ms, hjson, hms, hmsHeaders, hmsBody⟩ := members_exitResponse resp
  refine ⟨_, hjson, ?_, ?_, ?_⟩
  · rw [member_cons, hms, if_pos rfl]
    rfl
  · rw [member_cons, if_neg (show lit "statusCode" ≠ lit "headers" by decide), Option.or_none,
      hmsHeaders]
    refine ⟨resp.headers.entries.map fun e => (toValid e.1, str (toValid e.2)), ?_, fun name => ?_⟩
    · by_cases hh : resp.headers.entries = []
      · rw [if_pos hh, hh]
        rfl
      · rw [if_neg hh]
        rfl
    · exact member_coerced resp.headers name
  · rw [member_cons, if_neg (show lit "statusCode" ≠ lit "body" by decide), Option.or_none, hmsBody]
    refine ⟨Base64.encode resp.body, ?_, b64decode_encode resp.body⟩
    by_cases hb : resp.body = []
    · rw [if_pos hb, hb]
      rfl
    · rw [if_neg hb]
      rfl

/-- `Q` holds of every payload that comes back to the client over honest
    hops: the exit encrypts the response, or the guard of a single-hop
    circuit does, and each hop before the exit adds a layer to the answer
    of the next. -/
def AllReturned (X : Externals) (keys : SessionKeys) (resp : ExitResponse) (hops : Int)
    (Q : Bytes → Prop) : Prop :=
  if hops = 1 then
    AllNonces (encryptExitResponse X keys.guardKey resp) fun r => ∃ payload, r = .ok payload ∧ Q payload
  else
    ∀ (guard relay : Handler) (relayAddr exitAddr : Bytes),
      AllNonces (encryptExitResponse X keys.exitKey resp) fun r => ∃ exitCT, r = .ok exitCT ∧
        AllNonces (relay.returnPath X keys.relayKey exitAddr (.ok (onionAnswer exitCT)))
          fun relayAnswer =>
            AllNonces (guard.returnPath X keys.guardKey relayAddr (.ok relayAnswer))
              fun guardAnswer => ∃ payload, guardAnswer = onionAnswer payload ∧ Q payload

theorem allNonces_encryptExitResponse (hX : X.LawfulAEAD) {key : Bytes} (hkey : key.length = 32)
    (resp : ExitResponse) : AllNonces (encryptExitResponse X key resp) fun r =>
      ∃ ct, r = .ok ct ∧ decrypt X key ct = .ok resp.json.encode := by
  unfold encryptExitResponse
  apply all_bind (allNonces_encrypt hX hkey _)
  rintro _ ⟨ct, rfl, hct⟩
  exact ⟨ct, rfl, hct⟩

/-- A hop adds a layer to the answer of the next. -/
theorem allNonces_returnPath (hX : X.LawfulAEAD) {key : Bytes} (hkey : key.length = 32)
    (h : Handler) (nextHop ct : Bytes) :
    AllNonces (h.returnPath X key nextHop (.ok (onionAnswer ct))) fun answer =>
      ∃ ct', answer = onionAnswer ct' ∧ decrypt X key ct' = .ok ct := by
  unfold Handler.returnPath
  dsimp only
  rw [if_neg (by simp [onionAnswer]), decode_onionAnswer]
  apply all_bind (allNonces_encrypt hX hkey ct)
  rintro _ ⟨ct', rfl, hct'⟩
  exact ⟨ct', rfl, hct'⟩

/-- The two clients read the same response. -/
def SameAnswer (P : Libs) (X : Externals) (keys : SessionKeys) (hops : Int) (payload : Bytes) :
    Prop :=
  ∃ resp value, decryptResponseWithHops X keys payload hops = .ok resp ∧
    decryptResponse P X (ofSessionKeys keys hops) (str (Base64.encode payload)) hops = .ok value ∧
    SameResponse value resp

theorem sameAnswer_one {keys : SessionKeys} {payload : Bytes} {resp : ExitResponse}
    (h : decrypt X keys.guardKey payload = .ok resp.json.encode) : SameAnswer P X keys 1 payload := by
  obtain ⟨value, hloads, hsame⟩ := sameResponse_json resp
  refine ⟨resp.coerced, value, decryptResponse_one h, ?_, hsame⟩
  · unfold decryptResponse decodePayload
    dsimp only
    rw [b64decode_encode]
    show (aesDecrypt P X (some keys.guardKey) payload >>= fun plain => loadPlain P plain) = _
    rw [aesDecrypt_of_decrypt h]
    show loadPlain P resp.json.encode = _
    unfold loadPlain
    rw [hloads]

theorem sameAnswer_three {keys : SessionKeys} {payload relayCT exitCT : Bytes}
    {resp : ExitResponse} (hguard : decrypt X keys.guardKey payload = .ok relayCT)
    (hrelay : decrypt X keys.relayKey relayCT = .ok exitCT)
    (hexit : decrypt X keys.exitKey exitCT = .ok resp.json.encode) :
    SameAnswer P X keys 3 payload := by
  obtain ⟨value, hloads, hsame⟩ := sameResponse_json resp
  refine ⟨resp.coerced, value, decryptResponse_three hguard hrelay hexit, ?_, hsame⟩
  · unfold decryptResponse decodePayload
    dsimp only
    rw [b64decode_encode]
    show (aesDecrypt P X (some keys.guardKey) payload >>= fun relayEncrypted =>
      aesDecrypt P X (some keys.relayKey) relayEncrypted >>= fun exitEncrypted =>
        aesDecrypt P X (some keys.exitKey) exitEncrypted >>= fun exitJSON =>
          loadPlain P exitJSON) = _
    rw [aesDecrypt_of_decrypt hguard]
    show (aesDecrypt P X (some keys.relayKey) relayCT >>= fun exitEncrypted =>
      aesDecrypt P X (some keys.exitKey) exitEncrypted >>= fun exitJSON => loadPlain P exitJSON) = _
    rw [aesDecrypt_of_decrypt hrelay]
    show (aesDecrypt P X (some keys.exitKey) exitCT >>= fun exitJSON => loadPlain P exitJSON) = _
    rw [aesDecrypt_of_decrypt hexit]
    show loadPlain P resp.json.encode = _
    unfold loadPlain
    rw [hloads]

theorem allReturned_sameAnswer (hX : X.LawfulAEAD) {keys : SessionKeys} {hops : Int}
    (hhops : hops = 1 ∨ hops = 3) (hkeys : KeyLengths keys hops) (resp : ExitResponse) :
    AllReturned X keys resp hops (SameAnswer P X keys hops) := by
  unfold AllReturned
  rcases hhops with rfl | rfl
  · rw [if_pos rfl]
    apply All.mono (allNonces_encryptExitResponse hX hkeys.guard resp)
    rintro _ ⟨payload, rfl, hpayload⟩
    exact ⟨payload, rfl, sameAnswer_one hpayload⟩
  · -- the exit seals the answer, relay and guard wrap it on its way back
    rw [if_neg (by decide)]
    intro guard relay relayAddr exitAddr
    apply All.mono (allNonces_encryptExitResponse hX (hkeys.exit rfl) resp)
    rintro _ ⟨exitCT, rfl, hexitCT⟩
    refine ⟨exitCT, rfl, ?_⟩
    apply All.mono (allNonces_returnPath hX (hkeys.relay rfl) relay exitAddr exitCT)
    rintro _ ⟨relayCT, rfl, hrelayCT⟩
    apply All.mono (allNonces_returnPath hX hkeys.guard guard relayAddr relayCT)
    rintro _ ⟨payload, rfl, hpayload⟩
    exact ⟨payload, rfl, sameAnswer_three hpayload hrelayCT hexitCT⟩

/-! ## One format -/

/-- Both clients, given the same keys, circuit and exit layer, build onions
    off which the hops peel the same next hops and the same exit layer,
    whatever nonces either draws: for a layer with a URL and a method the
    addresses of the circuit and that layer. And whatever comes back over
    honest hops, both read the same response in it. -/
theorem one_onion_format (hX : X.LawfulAEAD) {hops : Int} (hhops : hops = 1 ∨ hops = 3)
    {keys : SessionKeys} (hkeys : KeyLengths keys hops) :
    (∀ {l : ExitLayer} {dict : Json} {c : CircuitResponse} {circuit : Json}, l.Text →
      SameLayer dict l → (hops = 3 → SameHops P circuit c) →
      AllNonces (buildOnionWithHops X keys l (circuitHopAddresses c hops).1
        (circuitHopAddresses c hops).2 hops) fun r₁ =>
          AllNonces (buildOnion P X (ofSessionKeys keys hops) dict circuit hops) fun r₂ =>
            ∃ payload₁ payload₂, r₁ = .ok payload₁ ∧ r₂ = .ok payload₂ ∧
              peelOnion X keys payload₂ hops = peelOnion X keys payload₁ hops ∧
              (l.url ≠ [] → l.method ≠ [] →
                peelOnion X keys payload₂ hops = .ok (nextHops c hops, l))) ∧
    ∀ resp : ExitResponse, AllReturned X keys resp hops (SameAnswer P X keys hops) := by
  refine ⟨?_, fun resp => allReturned_sameAnswer hX hhops hkeys resp⟩
  intro l dict c circuit htext hdict hcircuit
  have hhosts (h : hops = 3) : Valid c.relay.host ∧ Valid c.exit.host := by
    obtain ⟨relay, -, hrelay⟩ := (hcircuit h).relay
    obtain ⟨exit, -, hexit⟩ := (hcircuit h).exit
    exact ⟨hrelay.text, hexit.text⟩
  apply All.mono (allNonces_buildOnionWithHops hX hhops hkeys htext hhosts)
  rintro _ ⟨payload₁, rfl, hpeel₁⟩
  apply All.mono (allNonces_buildOnion hX hhops hkeys htext hdict hcircuit)
  rintro _ ⟨payload₂, rfl, hpeel₂⟩
  refine ⟨payload₁, payload₂, rfl, rfl, hpeel₂.trans hpeel₁.symm, ?_⟩
  intro hurl hmethod
  rw [hpeel₂]
  exact if_neg (by simp [hurl, hmethod])

namespace Sample

open HopVault.Sample

/-- The circuit as Python reads it. -/
def circuitDict : Json :=
  .obj [(lit "guard", nodeJson (record .guard)), (lit "relay", nodeJson (record .relay)),
    (lit "exit", nodeJson (record .exit))]

theorem sameHops : SameHops libs circuitDict circuit := by
  have hnode (n : Node) : SameNode libs (nodeJson (record n)) (record n) := by
    constructor
    · cases n <;> rfl
    · cases n <;> rfl
    · cases n <;> (show toValid _ = _; decide +kernel)
  exact ⟨⟨nodeJson (record .relay), rfl, hnode .relay⟩, ⟨nodeJson (record .exit), rfl, hnode .exit⟩⟩

/-- Session keys of the right lengths. -/
def keys : SessionKeys := ⟨List.replicate 32 1, List.replicate 32 2, List.replicate 32 3⟩

theorem keyLengths : KeyLengths keys 3 := ⟨rfl, fun _ => rfl, fun _ => rfl⟩

theorem sameLayer : SameLayer dict layer :=
  ⟨_, [], .null, rfl, .refl _, .refl _, .inr ⟨rfl, rfl⟩⟩

/-- The request with headers and a body, as Python writes it. -/
def postDict : Json :=
  .obj [(lit "method", .str postLayer.method), (lit "url", .str postLayer.url),
    (lit "headers", .obj [(lit "accept", .str (lit "text/plain")), (lit "X-Token", .str (lit "7"))]),
    (lit "body", .str (Base64.encode postLayer.body))]

theorem samePostLayer : SameLayer postDict postLayer := by
  refine ⟨_, [(lit "accept", lit "text/plain"), (lit "X-Token", lit "7")],
    .str (Base64.encode postLayer.body), rfl, .swap _ _ _, ?_, .inl rfl⟩
  have hentries : postLayer.headers.entries =
      [(lit "X-Token", lit "7"), (lit "accept", lit "text/plain")] := by
    decide +kernel
  rw [hentries]
  exact .swap _ _ _

/-- A response with a header and a body that is no text. -/
def cookieResponse : ExitResponse :=
  ⟨404, SortedMap.empty.insert (lit "Set-Cookie") (lit "a=1"), [0xff, 0x00]⟩

end Sample

/-- A request with headers and a body over three hops, and a response with
    both. -/
theorem one_onion_format_sample :
    (AllNonces (buildOnionWithHops HopVault.Sample.externals Sample.keys HopVault.Sample.postLayer
      (circuitHopAddresses HopVault.Sample.circuit 3).1 (circuitHopAddresses HopVault.Sample.circuit 3).2
      3) fun r₁ =>
        AllNonces (buildOnion Sample.libs HopVault.Sample.externals (ofSessionKeys Sample.keys 3)
          Sample.postDict Sample.circuitDict 3) fun r₂ =>
            ∃ payload₁ payload₂, r₁ = .ok payload₁ ∧ r₂ = .ok payload₂ ∧
              peelOnion HopVault.Sample.externals Sample.keys payload₂ 3 =
                peelOnion HopVault.Sample.externals Sample.keys payload₁ 3 ∧
              peelOnion HopVault.Sample.externals Sample.keys payload₂ 3 =
                .ok ([lit "r:1", lit "e:1"], HopVault.Sample.postLayer)) ∧
    AllReturned HopVault.Sample.externals Sample.keys Sample.cookieResponse 3
      (SameAnswer Sample.libs HopVault.Sample.externals Sample.keys 3) := by
  obtain ⟨hforward, hback⟩ := one_onion_format (P := Sample.libs) HopVault.Sample.lawfulAEAD
    (.inr rfl) Sample.keyLengths
  refine ⟨?_, hback Sample.cookieResponse⟩
  apply All.mono (hforward HopVault.Sample.postLayer_text Sample.samePostLayer
    fun _ => Sample.sameHops)
  intro r₁ h₁
  apply All.mono h₁
  rintro r₂ ⟨payload₁, payload₂, hr₁, hr₂, hsame, hlayer⟩
  refine ⟨payload₁, payload₂, hr₁, hr₂, hsame, ?_⟩
  rw [hlayer (by decide) (by decide)]
  rfl

end HopVault.Python
